/-
# What a retry pass tries again

The feeds that may be tried again stand in a line (`Store.Line`), and a retry pass selects a first
part of it. What comes of the pass is `Retry.Retried`: each selected feed is processed once, no
other is touched, and the report counts those that have been processed in the end.

Where the selected feeds are begun in their order (`Retry.Ordered`), as they are when one is
processed after another, they are processed in the order of the line (`Retry.retries_exact`).
-/
import NotificationRelay.Proofs.Flow.Batching
import NotificationRelay.Proofs.Flow.Entries
import NotificationRelay.Proofs.Flow.Lifecycle

namespace NotificationRelay

/-! ## The line -/

namespace Store

/-- The feeds that may be tried again under a cap of attempts, in the order of their selection: they
are stored and neither processed nor spam, they have attempts left and do not wait in the outbox;
fewer attempts come first, and of equally many the newer feed. -/
structure Line (s : Store) (cap : Nat) (line : List Feed) : Prop where
  mem_iff : ∀ f, f ∈ line ↔ f ∈ s.feeds ∧ f.processed = false ∧ f.isSpam = false ∧
    f.attempts < cap ∧ f.id ∉ s.outbox
  once : (line.map (·.id)).Nodup
  ordered : line.Pairwise fun f g => f.attempts < g.attempts ∨ f.attempts = g.attempts ∧ g.id < f.id

variable {s s' : Store} {cap : Nat} {f : Feed} {i : FeedId} {ids : List FeedId}

/-- A feed is to be tried again if it is neither processed nor spam, has tries left and does not
wait in the outbox. -/
theorem isRetryable_iff : s.isRetryable cap f = true ↔
    f.processed = false ∧ f.isSpam = false ∧ f.attempts < cap ∧ f.id ∉ s.outbox := by
  simp [isRetryable, and_assoc]

/-- **A selection is a first part of the line.** -/
theorem Coherent.exists_line (coherent : s.Coherent) (cap : Nat) :
    ∃ line, s.Line cap line ∧ ∀ limit, s.candidates cap limit = line.take limit := by
  have apart : ((s.retryable cap).map (·.id)).Nodup :=
    coherent.nodup_ids.sublist (List.filter_sublist.map _)
  have once : (((s.retryable cap).mergeSort retriesBefore).map (·.id)).Nodup :=
    ((List.mergeSort_perm _ retriesBefore).map (·.id)).nodup_iff.2 apart
  refine ⟨_, ⟨fun f => ?_, once, ?_⟩, fun limit => rfl⟩
  · rw [List.mem_mergeSort, retryable, List.mem_filter, isRetryable_iff]
  · refine ((pairwise_retries s cap).and (List.pairwise_map.1 once)).imp fun {f g} both => ?_
    obtain ⟨before, other⟩ := both
    simp only [retriesBefore, Bool.or_eq_true, Bool.and_eq_true, decide_eq_true_eq] at before
    lia

/-- A feed is stored and has been processed. -/
def isProcessed (s : Store) (i : FeedId) : Bool := (s.feed? i).any (·.processed)

/-- Two stores that differ in the records of certain feeds, though not in their identifiers, and in
watermarks, if in anything. -/
structure Spared (ids : List FeedId) (s s' : Store) : Prop where
  known : s'.ids = s.ids
  others : ∀ i, i ∉ ids → s'.feed? i = s.feed? i
  rest : s' = { s with feeds := s'.feeds, watermarks := s'.watermarks }

theorem Spared.refl (ids : List FeedId) (s : Store) : s.Spared ids s := ⟨rfl, fun _ _ => rfl, rfl⟩

theorem Spared.trans {s'' : Store} (first : s.Spared ids s') (second : s'.Spared ids s'') :
    s.Spared ids s'' where
  known := second.known.trans first.known
  others i hi := (second.others i hi).trans (first.others i hi)
  rest := by rw [second.rest, first.rest]

/-- Whoever keeps everything but one feed spares whatever is not about it. -/
theorem KeptBut.spared (kept : s.KeptBut i s') (hi : i ∈ ids) : s.Spared ids s' where
  known := kept.ids
  others j hj := kept.others j fun same => hj (same ▸ hi)
  rest := kept.rest

end Store

/-! ## The feeds of a selection -/

namespace Processing

variable {t : Broadcast.Topic} {f : Feed} {limit : Nat} {feeds : List Feed} {h h' : Hub}
  {us : List Turn} {i : FeedId} {results : List (Except FeedError Report)}
  {w : Program (List (Except FeedError Report))}

/-- Processing feeds begins by noting them. -/
theorem opens_feeds (t : Broadcast.Topic) (feeds : List Feed) :
    List.Forall₂ (Program.Opens Call.noted?) (feeds.map (·.id)) (feeds.map (process t)) := by
  rw [List.forall₂_map_left_iff, List.forall₂_map_right_iff]
  exact List.forall₂_same.2 fun f _ => opens_process t f

/-- Only calls are made that tend one of the feeds. -/
theorem only_tends_weave (hw : Program.Weave limit (feeds.map (process t)) w) :
    w.Only fun c => ∃ i ∈ feeds.map (·.id), c.tends i = true := hw.only fun p hp => by
  obtain ⟨f, hf, rfl⟩ := List.mem_map.1 hp
  exact (only_tends t f).mono fun c tends => ⟨f.id, List.mem_map_of_mem hf, tends⟩

/-- Nothing but the feeds is touched. -/
theorem spared_of_weave (hw : Program.Weave limit (feeds.map (process t)) w)
    (run : w.Runs h us results h') : h.store.Spared (feeds.map (·.id)) h'.store := by
  refine (run.keeps (fun g => h.store.Spared (feeds.map (·.id)) g.store) (only_tends_weave hw)
    (fun _ _ o spared => o.store_eq ▸ spared) (fun c outages g tends spared => ?_) (.refl _ _)).1
  obtain ⟨i, hi, tends⟩ := tends
  exact spared.trans ((Call.keptBut_perform tends outages g).store.spared hi)

/-- No other feed is announced. -/
theorem silent_of_weave (hw : Program.Weave limit (feeds.map (process t)) w)
    (run : w.Runs h us results h') (out : i ∉ feeds.map (·.id)) :
    ∀ u ∈ us, u.call.announces i = false := by
  intro u hu
  obtain ⟨p, hp, vs, a, goes, -, mine⟩ := hw.exists_owner run.goes hu
  obtain ⟨f, hf, rfl⟩ := List.mem_map.1 hp
  have other : f.id ≠ i := fun same => out (same ▸ List.mem_map_of_mem hf)
  exact ((phased_process t f).spares goes other u mine).2

/-- **A feed has been processed in the end unless its result is a failure**, if it was stored and
had not been processed. -/
theorem exists_result (hw : Program.Weave limit (feeds.map (process t)) w)
    (run : w.Runs h us results h') (apart : (feeds.map (·.id)).Nodup) {k : Nat}
    (hk : feeds[k]? = some f) (stored : h.store.feed? f.id = some f) (todo : f.processed = false) :
    ∃ result, results[k]? = some result ∧ failed result = !h'.store.isProcessed f.id := by
  have own : (process t f).Leads (Standing.record f.id) (fun _ => True)
      (fun result x _ => failed result = !(x.feed.any (·.processed)))
      (h.store.standing f.id) 0 := by
    refine Standing.leads_resolved stored rfl ?_ fun _ => rfl
    rintro e g (rfl | rfl)
    · simp [failed, todo]
    · simp [failed, Feed.bumped, todo]
  have others : ∀ (j : Nat) q, j ≠ k → (feeds.map (process t))[j]? = some q →
      q.Only (Standing.record f.id).Spares :=
    Program.only_of_ne_key (·.id) apart hk fun g _ hg => (only_process t g).mono fun _ hc =>
      Standing.spares rfl (Standing.unmoved_processing hg hc)
  have leads := hw.leads (k := k) (by rw [List.getElem?_map, hk]; rfl) others own
  exact leads.of_runs run fun _ _ => trivial

/-- The feeds whose processing has failed are those that are not marked as processed afterwards. -/
theorem failed_of_weave (hw : Program.Weave limit (feeds.map (process t)) w)
    (run : w.Runs h us results h') (apart : (feeds.map (·.id)).Nodup)
    (stored : ∀ f ∈ feeds, h.store.feed? f.id = some f)
    (todo : ∀ f ∈ feeds, f.processed = false) :
    results.map failed = feeds.map fun f => !h'.store.isProcessed f.id := by
  obtain ⟨-, -, -, length, -⟩ := hw.exists_shares run.goes
  rw [List.length_map] at length
  refine List.ext_getElem? fun k => ?_
  rw [List.getElem?_map, List.getElem?_map]
  by_cases inside : k < feeds.length
  · have hk := List.getElem?_eq_getElem inside
    have hf := List.getElem_mem inside
    obtain ⟨result, hresult, same⟩ := exists_result hw run apart hk (stored _ hf) (todo _ hf)
    rw [hresult, hk]
    exact congrArg some same
  · rw [List.getElem?_eq_none (by omega), List.getElem?_eq_none (by omega)]
    rfl

end Processing

/-! ## The pass -/

namespace Retry

/-- The call by which a pass selects. -/
def selecting (s : Settings) : Call :=
  .candidates s.pipeline.maxAttempts s.pipeline.retryBatchSize

/-- What comes of a retry pass over a store, by its calls. -/
structure Retried (s : Settings) (store : Store) (ts : List Turn) (result : Stored Report)
    (store' : Store) : Prop where
  /-- A pass that could not select fails and does nothing. -/
  blind : Turn.lost (selecting s) ts →
    (∃ e, result = .error e) ∧ Turn.noted ts = [] ∧ store' = store
  /-- Any other processes each of the selected feeds once. -/
  tries : ¬ Turn.lost (selecting s) ts → (Turn.noted ts).Perm ((selection s store).map (·.id))
  /-- It reports how many were selected, and how many of these have been processed in the end. -/
  reports : ¬ Turn.lost (selecting s) ts → ∃ r : Report, result = .ok r ∧
    r.selected = (selection s store).length ∧ r.selected = r.completed + r.failed ∧
    r.completed = (selection s store).countP fun f => store'.isProcessed f.id
  /-- Neither another feed nor the outbox is touched. -/
  spared : store.Spared ((selection s store).map (·.id)) store'
  silent : ∀ i, i ∉ (selection s store).map (·.id) → ∀ u ∈ ts, u.call.announces i = false

/-- A retry pass that begins to process the selected feeds in their order. -/
def Ordered (s : Settings) (p : Program (Stored Report)) : Prop :=
  ∃ handle, (∀ feeds, Program.InOrder s.pipeline.concurrency 0
      (feeds.map (Processing.process s.topic)) (handle feeds)) ∧
    p = passBy handle s.pipeline.maxAttempts s.pipeline.retryBatchSize

variable {s : Settings} {h h' : Hub} {ts : List Turn} {p : Program (Stored Report)}
  {result : Stored Report}

/-- A retry pass in order is a retry pass. -/
theorem Ordered.performedBy (ordered : Ordered s p) : Act.PerformedBy s .retry p := by
  obtain ⟨handle, inOrder, rfl⟩ := ordered
  exact .retry fun feeds => (inOrder feeds).weave (Nat.zero_le _)

/-- A retry pass without a script is in order. -/
theorem ordered_pass (hc : 1 ≤ s.pipeline.concurrency) :
    Ordered s (pass s.topic s.pipeline.maxAttempts s.pipeline.retryBatchSize) :=
  ⟨_, fun feeds => Program.inOrder_forEach hc feeds _, rfl⟩

/-- A pass that cannot select does nothing. -/
theorem retried_of_blind {store : Store} {u : Turn} {e : StoreError} (call : u.call = selecting s)
    (lost : u.failed) : Retried s store [u] (.error e) store := by
  have loses : Turn.lost (selecting s) [u] := Turn.lost_singleton.2 ⟨call, lost⟩
  have nothing : u.call.noted? = none ∧ ∀ i, u.call.announces i = false := by
    rw [call]
    exact ⟨rfl, fun _ => rfl⟩
  exact ⟨fun _ => ⟨⟨e, rfl⟩, List.filterMap_cons_none nothing.1, rfl⟩, absurd loses, absurd loses,
    .refl _ _, fun i _ => List.forall_mem_singleton.2 (nothing.2 i)⟩

/-- A pass that can select processes what it has selected. -/
theorem retried_of_handled {u : Turn} {us : List Turn} {limit : Nat}
    {results : List (Except FeedError Processing.Report)}
    {w : Program (List (Except FeedError Processing.Report))} (coherent : h.store.Coherent)
    (call : u.call = selecting s) (reached : ¬ u.failed)
    (hw : Program.Weave limit ((selection s h.store).map (Processing.process s.topic)) w)
    (run : w.Runs h us results h') :
    Retried s h.store (u :: us) (.ok ⟨(selection s h.store).length,
      (selection s h.store).length - results.countP Processing.failed,
      results.countP Processing.failed⟩) h'.store := by
  have asked : ¬ Turn.lost (selecting s) (u :: us) := fun lost => by
    rcases Turn.lost_cons.1 lost with ⟨-, failed⟩ | ⟨v, hv, made, -⟩
    · exact reached failed
    · obtain ⟨i, -, tends⟩ := (run.goes.only (Processing.only_tends_weave hw)).1 v hv
      rw [made] at tends
      cases tends
  have unnoted : u.call.noted? = none := by rw [call]; rfl
  have notes : Turn.noted (u :: us) = Turn.noted us := List.filterMap_cons_none unnoted
  have same := Processing.failed_of_weave hw run (coherent.nodup_candidates _ _)
    (fun f hf => coherent.feed?_eq_some_iff.2 ⟨(Store.mem_candidates hf).1, rfl⟩)
    (fun f hf => (Store.isRetryable_iff.1 (Store.mem_candidates hf).2).1)
  -- what fails is what has not been processed in the end
  have failures : results.countP Processing.failed =
      (selection s h.store).countP fun f => !h'.store.isProcessed f.id := by
    have counts := congrArg (List.countP id) same
    rwa [List.countP_map, List.countP_map] at counts
  have whole : (selection s h.store).length =
      (selection s h.store).countP (fun f => h'.store.isProcessed f.id) +
        (selection s h.store).countP fun f => !h'.store.isProcessed f.id := by
    simpa using List.length_eq_countP_add_countP (fun f : Feed => h'.store.isProcessed f.id)
  have completes : (selection s h.store).length - results.countP Processing.failed =
      (selection s h.store).countP fun f => h'.store.isProcessed f.id := by omega
  have fits : results.countP Processing.failed ≤ (selection s h.store).length := by omega
  refine ⟨fun lost => absurd lost asked, fun _ => ?_,
    fun _ => ⟨_, rfl, rfl, (Nat.sub_add_cancel fits).symm, completes⟩,
    Processing.spared_of_weave hw run, fun i hi => List.forall_mem_cons.2 ⟨?_, ?_⟩⟩
  · rw [notes]
    exact hw.opening (Processing.opens_feeds s.topic _) run.goes
  · rw [call]
    rfl
  · exact Processing.silent_of_weave hw run hi

/-- **What a retry pass does.** -/
theorem retried_of_runs (coherent : h.store.Coherent) (performs : Act.PerformedBy s .retry p)
    (run : p.Runs h ts result h') : Retried s h.store ts result h'.store := by
  cases performs with
  | retry sideBySide =>
    cases passedBy_of_runs run with
    | blind call lost still =>
      rw [still]
      exact retried_of_blind call lost
    | seen call reached same after handled =>
      rw [← same] at coherent handled
      rw [after, ← same]
      exact retried_of_handled coherent call reached (sideBySide _) handled

/-- **Feeds that are begun in order are processed in order.** -/
theorem noted_of_ordered (ordered : Ordered s p) (run : p.Runs h ts result h')
    (reached : ¬ Turn.lost (selecting s) ts) :
    Turn.noted ts = (selection s h.store).map (·.id) := by
  obtain ⟨handle, inOrder, rfl⟩ := ordered
  cases passedBy_of_runs run with
  | blind call lost _ => exact absurd (Turn.lost_singleton.2 ⟨call, lost⟩) reached
  | @seen u us results h₁ h₂ _ call _ _ _ handled =>
    have unnoted : u.call.noted? = none := by rw [call]; rfl
    refine (List.filterMap_cons_none (f := fun u : Turn => u.call.noted?) unnoted).trans ?_
    exact (inOrder _).opening (fun _ hp => nomatch hp) (Processing.opens_feeds s.topic _)
      handled.goes

/-- **The account of a retry pass.** In every store that can come about the feeds that may be tried
again stand in a line, and a selection is a first part of it, as long as there is room for. However
the selected feeds take turns, whatever calls fail and whatever readers do meanwhile, each is
processed once, no other feed and no entry of the outbox is touched, and the report tells how many
were selected and how many of them have been processed in the end; the others have failed. If the
feeds are begun in their order they are processed in the order of the line, and so the pass begins
them that processes one after another. -/
theorem retries_exact (reachable : h.store.Reachable) :
    (∀ cap, ∃ line, h.store.Line cap line ∧ ∀ limit,
      h.store.candidates cap limit = line.take limit ∧
        (h.store.candidates cap limit).length = min limit line.length) ∧
    (∀ (p : Program (Stored Report)) ts result h', Act.PerformedBy s .retry p →
      p.Runs h ts result h' → Retried s h.store ts result h'.store) ∧
    (∀ (p : Program (Stored Report)) ts result h', Ordered s p → p.Runs h ts result h' →
      Act.PerformedBy s .retry p ∧ (¬ Turn.lost (selecting s) ts →
        Turn.noted ts = (selection s h.store).map (·.id))) ∧
    (1 ≤ s.pipeline.concurrency →
      Ordered s (pass s.topic s.pipeline.maxAttempts s.pipeline.retryBatchSize)) := by
  have coherent := reachable.coherent
  refine ⟨fun cap => ?_, fun p ts result h' performs run => retried_of_runs coherent performs run,
    fun p ts result h' ordered run => ⟨ordered.performedBy, noted_of_ordered ordered run⟩,
    ordered_pass⟩
  obtain ⟨line, stands, first⟩ := coherent.exists_line cap
  exact ⟨line, stands, fun limit => ⟨first limit, by rw [first, List.length_take]⟩⟩

end Retry

/-- Three feeds that could not be marked as processed when they were taken out of the outbox. -/
def Hub.threeLeftOver : Hub :=
  ((Outbox.drain Settings.sample.topic 3).run .ofCompletion .threeWaiting).2

/-- One feed cannot be marked as processed. -/
def Outages.ofMark (i : FeedId) : Outages
  | .complete j _ => if j = i then some "unreachable" else Option.none
  | _ => Option.none

/-- The hub with three feeds left over has come about. -/
theorem Hub.reachable_threeLeftOver : Hub.threeLeftOver.store.Reachable :=
  (Program.runs_run .ofCompletion (Outbox.drain Settings.sample.topic 3)
    .threeWaiting).chain.reachable reachable_threeWaiting

/-- Of three feeds that are left over the newest is tried first. -/
theorem Retry.candidates_threeLeftOver :
    Hub.threeLeftOver.store.candidates 3 50 = Hub.threeLeftOver.store.feeds.reverse :=
  Hub.reachable_threeLeftOver.coherent.candidates_eq_reverse (by decide +kernel)
    (by decide +kernel) (by decide +kernel)

/-- The newest of three feeds is tried first, and the second fails again. -/
theorem Retry.retries_exact_of_threeLeftOver :
    ∃ ts r h', (pass Settings.oneByOne.topic 3 50).Runs .threeLeftOver ts (.ok r) h' ∧
      Turn.noted ts = [3, 2, 1] ∧ r.selected = 3 ∧ r.completed = 2 ∧ r.failed = 1 := by
  let again := Program.forEach Hub.threeLeftOver.store.feeds.reverse
    (Processing.process Settings.oneByOne.topic)
  have run : (pass Settings.oneByOne.topic 3 50).Runs .threeLeftOver _ _
      (again.run (.ofMark 2) .threeLeftOver).2 :=
    runs_passBy candidates_threeLeftOver (again.runs_run (.ofMark 2) .threeLeftOver)
  have reached : ¬ Turn.lost (selecting .oneByOne)
      ((Call.candidates 3 50).turn .none .threeLeftOver ::
        again.turns (.ofMark 2) .threeLeftOver) := by
    rintro ⟨u, hu, made, failed⟩
    rcases List.mem_cons.1 hu with rfl | hu
    · obtain ⟨reason, outage⟩ := Call.outage_of_failed _ _ _ failed
      cases outage
    · obtain ⟨reason, outage⟩ := Program.outage_of_mem_turns hu failed
      rw [made] at outage
      cases outage
  have selected : selection .oneByOne Hub.threeLeftOver.store =
      Hub.threeLeftOver.store.feeds.reverse := candidates_threeLeftOver
  obtain ⟨-, every, inOrder, begins⟩ := retries_exact (s := .oneByOne) Hub.reachable_threeLeftOver
  obtain ⟨performs, notes⟩ := inOrder _ _ _ _ (begins (Nat.le_refl 1)) run
  obtain ⟨r, answer, size, parts, completed⟩ := (every _ _ _ _ performs run).reports reached
  rw [answer] at run
  rw [selected] at size completed
  replace size : r.selected = 3 := size.trans (by decide +kernel)
  replace completed : r.completed = 2 := completed.trans (by decide +kernel)
  refine ⟨_, r, _, run, ?_, size, completed, by omega⟩
  rw [notes reached, selected]
  decide +kernel

end NotificationRelay
