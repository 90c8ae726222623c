/-
# Delivery when nothing fails

If no call to the store fails, the passes over the outbox handle one entry after another and epochs
do not go down, then every feed is processed by the pass over the outbox that finds it, and by
nothing else. Which feeds have been processed so far is carried along as a list of their
identifiers and drafts. That list is what the turns say of them (`Telling`). And it is what the
store says (`Abreast`): what is stored and not on the list waits in the outbox just as it was
created, behind everything on the list, and the watermark is not above it.

Calls that deliver nothing keep both (`Delivery.quiet`). An entry of the outbox puts its feed at
the end of the list (`Delivery.relay`), and a pass its whole batch (`Delivery.drain`). A retry
pass finds nothing to do (`Delivery.retry`). What this comes to over a course is
`Course.delivered_once`.
-/
import NotificationRelay.Proofs.Flow.Filing
import NotificationRelay.Proofs.Flow.Overtaking
import NotificationRelay.Proofs.Flow.Passes
import NotificationRelay.Proofs.Flow.Telling

namespace NotificationRelay

/-! ## What the store says of them -/

/-- What is stored has been processed if it is on a list, and otherwise it waits in the outbox as it
was created, behind everything on the list; and the watermark stands at the epoch of a feed of the
list. -/
structure Abreast (created done : List (FeedId × Draft)) (s : Store) : Prop where
  coherent : s.Coherent
  numbered : (created.map (·.1)).Pairwise (· < ·)
  issued : ∀ e ∈ created, e.1 ≤ s.lastId
  known : ∀ e ∈ done, e ∈ created
  ascending : (done.map (·.1)).Pairwise (· < ·)
  ahead : ∀ e ∈ done, ∀ i ∈ s.outbox, e.1 < i
  finished : ∀ f ∈ s.feeds, f.processed = true → f.id ∈ done.map (·.1)
  waiting : ∀ f ∈ s.feeds, f.processed = false →
    f.id ∈ s.outbox ∧ ∃ d, (f.id, d) ∈ created ∧ f = .ofDraft f.id d
  marked : ∀ w, s.mark = some w → ∃ e ∈ done, e.2.epoch = w

namespace Abreast

variable {created done : List (FeedId × Draft)} {s : Store}

/-- Nothing has been created or done in an empty store. -/
theorem empty : Abreast [] [] Store.empty where
  coherent := Store.coherent_empty
  numbered := .nil
  issued _ he := by cases he
  known _ he := by cases he
  ascending := .nil
  ahead _ he := by cases he
  finished _ hf := by cases hf
  waiting _ hf := by cases hf
  marked _ hw := by cases hw

/-- What has been processed is on the list, and nothing else. -/
theorem processed_iff (ha : Abreast created done s) {f : Feed} (hf : f ∈ s.feeds) :
    f.processed = true ↔ f.id ∈ done.map (·.1) := by
  refine ⟨ha.finished f hf, fun listed => ?_⟩
  obtain ⟨e, he, hid⟩ := List.mem_map.1 listed
  by_contra todo
  obtain ⟨waits, -⟩ := ha.waiting f hf (Bool.eq_false_iff.2 todo)
  exact absurd (ha.ahead e he f.id waits) (by rw [hid]; exact Int.lt_irrefl _)

/-- **Nothing may be tried again.** -/
theorem candidates_eq_nil (ha : Abreast created done s) (cap limit : Nat) :
    s.candidates cap limit = [] := by
  refine List.eq_nil_iff_forall_not_mem.2 fun f hf => ?_
  obtain ⟨hf, retryable⟩ := Store.mem_candidates hf
  simp only [Store.isRetryable, Bool.and_eq_true, Bool.not_eq_true', List.contains_eq_mem,
    decide_eq_false_iff_not] at retryable
  exact retryable.2 (ha.waiting f hf retryable.1.1.1).1

/-- An entry of the outbox waits as it was created. -/
theorem exists_draft (ha : Abreast created done s) {i : FeedId} (hi : i ∈ s.outbox) :
    ∃ d, (i, d) ∈ created ∧ s.feed? i = some (.ofDraft i d) := by
  obtain ⟨f, hf⟩ := Store.mem_ids_iff.1 (ha.coherent.stored i hi)
  obtain rfl := Store.id_of_feed? hf
  have there := Store.mem_of_feed? hf
  have todo : f.processed = false := by
    by_contra processed
    obtain ⟨e, he, hid⟩ := List.mem_map.1 (ha.finished f there (by simpa using processed))
    exact absurd (ha.ahead e he f.id hi) (by rw [hid]; exact Int.lt_irrefl _)
  obtain ⟨-, d, hd, same⟩ := ha.waiting f there todo
  exact ⟨d, hd, by rw [hf, ← same]⟩

/-- Where epochs do not go down, the watermark admits what waits. -/
theorem admits (ha : Abreast created done s)
    (ordered : (created.map (·.2.epoch)).Pairwise (· ≤ ·)) {i : FeedId} {d : Draft}
    (hi : i ∈ s.outbox) (hd : (i, d) ∈ created) : s.Admits d.epoch := by
  intro w hw
  obtain ⟨e, he, rfl⟩ := ha.marked w hw
  have below := ha.ahead e he i hi
  obtain ⟨before, after, rfl⟩ := List.append_of_mem hd
  have numbered := ha.numbered
  rw [List.map_append, List.map_cons, List.pairwise_append, List.pairwise_cons] at numbered ordered
  rcases List.mem_append.1 (ha.known e he) with first | last
  · exact ordered.2.2 _ (List.mem_map_of_mem first) _ List.mem_cons_self
  · rcases List.mem_cons.1 last with rfl | last
    · exact absurd below (Int.lt_irrefl _)
    · have above := numbered.2.1.1 _ (List.mem_map_of_mem last)
      exact absurd below (Int.not_lt.2 (Int.le_of_lt above))

/-- A new feed is created, with the next identifier, and has still to be done. -/
theorem insert (ha : Abreast created done s) {d : Draft}
    (free : Table.get? d.payloadId s.payloadIds = none) :
    Abreast (created ++ [(s.lastId + 1, d)]) done (s.insert d).2 := by
  have outbox : (s.insert d).2.outbox = Ascending.insert (s.lastId + 1) s.outbox := by
    simp only [Store.insert, free]
  have feeds := Store.feeds_insert free
  have lastId := Store.lastId_insert free
  refine ⟨ha.coherent.insert d,
    Turn.ascending_snoc ha.numbered fun e he => Int.lt_add_one_of_le (ha.issued e he),
    fun e he => ?_, fun e he => List.mem_append_left _ (ha.known e he), ha.ascending,
    fun e he i hi => ?_, fun f hf processed => ?_, fun f hf todo => ?_, fun w hw => ?_⟩
  · rw [lastId]
    rcases List.mem_append.1 he with he | he
    · exact Int.le_add_one (ha.issued e he)
    · obtain rfl := List.mem_singleton.1 he
      exact Int.le_refl _
  · rw [outbox] at hi
    rcases Ascending.mem_insert.1 hi with rfl | hi
    · exact Int.lt_add_one_of_le (ha.issued e (ha.known e he))
    · exact ha.ahead e he i hi
  · rw [feeds, List.mem_append, List.mem_singleton] at hf
    rcases hf with hf | rfl
    · exact ha.finished f hf processed
    · cases processed
  · rw [outbox]
    rw [feeds, List.mem_append, List.mem_singleton] at hf
    rcases hf with hf | rfl
    · obtain ⟨waits, d', hd', same⟩ := ha.waiting f hf todo
      exact ⟨Ascending.mem_insert.2 (.inr waits), d', List.mem_append_left _ hd', same⟩
    · exact ⟨Ascending.mem_insert.2 (.inl rfl), d, by simp [Feed.ofDraft], rfl⟩
  · have same := Call.mark_effect (c := .insert d) (by rintro _ _ ⟨⟩) s
    exact ha.marked w (same ▸ hw)

/-- A feed that is deleted has been created all the same. -/
theorem deleteExpired (ha : Abreast created done s) (now : Int) :
    Abreast created done (s.deleteExpired now).2 where
  coherent := ha.coherent.deleteExpired now
  numbered := ha.numbered
  issued := ha.issued
  known := ha.known
  ascending := ha.ascending
  ahead e he i hi := ha.ahead e he i (Ascending.mem_diff.1 hi).1
  finished f hf := ha.finished f (List.mem_filter.1 hf).1
  waiting f hf todo := by
    obtain ⟨hf, kept⟩ := List.mem_filter.1 hf
    obtain ⟨waits, draft⟩ := ha.waiting f hf todo
    refine ⟨Ascending.mem_diff.2 ⟨waits, fun gone => ?_⟩, draft⟩
    rw [List.contains_iff_mem.2 gone] at kept
    cases kept
  marked := ha.marked

/-- A call that delivers nothing keeps the store abreast. -/
theorem perform {h : Hub} (ha : Abreast created done h.store) {c : Call}
    (quiet : c.delivers = false) (outages : Outages) :
    Abreast (created ++ (c.turn outages h).created?.toList) done (c.perform outages h).2.store := by
  by_cases hf : (c.turn outages h).failed
  · rw [c.perform_of_failed outages h hf, Call.created?_of_failed outages h hf, Option.toList_none,
      List.append_nil]
    exact ha
  · rw [c.store_perform_of_not_failed outages h hf]
    have silent : (c.turn outages h).created? = none → Abreast created done (c.effect h.store) →
        Abreast (created ++ (c.turn outages h).created?.toList) done (c.effect h.store) :=
      fun hc ha => by
        rw [hc, Option.toList_none, List.append_nil]
        exact ha
    cases c with
    | insert d =>
      rw [Call.created?_insert outages h hf]
      cases hd : Table.get? d.payloadId h.store.payloadIds with
      | some i =>
        have same : h.store.insert d = (⟨i, false⟩, h.store) := by simp only [Store.insert, hd]
        simpa [Call.effect, same] using ha
      | none =>
        have answer : (h.store.insert d).1 = ⟨h.store.lastId + 1, true⟩ := by
          simp only [Store.insert, hd]
        rw [answer]
        exact ha.insert hd
    | deleteExpired now => exact silent rfl (ha.deleteExpired now)
    | append r i b => exact silent rfl { ha with coherent := { ha.coherent with } }
    | unindex ids => exact silent rfl { ha with coherent := { ha.coherent with } }
    | note | complete | bump | advance | post | acknowledge => cases quiet
    | _ => exact silent rfl ha

/-- Handling the first entry puts its feed at the end of the list. -/
theorem relay (ha : Abreast created done s) {i : FeedId} {d : Draft} {rest : List FeedId}
    (outbox : s.outbox = i :: rest) (hd : (i, d) ∈ created) (admits : s.Admits d.epoch) :
    Abreast created (done ++ [(i, d)]) (s.handled (.ofDraft i d)) ∧
      (s.handled (.ofDraft i d)).outbox = rest := by
  obtain ⟨first, -⟩ := List.pairwise_cons.1 (outbox ▸ ha.coherent.queued)
  have left : (s.handled (.ofDraft i d)).outbox = rest := by
    have others : rest.filter (fun n => decide (n ≠ i)) = rest :=
      List.filter_eq_self.2 fun j hj => decide_eq_true (Int.ne_of_gt (first j hj))
    rw [s.outbox_handled, outbox]
    show (i :: rest).filter (fun n => decide (n ≠ i)) = rest
    rw [List.filter_cons_of_neg (by simp), others]
  -- a feed of the new store is the one that was handled, or it is as it was
  have feeds : ∀ g ∈ (s.handled (.ofDraft i d)).feeds,
      g.id = i ∧ g.processed = true ∨ g ∈ s.feeds ∧ g.id ≠ i := by
    intro g hg
    rw [s.feeds_handled] at hg
    obtain ⟨f, hf, rfl⟩ := List.mem_map.1 hg
    split
    · next same => exact .inl ⟨same, rfl⟩
    · next other => exact .inr ⟨hf, other⟩
  have ascending := Turn.ascending_snoc (e := (i, d)) ha.ascending fun e he =>
    ha.ahead e he i (outbox ▸ List.mem_cons_self)
  refine ⟨⟨ha.coherent.handled _, ha.numbered, ?_, fun e he => ?_, ascending, fun e he j hj => ?_,
    fun g hg processed => ?_, fun g hg todo => ?_, fun w hw => ?_⟩, left⟩
  · rw [s.lastId_handled]
    exact ha.issued
  · rcases List.mem_append.1 he with he | he
    · exact ha.known e he
    · rw [List.mem_singleton.1 he]
      exact hd
  · rw [left] at hj
    rcases List.mem_append.1 he with he | he
    · exact ha.ahead e he j (outbox ▸ List.mem_cons_of_mem i hj)
    · rw [List.mem_singleton.1 he]
      exact first j hj
  · rw [List.map_append, List.mem_append]
    rcases feeds g hg with ⟨rfl, -⟩ | ⟨hg, -⟩
    · exact .inr (List.mem_singleton_self _)
    · exact .inl (ha.finished g hg processed)
  · rcases feeds g hg with ⟨-, processed⟩ | ⟨hg, other⟩
    · rw [processed] at todo
      cases todo
    · obtain ⟨waits, draft⟩ := ha.waiting g hg todo
      rw [outbox] at waits
      rw [left]
      exact ⟨(List.mem_cons.1 waits).resolve_left other, draft⟩
  · rw [s.mark_handled _ admits] at hw
    exact ⟨(i, d), List.mem_append_right _ (List.mem_singleton_self _), Option.some.inj hw⟩

end Abreast

/-! ## Deeds -/

/-- What the turns and the store say of the feeds that have been processed. -/
structure Delivery (t : Broadcast.Topic) (ts : List Turn) (done : List (FeedId × Draft))
    (s : Store) : Prop where
  telling : Telling t ts done
  abreast : Abreast (Turn.created ts) done s

/-- A pass has marked as processed all that it has found among the oldest entries, in their order,
and acknowledged as many. -/
def Outbox.Relayed (batch : Nat) (us : List Turn) (result : Stored Nat) : Prop :=
  ∃ u vs, us = u :: vs ∧ Turn.completed us = u.before.store.pending batch ∧
    result = .ok (Turn.completed us).length

/-- The epochs of the feeds that turns created do not go down. -/
def Turn.Ordered (ts : List Turn) : Prop :=
  ((Turn.created ts).map (·.2.epoch)).Pairwise (· ≤ ·)

/-- Drafts that come in order come in order up to any point. -/
theorem Turn.Ordered.of_append {ts us : List Turn} (h : Ordered (ts ++ us)) : Ordered ts := by
  unfold Ordered at h
  rw [Turn.created_append, List.map_append, List.pairwise_append] at h
  exact h.1

/-- The order of drafts is not disturbed while none is created. -/
theorem Turn.Ordered.idle {ts us : List Turn} (h : Ordered ts) (none : created us = []) :
    Ordered (ts ++ us) := by
  unfold Ordered
  rw [Turn.created_append, none, List.append_nil]
  exact h

namespace Delivery

variable {s : Settings} {t : Broadcast.Topic} {ts us : List Turn} {done : List (FeedId × Draft)}
  {h h' : Hub}

/-- Nothing has been delivered in an empty store. -/
theorem empty : Delivery t [] [] Store.empty := ⟨.empty, .empty⟩

/-- Calls that neither deliver nor create anything say nothing of feeds. -/
theorem idle {store : Store} (hd : Delivery t ts done store)
    (quiet : ∀ u ∈ us, u.call.delivers = false) (none : Turn.created us = []) :
    Delivery t (ts ++ us) done store := by
  refine ⟨hd.telling.quiet quiet, ?_⟩
  rw [Turn.created_append, none, List.append_nil]
  exact hd.abreast

/-- **Calls that deliver nothing** leave the feeds processed that were. -/
theorem quiet {store store' : Store} (hd : Delivery t ts done store)
    (chain : Turn.Chain store us store') (quiet : ∀ u ∈ us, u.call.delivers = false) :
    Delivery t (ts ++ us) done store' := by
  refine ⟨hd.telling.quiet quiet, ?_⟩
  have ha := hd.abreast
  rw [Turn.created_append]
  generalize Turn.created ts = created at ha
  clear hd
  induction chain generalizing created with
  | nil =>
    rw [Turn.created, List.filterMap_nil, List.append_nil]
    exact ha
  | @cons u us store' genuine rest ih =>
    obtain ⟨outages, hu⟩ := genuine
    have after : u.after = (u.call.perform outages u.before).2 := congrArg Turn.after hu
    have made : u.created? = (u.call.turn outages u.before).created? := congrArg Turn.created? hu
    have first := ha.perform (quiet u List.mem_cons_self) outages
    rw [← made, ← after] at first
    rw [← List.singleton_append, Turn.created_append, Turn.created_singleton, ← List.append_assoc]
    exact ih (fun v hv => quiet v (List.mem_cons_of_mem _ hv)) _ first

/-- **An entry of the outbox puts its feed at the end of the list.** -/
theorem relay (hd : Delivery t ts done h.store) (on : t.enabled = true)
    (ordered : Turn.Ordered ts) {i : FeedId} {rest : List FeedId}
    (outbox : h.store.outbox = i :: rest) {b : Bool}
    (run : (Outbox.relayOne t i).Runs h us b h') (reached : ∀ u ∈ us, ¬ u.failed) :
    b = true ∧ Turn.completed us = [i] ∧ Turn.created us = [] ∧ h'.store.outbox = rest ∧
      ∃ e, Delivery t (ts ++ us) (done ++ [e]) h'.store := by
  have ha := hd.abreast
  have waits : i ∈ h.store.outbox := outbox ▸ List.mem_cons_self
  obtain ⟨d, created, there⟩ := ha.exists_draft waits
  have admits := ha.admits ordered waits created
  obtain ⟨acknowledged, made, completed, left⟩ :=
    Outbox.calls_of_relayOne (f := .ofDraft i d) there rfl run on reached admits
  obtain ⟨abreast, taken⟩ := ha.relay outbox created admits
  have registry := run.registry_of_sparesSeats (Outbox.sparesSeats_relayOne t i)
  have none : Turn.created us = [] :=
    run.created_eq_nil (Outbox.only_relayOne t i) fun _ made => nomatch made.movesFeeds
  have new : i ∉ done.map (·.1) := fun listed => by
    obtain ⟨e, he, rfl⟩ := List.mem_map.1 listed
    exact Int.lt_irrefl _ (ha.ahead e he _ waits)
  refine ⟨acknowledged, completed, none, left ▸ taken, (i, d),
    hd.telling.relay new made completed registry, ?_⟩
  rw [left, Turn.created_append, none, List.append_nil]
  exact abreast

/-- **So do several, one after another.** -/
theorem relay_all (hd : Delivery t ts done h.store) (on : t.enabled = true)
    (ordered : Turn.Ordered ts) {ids : List FeedId} (first : ids <+: h.store.outbox)
    {bs : List Bool} (run : (Program.forEach ids (Outbox.relayOne t)).Runs h us bs h')
    (reached : ∀ u ∈ us, ¬ u.failed) :
    bs = ids.map (fun _ => true) ∧ Turn.completed us = ids ∧
      ∃ done', Delivery t (ts ++ us) done' h'.store := by
  induction ids generalizing h h' ts done us bs with
  | nil =>
    obtain ⟨rfl, rfl, out⟩ := run.of_done
    rw [List.append_nil, Hub.store_eq_of_outside out]
    exact ⟨rfl, rfl, done, hd⟩
  | cons i ids ih =>
    obtain ⟨rest, outbox⟩ := first
    obtain ⟨us₁, us₂, b, h₁, rfl, one, more⟩ := Program.Runs.of_bind run
    obtain ⟨us₂, us₃, bs, h₂, rfl, others, last⟩ := more.of_bind
    obtain ⟨rfl, rfl, out⟩ := last.of_done
    obtain ⟨rfl, completed₁, none, left, e, relayed⟩ := hd.relay on ordered outbox.symm one
      fun u hu => reached u (List.mem_append_left _ hu)
    obtain ⟨rfl, completed₂, done', settled⟩ := ih relayed (ordered.idle none) ⟨rest, left.symm⟩
      others fun u hu => reached u (by simp [hu])
    rw [List.append_nil, Turn.completed_append, completed₁, completed₂, ← List.append_assoc,
      Hub.store_eq_of_outside out]
    exact ⟨rfl, rfl, done', settled⟩

/-- **So does a pass with its whole batch**, if it handles one entry after another. -/
theorem drain (hd : Delivery t ts done h.store) (on : t.enabled = true)
    (ordered : Turn.Ordered ts) (chain : Turn.Chain h.store us h'.store) {batch : Nat}
    {result : Stored Nat} {g g' : Hub} (run : (Outbox.drain t batch).Runs g us result g')
    (reached : ∀ u ∈ us, ¬ u.failed) :
    Outbox.Relayed batch us result ∧ ∃ done', Delivery t (ts ++ us) done' h'.store := by
  have own := run.chain
  obtain ⟨u, us, bs, h₁, h₂, rfl, asked, same, last, rfl, all⟩ := Outbox.drainBy_runs run reached
  -- the pass was made on the stores of the chain
  have found : h.store = u.before.store := chain.of_cons.1
  have start : g.store = h.store := own.of_cons.1.trans found.symm
  rw [start] at own same all
  rw [chain.end_unique own, last]
  have none : Turn.created [u] = [] := Turn.created_eq_nil fun v hv d hcall => by
    rw [List.mem_singleton.1 hv, asked] at hcall
    cases hcall
  have quiet : ∀ v ∈ [u], v.call.delivers = false := fun v hv => by
    rw [List.mem_singleton.1 hv, asked]
    rfl
  have unmarked : Turn.completed [u] = [] := Turn.completed_eq_nil fun v hv i p hcall => by
    rw [List.mem_singleton.1 hv, asked] at hcall
    cases hcall
  have selected : Delivery t (ts ++ [u]) done h₁.store := same ▸ hd.idle quiet none
  obtain ⟨rfl, completed, done', settled⟩ := selected.relay_all on (ordered.idle none)
    (same ▸ List.take_prefix _ _) all fun v hv => reached v (List.mem_cons_of_mem u hv)
  have whole : Turn.completed (u :: us) = u.before.store.pending batch := by
    rw [← List.singleton_append, Turn.completed_append, unmarked, completed, found]
    rfl
  refine ⟨⟨u, us, rfl, whole, ?_⟩, done', ?_⟩
  · rw [whole, ← found, List.countP_map]
    exact congrArg Except.ok (List.countP_eq_length.2 fun _ _ => rfl)
  · rwa [List.append_assoc, List.singleton_append] at settled

/-- A retry pass finds nothing to do, however it would process the feeds. -/
theorem retry (hd : Delivery t ts done h.store) {limit cap batch : Nat}
    {handle : List Feed → Program (List (Except FeedError Processing.Report))}
    (sideBySide : ∀ feeds, Program.Weave limit (feeds.map (Processing.process t)) (handle feeds))
    {result : Stored Retry.Report} (run : (Retry.passBy handle cap batch).Runs h us result h')
    (reached : ∀ u ∈ us, ¬ u.failed) :
    Delivery t (ts ++ us) done h'.store ∧ result = .ok ⟨0, 0, 0⟩ := by
  have chain := run.chain
  obtain ⟨u, us, results, h₁, h₂, rfl, asked, -, -, rfl, handled⟩ :=
    Retry.passBy_runs run reached
  rw [hd.abreast.candidates_eq_nil, (sideBySide []).of_nil] at handled
  obtain ⟨rfl, rfl, -⟩ := handled.of_done
  refine ⟨hd.quiet chain fun v hv => ?_, by rw [hd.abreast.candidates_eq_nil]; rfl⟩
  rw [List.mem_singleton.1 hv, asked]
  rfl

end Delivery

/-- A program that delivers nothing. -/
abbrev Program.Quiet {α : Type} (p : Program α) : Prop := p.Only fun c => c.delivers = false

/-- A program that only asks is quiet. -/
theorem Program.Asking.quiet {α : Type} {p : Program α} (hp : p.Asking) : p.Quiet :=
  hp.mono fun c hc => by cases c <;> first | rfl | cases hc

/-- Adding a draft is quiet. -/
theorem Intake.quiet_add (d : Draft) : (add d).Quiet := by
  refine (only_add d).mono fun c hc => ?_
  cases hc with
  | insert => rfl
  | index hc => cases hc <;> rfl

namespace Gateway

/-- Pages are not live events. -/
theorem Sends.quiet {id : SessionId} {c : Call} (hc : Sends id c) : c.delivers = false := by
  cases hc with
  | query hc => cases c <;> first | rfl | cases hc
  | _ => rfl

/-- Turning a session away is quiet. -/
theorem quiet_refuse (id : SessionId) (e : SessionError) : (refuse id e).Quiet :=
  Program.Only.bind (Program.only_perform rfl) fun _ => trivial

/-- Admitting a session is quiet. -/
theorem quiet_connect (b : Bounds) (mode : SessionMode) (raw : Option String) :
    (connect b mode raw).Quiet := by
  unfold connect
  refine Program.Only.bind (Program.only_perform rfl) fun answer => ?_
  match answer, mode with
  | none, _ => trivial
  | some id, .delivery => exact Program.Only.bind (Program.only_perform rfl) fun _ => trivial
  | some id, .client =>
    dsimp only
    split
    · exact quiet_refuse id _
    · refine Program.Only.bind_except (Program.only_perform rfl) (fun _ => quiet_refuse id _)
        fun _ => ?_
      exact Program.Only.bind ((only_snapshot ..).mono fun c hc => hc.quiet) fun _ => trivial

/-- What a session sends is taken in quietly. -/
theorem quiet_receive (b : Bounds) (mode : SessionMode) (id : SessionId) (frame : Frame) :
    (receive b mode id frame).Quiet := by
  match frame, mode with
  | .text content, .delivery => exact (only_answer b id content).mono fun c hc => hc.quiet
  | .text _, .client => trivial
  | .binary, _ => trivial
  | .closed, _ => exact Program.only_perform rfl

end Gateway

/-- All other acts deliver nothing. -/
theorem Act.PerformedBy.quiet {s : Settings} {a : Act} {α : Type} {p : Program α}
    (hp : a.PerformedBy s p) (ha : a.processes = false) : p.Quiet := by
  cases hp with
  | drain | retry | process => cases ha
  | submit x epoch =>
    show (Intake.submit x epoch).Quiet
    unfold Intake.submit
    split
    · trivial
    · exact Intake.quiet_add _
  | add d => exact Intake.quiet_add d
  | sweep now => exact (Expiry.only_sweep now).mono fun c hc => by cases hc <;> rfl
  | connect mode raw => exact Gateway.quiet_connect _ mode raw
  | receive mode id frame => exact Gateway.quiet_receive _ mode id frame
  | disconnect id => exact Program.only_perform rfl
  | feeds | channelFeeds => exact Program.Asking.quiet (Query.asking_recipientPage ..)
  | spamSenders => exact Program.Asking.quiet (Query.asking_spamSenders ..)
  | senderFeeds => exact Program.Asking.quiet (Query.asking_senderFeeds ..)
  | history => exact Program.Asking.quiet (Query.asking_history ..)
  | search => exact Program.Asking.quiet (Query.asking_search ..)

/-- Deeds during which no call to the store fails, whose feeds were created with epochs that do not
go down, and in which feeds are processed by passes only, of which those over the outbox handle one
entry after another. -/
structure Deed.Steady (s : Settings) (ds : List Deed) : Prop where
  reached : ∀ t ∈ Deed.turnsOf ds, ¬ t.failed
  ordered : Turn.Ordered (Deed.turnsOf ds)
  passes : ∀ D ∈ ds, ∀ f, D.act ≠ .process f
  consecutive : ∀ ts result, ⟨.drain, ts, result⟩ ∈ ds →
    ∃ h h', (Outbox.drain s.topic s.pipeline.relayBatchSize).Runs h ts result h'

/-- Deeds that are steady are steady up to any point. -/
theorem Deed.Steady.of_append {s : Settings} {ds es : List Deed} (h : Steady s (ds ++ es)) :
    Steady s ds := by
  have turns := turnsOf_append ds es
  exact
    { reached := fun t ht => h.reached t (turns ▸ List.mem_append_left _ ht)
      ordered := (turns ▸ h.ordered).of_append
      passes := fun D hD => h.passes D (List.mem_append_left _ hD)
      consecutive := fun ts result hmem => h.consecutive ts result (List.mem_append_left _ hmem) }

/-- Passes over the outbox do handle one entry after another if no two may be under way together. -/
theorem Course.consecutive {s : Settings} {h h' : Hub} {ds : List Deed} (c : Course s h ds h')
    (alone : s.pipeline.concurrency = 1) {ts : List Turn} {result : Stored Nat}
    (hD : ⟨.drain, ts, result⟩ ∈ ds) :
    ∃ g g', (Outbox.drain s.topic s.pipeline.relayBatchSize).Runs g ts result g' := by
  obtain ⟨past, rest, rfl⟩ := List.append_of_mem hD
  obtain ⟨g, -, c⟩ := c.of_append
  obtain ⟨p, g', hp, run, -⟩ := c.of_cons
  exact ⟨g, g', hp.eq_drain alone ▸ run⟩

namespace Delivery

/-- A course whose passes over the outbox have processed whole batches and whose retry passes have
selected nothing, and the feeds processed in it. -/
structure Tale (s : Settings) (ds : List Deed) (done : List (FeedId × Draft)) (store : Store) :
    Prop where
  delivery : Delivery s.topic (Deed.turnsOf ds) done store
  relayed : ∀ us result, ⟨.drain, us, result⟩ ∈ ds →
    Outbox.Relayed s.pipeline.relayBatchSize us result
  unselected : ∀ us result, ⟨.retry, us, result⟩ ∈ ds → result = .ok ⟨0, 0, 0⟩

variable {s : Settings} {ds : List Deed} {done : List (FeedId × Draft)} {h h' : Hub}

/-- **One deed.** -/
theorem Tale.deed {D : Deed} {p : Program D.act.Result} (tale : Tale s ds done h.store)
    (on : s.topic.enabled = true) (steady : Deed.Steady s (ds ++ [D]))
    (hp : D.act.PerformedBy s p) (run : p.Runs h D.turns D.result h') :
    ∃ done', Tale s (ds ++ [D]) done' h'.store := by
  have turns := Deed.turnsOf_snoc ds D
  have reached : ∀ t ∈ D.turns, ¬ t.failed := fun t ht =>
    steady.reached t (turns ▸ List.mem_append_right _ ht)
  have past := tale.delivery
  have told : ∀ {done'}, Delivery s.topic (Deed.turnsOf ds ++ D.turns) done' h'.store →
      (∀ us result, D = ⟨.drain, us, result⟩ →
        Outbox.Relayed s.pipeline.relayBatchSize us result) →
      (∀ us result, D = ⟨.retry, us, result⟩ → result = .ok ⟨0, 0, 0⟩) →
        ∃ done', Tale s (ds ++ [D]) done' h'.store := fun settled relayed unselected => by
    refine ⟨_, turns ▸ settled, fun us result hmem => ?_, fun us result hmem => ?_⟩
    all_goals rcases List.mem_append.1 hmem with hmem | hmem
    · exact tale.relayed us result hmem
    · exact relayed us result (List.mem_singleton.1 hmem).symm
    · exact tale.unselected us result hmem
    · exact unselected us result (List.mem_singleton.1 hmem).symm
  have last : D ∈ ds ++ [D] := List.mem_append_right _ (List.mem_singleton_self D)
  have passes := steady.passes D last
  have consecutive := steady.consecutive
  obtain ⟨a, us, result⟩ := D
  cases a with
  | process f => exact absurd rfl (passes f)
  | drain =>
    obtain ⟨g, g', inTurn⟩ := consecutive us result last
    obtain ⟨relayed, _, settled⟩ :=
      past.drain on steady.of_append.ordered run.chain inTurn reached
    refine told settled (fun _ _ same => ?_) fun _ _ same => by cases same
    cases same
    exact relayed
  | retry =>
    cases hp with
    | retry sideBySide =>
      obtain ⟨settled, idle⟩ := past.retry sideBySide run reached
      refine told settled (fun _ _ same => by cases same) fun _ _ same => ?_
      cases same
      exact idle
  | _ =>
    exact told (past.quiet run.chain (run.only (hp.quiet rfl))) (fun _ _ same => by cases same)
      fun _ _ same => by cases same

end Delivery

/-- **Every feed is delivered once.** In a course from an empty hub, with a topic, in which passes
over the outbox handle one entry after another, no call to the store fails and epochs do not go
down, every such pass processes all that it finds and no retry pass selects a feed. There is one
list of feeds, in the order of their identifiers, that were marked as processed, each once; what is
not on it waits. The messages that were handed over are one for each of them, in this order, and
each carries its feed as it was created, with the payload that came in, stamped. And each of them
was noted once, and live events of it, with the same payload, were offered to the clients that then
sat at one of its recipients and to the delivery nodes, one to each, and to nobody else. Of other
feeds there were no live events. -/
theorem Course.delivered_once {s : Settings} {limit : Nat} {sink : Broadcast.Sink}
    {ds : List Deed} {h : Hub} (c : Course s (.empty limit sink) ds h)
    (on : s.topic.enabled = true) (steady : Deed.Steady s ds) :
    (∀ us result, ⟨.drain, us, result⟩ ∈ ds →
      Outbox.Relayed s.pipeline.relayBatchSize us result) ∧
    (∀ us result, ⟨.retry, us, result⟩ ∈ ds → result = .ok ⟨0, 0, 0⟩) ∧
    ∃ done : List (FeedId × Draft),
      (∀ e ∈ done, e ∈ Turn.created (Deed.turnsOf ds)) ∧
      (done.map (·.1)).Pairwise (· < ·) ∧
      Turn.completed (Deed.turnsOf ds) = done.map (·.1) ∧
      (∀ f ∈ h.store.feeds, (f.processed = true ↔ f.id ∈ done.map (·.1)) ∧
        (f.processed = false → f.id ∈ h.store.outbox)) ∧
      List.Forall₂ (fun e m => m.Carries s.topic e.1 e.2) done
        ((Deed.turnsOf ds).filterMap Turn.posted?) ∧
      (∀ e ∈ done, ∃ us t vs, Deed.turnsOf ds = us ++ t :: vs ∧ t.call = .note e.1 ∧
        (∀ u ∈ us ++ vs, u.call ≠ .note e.1) ∧
        ∀ k, e.2.Due e.1 (Turn.seats us k) (offered e.1 k (Deed.turnsOf ds))) ∧
      ∀ i, i ∉ done.map (·.1) → ∀ k, offered i k (Deed.turnsOf ds) = [] := by
  have told : Deed.Steady s ds → ∃ done, Delivery.Tale s ds done h.store := by
    refine c.keeps (fun ds h => Deed.Steady s ds → ∃ done, Delivery.Tale s ds done h.store)
      (fun _ _ _ o tale steady => ?_) (fun past D p g g' hp run tale steady => ?_)
      fun _ => ⟨[], .empty, fun _ _ hmem => absurd hmem List.not_mem_nil,
        fun _ _ hmem => absurd hmem List.not_mem_nil⟩
    · rw [o.store_eq]
      exact tale steady
    · obtain ⟨done, tale⟩ := tale steady.of_append
      exact tale.deed on steady hp run
  obtain ⟨done, ⟨telling, abreast⟩, relayed, unselected⟩ := told steady
  refine ⟨relayed, unselected, done, abreast.known, abreast.ascending, telling.completed,
    fun f hf => ⟨abreast.processed_iff hf, fun todo => (abreast.waiting f hf todo).1⟩,
    telling.posted, fun e he => ?_, fun i hi => (telling.untold i hi).2⟩
  obtain ⟨us, t, vs, split, hnote, once, sent⟩ := telling.told e he
  refine ⟨us, t, vs, split, hnote, once, fun k => ?_⟩
  rw [sent, (c.seated split).seats.sent_eq]
  exact (Feed.ofDraft e.1 e.2).due_of_draft _

/-! ## A feed for a client that is there -/

/-- A notification to alice. -/
def Draft.toAlice : Draft := .sample "p" ["solana:alice"] 5

/-- A hub with a client for alice. -/
def Hub.joined : Hub :=
  ((Gateway.connect Settings.sample.bounds .client (some "solana:alice")).run .none .sample).2

/-- The hub with a delivery node as well. -/
def Hub.attended : Hub :=
  ((Gateway.connect Settings.sample.bounds .delivery none).run .none .joined).2

/-- The hub when a feed for alice has been stored. -/
def Hub.filed : Hub := ((Intake.add .toAlice).run .none .attended).2

/-- The hub after a pass over the outbox. -/
def Hub.relayed : Hub := ((Outbox.drain Settings.sample.topic 100).run .none .filed).2

/-- A client and a node connect, a feed for the client is stored, and both passes are made. -/
def Deed.relaying : List Deed :=
  [⟨.connect .client (some "solana:alice"), (Gateway.connect Settings.sample.bounds .client
      (some "solana:alice")).turns .none .sample, .admitted 0⟩,
    ⟨.connect .delivery none, (Gateway.connect Settings.sample.bounds .delivery none).turns .none
      .joined, .admitted 1⟩,
    ⟨.add .toAlice, (Intake.add .toAlice).turns .none .attended, .ok ⟨1, true⟩⟩,
    ⟨.drain, (Outbox.drain Settings.sample.topic 100).turns .none .filed, .ok 1⟩,
    ⟨.retry, (Retry.pass Settings.sample.topic 3 50).turns .none .relayed,
      ((Retry.pass Settings.sample.topic 3 50).run .none .relayed).1⟩]

/-- One feed is created, for alice. -/
theorem Deed.created_relaying : Turn.created (turnsOf relaying) = [(1, .toAlice)] := by
  have retry := (Act.performedBy_retry (s := .sample) (by decide)).movesFeeds rfl
  have none := (Program.runs_run .none _ Hub.relayed).created_eq_nil retry fun _ => nofun
  have split : turnsOf relaying = turnsOf (relaying.take 4) ++
      (Retry.pass Settings.sample.topic 3 50).turns .none .relayed :=
    turnsOf_snoc (relaying.take 4) ⟨.retry, _, _⟩
  rw [split, Turn.created_append]
  exact (congrArg _ none).trans rfl

/-- What is done for alice is steady. -/
theorem Deed.steady_relaying : Steady .sample relaying := by
  refine ⟨fun t ht => ?_, ?_, fun D hD f hact => ?_, fun ts result hD => ?_⟩
  · obtain ⟨D, hD, ht⟩ := List.mem_flatMap.1 ht
    simp only [relaying, List.mem_cons, List.not_mem_nil, or_false] at hD
    rcases hD with rfl | rfl | rfl | rfl | rfl <;> exact Program.not_failed_of_mem_turns ht
  · rw [Turn.Ordered, created_relaying]
    exact List.pairwise_singleton _ _
  · simp only [relaying, List.mem_cons, List.not_mem_nil, or_false] at hD
    rcases hD with rfl | rfl | rfl | rfl | rfl <;> cases hact
  · simp only [relaying, List.mem_cons, List.not_mem_nil, or_false] at hD
    rcases hD with h | h | h | h | h <;> cases h
    exact ⟨_, _, Program.runs_run .none _ _⟩

/-- The retry pass finds nothing to do. One message is handed over, which carries the feed, and it
is offered once to the client and to the node. -/
theorem Course.delivered_once_of_relaying :
    ((Retry.pass Settings.sample.topic 3 50).run .none .relayed).1 = .ok ⟨0, 0, 0⟩ ∧
      Turn.completed (Deed.turnsOf Deed.relaying) = [1] ∧
      (∃ m, (Deed.turnsOf Deed.relaying).filterMap Turn.posted? = [m] ∧
        m.Carries Settings.sample.topic 1 .toAlice) ∧
      [0, 1].map (fun k => (offered 1 k (Deed.turnsOf Deed.relaying)).length) = [1, 1] ∧
      ∃ us t vs, Deed.turnsOf Deed.relaying = us ++ t :: vs ∧ t.call = .note 1 ∧
        ∀ k, Draft.toAlice.Due 1 (Turn.seats us k) (offered 1 k (Deed.turnsOf Deed.relaying)) := by
  have c : Course Settings.sample .sample Deed.relaying _ :=
    .deed (.connect .client _) (Program.runs_run .none _ _) <|
      .deed (.connect .delivery none) (Program.runs_run .none _ _) <|
        .deed (.add _) (Program.runs_run .none _ _) <|
          .deed (Act.performedBy_drain (by decide)) (Program.runs_run .none _ _) <|
            .deed (Act.performedBy_retry (by decide)) (Program.runs_run .none _ _) (.stop _)
  obtain ⟨-, unselected, done, known, -, completed, -, posted, told, -⟩ :=
    c.delivered_once rfl Deed.steady_relaying
  have idle := unselected _ _ (List.mem_of_getElem? (i := 4) rfl)
  have marked : Turn.completed (Deed.turnsOf Deed.relaying) = [1] := by decide +kernel
  obtain ⟨e, rfl, hid⟩ := List.map_eq_singleton_iff.1 (completed.symm.trans marked)
  obtain rfl : e = (1, .toAlice) := by
    have there := known e (List.mem_singleton_self e)
    rw [Deed.created_relaying] at there
    exact List.mem_singleton.1 there
  obtain ⟨m, _, carries, none, handed⟩ := List.forall₂_cons_left_iff.1 posted
  obtain rfl := List.forall₂_nil_left_iff.1 none
  obtain ⟨us, t, vs, split, hnote, -, sent⟩ := told _ (List.mem_singleton_self _)
  exact ⟨idle, marked, ⟨m, handed, carries⟩, by decide +kernel, us, t, vs, split, hnote, sent⟩

end NotificationRelay
