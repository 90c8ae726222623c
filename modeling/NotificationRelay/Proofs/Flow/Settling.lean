/-
# What a healthy retry pass settles

While no call fails, a retry pass marks every feed that it selects as processed, and leaves
all others alone (`Retry.handles_of_retry`), in whatever order its feeds take turns. The
message of a selected feed is handed over once or not at all, and not at all only if the
feed is older than an epoch that the watermark admits throughout (`Retry.Settled`). So over
any number of passes a feed stays as it was or is settled once
(`Retry.settled_of_passes`), and each pass leaves fewer feeds to try again
(`Retry.length_retryable_of_passes`).
-/
import Mathlib.Data.List.Perm.Subperm
import NotificationRelay.Proofs.Broadcast.Publishing
import NotificationRelay.Proofs.Flow.Passes
import NotificationRelay.Proofs.Flow.Standing

namespace NotificationRelay

/-- A turn that does not fail, on a coherent store that admits an epoch. -/
structure Turn.Clear (epoch : Int) (t : Turn) : Prop where
  coherent : t.before.store.Coherent
  reached : ¬ t.failed
  admits : t.before.store.Admits epoch

namespace Retry

open Standing

variable {t : Broadcast.Topic} {f : Feed} {x : Standing} {n : Nat} {epoch : Int} {i : FeedId}

/-- Processing one feed does not hand over the message of another. -/
theorem posts_of_processing {c : Call} (hf : f.id ≠ i) (hc : Processing.Makes t f c) :
    c.posts i = false := by
  cases hc with
  | passive hc => cases c <;> first | rfl | cases hc
  | broadcast hc =>
    cases hc with
    | advance => rfl
    | post => exact decide_eq_false hf
  | _ => rfl

/-- A passive call makes no difference to what is handed over. -/
theorem spares_passive {c : Call} (hc : c.isPassive = true) :
    (aspect i (Call.posts i)).Spares c :=
  spares (by cases c <;> first | rfl | cases hc) (unmoved_passive hc)

/-- A feed that is not older than an admitted epoch is handed over. -/
theorem leads_publish (on : t.enabled = true) (hid : f.id = i)
    {post : Broadcast.Outcome → Standing → Nat → Prop}
    (skipped : f.epoch < epoch → post .stale x n)
    (passed : ∀ outcome, outcome ≠ .watermarkUnavailable → post outcome x (n + 1)) :
    (Broadcast.publish t f f.enriched).Leads (aspect i (Call.posts i)) (Turn.Clear epoch) post
      x n := by
  have kept : ∀ outages h, (aspect i (Call.posts i)).view h = x →
      (aspect i (Call.posts i)).view (Call.perform outages (.advance f.id f.epoch) h).2 = x :=
    fun outages h hx => (standing_perform (unmoved_broadcast (.advance on)) outages h).trans hx
  refine Broadcast.leads_publish on (fun u clear => clear.reached) ?_ ?_
  · intro outages h hx clear barred
    rw [kept outages h hx]
    exact skipped (Int.not_le.1 fun hle => barred fun w hw => Int.le_trans (clear.admits w hw) hle)
  · intro outages h hx _ _
    rw [kept outages h hx]
    refine leads_counted (decide_eq_true hid) (unmoved_broadcast (.post on)) fun accepted => ?_
    cases accepted with
    | false => exact passed .failed (by decide)
    | true => exact passed .published (by decide)

/-- A feed is marked as processed; its message is handed over unless it is older than an
admitted epoch. -/
theorem leads_process (on : t.enabled = true) (hf : x.feed = some f) (hid : f.id = i)
    {post : Standing → Nat → Prop}
    (skipped : f.epoch < epoch → post { x with feed := some (f.completed f.enriched) } n)
    (passed : post { x with feed := some (f.completed f.enriched) } (n + 1)) :
    (Processing.process t f).Leads (aspect i (Call.posts i)) (Turn.Clear epoch) (fun _ => post)
      x n := by
  subst hid
  have published : (Broadcast.publish t f f.enriched).Leads (aspect f.id (Call.posts f.id))
      (Turn.Clear epoch) (fun outcome y m => outcome ≠ .watermarkUnavailable ∧ y = x ∧
        post { x with feed := some (f.completed f.enriched) } m) x n :=
    leads_publish on rfl (fun older => ⟨by decide, rfl, skipped older⟩)
      fun outcome sent => ⟨sent, rfl, passed⟩
  have noted : (aspect f.id (Call.posts f.id)).Spares (.note f.id) := spares rfl fun _ => rfl
  refine Program.Leads.bind (.of_only (Program.only_perform noted) fun _ => ?_)
  refine Program.Leads.bind (.of_only ?_ fun dispatched => ?_)
  · exact (Dispatch.passive_dispatch f f.enriched).mono fun c => spares_passive
  refine Program.Leads.bind (published.mono ?_)
  rintro outcome _ m ⟨sent, rfl, here⟩
  show (if outcome = .watermarkUnavailable then _ else _ : Program _).Leads _ _ _ _ _
  rw [if_neg sent]
  exact leads_complete rfl hf (fun _ _ clear _ failed => absurd failed clear.reached) here

/-! ## A pass -/

/-- What becomes of a feed that is handled while an epoch is admitted, and the messages of
it that are handed over. It is skipped only if it is older. -/
inductive Settled (t : Broadcast.Topic) (epoch : Int) (f : Feed) (x : Standing) :
    Standing → List Broadcast.Message → Prop
  | skipped (older : f.epoch < epoch) :
      Settled t epoch f x { x with feed := some (f.completed f.enriched) } []
  | handed : Settled t epoch f x { x with feed := some (f.completed f.enriched) }
      [t.message f f.enriched]

/-- What a pass does that selects some feeds. -/
structure Handles (t : Broadcast.Topic) (epoch : Int) (feeds : List Feed) (s : Store)
    (ts : List Turn) (s' : Store) : Prop where
  settled : ∀ f ∈ feeds, Settled t epoch f (s.standing f.id) (s'.standing f.id) (handed f.id ts)
  spared : ∀ i, (∀ f ∈ feeds, f.id ≠ i) → s'.standing i = s.standing i ∧ handed i ts = []

/-- Only messages of feeds that are handled are handed over. -/
theorem message_of_weave {limit : Nat} {feeds : List Feed} {h h' : Hub} {ts : List Turn}
    {w : Program (List (Except FeedError Processing.Report))}
    {results : List (Except FeedError Processing.Report)} {m : Broadcast.Message}
    (hw : Program.Weave limit (feeds.map (Processing.process t)) w)
    (run : w.Runs h ts results h') (hm : m ∈ handed i ts) :
    ∃ f ∈ feeds, f.id = i ∧ m = t.message f f.enriched := by
  have only : w.Only fun c => ∃ f ∈ feeds, Processing.Makes t f c := hw.only fun p hp => by
    obtain ⟨f, hf, rfl⟩ := List.mem_map.1 hp
    exact (Processing.only_process t f).mono fun c hc => ⟨f, hf, hc⟩
  obtain ⟨hid, u, hu, hcall⟩ := call_of_mem_handed hm
  obtain ⟨f, hf, hmakes⟩ := run.only only u hu
  rw [hcall] at hmakes
  cases hmakes with
  | passive hc => cases hc
  | broadcast hc =>
    cases hc with
    | post => exact ⟨f, hf, hid, rfl⟩

/-- Feeds that are handled side by side are settled, and no others are touched. -/
theorem handles_of_weave {limit : Nat} {feeds : List Feed} {h h' : Hub} {ts : List Turn}
    {w : Program (List (Except FeedError Processing.Report))}
    {results : List (Except FeedError Processing.Report)} (on : t.enabled = true)
    (hw : Program.Weave limit (feeds.map (Processing.process t)) w)
    (apart : (feeds.map (·.id)).Nodup) (there : ∀ f ∈ feeds, h.store.feed? f.id = some f)
    (run : w.Runs h ts results h') (clear : ∀ t ∈ ts, t.Clear epoch) :
    Handles t epoch feeds h.store ts h'.store := by
  have others : ∀ i, ∀ f ∈ feeds, f.id ≠ i →
      (Processing.process t f).Only (aspect i (Call.posts i)).Spares := fun i f _ hf =>
    (Processing.only_process t f).mono fun c hc =>
      spares (posts_of_processing hf hc) (unmoved_processing hf hc)
  have same : ∀ {f g : Feed}, f ∈ feeds → g ∈ feeds → g.id = f.id → g = f := fun hf hg hid =>
    List.inj_on_of_nodup_map apart hg hf hid
  have length : ∀ i, (handed i ts).length = 0 + (aspect i (Call.posts i)).count ts := fun i => by
    rw [length_handed, Nat.zero_add]
    rfl
  constructor
  · intro f hf
    have leads : w.Leads (aspect f.id (Call.posts f.id)) (Turn.Clear epoch) (fun _ y m =>
        y = { h.store.standing f.id with feed := some (f.completed f.enriched) } ∧
          (m = 0 ∧ f.epoch < epoch ∨ m = 1)) (h.store.standing f.id) 0 := by
      refine hw.leads_of_key (·.id) f.id apart (others f.id) (fun g hg hid => ?_) fun absent => ?_
      · obtain rfl := same hf hg hid
        exact leads_process on (there g hg) rfl (fun older => ⟨rfl, .inl ⟨rfl, older⟩⟩)
          ⟨rfl, .inr rfl⟩
      · exact absurd rfl (absent f hf)
    obtain ⟨standing, count⟩ := leads.of_runs run clear
    have standing : h'.store.standing f.id = _ := standing
    rw [standing]
    rcases count with ⟨none, older⟩ | one
    · rw [List.length_eq_zero_iff.1 ((length f.id).trans none)]
      exact .skipped older
    · obtain ⟨m, hm⟩ := List.length_eq_one_iff.1 ((length f.id).trans one)
      obtain ⟨g, hg, hid, rfl⟩ := message_of_weave hw run (hm ▸ List.mem_singleton_self m)
      rw [hm, same hf hg hid]
      exact .handed
  · intro i absent
    have leads : w.Leads (aspect i (Call.posts i)) (Turn.Clear epoch) (fun _ y m =>
        y = h.store.standing i ∧ m = 0) (h.store.standing i) 0 :=
      hw.leads_of_key (·.id) i apart (others i) (fun f hf hid => absurd hid (absent f hf))
        fun _ => ⟨rfl, rfl⟩
    obtain ⟨standing, count⟩ := leads.of_runs run clear
    exact ⟨standing, List.length_eq_zero_iff.1 ((length i).trans count)⟩

/-- Selecting feeds to try again hands nothing over. -/
theorem handed_cons_of_candidates {u : Turn} {ts : List Turn} {cap limit : Nat}
    (hu : u.call = .candidates cap limit) (i : FeedId) : handed i (u :: ts) = handed i ts := by
  have silent : u.posted? = none := by simp only [Turn.posted?, hu]
  unfold handed
  rw [List.filterMap_cons_none silent]

/-- A clear retry pass handles what it selects, in whatever order the feeds take turns. -/
theorem handles_of_retry {s : Settings} {p : Program (Stored Report)} {h h' : Hub}
    {ts : List Turn} {result : Stored Report} (on : s.topic.enabled = true)
    (hp : Act.PerformedBy s .retry p) (run : p.Runs h ts result h') (coherent : h.store.Coherent)
    (clear : ∀ t ∈ ts, t.Clear epoch) :
    Handles s.topic epoch (selection s h.store) h.store ts h'.store := by
  cases hp with
  | retry sideBySide =>
    obtain ⟨u, us, results, h₁, h₂, rfl, hcall, same₁, same₂, -, hus⟩ :=
      passBy_runs run fun t ht => (clear t ht).reached
    have there : ∀ f ∈ selection s h.store, h₁.store.feed? f.id = some f := fun f hf => by
      rw [same₁]
      exact coherent.feed?_eq_some_iff.2 ⟨(Store.mem_candidates hf).1, rfl⟩
    have handles := handles_of_weave on (sideBySide _) (coherent.nodup_candidates _ _) there hus
      fun t ht => clear t (List.mem_cons_of_mem _ ht)
    rw [same₁, ← same₂] at handles
    constructor
    · intro f hf
      rw [handed_cons_of_candidates hcall]
      exact handles.settled f hf
    · intro i absent
      rw [handed_cons_of_candidates hcall]
      exact handles.spared i absent

/-- A feed that is settled is marked as processed. -/
theorem Settled.feed_eq {y : Standing} {ms : List Broadcast.Message}
    (settled : Settled t epoch f x y ms) : y.feed = some (f.completed f.enriched) := by
  cases settled <;> rfl

/-- A feed that is settled has been handed over once, or not at all, being older than the watermark.
-/
theorem Settled.messages {y : Standing} {ms : List Broadcast.Message}
    (settled : Settled t epoch f x y ms) :
    ms = [t.message f f.enriched] ∨ ms = [] ∧ f.epoch < epoch := by
  cases settled with
  | skipped older => exact .inr ⟨rfl, older⟩
  | handed => exact .inl rfl

/-- A feed that has been settled is not selected again. -/
theorem Settled.not_retryable {s : Store} {y : Standing} {ms : List Broadcast.Message} {cap : Nat}
    (settled : Settled t epoch f x y ms) {g : Feed} (hg : y.feed = some g) :
    s.isRetryable cap g = false := by
  rw [settled.feed_eq] at hg
  cases hg
  rfl

/-- Whether a feed may be tried again depends on its standing only. -/
theorem mem_retryable_of_standing {s s' : Store} {cap : Nat}
    (same : s'.standing f.id = s.standing f.id) (hf : s.feed? f.id = some f)
    (hretry : s.isRetryable cap f = true) : f ∈ s'.retryable cap := by
  have stored : s'.feed? f.id = some f := (congrArg (·.feed) same).trans hf
  have waiting : s'.outbox.contains f.id = s.outbox.contains f.id := congrArg (·.waiting) same
  refine List.mem_filter.2 ⟨Store.mem_of_feed? stored, ?_⟩
  rw [Store.isRetryable, waiting]
  exact hretry

/-- What is retryable after a pass was so before, and has not been selected. -/
theorem Handles.retryable {s s' : Store} {ts : List Turn} {cap limit : Nat}
    (handles : Handles t epoch (s.candidates cap limit) s ts s') (hs' : s'.Coherent)
    (hi : i ∈ (s'.retryable cap).map (·.id)) :
    i ∈ (s.retryable cap).map (·.id) ∧ ∀ f ∈ s.candidates cap limit, f.id ≠ i := by
  obtain ⟨g, hg, rfl⟩ := List.mem_map.1 hi
  obtain ⟨hmem, hretry⟩ := List.mem_filter.1 hg
  have there : (s'.standing g.id).feed = some g := hs'.feed?_eq_some_iff.2 ⟨hmem, rfl⟩
  have absent : ∀ f ∈ s.candidates cap limit, f.id ≠ g.id := by
    intro f hf hid
    have settled := handles.settled f hf
    rw [hid] at settled
    rw [settled.not_retryable there] at hretry
    cases hretry
  have same := (handles.spared g.id absent).1
  have before := mem_retryable_of_standing same.symm there hretry
  exact ⟨List.mem_map_of_mem before, absent⟩

/-- No feed is to be tried again twice in one pass. -/
theorem nodup_retryable {s : Store} (hs : s.Coherent) (cap : Nat) :
    ((s.retryable cap).map (·.id)).Nodup :=
  hs.nodup_ids.sublist (List.filter_sublist.map _)

/-- **Every pass leaves fewer feeds to try again**, until there are none. -/
theorem Handles.length_retryable {s s' : Store} {ts : List Turn} {cap limit : Nat}
    (handles : Handles t epoch (s.candidates cap limit) s ts s') (hs' : s'.Coherent)
    (hl : 1 ≤ limit) :
    (s'.retryable cap).length ≤ (s.retryable cap).length - 1 := by
  have shrinks := fun i => handles.retryable (i := i) hs'
  have length : ∀ s : Store, (s.retryable cap).length = ((s.retryable cap).map (·.id)).length :=
    fun s => (List.length_map _).symm
  rw [length s, length s']
  cases hsel : s.candidates cap limit with
  | nil =>
    rw [Store.candidates_eq_nil_iff s cap hl] at hsel
    rw [hsel] at shrinks ⊢
    have none : (s'.retryable cap).map (·.id) = [] :=
      List.eq_nil_iff_forall_not_mem.2 fun i hi => by cases (shrinks i hi).1
    rw [none]
    exact Nat.zero_le _
  | cons f rest =>
    have hf : f ∈ s.candidates cap limit := hsel ▸ List.mem_cons_self
    have gone : f.id ∉ (s'.retryable cap).map (·.id) := fun hi => (shrinks _ hi).2 f hf rfl
    have sub : f.id :: (s'.retryable cap).map (·.id) ⊆ (s.retryable cap).map (·.id) := by
      intro i hi
      rcases List.mem_cons.1 hi with rfl | hi
      · exact List.mem_map_of_mem (Store.mem_retryable_of_mem_candidates hf)
      · exact (shrinks i hi).1
    have fewer := ((List.nodup_cons.2 ⟨gone, nodup_retryable hs' cap⟩).subperm sub).length_le
    rw [List.length_cons] at fewer
    omega

/-! ## Passes until nothing is selected -/

section Passes

variable {s : Settings} {held h : Hub} {ts : List Turn}

/-- Retry passes keep the store coherent. -/
theorem coherent_of_passes (passes : Passes s held n ts h) (coherent : held.store.Coherent) :
    h.store.Coherent :=
  (passes.history.coherent coherent).1

/-- **A feed is as it was, or it has been settled once.** -/
theorem settled_of_passes (on : s.topic.enabled = true) (passes : Passes s held n ts h)
    (coherent : held.store.Coherent) (clear : ∀ t ∈ ts, t.Clear epoch)
    (there : held.store.feed? f.id = some f) :
    h.store.standing f.id = held.store.standing f.id ∧ handed f.id ts = [] ∨
      Settled s.topic epoch f (held.store.standing f.id) (h.store.standing f.id)
        (handed f.id ts) := by
  induction passes with
  | start => exact .inl ⟨rfl, rfl⟩
  | @pass n p result ts us h h' before hp run ih =>
    have coherent' := coherent_of_passes before coherent
    have handles := handles_of_retry on hp run coherent' fun t ht =>
      clear t (List.mem_append_right _ ht)
    rw [handed_append]
    rcases ih fun t ht => clear t (List.mem_append_left _ ht) with ⟨same, unsent⟩ | settled
    · rw [unsent, List.nil_append]
      have stored : h.store.feed? f.id = some f := (congrArg (·.feed) same).trans there
      by_cases hf : f ∈ selection s h.store
      · rw [← same]
        exact .inr (handles.settled f hf)
      · have absent : ∀ g ∈ selection s h.store, g.id ≠ f.id := by
          intro g hg hid
          have hg' := coherent'.feed?_eq_some_iff.2 ⟨(Store.mem_candidates hg).1, hid⟩
          exact hf (Option.some.inj (hg'.symm.trans stored) ▸ hg)
        obtain ⟨same', unsent'⟩ := handles.spared f.id absent
        exact .inl ⟨same'.trans same, unsent'⟩
    · have absent : ∀ g ∈ selection s h.store, g.id ≠ f.id := by
        intro g hg hid
        obtain ⟨hmem, hretry⟩ := Store.mem_candidates hg
        have hg' := coherent'.feed?_eq_some_iff.2 ⟨hmem, hid⟩
        rw [settled.not_retryable hg'] at hretry
        cases hretry
      obtain ⟨same', unsent'⟩ := handles.spared f.id absent
      rw [same', unsent', List.append_nil]
      exact .inr settled

/-- Each pass leaves fewer feeds to try again. -/
theorem length_retryable_of_passes (on : s.topic.enabled = true)
    (batch : 1 ≤ s.pipeline.retryBatchSize) (passes : Passes s held n ts h)
    (coherent : held.store.Coherent) (clear : ∀ t ∈ ts, t.Clear epoch) :
    (h.store.retryable s.pipeline.maxAttempts).length ≤
      (held.store.retryable s.pipeline.maxAttempts).length - n := by
  induction passes with
  | start => exact Nat.le_refl _
  | @pass n p result ts us h h' before hp run ih =>
    have fewer := ih fun t ht => clear t (List.mem_append_left _ ht)
    have coherent₁ := coherent_of_passes before coherent
    have coherent₂ := coherent_of_passes (before.pass hp run) coherent
    have handles := handles_of_retry on hp run coherent₁ fun t ht =>
      clear t (List.mem_append_right _ ht)
    have once := handles.length_retryable coherent₂ batch
    omega

/-- As many passes as there are feeds to try again leave nothing to select. -/
theorem selection_of_passes (on : s.topic.enabled = true) (batch : 1 ≤ s.pipeline.retryBatchSize)
    (passes : Passes s held n ts h) (coherent : held.store.Coherent)
    (clear : ∀ t ∈ ts, t.Clear epoch)
    (enough : (held.store.retryable s.pipeline.maxAttempts).length ≤ n) :
    selection s h.store = [] := by
  have fewer := length_retryable_of_passes on batch passes coherent clear
  refine (Store.candidates_eq_nil_iff _ _ batch).2 (List.length_eq_zero_iff.1 ?_)
  omega

end Passes

end Retry
end NotificationRelay
