/-
# The order of broadcasts

A feed that is let through has its own epoch on the watermark, and as long as feeds are
processed one after another it is still there when the message is handed over
(`Turn.OnMark`). Since the watermark never goes down, the epochs of messages go up with it
(`Turn.Chain.posted_ordered`), whatever fails, is refused, or is tried again later.
-/
import NotificationRelay.Proofs.Broadcast.Watermark

namespace NotificationRelay

/-- The message that a turn hands to the sink. -/
def Turn.posted? (t : Turn) : Option Broadcast.Message :=
  match t.call with
  | .post m => some m
  | _ => none

/-- A message is handed over while its epoch is on the watermark. -/
def Turn.OnMark (t : Turn) : Prop :=
  ∀ m, t.call = .post m → t.before.store.mark = some m.epoch

/-- **The epochs of messages go up**, from the watermark at the start. -/
theorem Turn.Chain.posted_ordered {s s' : Store} {ts : List Turn} (h : Chain s ts s')
    (onMark : ∀ t ∈ ts, t.OnMark) :
    ((ts.filterMap Turn.posted?).map (·.epoch)).Pairwise (· ≤ ·) ∧
      ∀ m ∈ ts.filterMap Turn.posted?, ∀ w, s.mark = some w → w ≤ m.epoch := by
  induction h with
  | nil => exact ⟨.nil, fun m hm => by cases hm⟩
  | @cons t ts s' genuine rest ih =>
    obtain ⟨ordered, above⟩ := ih fun u hu => onMark u (List.mem_cons_of_mem _ hu)
    have later : ∀ m ∈ ts.filterMap Turn.posted?, ∀ w, t.before.store.mark = some w →
        w ≤ m.epoch := fun m hm w hw => by
      obtain ⟨w', hw', hle⟩ := (Turn.Chain.cons genuine (.nil _)).mark_le hw
      exact Int.le_trans hle (above m hm w' hw')
    rw [List.filterMap_cons]
    cases hp : t.posted? with
    | none => exact ⟨ordered, later⟩
    | some m =>
      have hm : t.before.store.mark = some m.epoch := onMark t List.mem_cons_self m (by
        unfold Turn.posted? at hp
        split at hp
        · next hcall =>
          cases hp
          exact hcall
        · cases hp)
      refine ⟨List.pairwise_cons.2 ⟨fun e he => ?_, ordered⟩, fun m' hm' w hw => ?_⟩
      · obtain ⟨m', hm', rfl⟩ := List.mem_map.1 he
        exact later m' hm' _ hm
      · rcases List.mem_cons.1 hm' with rfl | hm'
        · rw [hm] at hw
          cases hw
          exact Int.le_refl _
        · exact later m' hm' w hw

namespace Broadcast

/-- A feed that is let through is handed over before the watermark can move again. -/
theorem obeys_publish (t : Topic) (f : Feed) (payload : Payload) :
    (publish t f payload).Obeys Turn.OnMark := by
  unfold publish
  split
  · intro h ts a h' r
    obtain ⟨h₁, outages, us, o, rfl, rest⟩ := r.of_call
    have first : (Call.turn (.advance f.id f.epoch) outages h₁).OnMark := fun m hm => by cases hm
    have tail : ∀ u ∈ us, u.OnMark := by
      simp only [Call.perform, Outages.guard] at rest
      cases ho : outages (.advance f.id f.epoch) with
      | some reason =>
        rw [ho] at rest
        obtain ⟨rfl, -, -⟩ := rest.of_done
        exact fun u hu => by cases hu
      | none =>
        simp only [ho, succeed] at rest
        cases hpass : (h₁.store.advance watermarkKey f.epoch).1 with
        | false =>
          rw [hpass] at rest
          obtain ⟨rfl, -, -⟩ := Program.Runs.of_done rest
          exact fun u hu => by cases hu
        | true =>
          rw [hpass] at rest
          obtain ⟨h₂, outages', vs, o₂, rfl, last⟩ := Program.Runs.of_call rest
          have mark : h₂.store.mark = some f.epoch := by
            rw [Hub.store_eq_of_outside o₂]
            exact h₁.store.mark_advance_of_passed f.epoch hpass
          have ended : vs = [] := by
            generalize (Call.perform outages' (.post (t.message f payload)) h₂).1 = accepted at last
            cases accepted with
            | false => exact (Program.Runs.of_done last).1
            | true => exact (Program.Runs.of_done last).1
          subst ended
          intro u hu m hm
          obtain rfl := List.mem_singleton.1 hu
          cases hm
          exact mark
    intro u hu
    rcases List.mem_cons.1 hu with rfl | hu
    · exact first
    · exact tail u hu
  · exact Program.obeys_done _

end Broadcast

/-- Whether a call asks for the watermark of the topic or hands a message over. -/
def Call.broadcasts : Call → Bool
  | .advance _ _ => true
  | .post _ => true
  | _ => false

/-- A turn that does not belong to a broadcast leaves the mark alone. -/
theorem Turn.onMark_of_not_broadcasts {t : Turn} (ht : t.call.broadcasts = false) : t.OnMark :=
  fun m hm => by
    rw [hm] at ht
    cases ht

/-- A passive call does not belong to a broadcast. -/
theorem Call.not_broadcasts_of_passive {c : Call} (hc : c.isPassive = true) :
    c.broadcasts = false := by
  cases c <;> first | rfl | cases hc

/-- A program that hands nothing over. -/
theorem Program.obeys_of_passive {α : Type} {p : Program α} (hp : p.Passive) :
    p.Obeys Turn.OnMark :=
  .of_only hp fun _ ht => Turn.onMark_of_not_broadcasts (Call.not_broadcasts_of_passive ht)

/-- Adding a draft does not belong to a broadcast. -/
theorem Intake.Makes.not_broadcasts {d : Draft} {c : Call} (hc : Makes d c) :
    c.broadcasts = false := by
  cases hc with
  | insert => rfl
  | index hc => cases hc <;> rfl

/-- A sweep does not belong to a broadcast. -/
theorem Expiry.Makes.not_broadcasts {now : Int} {c : Call} (hc : Makes now c) :
    c.broadcasts = false := by
  cases hc <;> rfl

/-- A call that does not belong to a broadcast keeps to the mark. -/
theorem Program.obeys_of_not_broadcasts {c : Call} (hc : c.broadcasts = false) :
    (perform c).Obeys Turn.OnMark :=
  obeys_perform fun _ ht => Turn.onMark_of_not_broadcasts (ht ▸ hc)

/-- Whoever processes a feed keeps to the mark. -/
theorem Processing.obeys_process (t : Broadcast.Topic) (f : Feed) :
    (process t f).Obeys Turn.OnMark := by
  refine (Program.obeys_of_not_broadcasts (c := .note f.id) rfl).bind fun _ => ?_
  refine (Program.obeys_of_passive (Dispatch.passive_dispatch f f.enriched)).bind fun _ => ?_
  refine (Broadcast.obeys_publish t f f.enriched).bind fun outcome => ?_
  show (if outcome = .watermarkUnavailable then _ else _ : Program _).Obeys _
  have bump : (Program.perform (.bump f.id)).Obeys Turn.OnMark :=
    Program.obeys_of_not_broadcasts rfl
  split
  · exact bump.bind fun _ => Program.obeys_done _
  · have complete : (Program.perform (.complete f.id f.enriched)).Obeys Turn.OnMark :=
      Program.obeys_of_not_broadcasts rfl
    refine complete.bind fun answer => ?_
    match answer with
    | .ok () => exact Program.obeys_done _
    | .error _ => exact bump.bind fun _ => Program.obeys_done _

/-- Whoever handles an entry of the outbox keeps to the mark. -/
theorem Outbox.obeys_relayOne (t : Broadcast.Topic) (i : FeedId) :
    (relayOne t i).Obeys Turn.OnMark := by
  have acknowledge : (acknowledge i).Obeys Turn.OnMark :=
    (Program.obeys_of_not_broadcasts (c := .acknowledge i) rfl).bind fun
      | .ok () => Program.obeys_done _
      | .error _ => Program.obeys_done _
  refine (Program.obeys_of_not_broadcasts (c := .load i) rfl).bind fun answer => ?_
  match answer with
  | .error _ => exact Program.obeys_done _
  | .ok none => exact acknowledge
  | .ok (some f) =>
    show (if f.processed then _ else _ : Program _).Obeys _
    split
    · exact acknowledge
    · exact (Processing.obeys_process t f).bind fun _ => acknowledge

/-- A pass over the outbox keeps to the mark. -/
theorem Outbox.obeys_drain (t : Broadcast.Topic) (batch : Nat) :
    (drain t batch).Obeys Turn.OnMark := by
  have select : (Program.perform (.pending batch)).Obeys Turn.OnMark :=
    Program.obeys_of_not_broadcasts rfl
  refine select.bind fun answer => ?_
  match answer with
  | .error _ => exact Program.obeys_done _
  | .ok ids =>
    refine Program.Obeys.bind ?_ fun _ => Program.obeys_done _
    exact Program.obeys_forEach fun i _ => obeys_relayOne t i

/-- A retry pass keeps to the mark. -/
theorem Retry.obeys_pass (t : Broadcast.Topic) (cap batch : Nat) :
    (pass t cap batch).Obeys Turn.OnMark := by
  have select : (Program.perform (.candidates cap batch)).Obeys Turn.OnMark :=
    Program.obeys_of_not_broadcasts rfl
  refine select.bind fun answer => ?_
  match answer with
  | .error _ => exact Program.obeys_done _
  | .ok selected =>
    refine Program.Obeys.bind ?_ fun _ => Program.obeys_done _
    exact Program.obeys_forEach fun f _ => Processing.obeys_process t f

/-- Where feeds are processed one after another, every message is on the watermark. -/
theorem Act.PerformedBy.obeys {s : Settings} (sequential : s.pipeline.concurrency = 1) {a : Act}
    {α : Type} {p : Program α} (hp : a.PerformedBy s p) : p.Obeys Turn.OnMark := by
  have only := hp.only
  have silent : (∀ c, a.Makes s c → c.broadcasts = false) → p.Obeys Turn.OnMark := fun h =>
    .of_only only fun u hu => Turn.onMark_of_not_broadcasts (h u.call hu)
  cases hp with
  | submit => exact silent fun c ⟨_, _, hc⟩ => hc.not_broadcasts
  | add => exact silent fun c hc => Intake.Makes.not_broadcasts hc
  | drain sideBySide =>
    rw [sequential] at sideBySide
    rw [Program.Weave.eq_forEach_of_one sideBySide]
    exact Outbox.obeys_drain s.topic s.pipeline.relayBatchSize
  | retry sideBySide =>
    rw [sequential] at sideBySide
    rw [Program.Weave.eq_forEach_of_one sideBySide]
    exact Retry.obeys_pass s.topic s.pipeline.maxAttempts s.pipeline.retryBatchSize
  | process f => exact Processing.obeys_process s.topic f
  | sweep => exact silent fun c hc => Expiry.Makes.not_broadcasts hc
  | _ => exact silent fun c hc => Call.not_broadcasts_of_passive hc

/-- Without a topic nothing asks for the watermark, and nothing is handed over. -/
theorem Act.Makes.not_broadcasts {s : Settings} (off : s.topic.enabled = false) {a : Act}
    {c : Call} (hc : a.Makes s c) : c.broadcasts = false := by
  have processing : ∀ {f : Feed} {c : Call}, Processing.Makes s.topic f c →
      c.broadcasts = false := fun {f c} hc => by
    cases hc with
    | passive hc => exact Call.not_broadcasts_of_passive hc
    | broadcast hc => cases hc <;> next on => rw [off] at on; cases on
    | _ => rfl
  cases a with
  | submit =>
    obtain ⟨d, -, hc⟩ := hc
    exact hc.not_broadcasts
  | add => exact Intake.Makes.not_broadcasts hc
  | drain =>
    obtain ⟨i, hc⟩ := hc
    cases hc with
    | acknowledge => rfl
    | passive hc => exact Call.not_broadcasts_of_passive hc
    | processing _ hc => exact processing hc
  | retry =>
    rcases hc with hc | ⟨f, hc⟩
    · exact Call.not_broadcasts_of_passive hc
    · exact processing hc
  | process => exact processing hc
  | sweep => exact Expiry.Makes.not_broadcasts hc
  | _ => exact Call.not_broadcasts_of_passive hc

namespace History

variable {s : Settings} {allowed : Act → Prop} {start h : Hub} {ts : List Turn}

/-- Without a topic nothing is broadcast. -/
theorem not_broadcasts (hist : History s allowed start ts h) (off : s.topic.enabled = false) :
    ∀ t ∈ ts, t.call.broadcasts = false :=
  hist.obeys fun _ _ _ hp => .of_only hp.only fun _ hc => Act.Makes.not_broadcasts off hc

/-- The watermark at any turn and after it. -/
theorem mark_eq_of_split (hist : History s allowed start ts h) {us vs : List Turn} {t : Turn}
    (hts : ts = us ++ t :: vs) :
    t.before.store.mark = highest start.store.mark (us.filterMap Turn.reached?) ∧
    t.after.store.mark = highest start.store.mark ((us ++ [t]).filterMap Turn.reached?) ∧
    ∀ w, t.before.store.mark = some w → ∃ w', t.after.store.mark = some w' ∧ w ≤ w' := by
  obtain ⟨s', hus, hvs⟩ := Turn.Chain.of_append (hts ▸ hist.chain)
  cases hvs with
  | cons genuine rest =>
    have one : Turn.Chain t.before.store [t] t.after.store := .cons genuine (.nil _)
    exact ⟨hus.mark_eq, (hus.append one).mark_eq, fun w hw => one.mark_le hw⟩

/-- **Broadcasts keep their order.** When feeds are processed one after another, the epochs
of the messages handed to the sink never go down, and start at the watermark or above it.
At every turn, before it and after it, the watermark is the highest of its first value and
of the epochs that have reached it, so it never goes down either. Without a topic it is
not asked for, stays as it is, and nothing is handed over. -/
theorem broadcast_ordered (hist : History s allowed start ts h)
    (sequential : s.pipeline.concurrency = 1) :
    ((ts.filterMap Turn.posted?).map (·.epoch)).Pairwise (· ≤ ·) ∧
    (∀ m ∈ ts.filterMap Turn.posted?, ∀ w, start.store.mark = some w → w ≤ m.epoch) ∧
    (∀ us t vs, ts = us ++ t :: vs →
      t.before.store.mark = highest start.store.mark (us.filterMap Turn.reached?) ∧
      t.after.store.mark = highest start.store.mark ((us ++ [t]).filterMap Turn.reached?) ∧
      ∀ w, t.before.store.mark = some w → ∃ w', t.after.store.mark = some w' ∧ w ≤ w') ∧
    h.store.mark = highest start.store.mark (ts.filterMap Turn.reached?) ∧
    (s.topic.enabled = false →
      (∀ t ∈ ts, (∀ i e, t.call ≠ .advance i e) ∧ ∀ m, t.call ≠ .post m) ∧
      h.store.mark = start.store.mark) := by
  have onMark : ∀ t ∈ ts, t.OnMark := hist.obeys fun _ _ _ hp => hp.obeys sequential
  obtain ⟨ordered, above⟩ := hist.chain.posted_ordered onMark
  refine ⟨ordered, above, fun us t vs hts => hist.mark_eq_of_split hts, hist.chain.mark_eq,
    fun off => ?_⟩
  have quiet := hist.not_broadcasts off
  have unreached : ts.filterMap Turn.reached? = [] := by
    refine List.filterMap_eq_nil_iff.2 fun t ht => ?_
    obtain ⟨_, c, _, _⟩ := t
    have := quiet _ ht
    cases c <;> first | rfl | cases this
  refine ⟨fun t ht => ⟨fun i e hc => ?_, fun m hc => ?_⟩, ?_⟩
  · have := quiet t ht
    rw [hc] at this
    cases this
  · have := quiet t ht
    rw [hc] at this
    cases this
  · rw [hist.chain.mark_eq, unreached, highest_nil]

/-- Two feeds that were stored in the wrong order. -/
def outOfOrder : Hub :=
  ((Intake.add (.sample "q" ["solana:alice"] 3)).run .none
    ((Intake.add (.sample "p" ["solana:alice"] 5)).run .none .sample).2).2

/-- The settings of a relay that processes one feed after another. -/
def oneByOne : Settings := { Settings.sample with pipeline := { concurrency := 1 } }

/-- Of two feeds in the wrong order only the newer is handed over. -/
theorem broadcast_ordered_of_outOfOrder :
    (((Outbox.drain oneByOne.topic 100).turns .none outOfOrder).filterMap Turn.posted?).map
        (·.epoch) = [5] ∧
      ((Outbox.drain oneByOne.topic 100).run .none outOfOrder).2.store.mark =
        highest none (((Outbox.drain oneByOne.topic 100).turns .none outOfOrder).filterMap
          Turn.reached?) := by
  have hist : History oneByOne (fun _ => True) outOfOrder
      ([] ++ (Outbox.drain oneByOne.topic 100).turns .none outOfOrder) _ :=
    History.start.andThen trivial (Act.performedBy_drain (by decide)) .none
  exact ⟨by decide +kernel, (hist.broadcast_ordered rfl).2.2.2.1⟩

end History
end NotificationRelay
