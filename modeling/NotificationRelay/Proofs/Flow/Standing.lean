/-
# Where a feed stands

What the passes go by, of one feed, is its record, whether it waits in the outbox, and
whether its identifier has been given (`Standing`). What is done for one feed leaves the
standing of every other as it is (`Standing.unmoved_processing`,
`Standing.unmoved_outbox`), and so does the broadcast of any feed, its own included
(`Standing.unmoved_broadcast`).

The standing is an aspect of the hub with any kind of call to be counted
(`Standing.aspect`). So what a program does to the standing of its own feed can be read
off the program, whatever others do beside it (`Standing.leads_call`).
-/
import NotificationRelay.Proofs.Run.Aspect
import NotificationRelay.Proofs.Store.Coherence

namespace NotificationRelay

/-- Where a feed stands in a store. -/
structure Standing where
  feed : Option Feed
  /-- The feed waits for dispatch. -/
  waiting : Bool
  /-- The identifier has been given. -/
  given : Bool

/-- Where the feed with an identifier stands. -/
def Store.standing (s : Store) (i : FeedId) : Standing :=
  ⟨s.feed? i, s.outbox.contains i, decide (i ≤ s.lastId)⟩

namespace Standing

/-- The standing of a feed, and a kind of call to be counted. -/
def aspect (i : FeedId) (counts : Call → Bool) : Aspect Standing where
  view h := h.store.standing i
  counts := counts
  outside o := by rw [o.store_eq]

/-- A call that leaves the standing of a feed as it is. -/
def Unmoved (i : FeedId) (c : Call) : Prop := ∀ s : Store, (c.effect s).standing i = s.standing i

variable {i : FeedId} {counts : Call → Bool}

/-! ## What operations do to a standing -/

/-- Modifying a feed changes its own standing and no other. -/
theorem of_modify (s : Store) (j : FeedId) (change : Feed → Feed)
    (hid : ∀ f, (change f).id = f.id) :
    (s.modify j change).standing i = { s.standing i with
      feed := if i = j then (s.standing i).feed.map change else (s.standing i).feed } := by
  unfold Store.standing
  rw [Store.feed?_modify s j i hid]
  rfl

/-- Changing a feed changes it in its standing. -/
theorem of_update {s : Store} {f : Feed} (hf : (s.standing i).feed = some f)
    (change : Feed → Feed) (hid : ∀ f, (change f).id = f.id) :
    (s.update i change).2.standing i = { s.standing i with feed := some (change f) } := by
  rw [Store.update_snd, of_modify s i change hid, if_pos rfl, hf]
  rfl

/-- A feed that is taken out of the outbox does not wait any more. -/
theorem of_acknowledge (s : Store) (j : FeedId) :
    (s.acknowledge j).standing i = { s.standing i with
      waiting := (s.standing i).waiting && decide (i ≠ j) } := by
  unfold Store.standing Store.acknowledge
  congr 1
  by_cases hij : i = j <;> simp [hij]

/-- A draft that is inserted leaves a feed where it stands, or makes it stand there for the first
time, waiting. -/
theorem of_insert {s : Store} (hs : s.Coherent) (d : Draft) :
    (s.insert d).2.standing i = s.standing i ∨
      s.standing i = ⟨none, false, false⟩ ∧
        (s.insert d).2.standing i = ⟨some (.ofDraft i d), true, true⟩ := by
  cases hd : Table.get? d.payloadId s.payloadIds with
  | some j => exact .inl (by simp only [Store.insert, hd])
  | none =>
    have hbox : (s.insert d).2.outbox = Ascending.insert (s.lastId + 1) s.outbox := by
      simp only [Store.insert, hd]
    have hlast : (s.insert d).2.lastId = s.lastId + 1 := by simp only [Store.insert, hd]
    unfold Store.standing
    rw [Store.feed?_insert s d i hd, hbox, hlast]
    by_cases hi : i = s.lastId + 1
    · subst hi
      have fresh : s.lastId + 1 ∉ s.ids := fun hmem => by
        have := (hs.numbered _ hmem).2
        lia
      have gone : s.feed? (s.lastId + 1) = none := by
        rw [Option.eq_none_iff_forall_ne_some]
        exact fun f hf => fresh (Store.mem_ids_iff.2 ⟨f, hf⟩)
      have out : s.lastId + 1 ∉ s.outbox := fun hmem => fresh (hs.stored _ hmem)
      have unused : ¬ s.lastId + 1 ≤ s.lastId := by lia
      refine .inr ⟨?_, ?_⟩
      · simp [gone, out, unused]
      · simp [gone, Ascending.mem_insert]
    · refine .inl ?_
      have given : i ≤ s.lastId + 1 ↔ i ≤ s.lastId := by lia
      simp [hi, Ascending.mem_insert, given]

/-- A deletion leaves a feed where it stands, or takes it away. -/
theorem of_deleteExpired (s : Store) (now : Int) :
    (s.deleteExpired now).2.standing i = s.standing i ∨
      (s.deleteExpired now).2.standing i = ⟨none, false, (s.standing i).given⟩ := by
  have hbox : (s.deleteExpired now).2.outbox = Ascending.diff s.outbox (s.deleteExpired now).1 :=
    rfl
  unfold Store.standing
  rw [Store.feed?_deleteExpired, hbox]
  by_cases hi : i ∈ (s.deleteExpired now).1
  · refine .inr ?_
    simp [hi, Ascending.mem_diff]
    rfl
  · refine .inl ?_
    simp [hi, Ascending.mem_diff]
    rfl

/-! ## What leaves a standing alone -/

/-- A passive call moves no feed. -/
theorem unmoved_passive {c : Call} (hc : c.isPassive = true) : Unmoved i c := fun s => by
  rw [c.effect_of_passive hc]

/-- A change of one feed does not move another. -/
theorem unmoved_update {c : Call} {j : FeedId} (hj : i ≠ j) (change : Feed → Feed)
    (hid : ∀ f, (change f).id = f.id) (heff : ∀ s : Store, c.effect s = (s.update j change).2) :
    Unmoved i c := fun s => by
  rw [heff, Store.update_snd, of_modify s j change hid, if_neg hj]

/-- The watermark moves no feed. -/
theorem unmoved_advance {j : FeedId} {epoch : Int} : Unmoved i (.advance j epoch) := fun s => by
  simp only [Call.effect, Store.advance]
  split
  · split <;> rfl
  · rfl

/-- Taking one feed out of the outbox does not move another. -/
theorem unmoved_acknowledge {j : FeedId} (hj : i ≠ j) : Unmoved i (.acknowledge j) := fun s => by
  rw [Call.effect, of_acknowledge, decide_eq_true hj, Bool.and_true]

/-- A broadcast moves no feed. -/
theorem unmoved_broadcast {t : Broadcast.Topic} {f : Feed} {c : Call}
    (hc : Broadcast.Makes t f c) : Unmoved i c := by
  cases hc with
  | post => exact fun _ => rfl
  | advance => exact unmoved_advance

/-- Processing one feed does not move another. -/
theorem unmoved_processing {t : Broadcast.Topic} {f : Feed} {c : Call} (hf : f.id ≠ i)
    (hc : Processing.Makes t f c) : Unmoved i c := by
  cases hc with
  | note => exact fun _ => rfl
  | passive hc => exact unmoved_passive hc
  | broadcast hc => exact unmoved_broadcast hc
  | complete =>
    exact unmoved_update (Ne.symm hf) (·.completed f.enriched) (fun _ => rfl) fun _ => rfl
  | bump => exact unmoved_update (Ne.symm hf) Feed.bumped (fun _ => rfl) fun _ => rfl

/-- Handling the entry of one feed does not move another. -/
theorem unmoved_outbox {t : Broadcast.Topic} {j : FeedId} {c : Call} (hj : j ≠ i)
    (hc : Outbox.Makes t j c) : Unmoved i c := by
  cases hc with
  | acknowledge => exact unmoved_acknowledge (Ne.symm hj)
  | passive hc => exact unmoved_passive hc
  | processing hid hc => exact unmoved_processing (hid ▸ hj) hc

/-- A feed stands where it stood after a call that does not move it. -/
theorem standing_perform {c : Call} (hc : Unmoved i c) (outages : Outages) (h : Hub) :
    (c.perform outages h).2.store.standing i = h.store.standing i := by
  by_cases hf : (c.turn outages h).failed
  · rw [c.perform_of_failed outages h hf]
  · rw [c.store_perform_of_not_failed outages h hf, hc]

/-- A call that is not counted and does not move a feed makes no difference to it. -/
theorem spares {c : Call} (hcount : counts c = false) (hc : Unmoved i c) :
    (aspect i counts).Spares c :=
  ⟨hcount, fun outages h => standing_perform hc outages h⟩

/-! ## Where calls lead a standing -/

section Leads

variable {ok : Turn → Prop} {x : Standing} {n : Nat} {α : Type}

/-- A call that is not counted fails and changes nothing, or has its effect. -/
theorem leads_call {c : Call} {next : c.Answer → Program α} {post : α → Standing → Nat → Prop}
    (hcount : counts c = false)
    (failure : ∀ outages h, h.store.standing i = x → ok (c.turn outages h) →
      (c.turn outages h).failed →
        (next (c.perform outages h).1).Leads (aspect i counts) ok post x n)
    (success : ∀ outages h, h.store.standing i = x → ok (c.turn outages h) →
      ¬ (c.turn outages h).failed → (next (c.perform outages h).1).Leads (aspect i counts) ok
        post ((c.effect h.store).standing i) n) :
    (Program.call c next).Leads (aspect i counts) ok post x n := by
  intro outages h hx hok
  have hx' : h.store.standing i = x := hx
  show (next _).Leads _ _ post (Store.standing (c.perform outages h).2.store i)
    (n + (counts c).toNat)
  rw [hcount, Bool.toNat_false, Nat.add_zero]
  by_cases hf : (c.turn outages h).failed
  · rw [c.perform_of_failed outages h hf, hx']
    exact failure outages h hx' hok hf
  · rw [c.store_perform_of_not_failed outages h hf]
    exact success outages h hx' hok hf

/-- A call that moves nothing and is not counted goes on with an answer from the hub it
found. -/
theorem leads_read {c : Call} (hcount : counts c = false) (hc : Unmoved i c)
    {post : α → Standing → Nat → Prop} {next : c.Answer → Program α}
    (hnext : ∀ outages h, h.store.standing i = x → ok (c.turn outages h) →
      (next (c.perform outages h).1).Leads (aspect i counts) ok post x n) :
    (Program.call c next).Leads (aspect i counts) ok post x n := by
  refine leads_call hcount (fun outages h hx hok _ => hnext outages h hx hok) ?_
  intro outages h hx hok _
  rw [hc, hx]
  exact hnext outages h hx hok

/-- A counted call that moves nothing. -/
theorem leads_counted {c : Call} (hcount : counts c = true) (hc : Unmoved i c)
    {post : α → Standing → Nat → Prop} {next : c.Answer → Program α}
    (hnext : ∀ answer, (next answer).Leads (aspect i counts) ok post x (n + 1)) :
    (Program.call c next).Leads (aspect i counts) ok post x n := by
  intro outages h hx _
  have unmoved : (aspect i counts).view (c.perform outages h).2 = x :=
    (standing_perform hc outages h).trans hx
  rw [unmoved]
  show (next _).Leads _ _ _ _ (n + (counts c).toNat)
  rw [hcount]
  exact hnext _

/-- The mark of completion is written, unless the call fails. -/
theorem leads_complete {f : Feed} {p : Payload} (hcount : counts (.complete i p) = false)
    (hf : x.feed = some f) {post : α → Standing → Nat → Prop} {next : Stored Unit → Program α}
    (failure : ∀ e t, ok t → t.call = .complete i p → t.failed →
      (next (.error e)).Leads (aspect i counts) ok post x n)
    (success : (next (.ok ())).Leads (aspect i counts) ok post
      { x with feed := some (f.completed p) } n) :
    (Program.call (.complete i p) next).Leads (aspect i counts) ok post x n := by
  refine leads_call hcount (fun outages h hx hok hfailed => ?_) fun outages h hx _ hdone => ?_
  · obtain ⟨reason, hreason⟩ := id hfailed
    simp only [Call.turn, Call.failure?] at hreason
    cases ha : (Call.perform outages (.complete i p) h).1 with
    | error e => exact failure e _ hok rfl hfailed
    | ok a => rw [ha] at hreason; cases hreason
  · subst hx
    have there : (h.store.feed? i).isSome := by
      rw [show h.store.feed? i = some f from hf]
      rfl
    rw [Call.answer_complete there hdone, Call.effect, Store.complete,
      of_update hf (·.completed p) fun _ => rfl]
    exact success

end Leads

end Standing
end NotificationRelay
