/-
# The watermark

The watermark of the topic moves only when a feed asks to be let through, and then to the
highest epoch that has asked so far (`Turn.Chain.mark_eq`), so it never goes down
(`Turn.Chain.mark_le`). A feed is let through if the watermark is not above its epoch
(`Store.Admits`); an epoch stays admitted as long as no greater one is let through
(`Turn.Chain.admits`).
-/
import NotificationRelay.Proofs.Store.Coherence

namespace NotificationRelay

/-- The watermark of the topic. -/
def Store.mark (s : Store) : Option Int := s.watermark? Broadcast.watermarkKey

/-- The epoch with which a turn reached the watermark, let through or not. -/
def Turn.reached? (t : Turn) : Option Int :=
  match t.call, t.answer with
  | .advance _ epoch, .ok _ => some epoch
  | _, _ => none

/-- The feed that a turn let through, and its epoch. -/
def Turn.passed? (t : Turn) : Option (FeedId × Int) :=
  match t.call, t.answer with
  | .advance i epoch, .ok true => some (i, epoch)
  | _, _ => none

/-- A feed that is let through is reached by the watermark. -/
theorem Turn.reached?_of_passed? {t : Turn} {i : FeedId} {e : Int}
    (ht : t.passed? = some (i, e)) : t.reached? = some e := by
  obtain ⟨h, c, a, h'⟩ := t
  cases c with
  | advance j epoch =>
    cases a with
    | error => cases ht
    | ok passed =>
      cases passed with
      | false => cases ht
      | true =>
        cases ht
        rfl
  | _ => cases ht

/-- A feed is let through by the call that asks for it. -/
theorem Turn.call_of_passed? {t : Turn} {i : FeedId} {e : Int}
    (ht : t.passed? = some (i, e)) : t.call = .advance i e := by
  unfold passed? at ht
  split at ht
  · next hcall _ =>
    cases ht
    exact hcall
  · cases ht

/-- The highest of epochs, the first of which may be missing. -/
def highest (first : Option Int) (epochs : List Int) : Option Int :=
  (first.toList ++ epochs).max?

theorem highest_nil (w : Option Int) : highest w [] = w := by
  cases w <;> rfl

theorem highest_append (w : Option Int) (es fs : List Int) :
    highest w (es ++ fs) = highest (highest w es) fs := by
  unfold highest
  rw [← List.append_assoc]
  cases w.toList ++ es with
  | nil => rfl
  | cons e es => rw [List.cons_append, List.max?_cons', List.max?_cons', List.foldl_append]; rfl

/-- The highest is not below the first value. -/
theorem le_highest {w : Int} {es : List Int} : ∃ v, highest (some w) es = some v ∧ w ≤ v := by
  have hmax : highest (some w) es = some (es.foldl max w) := rfl
  exact ⟨_, hmax, (List.max?_le_iff hmax).1 (Int.le_refl _) w List.mem_cons_self⟩

/-- The highest is not below any of the values. -/
theorem le_highest_of_mem {w : Option Int} {es : List Int} {e : Int} (he : e ∈ es) :
    ∃ v, highest w es = some v ∧ e ≤ v := by
  have hmem : e ∈ w.toList ++ es := List.mem_append_right _ he
  cases hmax : (w.toList ++ es).max? with
  | none =>
    rw [List.max?_eq_none_iff.1 hmax] at hmem
    cases hmem
  | some v => exact ⟨v, hmax, (List.max?_le_iff hmax).1 (Int.le_refl v) e hmem⟩

namespace Store

variable (s : Store) (epoch : Int)

/-- When a feed has asked the watermark is the higher of what it was and the epoch. -/
theorem mark_advance :
    (s.advance Broadcast.watermarkKey epoch).2.mark = highest s.mark [epoch] := by
  unfold advance mark
  cases hw : s.watermark? Broadcast.watermarkKey with
  | none => simp [setWatermark, watermark?, Table.get?_put, highest]
  | some w =>
    show (if epoch < w then _ else _ : Bool × Store).2.watermark? _ = some (max w epoch)
    split
    · next hlt => rw [hw, Int.max_eq_left (Int.le_of_lt hlt)]
    · next hle =>
      rw [Int.max_eq_right (Int.not_lt.1 hle)]
      simp [setWatermark, watermark?, Table.get?_put]

/-- The watermark lets an epoch through. -/
def Admits : Prop := ∀ w, s.mark = some w → w ≤ epoch

/-- A feed is let through if the watermark is not above its epoch. -/
theorem advance_fst_iff : (s.advance Broadcast.watermarkKey epoch).1 = true ↔ s.Admits epoch := by
  unfold advance Admits mark
  cases s.watermark? Broadcast.watermarkKey with
  | none => simp
  | some w =>
    show (if epoch < w then _ else _ : Bool × Store).1 = true ↔ _
    split
    · next hlt => simpa using hlt
    · next hle => simpa using hle

/-- A feed that is refused leaves the store as it is. -/
theorem advance_snd_of_refused (h : (s.advance Broadcast.watermarkKey epoch).1 = false) :
    (s.advance Broadcast.watermarkKey epoch).2 = s := by
  unfold advance at *
  split at h
  · split at h
    · next hlt => rw [if_pos hlt]
    · cases h
  · cases h

/-- A feed that is let through leaves its epoch on the watermark. -/
theorem mark_advance_of_passed (h : (s.advance Broadcast.watermarkKey epoch).1 = true) :
    (s.advance Broadcast.watermarkKey epoch).2.mark = some epoch := by
  unfold advance mark at *
  split at h
  · split at h
    · cases h
    · next hle => simp [hle, setWatermark, watermark?, Table.get?_put]
  · simp [setWatermark, watermark?, Table.get?_put]

end Store

/-- An answer of the watermark, unless the call fails. -/
theorem Call.answer_advance {outages : Outages} {h : Hub} {i : FeedId} {epoch : Int}
    (hf : ¬ (Call.turn (.advance i epoch) outages h).failed) :
    (Call.perform outages (.advance i epoch) h).1 =
      .ok (h.store.advance Broadcast.watermarkKey epoch).1 := by
  simp only [perform, Outages.guard, no_outage _ outages h rfl hf, succeed]

/-- No call moves the watermark but the advance of a feed. -/
theorem Call.mark_effect {c : Call} (hc : ∀ i e, c ≠ .advance i e) (s : Store) :
    (c.effect s).mark = s.mark := by
  cases c with
  | advance i e => exact absurd rfl (hc i e)
  | insert d =>
    simp only [effect, Store.insert]
    split <;> rfl
  | complete i p => rw [effect, Store.complete, Store.update_snd]; rfl
  | bump i => rw [effect, Store.bump, Store.update_snd]; rfl
  | _ => rfl

/-- No other call moves the watermark. -/
theorem Call.mark_perform_of_other {c : Call} (hc : ∀ i e, c ≠ .advance i e) (outages : Outages)
    (h : Hub) : (c.perform outages h).2.store.mark = h.store.mark := by
  by_cases hf : (c.turn outages h).failed
  · rw [c.perform_of_failed outages h hf]
  · rw [c.store_perform_of_not_failed outages h hf, c.mark_effect hc]

/-- A call leaves the watermark at the higher of what it was and the epoch that it has reached. -/
theorem Call.mark_perform (c : Call) (outages : Outages) (h : Hub) :
    (c.perform outages h).2.store.mark =
      highest h.store.mark (c.turn outages h).reached?.toList := by
  by_cases hc : ∃ i e, c = .advance i e
  · obtain ⟨i, e, rfl⟩ := hc
    cases ho : outages (.advance i e) with
    | some reason => simp [perform, turn, Turn.reached?, Outages.guard, ho, highest_nil]
    | none =>
      simp only [perform, turn, Turn.reached?, Outages.guard, ho, succeed]
      exact h.store.mark_advance e
  · have other : ∀ i e, c ≠ .advance i e := fun i e hce => hc ⟨i, e, hce⟩
    have unreached : (c.turn outages h).reached? = none := by
      cases c with
      | advance i e => exact absurd rfl (other i e)
      | _ => rfl
    rw [unreached, Option.toList_none, highest_nil, c.mark_perform_of_other other]

/-- A turn leaves the watermark at the higher of what it was and the epoch that it has reached. -/
theorem Turn.mark_after {t : Turn} (ht : t.Genuine) :
    t.after.store.mark = highest t.before.store.mark t.reached?.toList := by
  obtain ⟨outages, ht⟩ := ht
  rw [ht]
  exact t.call.mark_perform outages t.before

namespace Turn.Chain

variable {s s' : Store} {ts : List Turn}

/-- **The watermark is the highest epoch so far.** -/
theorem mark_eq (h : Chain s ts s') : s'.mark = highest s.mark (ts.filterMap Turn.reached?) := by
  induction h with
  | nil s => exact (highest_nil s.mark).symm
  | @cons t ts s' genuine _ ih =>
    have split : (t :: ts).filterMap Turn.reached? =
        t.reached?.toList ++ ts.filterMap Turn.reached? := by
      rw [List.filterMap_cons]
      cases t.reached? <;> rfl
    rw [ih, Turn.mark_after genuine, split, highest_append]

/-- The watermark never goes down. -/
theorem mark_le (h : Chain s ts s') {w : Int} (hw : s.mark = some w) :
    ∃ w', s'.mark = some w' ∧ w ≤ w' := by
  rw [h.mark_eq, hw]
  exact le_highest

end Turn.Chain

/-- The watermark moves only to the epoch of a feed that is let through. -/
theorem Turn.mark_after_of_passed {t : Turn} (ht : t.Genuine) :
    t.after.store.mark = t.before.store.mark ∨
      ∃ i e, t.passed? = some (i, e) ∧ t.after.store.mark = some e := by
  obtain ⟨outages, ht⟩ := ht
  obtain ⟨h, c, _, _⟩ := t
  rw [ht]
  by_cases hc : ∃ i e, c = .advance i e
  · obtain ⟨i, e, rfl⟩ := hc
    show (Call.perform outages (.advance i e) h).2.store.mark = h.store.mark ∨ ∃ j d,
      (Call.turn (.advance i e) outages h).passed? = some (j, d) ∧
        (Call.perform outages (.advance i e) h).2.store.mark = some d
    cases ho : outages (.advance i e) with
    | some reason => simp [Call.perform, Outages.guard, ho]
    | none =>
      simp only [Call.turn, Call.perform, Turn.passed?, Outages.guard, ho, succeed]
      cases hpass : (h.store.advance Broadcast.watermarkKey e).1 with
      | true => exact .inr ⟨i, e, rfl, h.store.mark_advance_of_passed e hpass⟩
      | false => exact .inl (by rw [h.store.advance_snd_of_refused e hpass])
  · refine .inl ?_
    exact c.mark_perform_of_other (fun i e hce => hc ⟨i, e, hce⟩) outages h

/-- An epoch stays admitted as long as no greater one is let through. -/
theorem Turn.Chain.admits {s s' : Store} {ts : List Turn} {epoch : Int} (h : Chain s ts s')
    (hpass : ∀ t ∈ ts, ∀ i e, t.passed? = some (i, e) → e ≤ epoch) (hs : s.Admits epoch) :
    (∀ t ∈ ts, t.before.store.Admits epoch) ∧ s'.Admits epoch := by
  induction h with
  | nil => exact ⟨fun t ht => (nomatch ht), hs⟩
  | @cons t ts s' genuine rest ih =>
    have after : t.after.store.Admits epoch := fun w hw => by
      rcases Turn.mark_after_of_passed genuine with hsame | ⟨i, e, hpassed, hmark⟩
      · exact hs w (hsame ▸ hw)
      · obtain rfl : e = w := Option.some.inj (hmark.symm.trans hw)
        exact hpass t List.mem_cons_self i e hpassed
    obtain ⟨hturns, hlast⟩ := ih (fun u hu => hpass u (List.mem_cons_of_mem _ hu)) after
    refine ⟨fun u hu => ?_, hlast⟩
    rcases List.mem_cons.1 hu with rfl | hu
    · exact hs
    · exact hturns u hu

/-- A feed that asks is let through if the watermark admits its epoch, unless the call fails. -/
theorem Turn.passed?_iff {t : Turn} (ht : t.Genuine) {i : FeedId} {epoch : Int}
    (hcall : t.call = .advance i epoch) (hf : ¬ t.failed) :
    t.passed? = some (i, epoch) ↔ t.before.store.Admits epoch := by
  obtain ⟨outages, ht⟩ := ht
  rw [hcall] at ht
  rw [← Store.advance_fst_iff]
  rw [ht] at hf ⊢
  simp only [passed?, Call.turn, Call.answer_advance hf]
  cases (t.before.store.advance Broadcast.watermarkKey epoch).1 <;> simp

/-- **Who is let through.** Where its epoch was admitted at first, a feed that asks is let
through unless one of greater epoch has been. -/
theorem Turn.Chain.passed?_iff {s s' : Store} {us vs : List Turn} {t : Turn} {i : FeedId}
    {epoch : Int} (h : Chain s (us ++ t :: vs) s') (hs : s.Admits epoch)
    (hcall : t.call = .advance i epoch) (hf : ¬ t.failed) :
    t.passed? = some (i, epoch) ↔
      ∀ u ∈ us, ∀ j e, u.passed? = some (j, e) → e ≤ epoch := by
  obtain ⟨s₁, before, after⟩ := h.of_append
  cases after with
  | cons genuine rest =>
    rw [Turn.passed?_iff genuine hcall hf]
    constructor
    · intro admits u hu j e hpass
      have reached : e ∈ us.filterMap Turn.reached? :=
        List.mem_filterMap.2 ⟨u, hu, Turn.reached?_of_passed? hpass⟩
      obtain ⟨w, hw, hle⟩ := le_highest_of_mem (w := s.mark) reached
      exact Int.le_trans hle (admits w (before.mark_eq.trans hw))
    · exact fun lower => (before.admits lower hs).2

end NotificationRelay
