/-
# Lower case in its place

A search puts the term and the texts in lower case apart from each other, and looks for the one as a
run of the other (`Text.occursIn_iff`). Lower case is not put together of its parts: a capital sigma
is `ς` where it ends a word and `σ` elsewhere, so that the form of a part depends on what stands
beside it. `Text.lowerBetween` is the form of a part in its place, and a whole text is put in lower
case part by part if each part is taken in its place (`Text.lowerAfter_append`).

A part has the same form in its place as alone if every capital sigma in it ends a word in both or
in neither (`Text.infix_of_agrees`). So has a part without one, and so has a part that holds of each
of its capital sigmas both neighbours by which that is decided (`Text.agrees_of_enclosed`).
-/
import NotificationRelay.Proofs.Text.Trimming
import NotificationRelay.Text.Lower

namespace NotificationRelay
namespace Text

/-! ## Runs of a text -/

/-- **Looking for a run finds one if there is one.** -/
theorem occursIn_iff {needle hay : List Char} : occursIn needle hay = true ↔ needle <:+: hay := by
  induction hay with
  | nil => rw [occursIn, List.isEmpty_iff, List.infix_nil]
  | cons c hay ih =>
    rw [occursIn, Bool.or_eq_true, List.isPrefixOf_iff_prefix, ih, List.infix_cons_iff]

/-! ## Lower case -/

/-- Every letter is something in lower case. -/
theorem lowerChar_ne_nil (c : Char) : lowerChar c ≠ [] := by
  unfold lowerChar
  split
  · exact List.cons_ne_nil _ _
  · split <;> exact List.cons_ne_nil _ _

/-- Only nothing is nothing in lower case. -/
theorem lowerChars_eq_nil_iff {cs : List Char} : lowerChars cs = [] ↔ cs = [] := by
  cases cs with
  | nil => exact iff_of_true rfl rfl
  | cons c cs =>
    refine iff_of_false (fun none => ?_) (List.cons_ne_nil _ _)
    have first := (List.append_eq_nil_iff.1 none).1
    split at first
    · cases first
    · exact lowerChar_ne_nil c first

/-- The lower-case form of a part of a text between what precedes it, last character first, and what
follows it. -/
def lowerBetween (before : List Char) : (cs after : List Char) → List Char
  | [], _ => []
  | c :: cs, after =>
    (if c = 'Σ' then [if endsWord before (cs ++ after) then 'ς' else 'σ'] else lowerChar c)
      ++ lowerBetween (c :: before) cs after

theorem lowerBetween_nil (before cs : List Char) :
    lowerBetween before cs [] = lowerAfter before cs := by
  induction cs generalizing before with
  | nil => rfl
  | cons c cs ih => rw [lowerBetween, lowerAfter, ih, List.append_nil]

/-- **A text is put in lower case part by part**, each part in its place. -/
theorem lowerAfter_append (before cs after : List Char) : lowerAfter before (cs ++ after) =
    lowerBetween before cs after ++ lowerAfter (cs.reverse ++ before) after := by
  induction cs generalizing before with
  | nil => rfl
  | cons c cs ih =>
    rw [List.cons_append, lowerAfter, ih, lowerBetween, List.reverse_cons, List.append_assoc,
      List.append_assoc]
    rfl

/-- Two places do not differ for a part if every capital sigma in it ends a word in both or in
neither. -/
theorem lowerBetween_congr {before before' after after' cs : List Char}
    (same : ∀ p q, cs = p ++ 'Σ' :: q → endsWord (p.reverse ++ before) (q ++ after) =
      endsWord (p.reverse ++ before') (q ++ after')) :
    lowerBetween before cs after = lowerBetween before' cs after' := by
  induction cs generalizing before before' with
  | nil => rfl
  | cons c cs ih =>
    -- The character that is passed precedes the rest, on both sides.
    have rest : lowerBetween (c :: before) cs after = lowerBetween (c :: before') cs after' := by
      refine ih fun p q split => ?_
      have here := same (c :: p) q (by rw [split, List.cons_append])
      rwa [List.reverse_cons, List.append_assoc, List.append_assoc] at here
    rw [lowerBetween, lowerBetween, rest]
    split
    · next sigma =>
      have first : endsWord before (cs ++ after) = endsWord before' (cs ++ after') :=
        same [] cs (by rw [sigma, List.nil_append])
      rw [first]
    · rfl

/-- Between two others a part of a text has the capital sigmas that end a word exactly where it has
them alone. -/
def Agrees (before part after : List Char) : Prop :=
  ∀ p q, part = p ++ 'Σ' :: q →
    endsWord (p.reverse ++ before.reverse) (q ++ after) = endsWord p.reverse q

variable {before part after : List Char}

/-- **A part whose capital sigmas agree is found again in lower case.** -/
theorem infix_of_agrees (agrees : Agrees before part after) :
    lowerChars part <:+: lowerChars (before ++ part ++ after) := by
  have same : lowerBetween before.reverse part after = lowerChars part := by
    rw [lowerChars, ← lowerBetween_nil]
    refine lowerBetween_congr fun p q split => ?_
    rw [List.append_nil, List.append_nil]
    exact agrees p q split
  refine ⟨lowerBetween [] before (part ++ after),
    lowerAfter (part.reverse ++ before.reverse) after, ?_⟩
  show _ = lowerAfter [] (before ++ part ++ after)
  rw [List.append_assoc before, lowerAfter_append, List.append_nil, lowerAfter_append, same,
    List.append_assoc]

/-- What comes after a character that is not looked through does not matter. -/
theorem startsCased_append {cs : List Char} (decided : ∃ c ∈ cs, isCaseIgnorable c = false)
    (more : List Char) : startsCased (cs ++ more) = startsCased cs := by
  unfold startsCased
  induction cs with
  | nil => exact absurd decided (by simp)
  | cons c cs ih =>
    cases hc : isCaseIgnorable c with
    | false => simp [hc]
    | true =>
      have later : ∃ d ∈ cs, isCaseIgnorable d = false := by
        obtain ⟨d, hd, out⟩ := decided
        rcases List.mem_cons.1 hd with rfl | hd
        · exact absurd (hc.symm.trans out) Bool.noConfusion
        · exact ⟨d, hd, out⟩
      simpa [hc] using ih later

/-- A part agrees with any place if there is on both sides of each of its capital sigmas, within the
part, a character that is not looked through. -/
theorem agrees_of_enclosed (enclosed : ∀ p q, part = p ++ 'Σ' :: q →
    (∃ c ∈ p, isCaseIgnorable c = false) ∧ ∃ c ∈ q, isCaseIgnorable c = false)
    (before after : List Char) : Agrees before part after := by
  intro p q split
  obtain ⟨⟨c, hc, out⟩, right⟩ := enclosed p q split
  have left : ∃ c ∈ p.reverse, isCaseIgnorable c = false := ⟨c, List.mem_reverse.2 hc, out⟩
  unfold endsWord
  rw [startsCased_append left, startsCased_append right]

end Text
end NotificationRelay
