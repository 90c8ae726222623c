/-
# Texts between blanks

Trimming cuts off the blanks at both ends of a text and nothing else: what is left stands in the
text between blanks only, and has none at its own ends (`Text.isTrimmed_trim`). Nothing is left
exactly of blanks (`Text.trimChars_eq_nil_iff`).
-/
import Mathlib.Data.List.TakeWhile
import NotificationRelay.Text.Blank

namespace NotificationRelay
namespace Text

/-- Nothing is left after trimming of blanks only. -/
theorem trimChars_eq_nil_iff {cs : List Char} : trimChars cs = [] ↔ ∀ c ∈ cs, isBlank c = true := by
  unfold trimChars trimRight trimLeft
  rw [List.reverse_eq_nil_iff, List.dropWhile_eq_nil_iff]
  constructor
  · intro blank
    have all : ∀ c ∈ cs.dropWhile isBlank, isBlank c = true := fun c hc =>
      blank c (List.mem_reverse.2 hc)
    rw [← List.takeWhile_append_dropWhile (p := isBlank) (l := cs)]
    exact List.forall_mem_append.2 ⟨fun c hc => List.mem_takeWhile_imp hc, all⟩
  · exact fun blank c hc => blank c ((List.dropWhile_sublist _).subset (List.mem_reverse.1 hc))

/-- There is something else than blanks in a text. -/
def NonBlank (s : String) : Prop := ∃ c ∈ s.toList, isBlank c = false

/-- A text stands in another between blanks only, and has none at its own ends. -/
structure IsTrimmed (s t : String) : Prop where
  between : ∃ before after, s.toList = before ++ t.toList ++ after ∧
    (∀ c ∈ before, isBlank c = true) ∧ ∀ c ∈ after, isBlank c = true
  first : ∀ c ∈ t.toList.head?, isBlank c = false
  last : ∀ c ∈ t.toList.getLast?, isBlank c = false

/-- What is left when blanks in front are dropped does not begin with one. -/
theorem head?_dropWhile_isBlank (cs : List Char) :
    ∀ c ∈ (cs.dropWhile isBlank).head?, isBlank c = false := fun c hc => by
  have first := List.head?_dropWhile_not isBlank cs
  rwa [Option.mem_def.1 hc] at first

/-- A text is trimmed when it has been. -/
theorem isTrimmed_trim (s : String) : IsTrimmed s (trim s) := by
  have cut : ∀ cs : List Char, ∃ blanks, cs = blanks ++ cs.dropWhile isBlank ∧
      ∀ c ∈ blanks, isBlank c = true := fun cs =>
    ⟨_, (List.takeWhile_append_dropWhile).symm, fun c hc => List.mem_takeWhile_imp hc⟩
  obtain ⟨before, left, hbefore⟩ := cut s.toList
  obtain ⟨after, right, hafter⟩ := cut (trimLeft s.toList).reverse
  have whole : trimLeft s.toList = (trim s).toList ++ after.reverse := by
    rw [← List.reverse_inj, trim, String.toList_ofList, List.reverse_append,
      List.reverse_reverse, trimChars, trimRight, List.reverse_reverse]
    exact right
  refine ⟨⟨before, after.reverse, ?_, hbefore, fun c hc => hafter c (List.mem_reverse.1 hc)⟩,
    fun c hc => ?_, fun c hc => ?_⟩
  · rw [List.append_assoc, ← whole]
    exact left
  · refine head?_dropWhile_isBlank s.toList c ?_
    show c ∈ (trimLeft s.toList).head?
    rw [whole, List.head?_append, Option.mem_def, Option.mem_def.1 hc]
    rfl
  · refine head?_dropWhile_isBlank (trimLeft s.toList).reverse c ?_
    rw [← List.getLast?_reverse]
    rwa [trim, String.toList_ofList] at hc

/-- A text is not blank if something is left of it when it has been trimmed. -/
theorem nonBlank_iff {s : String} : NonBlank s ↔ trim s ≠ "" := by
  rw [Ne, ← String.toList_eq_nil_iff, trim, String.toList_ofList, trimChars_eq_nil_iff]
  simp [NonBlank]

end Text
end NotificationRelay
