/-
# The case of ASCII letters

A capital ASCII letter and its small letter are told apart by few tables: neither is blank, both
have a case, and neither is looked through in search of the end of a word
(`Text.asciiLowerChar_cases` reduces each of these to the twenty-six capitals). So
trimming commutes with putting ASCII letters in small ones (`Text.trimChars_asciiLower`), and the
lower-case form of a text does not depend on the case of its ASCII letters, not even where they
stand beside a capital sigma (`Text.lowerChars_asciiLower`). Texts that differ in nothing else
(`Text.Recased`) have the same lower-case form.
-/
import NotificationRelay.Text.Lower
import NotificationRelay.Text.Numeral

namespace NotificationRelay
namespace Text

/-! ## One character -/

/-- What relates every capital to its small letter, and every character to itself, relates every
character to its small letter. -/
theorem asciiLowerChar_cases {motive : Char → Char → Prop}
    (capital : ∀ n < 91, 65 ≤ n → motive (Char.ofNat n) (Char.ofNat (n + 32)))
    (other : ∀ c, motive c c) (c : Char) : motive c (asciiLowerChar c) := by
  unfold asciiLowerChar
  split
  · next isCapital =>
    have related := capital c.toNat (Nat.lt_succ_of_le isCapital.2) isCapital.1
    rwa [Char.ofNat_toNat] at related
  · exact other c

/-- A letter is blank in lower case if it was before. -/
theorem isBlank_asciiLowerChar (c : Char) : isBlank (asciiLowerChar c) = isBlank c :=
  asciiLowerChar_cases (motive := fun c d => isBlank d = isBlank c) (by decide) (fun _ => rfl) c

/-- A letter has a case in lower case if it had one before. -/
theorem isCased_asciiLowerChar (c : Char) : isCased (asciiLowerChar c) = isCased c :=
  asciiLowerChar_cases (motive := fun c d => isCased d = isCased c) (by decide +kernel)
    (fun _ => rfl) c

/-- A letter is looked through in lower case if it was before. -/
theorem isCaseIgnorable_asciiLowerChar (c : Char) :
    isCaseIgnorable (asciiLowerChar c) = isCaseIgnorable c :=
  asciiLowerChar_cases (motive := fun c d => isCaseIgnorable d = isCaseIgnorable c)
    (by decide +kernel) (fun _ => rfl) c

/-- Lower case does not depend on whether ASCII letters were put in it before. -/
theorem lowerChar_asciiLowerChar (c : Char) : lowerChar (asciiLowerChar c) = lowerChar c :=
  asciiLowerChar_cases (motive := fun c d => lowerChar d = lowerChar c) (by decide +kernel)
    (fun _ => rfl) c

/-- A capital sigma is not an ASCII letter. -/
theorem asciiLowerChar_eq_sigma_iff (c : Char) : asciiLowerChar c = 'Σ' ↔ c = 'Σ' :=
  asciiLowerChar_cases (motive := fun c d => d = 'Σ' ↔ c = 'Σ') (by decide) (fun _ => .rfl) c

/-- A letter in lower case stays as it is. -/
theorem asciiLowerChar_asciiLowerChar (c : Char) :
    asciiLowerChar (asciiLowerChar c) = asciiLowerChar c :=
  asciiLowerChar_cases (motive := fun c d => asciiLowerChar d = asciiLowerChar c) (by decide)
    (fun _ => rfl) c

/-! ## Texts -/

theorem asciiLower_cons (c : Char) (cs : List Char) :
    asciiLower (c :: cs) = asciiLowerChar c :: asciiLower cs := rfl

/-- Letters are put in lower case in any order. -/
theorem asciiLower_reverse (cs : List Char) : asciiLower cs.reverse = (asciiLower cs).reverse :=
  List.map_reverse

/-- What is cut off in front does not depend on the case of ASCII letters if the test does not. -/
theorem dropWhile_asciiLower {test : Char → Bool}
    (same : ∀ c, test (asciiLowerChar c) = test c) (cs : List Char) :
    (asciiLower cs).dropWhile test = asciiLower (cs.dropWhile test) := by
  unfold asciiLower
  rw [List.dropWhile_map]
  congr 2
  exact funext same

/-- **Trimming takes no notice of the case of ASCII letters.** -/
theorem trimChars_asciiLower (cs : List Char) :
    trimChars (asciiLower cs) = asciiLower (trimChars cs) := by
  unfold trimChars trimRight trimLeft
  rw [dropWhile_asciiLower isBlank_asciiLowerChar, ← asciiLower_reverse,
    dropWhile_asciiLower isBlank_asciiLowerChar, ← asciiLower_reverse]

/-- Whether a text begins with a cased letter does not depend on ASCII case. -/
theorem startsCased_asciiLower (cs : List Char) :
    startsCased (asciiLower cs) = startsCased cs := by
  unfold startsCased
  rw [dropWhile_asciiLower isCaseIgnorable_asciiLowerChar]
  cases cs.dropWhile isCaseIgnorable with
  | nil => rfl
  | cons c _ => exact isCased_asciiLowerChar c

/-- Whether a letter ends a word does not depend on the ASCII case around it. -/
theorem endsWord_asciiLower (before after : List Char) :
    endsWord (asciiLower before) (asciiLower after) = endsWord before after := by
  unfold endsWord
  rw [startsCased_asciiLower, startsCased_asciiLower]

/-- How a text continues in lower case does not depend on ASCII case. -/
theorem lowerAfter_asciiLower (before cs : List Char) :
    lowerAfter (asciiLower before) (asciiLower cs) = lowerAfter before cs := by
  induction cs generalizing before with
  | nil => rfl
  | cons c cs ih =>
    have first : (if asciiLowerChar c = 'Σ' then
          [if endsWord (asciiLower before) (asciiLower cs) then 'ς' else 'σ']
        else lowerChar (asciiLowerChar c)) =
        if c = 'Σ' then [if endsWord before cs then 'ς' else 'σ'] else lowerChar c := by
      simp only [asciiLowerChar_eq_sigma_iff, endsWord_asciiLower, lowerChar_asciiLowerChar]
    rw [asciiLower_cons, lowerAfter, lowerAfter, first, ← asciiLower_cons, ih]

/-- **The lower-case form of a text takes no notice of the case of its ASCII letters.** -/
theorem lowerChars_asciiLower (cs : List Char) : lowerChars (asciiLower cs) = lowerChars cs :=
  lowerAfter_asciiLower [] cs

/-- The same text but for the case of ASCII letters. -/
def Recased (s s' : String) : Prop := asciiLower s.toList = asciiLower s'.toList

instance (s s' : String) : Decidable (Recased s s') := inferInstanceAs (Decidable (_ = _))

namespace Recased

variable {s s' : String}

/-- Texts that differ in ASCII case have the same letters in lower case. -/
theorem lowerChars_eq (h : Recased s s') : lowerChars s'.toList = lowerChars s.toList := by
  rw [← lowerChars_asciiLower s'.toList, ← h, lowerChars_asciiLower]

/-- Texts that differ in ASCII case are the same in lower case. -/
theorem lower_eq (h : Recased s s') : lower s' = lower s := by
  rw [lower, lower, h.lowerChars_eq]

/-- Texts that differ in ASCII case still do when blanks around them are dropped. -/
theorem trim (h : Recased s s') : Recased (Text.trim s) (Text.trim s') := by
  unfold Recased Text.trim
  rw [String.toList_ofList, String.toList_ofList, ← trimChars_asciiLower, h, trimChars_asciiLower]

end Recased

end Text
end NotificationRelay
