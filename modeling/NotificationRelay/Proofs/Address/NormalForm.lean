/-
# The canonical form of an address

A canonical address is its own canonical form (`Address.normalize_normalize`): it has no blanks
to cut and no capitals (`Address.Plain`), and what stands after the namespace of an account is
the account itself. So a part of the relay may normalize an address that another one has
normalized already.
-/
import Mathlib.Data.List.TakeWhile
import NotificationRelay.Address
import NotificationRelay.Proofs.Text.Casing

namespace NotificationRelay
namespace Address

/-- A character of a canonical address: neither blank nor a capital letter. -/
def Plain (c : Char) : Prop := Text.isBlank c = false ∧ Text.asciiLowerChar c = c

instance (c : Char) : Decidable (Plain c) := inferInstanceAs (Decidable (_ ∧ _))

/-- The small letter of a character that is not blank is plain. -/
theorem plain_asciiLowerChar {c : Char} (hc : Text.isBlank c = false) :
    Plain (Text.asciiLowerChar c) :=
  ⟨(Text.isBlank_asciiLowerChar c).trans hc, Text.asciiLowerChar_asciiLowerChar c⟩

/-- The account space is plain. -/
theorem plain_accountSpace : ∀ c ∈ accountSpace, Plain c := by
  have all : accountSpace.all (fun c => decide (Plain c)) = true := by decide
  exact fun c hc => of_decide_eq_true (List.all_eq_true.1 all c hc)

/-- A hexadecimal digit is no colon. -/
theorem ne_colon_of_isHexDigit {c : Char} (hc : Text.isHexDigit c = true) : c ≠ ':' := by
  rintro rfl
  exact absurd hc (by decide)

/-- Nothing is cut from a text without blanks, and nothing is made small. -/
theorem trimChars_of_plain {cs : List Char} (hcs : ∀ c ∈ cs, Plain c) : Text.trimChars cs = cs := by
  have kept : ∀ l : List Char, (∀ c ∈ l, Plain c) → l.dropWhile Text.isBlank = l := fun l hl => by
    cases l with
    | nil => rfl
    | cons c rest => rw [List.dropWhile_cons_of_neg (by simp [(hl c List.mem_cons_self).1])]
  unfold Text.trimChars Text.trimRight Text.trimLeft
  rw [kept cs hcs, kept _ fun c hc => hcs c (List.mem_reverse.1 hc), List.reverse_reverse]

/-- Plain letters are in lower case. -/
theorem asciiLower_of_plain {cs : List Char} (hcs : ∀ c ∈ cs, Plain c) :
    Text.asciiLower cs = cs := by
  unfold Text.asciiLower
  rw [List.map_congr_left fun c hc => (hcs c hc).2, List.map_id']

/-- An account has no colon, so that it is its own last segment. -/
theorem lastSegment_of_isAccount {cs : List Char} (hcs : isAccount cs = true) :
    lastSegment cs = cs := by
  unfold isAccount at hcs
  simp only [Bool.and_eq_true, List.all_eq_true] at hcs
  obtain ⟨⟨mark, -⟩, digits⟩ := hcs
  have markPlain : hexMark.all (· != ':') = true := by decide
  obtain ⟨rest, rfl⟩ := List.isPrefixOf_iff_prefix.1 mark
  have noColon : ∀ c ∈ (hexMark ++ rest).reverse, (c != ':') = true := fun c hc => by
    rcases List.mem_append.1 (List.mem_reverse.1 hc) with hc | hc
    · exact List.all_eq_true.1 markPlain c hc
    · simpa using ne_colon_of_isHexDigit (digits c hc)
  unfold lastSegment
  rw [List.takeWhile_eq_self_iff.2 noColon, List.reverse_reverse]

/-- The canonical form of small letters without blanks is its own canonical form, and consists
of such letters. -/
theorem canonical?_canonical? {cs as : List Char} (hcs : ∀ c ∈ cs, Plain c)
    (h : canonical? cs = some as) : (∀ c ∈ as, Plain c) ∧ as ≠ [] ∧ canonical? as = some as := by
  have account : ∀ account, isAccount account = true → (∀ c ∈ account, Plain c) →
      (∀ c ∈ accountSpace ++ account, Plain c) ∧ accountSpace ++ account ≠ [] ∧
        canonical? (accountSpace ++ account) = some (accountSpace ++ account) := by
    intro account hacc hplain
    have named : accountSpace ≠ [] := by decide
    refine ⟨fun c hc => ?_, List.append_ne_nil_of_left_ne_nil named _, ?_⟩
    · rcases List.mem_append.1 hc with hc | hc
      · exact plain_accountSpace c hc
      · exact hplain c hc
    · unfold canonical?
      rw [if_pos (List.isPrefixOf_iff_prefix.2 (List.prefix_append _ _)), List.drop_left,
        lastSegment_of_isAccount hacc]
      exact if_pos hacc
  unfold canonical? at h
  split at h
  · simp only [Option.ite_none_right_eq_some, Option.some.injEq] at h
    obtain ⟨hacc, rfl⟩ := h
    refine account _ hacc fun c hc => hcs c ?_
    have sub : lastSegment (cs.drop accountSpace.length) ⊆ cs.drop accountSpace.length :=
      fun c hc => List.mem_reverse.1 ((List.takeWhile_sublist _).subset (List.mem_reverse.1 hc))
    exact List.mem_of_mem_drop (sub hc)
  · next hspace =>
    split at h
    · simp only [Option.ite_none_right_eq_some, Option.some.injEq] at h
      obtain ⟨hacc, rfl⟩ := h
      exact account cs hacc hcs
    · next hmark =>
      simp only [Option.ite_none_right_eq_some, Option.some.injEq] at h
      obtain ⟨hname, rfl⟩ := h
      refine ⟨hcs, ?_, ?_⟩
      · rintro rfl
        exact absurd hname (by decide)
      · unfold canonical?
        rw [if_neg hspace, if_neg hmark, if_pos hname]

/-- Canonical forms stay as they are. -/
theorem normalizeChars_normalizeChars {raw as : List Char} (h : normalizeChars raw = some as) :
    normalizeChars as = some as := by
  simp only [normalizeChars] at h
  split at h
  · cases h
  · next hraw =>
    simp only [Bool.or_eq_true, not_or, List.any_eq_true, not_exists, not_and,
      Bool.not_eq_true] at hraw
    have small : ∀ c ∈ Text.asciiLower (Text.trimChars raw), Plain c := fun c hc => by
      obtain ⟨b, hb, rfl⟩ := List.mem_map.1 hc
      exact plain_asciiLowerChar (hraw.2 b hb)
    obtain ⟨plain, filled, fixed⟩ := canonical?_canonical? small h
    have noBlank : ¬ (as.isEmpty || as.any Text.isBlank) = true := by
      simp only [Bool.or_eq_true, List.isEmpty_iff, List.any_eq_true, not_or, not_exists, not_and,
        Bool.not_eq_true]
      exact ⟨filled, fun c hc => (plain c hc).1⟩
    simp only [normalizeChars, trimChars_of_plain plain, asciiLower_of_plain plain]
    rw [if_neg noBlank, fixed]

/-- **A canonical address is its own canonical form.** -/
theorem normalize_normalize {raw address : String} (h : normalize raw = some address) :
    normalize address = some address := by
  unfold normalize at h ⊢
  obtain ⟨as, has, rfl⟩ := Option.map_eq_some_iff.1 h
  rw [String.toList_ofList, normalizeChars_normalizeChars has]
  rfl

end Address
end NotificationRelay
