/-
# Which spellings are one address

The three forms in which an address may be written come together in one space of canonical forms.
Small letters without blanks name an account (`Address.Names`), alone or behind the segments of a
chain, or they are a name of their own (`Address.IsForeign`), and they have a canonical form exactly
if they do one or the other (`Address.canonical?_eq_some_iff`). They never do both: a name of its
own does not begin like an account. So a canonical form tells whether an account was named and which
(`Address.normalize_eq_some_iff`), accounts differ if their digits do, and all other addresses stay
as they are but for blanks at the ends and capitals. `Address.normal_form` puts this together.
-/
import NotificationRelay.Proofs.Address.NormalForm

namespace NotificationRelay
namespace Address

/-! ## What small letters name -/

/-- Forty hexadecimal digits in small letters. -/
def IsDigits (cs : List Char) : Prop :=
  cs.length = 40 ∧ ∀ c ∈ cs, ('0' ≤ c ∧ c ≤ '9') ∨ ('a' ≤ c ∧ c ≤ 'f')

/-- No segments, or segments of a chain up to a colon. -/
def IsChain (cs : List Char) : Prop := cs = [] ∨ ∃ segments, cs = segments ++ [':']

/-- Small letters that name the account with certain digits: by `0x` and the digits, alone or after
`eip155:` and any segments of a chain. -/
inductive Names : List Char → List Char → Prop
  | plain {digits : List Char} (hd : IsDigits digits) : Names (hexMark ++ digits) digits
  | chained {chain digits : List Char} (hc : IsChain chain) (hd : IsDigits digits) :
      Names (accountSpace ++ (chain ++ (hexMark ++ digits))) digits

/-- A namespace and a rest around the first colon, both not empty. -/
def IsNamed (cs : List Char) : Prop :=
  ∃ name rest, cs = name ++ ':' :: rest ∧ ':' ∉ name ∧ name ≠ [] ∧ rest ≠ []

/-- An address that does not begin like an account. -/
def IsForeign (cs : List Char) : Prop :=
  ¬ accountSpace <+: cs ∧ ¬ hexMark <+: cs ∧ IsNamed cs

variable {cs as chain account digits : List Char}

/-- An account is named by its digits. -/
theorem Names.isDigits (h : Names cs digits) : IsDigits digits := by
  cases h with
  | plain hd => exact hd
  | chained _ hd => exact hd

/-- A plain character is neither blank nor a capital letter. -/
theorem plain_iff {c : Char} : Plain c ↔ Text.isBlank c = false ∧ ¬ ('A' ≤ c ∧ c ≤ 'Z') := by
  refine and_congr_right fun _ => ⟨fun same capital => ?_, fun capital => if_neg capital⟩
  have moved : ∀ n < 91, 65 ≤ n → Text.asciiLowerChar (Char.ofNat n) ≠ Char.ofNat n := by decide
  rw [← Char.ofNat_toNat c] at same
  exact moved c.toNat (Nat.lt_succ_of_le capital.2) capital.1 same

/-- Plain hexadecimal digits are in small letters. -/
theorem isDigits_iff (plain : ∀ c ∈ cs, Plain c) :
    IsDigits cs ↔ cs.length = 40 ∧ ∀ c ∈ cs, Text.isHexDigit c = true := by
  refine and_congr_right fun _ => forall₂_congr fun c hc => ?_
  have small : ¬ ('A' ≤ c ∧ c ≤ 'F') := fun capital =>
    (plain_iff.1 (plain c hc)).2 ⟨capital.1, Char.le_trans capital.2 (by decide)⟩
  simp only [Text.isHexDigit, Text.isDigit, Bool.or_eq_true, Bool.and_eq_true, decide_eq_true_eq,
    small, or_false]

/-- Plain letters are an account if they are `0x` and digits. -/
theorem isAccount_iff (plain : ∀ c ∈ cs, Plain c) :
    isAccount cs = true ↔ ∃ digits, cs = hexMark ++ digits ∧ IsDigits digits := by
  have two : hexMark.length = 2 := by decide
  unfold isAccount
  rw [Bool.and_eq_true, Bool.and_eq_true, List.isPrefixOf_iff_prefix, beq_iff_eq,
    List.all_eq_true, and_assoc]
  constructor
  · rintro ⟨⟨digits, rfl⟩, hex⟩
    rw [← two, List.drop_left] at hex
    exact ⟨digits, rfl, (isDigits_iff fun c hc => plain c (List.mem_append_right _ hc)).2 hex⟩
  · rintro ⟨digits, rfl, hd⟩
    rw [← two, List.drop_left]
    exact ⟨List.prefix_append _ _,
      (isDigits_iff fun c hc => plain c (List.mem_append_right _ hc)).1 hd⟩

/-! ## Segments -/

/-- What is left of a text from its first colon on. -/
theorem dropWhile_colon (cs : List Char) : cs.dropWhile (· != ':') = [] ∨
    ∃ rest, cs.dropWhile (· != ':') = ':' :: rest := by
  induction cs with
  | nil => exact .inl rfl
  | cons c cs ih =>
    by_cases hc : c = ':'
    · subst hc
      exact .inr ⟨cs, rfl⟩
    · simpa [List.dropWhile_cons, hc] using ih

/-- A text is its last segment behind the others. -/
theorem exists_chain (cs : List Char) : ∃ chain, IsChain chain ∧ cs = chain ++ lastSegment cs := by
  refine ⟨(cs.reverse.dropWhile (· != ':')).reverse, ?_, ?_⟩
  · obtain none | ⟨rest, colon⟩ := dropWhile_colon cs.reverse
    · exact .inl (by rw [none, List.reverse_nil])
    · exact .inr ⟨rest.reverse, by rw [colon, List.reverse_cons]⟩
  · unfold lastSegment
    rw [← List.reverse_append, List.takeWhile_append_dropWhile, List.reverse_reverse]

/-- An account behind segments is the last one. -/
theorem lastSegment_append (hc : IsChain chain) (ha : isAccount account = true) :
    lastSegment (chain ++ account) = account := by
  rcases hc with rfl | ⟨segments, rfl⟩
  · exact lastSegment_of_isAccount ha
  · have whole : account.reverse.takeWhile (· != ':') = account.reverse := by
      rw [← List.reverse_inj, List.reverse_reverse]
      exact lastSegment_of_isAccount ha
    unfold lastSegment
    rw [List.reverse_append, List.reverse_append, List.takeWhile_append_of_pos
      (List.takeWhile_eq_self_iff.1 whole)]
    simp

/-- Letters have a namespace if there is something on both sides of the first colon. -/
theorem isNamespaced_iff : isNamespaced cs = true ↔ IsNamed cs := by
  unfold isNamespaced IsNamed
  rw [Bool.and_eq_true, decide_eq_true_eq, Bool.not_eq_true', List.isEmpty_eq_false_iff]
  constructor
  · rintro ⟨name, more⟩
    obtain none | ⟨rest, colon⟩ := dropWhile_colon cs
    · simp [none] at more
    · refine ⟨_, rest, ?_, fun inside => ?_, name, ?_⟩
      · rw [← colon, List.takeWhile_append_dropWhile]
      · exact absurd (List.mem_takeWhile_imp inside) (by decide)
      · rintro rfl
        simp [colon] at more
  · rintro ⟨name, rest, rfl, noColon, hname, hrest⟩
    have before : ∀ c ∈ name, (c != ':') = true := fun c hc => by
      rw [bne_iff_ne]
      exact fun same => noColon (same ▸ hc)
    rw [List.takeWhile_append_of_pos before, List.dropWhile_append_of_pos before]
    have more := List.length_pos_iff.2 hrest
    simp [hname, more]

/-! ## Canonical forms -/

/-- Digits of an account are plain. -/
theorem IsDigits.plain (hd : IsDigits digits) : ∀ c ∈ digits, Plain c := by
  have small : ∀ n < 103, 48 ≤ n ∧ n ≤ 57 ∨ 97 ≤ n ∧ n ≤ 102 → Plain (Char.ofNat n) := by
    decide +kernel
  intro c hc
  rw [← Char.ofNat_toNat c]
  obtain ⟨least, most⟩ | ⟨least, most⟩ := hd.2 c hc
  · exact small c.toNat (Nat.lt_of_le_of_lt most (by decide)) (.inl ⟨least, most⟩)
  · exact small c.toNat (Nat.lt_succ_of_le most) (.inr ⟨least, most⟩)

/-- The mark in front of the digits is plain. -/
theorem plain_hexMark : ∀ c ∈ hexMark, Plain c := by
  have all : hexMark.all (fun c => decide (Plain c)) = true := by decide
  exact fun c hc => of_decide_eq_true (List.all_eq_true.1 all c hc)

/-- Digits behind their mark are an account. -/
theorem isAccount_append (hd : IsDigits digits) : isAccount (hexMark ++ digits) = true :=
  (isAccount_iff (List.forall_mem_append.2 ⟨plain_hexMark, hd.plain⟩)).2 ⟨digits, rfl, hd⟩

/-- What begins with the namespace of accounts does not begin with digits. -/
theorem not_hexMark_of_accountSpace (space : accountSpace <+: cs) : ¬ hexMark <+: cs := by
  obtain ⟨rest, rfl⟩ := space
  rintro ⟨others, same⟩
  have digit : hexMark.head? = some '0' := by decide
  have letter : accountSpace.head? = some 'e' := by decide
  have first := congrArg List.head? same
  rw [List.head?_append, List.head?_append, digit, letter] at first
  exact absurd (Option.some.inj first) (by decide)

/-- What the chained form of an account names is read off its last segment. -/
theorem names_accountSpace_iff {rest : List Char} : Names (accountSpace ++ rest) digits ↔
    IsDigits digits ∧ lastSegment rest = hexMark ++ digits := by
  constructor
  · intro names
    generalize whole : accountSpace ++ rest = cs at names
    cases names with
    | plain =>
      exact absurd (whole ▸ List.prefix_append hexMark digits)
        (not_hexMark_of_accountSpace (List.prefix_append _ _))
    | chained hc hd =>
      obtain rfl := List.append_cancel_left whole
      exact ⟨hd, lastSegment_append hc (isAccount_append hd)⟩
  · rintro ⟨hd, last⟩
    obtain ⟨chain, hc, segments⟩ := exists_chain rest
    rw [segments, last]
    exact .chained hc hd

/-- Outside the namespace of accounts only the digits themselves name one. -/
theorem names_iff_of_not_accountSpace (space : ¬ accountSpace <+: cs) :
    Names cs digits ↔ IsDigits digits ∧ cs = hexMark ++ digits := by
  constructor
  · intro names
    cases names with
    | plain hd => exact ⟨hd, rfl⟩
    | chained => exact absurd (List.prefix_append _ _) space
  · rintro ⟨hd, rfl⟩
    exact .plain hd

/-- A foreign address names no account. -/
theorem IsForeign.not_names (foreign : IsForeign cs) : ¬ Names cs digits := fun names =>
  foreign.2.1 ⟨digits, ((names_iff_of_not_accountSpace foreign.1).1 names).2.symm⟩

/-- **The canonical form of small letters** is that of the account that they name, or they stay as
they are; and if neither is possible there is none. -/
theorem canonical?_eq_some_iff (plain : ∀ c ∈ cs, Plain c) : canonical? cs = some as ↔
    (∃ digits, Names cs digits ∧ as = accountSpace ++ (hexMark ++ digits)) ∨
      IsForeign cs ∧ as = cs := by
  unfold canonical?
  by_cases space : accountSpace <+: cs
  · have other : ¬ IsForeign cs := fun foreign => foreign.1 space
    rw [if_pos (List.isPrefixOf_iff_prefix.2 space), or_iff_left (fun h => other h.1)]
    obtain ⟨rest, rfl⟩ := space
    have last : ∀ c ∈ lastSegment rest, Plain c := fun c hc => by
      obtain ⟨chain, -, segments⟩ := exists_chain rest
      exact plain c (List.mem_append_right _ (segments ▸ List.mem_append_right _ hc))
    simp only [List.drop_left, Option.ite_none_right_eq_some, Option.some.injEq,
      isAccount_iff last, names_accountSpace_iff]
    constructor
    · rintro ⟨⟨digits, account, hd⟩, rfl⟩
      exact ⟨digits, ⟨hd, account⟩, by rw [account]⟩
    · rintro ⟨digits, ⟨hd, account⟩, rfl⟩
      exact ⟨⟨digits, account, hd⟩, by rw [account]⟩
  · rw [if_neg (mt List.isPrefixOf_iff_prefix.1 space)]
    simp only [names_iff_of_not_accountSpace space]
    by_cases mark : hexMark <+: cs
    · have other : ¬ IsForeign cs := fun foreign => foreign.2.1 mark
      rw [if_pos (List.isPrefixOf_iff_prefix.2 mark), or_iff_left (fun h => other h.1)]
      simp only [Option.ite_none_right_eq_some, Option.some.injEq, isAccount_iff plain]
      constructor
      · rintro ⟨⟨digits, rfl, hd⟩, rfl⟩
        exact ⟨digits, ⟨hd, rfl⟩, rfl⟩
      · rintro ⟨digits, ⟨hd, rfl⟩, rfl⟩
        exact ⟨⟨digits, rfl, hd⟩, rfl⟩
    · rw [if_neg (mt List.isPrefixOf_iff_prefix.1 mark)]
      simp only [Option.ite_none_right_eq_some, Option.some.injEq, isNamespaced_iff]
      constructor
      · rintro ⟨named, rfl⟩
        exact .inr ⟨⟨space, mark, named⟩, rfl⟩
      · rintro (⟨digits, ⟨-, rfl⟩, -⟩ | ⟨foreign, rfl⟩)
        · exact absurd (List.prefix_append _ _) mark
        · exact ⟨foreign.2.2, rfl⟩

variable {raw raw' address address' : String}

/-- What is looked at of an address as it is written: small letters, without blanks at the ends. -/
def written (raw : String) : List Char := Text.asciiLower (Text.trim raw).toList

/-- A text names the account with certain digits, in letters of either case and between blanks. -/
def NamesAccount (raw : String) (digits : List Char) : Prop := Names (written raw) digits

/-- There is no blank in a text but at its ends. -/
def IsCompact (raw : String) : Prop := ∀ c ∈ (Text.trim raw).toList, Text.isBlank c = false

/-- What is written of a compact text is plain. -/
theorem plain_written (compact : IsCompact raw) : ∀ c ∈ written raw, Plain c := fun c hc => by
  obtain ⟨b, hb, rfl⟩ := List.mem_map.1 hc
  exact plain_asciiLowerChar (compact b hb)

/-- A text has a canonical form if it is compact and what is written of it has one. -/
theorem normalize_eq_some_iff_canonical? : normalize raw = some address ↔
    IsCompact raw ∧ canonical? (written raw) = some address.toList := by
  have exact : ∀ as : List Char, String.ofList as = address ↔ as = address.toList := fun as =>
    ⟨fun h => by rw [← h, String.toList_ofList], fun h => by rw [h, String.ofList_toList]⟩
  unfold normalize normalizeChars IsCompact written Text.trim
  simp only [Option.map_eq_some_iff, exact, exists_eq_right, String.toList_ofList]
  generalize Text.trimChars raw.toList = trimmed
  by_cases empty : trimmed = []
  · have nothing : canonical? (Text.asciiLower []) = none := by decide
    simp [empty, nothing]
  · have blank : (trimmed.isEmpty || trimmed.any Text.isBlank) = true ↔
        ¬ ∀ c ∈ trimmed, Text.isBlank c = false := by simp [empty]
    by_cases compact : ∀ c ∈ trimmed, Text.isBlank c = false
    · rw [if_neg (mt blank.1 (not_not_intro compact)), and_iff_right compact]
    · rw [if_pos (blank.2 compact)]
      exact iff_of_false nofun fun h => compact h.1

/-- **What has a canonical form, and which**: a text without inner blanks that names an account, by
its digits, and one that does not begin like an account and has a namespace and a rest, as it is but
for blanks at the ends and capitals. -/
theorem normalize_eq_some_iff : normalize raw = some address ↔ IsCompact raw ∧
    ((∃ digits, NamesAccount raw digits ∧
        address.toList = accountSpace ++ (hexMark ++ digits)) ∨
      IsForeign (written raw) ∧ address.toList = written raw) := by
  rw [normalize_eq_some_iff_canonical?]
  exact and_congr_right fun compact => canonical?_eq_some_iff (plain_written compact)

/-- What a canonical address looks like. -/
structure IsCanonical (address : List Char) : Prop where
  plain : ∀ c ∈ address, Text.isBlank c = false ∧ ¬ ('A' ≤ c ∧ c ≤ 'Z')
  named : IsNamed address
  account : "eip155:".toList <+: address →
    ∃ digits, address = "eip155:0x".toList ++ digits ∧ IsDigits digits

/-- Canonical forms are canonical. -/
theorem isCanonical_of_normalize (h : normalize raw = some address) :
    IsCanonical address.toList := by
  obtain ⟨compact, ⟨digits, names, form⟩ | ⟨foreign, form⟩⟩ := normalize_eq_some_iff.1 h
  · have hd := Names.isDigits names
    have mark : accountSpace ++ hexMark = "eip155:0x".toList := by decide
    have space : accountSpace = "eip155".toList ++ [':'] := by decide
    refine ⟨fun c hc => plain_iff.1 ?_, ?_, fun _ => ⟨digits, ?_, hd⟩⟩
    · rw [form, ← List.append_assoc, List.append_assoc] at hc
      rcases List.mem_append.1 hc with hc | hc
      · exact plain_accountSpace c hc
      · exact (List.forall_mem_append.2 ⟨plain_hexMark, hd.plain⟩) c hc
    · refine ⟨"eip155".toList, hexMark ++ digits, ?_, by decide, by decide, ?_⟩
      · rw [form, space, List.append_assoc]
        rfl
      · exact List.append_ne_nil_of_left_ne_nil (by decide) _
    · rw [form, ← List.append_assoc, mark]
  · rw [form]
    exact ⟨fun c hc => plain_iff.1 (plain_written compact c hc), foreign.2.2,
      fun space => absurd space foreign.1⟩

/-- The canonical form of a text that names an account is the account space with its digits. -/
theorem toList_of_namesAccount (h : normalize raw = some address)
    (names : NamesAccount raw digits) :
    address.toList = accountSpace ++ (hexMark ++ digits) := by
  rw [normalize_eq_some_iff_canonical?] at h
  have other := (canonical?_eq_some_iff (plain_written h.1)).2 (.inl ⟨digits, names, rfl⟩)
  exact Option.some.inj (h.2.symm.trans other)

/-- Any other text with a canonical form is foreign, and written as it is. -/
theorem toList_of_not_namesAccount (h : normalize raw = some address)
    (names : ¬ ∃ digits, NamesAccount raw digits) :
    IsForeign (written raw) ∧ address.toList = written raw := by
  obtain ⟨-, ⟨digits, account, -⟩ | foreign⟩ := normalize_eq_some_iff.1 h
  · exact absurd ⟨digits, account⟩ names
  · exact foreign

/-- An address that begins like an account is no name of its own. -/
theorem ne_of_isForeign {name : List Char} (foreign : IsForeign name) :
    accountSpace ++ (hexMark ++ digits) ≠ name := fun same =>
  foreign.1 (same ▸ List.prefix_append _ _)

/-- Two texts are the same address: they name the same account, or neither names one and they are
the same but for blanks at the ends and capitals. -/
def Same (raw raw' : String) : Prop :=
  (∃ digits, NamesAccount raw digits ∧ NamesAccount raw' digits) ∨
    (¬ ∃ digits, NamesAccount raw digits) ∧ (¬ ∃ digits, NamesAccount raw' digits) ∧
      written raw = written raw'

/-- Two texts have the same canonical form if they mean the same address. -/
theorem eq_iff_same (h : normalize raw = some address) (h' : normalize raw' = some address') :
    address = address' ↔ Same raw raw' := by
  constructor
  · rintro rfl
    by_cases account : ∃ digits, NamesAccount raw digits
    · obtain ⟨digits, names⟩ := account
      have form := toList_of_namesAccount h names
      by_cases account' : ∃ digits, NamesAccount raw' digits
      · obtain ⟨digits', names'⟩ := account'
        have same := form.symm.trans (toList_of_namesAccount h' names')
        obtain rfl := List.append_cancel_left (List.append_cancel_left same)
        exact .inl ⟨digits, names, names'⟩
      · obtain ⟨foreign, form'⟩ := toList_of_not_namesAccount h' account'
        exact absurd (form.symm.trans form') (ne_of_isForeign foreign)
    · obtain ⟨foreign, form⟩ := toList_of_not_namesAccount h account
      by_cases account' : ∃ digits, NamesAccount raw' digits
      · obtain ⟨digits', names'⟩ := account'
        have form' := toList_of_namesAccount h' names'
        exact absurd (form'.symm.trans form) (ne_of_isForeign foreign)
      · have form' := (toList_of_not_namesAccount h' account').2
        exact .inr ⟨account, account', form.symm.trans form'⟩
  · rintro (⟨digits, names, names'⟩ | ⟨account, account', same⟩)
    · rw [← String.toList_inj, toList_of_namesAccount h names, toList_of_namesAccount h' names']
    · rw [← String.toList_inj, (toList_of_not_namesAccount h account).2,
        (toList_of_not_namesAccount h' account').2, same]

/-- **The canonical form of an address.**

* It is its own canonical form.
* It has no blanks and no capitals, it is a namespace and a rest around its first colon, and in the
  namespace of accounts the rest is `0x` and forty digits in small letters.
* Two texts that have a canonical form have the same one exactly if they are the same address.
* A text has a canonical form exactly if there is no blank within it, and it names an account or
  does not begin like one and is a namespace and a rest. -/
theorem normal_form :
    (∀ raw address, normalize raw = some address → normalize address = some address) ∧
    (∀ raw address, normalize raw = some address → IsCanonical address.toList) ∧
    (∀ raw raw' address address', normalize raw = some address →
      normalize raw' = some address' → (address = address' ↔ Same raw raw')) ∧
    ∀ raw, (∃ address, normalize raw = some address) ↔
      IsCompact raw ∧ ((∃ digits, NamesAccount raw digits) ∨ IsForeign (written raw)) := by
  refine ⟨fun _ _ => normalize_normalize, fun _ _ => isCanonical_of_normalize,
    fun _ _ _ _ => eq_iff_same, fun raw => ⟨?_, ?_⟩⟩
  · rintro ⟨address, h⟩
    obtain ⟨compact, form⟩ := normalize_eq_some_iff.1 h
    exact ⟨compact, form.imp (fun ⟨digits, names, _⟩ => ⟨digits, names⟩) And.left⟩
  · rintro ⟨compact, ⟨digits, names⟩ | foreign⟩
    · exact ⟨String.ofList (accountSpace ++ (hexMark ++ digits)),
        normalize_eq_some_iff.2 ⟨compact, .inl ⟨digits, names, String.toList_ofList⟩⟩⟩
    · exact ⟨String.ofList (written raw),
        normalize_eq_some_iff.2 ⟨compact, .inr ⟨foreign, String.toList_ofList⟩⟩⟩

/-- An account is the same alone and on a chain, in capitals and between blanks; the same words in
another namespace are another address. -/
theorem normal_form_of_spellings :
    Same "0x0000000000000000000000000000000000000001"
        " EIP155:1:0X0000000000000000000000000000000000000001" ∧
      ¬ Same "0x0000000000000000000000000000000000000001" "NFT:0x1 " ∧
      normalize "nft:0x1" = some "nft:0x1" ∧ IsCanonical "nft:0x1".toList := by
  obtain ⟨fixed, form, same, -⟩ := normal_form
  have plain : normalize "0x0000000000000000000000000000000000000001" =
      some "eip155:0x0000000000000000000000000000000000000001" := by decide +kernel
  have chained : normalize " EIP155:1:0X0000000000000000000000000000000000000001" =
      some "eip155:0x0000000000000000000000000000000000000001" := by decide +kernel
  have foreign : normalize "NFT:0x1 " = some "nft:0x1" := by decide +kernel
  exact ⟨(same _ _ _ _ plain chained).1 rfl,
    mt (same _ _ _ _ plain foreign).2 (by decide), fixed _ _ foreign, form _ _ foreign⟩

end Address
end NotificationRelay
