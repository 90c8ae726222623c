/-
# Lower case

Two maps to small letters. `asciiLower` moves `A`–`Z` alone; addresses and names
of senders use it. `lower` is the full Unicode map, used for searching. It is not
a map of characters: a capital I with a dot becomes two characters, and a capital
sigma becomes `ς` where it ends a word and `σ` elsewhere. A sigma ends a word when,
looking past case-ignorable characters, a cased character stands before it and none
stands after it.
-/
import NotificationRelay.Text.Blank
import NotificationRelay.Text.CaseData

namespace NotificationRelay
namespace Text

/-- The small letter of an ASCII capital; every other character stays. -/
def asciiLowerChar (c : Char) : Char :=
  if 'A' ≤ c ∧ c ≤ 'Z' then Char.ofNat (c.toNat + 32) else c

/-- ASCII capitals to small letters. -/
def asciiLower (cs : List Char) : List Char := cs.map asciiLowerChar

/-- A letter with a case. -/
def isCased (c : Char) : Bool := inRanges casedRanges c.toNat

/-- A character that does not separate a letter from its word. -/
def isCaseIgnorable (c : Char) : Bool := inRanges caseIgnorableRanges c.toNat

/-- Whether the first character that is not case-ignorable has a case. -/
def startsCased (cs : List Char) : Bool :=
  match cs.dropWhile isCaseIgnorable with
  | [] => false
  | c :: _ => isCased c

/-- The lower-case form of one character, its neighbours aside. -/
def lowerChar (c : Char) : List Char :=
  if c.toNat = 0x130 then ['i', Char.ofNat 0x307]
  else
    match lowerRuns.find? (·.covers c.toNat) with
    | some run => [Char.ofNat ((c.toNat : Int) + run.shift).toNat]
    | none => [c]

/-- A capital sigma ends a word when a letter stands before it and none after. -/
def endsWord (before after : List Char) : Bool := startsCased before && !startsCased after

/-- The lower-case form of the rest of a text; `before` is what precedes it, last
character first. -/
def lowerAfter (before : List Char) : List Char → List Char
  | [] => []
  | c :: after =>
    (if c = 'Σ' then [if endsWord before after then 'ς' else 'σ'] else lowerChar c)
      ++ lowerAfter (c :: before) after

/-- The lower-case form of a text. -/
def lowerChars (cs : List Char) : List Char := lowerAfter [] cs

/-- The lower-case form of a text. -/
def lower (s : String) : String := String.ofList (lowerChars s.toList)

/-- Whether `needle` occurs in `hay` as a run of consecutive characters. -/
def occursIn (needle : List Char) : List Char → Bool
  | [] => needle.isEmpty
  | c :: hay => needle.isPrefixOf (c :: hay) || occursIn needle hay

end Text
end NotificationRelay
