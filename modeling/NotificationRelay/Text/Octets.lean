/-
# Octets as text

A text arrives as octets. Well-formed UTF-8 is read as it stands; of everything else
the longest beginning of a character that is not completed becomes one replacement
character, and so does each octet that begins none. A character that needs more octets
is read one octet at a time: what is known of it, how many octets are still to come, and
the range in which the next must lie, which keeps overlong forms and surrogates out.
-/

namespace NotificationRelay
namespace Text

/-- What stands for octets that are no text. -/
def replacementChar : Char := Char.ofNat 0xFFFD

/-- A character that is not complete. -/
structure Incomplete where
  /-- The bits read so far. -/
  bits : Nat
  /-- The number of octets to come. -/
  missing : Nat
  /-- The least next octet. -/
  least : Nat
  /-- The greatest next octet. -/
  greatest : Nat

/-- What an octet begins: a character that is complete, one that is not, or none. -/
inductive Beginning where
  | whole (c : Char)
  | part (p : Incomplete)
  | none

/-- What an octet begins. -/
def beginning (b : Nat) : Beginning :=
  if b < 0x80 then .whole (Char.ofNat b)
  else if b < 0xC2 then .none
  else if b < 0xE0 then .part ⟨b - 0xC0, 1, 0x80, 0xBF⟩
  else if b = 0xE0 then .part ⟨0, 2, 0xA0, 0xBF⟩
  else if b = 0xED then .part ⟨0xD, 2, 0x80, 0x9F⟩
  else if b < 0xF0 then .part ⟨b - 0xE0, 2, 0x80, 0xBF⟩
  else if b = 0xF0 then .part ⟨0, 3, 0x90, 0xBF⟩
  else if b < 0xF4 then .part ⟨b - 0xF0, 3, 0x80, 0xBF⟩
  else if b = 0xF4 then .part ⟨4, 3, 0x80, 0x8F⟩
  else .none

/-- An octet where a character may begin: what is complete then, and what is not. -/
def start (b : Nat) : List Char × Option Incomplete :=
  match beginning b with
  | .whole c => ([c], Option.none)
  | .part p => ([], some p)
  | .none => ([replacementChar], Option.none)

/-- An octet after an incomplete character: what is complete then, and what is not. -/
def step (p : Incomplete) (b : Nat) : List Char × Option Incomplete :=
  if p.least ≤ b ∧ b ≤ p.greatest then
    let bits := p.bits * 64 + (b - 0x80)
    if p.missing = 1 then ([Char.ofNat bits], Option.none)
    else ([], some ⟨bits, p.missing - 1, 0x80, 0xBF⟩)
  else (replacementChar :: (start b).1, (start b).2)

/-- The text of octets that follow an incomplete character, if there is one. -/
def decodeFrom : Option Incomplete → List Nat → List Char
  | Option.none, [] => []
  | some _, [] => [replacementChar]
  | Option.none, b :: rest => (start b).1 ++ decodeFrom (start b).2 rest
  | some p, b :: rest => (step p b).1 ++ decodeFrom (step p b).2 rest

/-- The text of octets. -/
def decodeOctets (octets : List Nat) : String := String.ofList (decodeFrom Option.none octets)

/-- The octets of a text. -/
def octets (s : String) : List Nat := s.toUTF8.toList.map UInt8.toNat

end Text
end NotificationRelay
