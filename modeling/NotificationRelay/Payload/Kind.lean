/-
# Kinds of notification

A payload says whom it is for: every subscriber of its sender, exactly one
recipient, or a subset of the subscribers. The kind is written as a number, and read
from a number or from a text that holds one.
-/
import NotificationRelay.Json.Record
import NotificationRelay.Text.Blank

namespace NotificationRelay

/-- Whom a notification is for. -/
inductive Kind where
  | broadcast
  | targeted
  | subset
  deriving DecidableEq, Repr, Inhabited

namespace Kind

/-- The number of a kind. -/
def code : Kind → Nat
  | .broadcast => 1
  | .targeted => 3
  | .subset => 4

/-- The kind of a number. -/
def ofCode? (n : Nat) : Option Kind :=
  if n = 1 then some .broadcast
  else if n = 3 then some .targeted
  else if n = 4 then some .subset
  else none

/-- The kind that a value names. -/
def ofJson? : Json → Option Kind
  | .number (.whole n) => if 0 ≤ n then ofCode? n.toNat else none
  | .string s => (Text.numeral? (Text.trimChars s.toList)).bind ofCode?
  | _ => none

/-- Reads the kind that a value names. -/
def ofJson (v : Json) : Except DecodeError Kind :=
  match ofJson? v with
  | some kind => .ok kind
  | none => .error (.unknownKind v)

/-- A kind as a value. -/
def toJson (kind : Kind) : Json := .nat kind.code

end Kind
end NotificationRelay
