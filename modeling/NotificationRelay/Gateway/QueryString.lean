/-
# Query strings

The part of a request target after its question mark is a list of fields, set apart by
ampersands. A field is a name and a value, set apart by the first equals sign; a plus
sign stands for a space, and a percent sign with two hexadecimal digits for the octet
that they write. A percent sign without them stands for itself.
-/
import NotificationRelay.Text.Numeral
import NotificationRelay.Text.Octets

namespace NotificationRelay
namespace Gateway

/-- The pieces of a text between the places where a character stands. -/
def splitAt (separator : Char) : List Char → List (List Char)
  | [] => [[]]
  | c :: rest =>
    if c = separator then [] :: splitAt separator rest
    else
      match splitAt separator rest with
      | piece :: pieces => (c :: piece) :: pieces
      | [] => [[c]]

/-- The octets of an encoded text. -/
def decodePercent : List Char → List Nat
  | '%' :: a :: b :: rest =>
    if Text.isHexDigit a && Text.isHexDigit b then
      (16 * Text.digitValue a + Text.digitValue b) :: decodePercent rest
    else 37 :: decodePercent (a :: b :: rest)
  | '+' :: rest => 32 :: decodePercent rest
  | c :: rest => Text.octets c.toString ++ decodePercent rest
  | [] => []

/-- An encoded text in plain. -/
def decodeComponent (cs : List Char) : String := Text.decodeOctets (decodePercent cs)

/-- The name and the value of a field. -/
def readField (cs : List Char) : String × String :=
  let name := cs.takeWhile (· != '=')
  (decodeComponent name, decodeComponent (cs.drop (name.length + 1)))

/-- The fields of a query string; empty ones are left out. -/
def queryFields (query : String) : List (String × String) :=
  ((splitAt '&' query.toList).filter fun cs => !cs.isEmpty).map readField

end Gateway
end NotificationRelay
