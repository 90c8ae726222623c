/-
# Unsigned numerals

A numeral in a text field is an optional plus sign and at least one ASCII digit,
leading zeros included, and its value fits 64 bits. Nothing else is a number: no
minus sign, no blank, no digit of another script.
-/

namespace NotificationRelay
namespace Text

/-- The largest unsigned 64-bit number. -/
def maxWord : Nat := 18446744073709551615

/-- The value of a digit in bases up to sixteen. -/
def digitValue (c : Char) : Nat :=
  if '0' ≤ c ∧ c ≤ '9' then c.toNat - 48
  else if 'a' ≤ c ∧ c ≤ 'f' then c.toNat - 87
  else if 'A' ≤ c ∧ c ≤ 'F' then c.toNat - 55
  else 0

/-- A decimal digit. -/
def isDigit (c : Char) : Bool := decide ('0' ≤ c) && decide (c ≤ '9')

/-- A hexadecimal digit. -/
def isHexDigit (c : Char) : Bool :=
  isDigit c || (decide ('a' ≤ c) && decide (c ≤ 'f')) || (decide ('A' ≤ c) && decide (c ≤ 'F'))

/-- The number that a list of digits writes in a base. -/
def ofDigits (base : Nat) (cs : List Char) : Nat :=
  cs.foldl (fun n c => base * n + digitValue c) 0

/-- The digits of a numeral: its sign, if any, removed. -/
def unsigned (cs : List Char) : List Char :=
  match cs with
  | '+' :: rest => rest
  | _ => cs

/-- The number that a numeral writes, if it is one and fits 64 bits. -/
def numeral? (cs : List Char) : Option Nat :=
  let digits := unsigned cs
  if digits.isEmpty || !digits.all isDigit then none
  else if ofDigits 10 digits ≤ maxWord then some (ofDigits 10 digits)
  else none

end Text
end NotificationRelay
