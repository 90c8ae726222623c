/-
# Numbers as written

A number is read into a significand of 64 bits and a power of ten. Digits before the
point that find no room each raise the power of ten instead, whatever they are; digits
after the point are dropped from the first one that finds no room. A number without a
point and without an exponent that was read whole is whole, unless it is too small for
64 bits or the negative zero. Any other number is a double, and is brought to its power
of ten in doubles: by one product, or by one quotient, or by two where the power is
too small for one. Each of them rounds, so that the result may lie beside the double
nearest to the number as it is written.
-/
import NotificationRelay.Json.Value
import NotificationRelay.Text.Numeral

namespace NotificationRelay
namespace Json

/-- A number as read: `significand · 10 ^ exponent`, negated if `negative`. -/
structure Numeral where
  negative : Bool
  significand : Nat
  exponent : Int
  /-- Written with a fraction or an exponent, or with more digits than are kept. -/
  isReal : Bool

/-- The significand of the digits before the point that follow it, and how many of them
found no room. -/
def wholeDigits (n : Nat) : List Char → Nat × Nat
  | [] => (n, 0)
  | c :: cs =>
    let longer := 10 * n + Text.digitValue c
    if longer ≤ Text.maxWord then wholeDigits longer cs else (n, cs.length + 1)

/-- The significand with the digits after the point that find room, and how many they
are. -/
def fractionDigits (n : Nat) : List Char → Nat × Nat
  | [] => (n, 0)
  | c :: cs =>
    let longer := 10 * n + Text.digitValue c
    if longer ≤ Text.maxWord then
      let (m, places) := fractionDigits longer cs
      (m, places + 1)
    else (n, 0)

namespace Numeral

/-- The numeral of the parts of a number: its digits before and after the point, and its
exponent. -/
def ofParts (negative : Bool) (whole : List Char) (fraction : Option (List Char))
    (exponent : Option Int) : Numeral :=
  let (n, dropped) := wholeDigits 0 whole
  let (m, places) := fractionDigits n (fraction.getD [])
  { negative := negative
    significand := m
    exponent := exponent.getD 0 + dropped - places
    isReal := fraction.isSome || exponent.isSome || dropped != 0 }

/-- The greatest power of ten of one product or quotient: beyond `10 ^ 308` no power of
ten is a double. -/
def greatestStep : Nat := 308

/-- A double divided by a power of ten, in two steps if one does not reach it. Two of
the greatest steps leave nothing of a significand of 64 bits. -/
def divided (x : Double) (n : Nat) : Option Double :=
  if n ≤ greatestStep then (Double.tenTo n).bind x.dividedBy
  else if n ≤ 2 * greatestStep then
    ((Double.tenTo greatestStep).bind x.dividedBy).bind fun y =>
      (Double.tenTo (n - greatestStep)).bind y.dividedBy
  else some Double.zero

/-- A double multiplied by a power of ten, if the result is finite. -/
def multiplied (x : Double) (n : Nat) : Option Double :=
  if x.significand = 0 then some x
  else if n ≤ greatestStep then (Double.tenTo n).bind x.times
  else none

/-- The magnitude of a numeral, if it is not beyond the greatest double. -/
def magnitude? (n : Numeral) : Option Double :=
  (Double.nearest n.significand 1).bind fun x =>
    if 0 ≤ n.exponent then multiplied x n.exponent.toNat
    else divided x (-n.exponent).toNat

/-- The least whole number that is kept as such. -/
def leastWhole : Int := -9223372036854775808

/-- The number that a numeral stands for; one beyond the greatest double is none. -/
def number? (n : Numeral) : Option Number :=
  let whole : Int := if n.negative then -(n.significand : Int) else n.significand
  if n.isReal || (n.negative && n.significand == 0) || decide (whole < leastWhole) then
    n.magnitude?.map fun x => .real (Decimal.ofDouble n.negative x)
  else some (.whole whole)

end Numeral
end Json
end NotificationRelay
