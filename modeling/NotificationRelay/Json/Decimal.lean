/-
# Decimals and the double they stand for

A decimal stands for the double nearest to it, and the text of a double has the fewest
digits that still lie nearer to it than to any other. These digits are found with
natural numbers: a double is `m · 2 ^ q`, the reals that round to it form an interval
around it (its ends belong to it when `m` is even), and a text of `n` digits is found
by trying the two multiples of a power of ten next to the value.
-/
import NotificationRelay.Json.Double

namespace NotificationRelay

/-- A decimal: `digits · 10 ^ exponent`, negated if `negative`. -/
structure Decimal where
  negative : Bool
  digits : Nat
  exponent : Int
  deriving DecidableEq, Repr, Inhabited

namespace Decimal

/-- How many decimal digits a natural number has. -/
def digitCount (n : Nat) : Nat := (Nat.toDigits 10 n).length

/-- The double nearest to the magnitude of a decimal, `none` beyond the greatest one.
Exponents far outside the range are decided without computing the power of ten. -/
def magnitude (d : Decimal) : Option Double :=
  let top := d.exponent + digitCount d.digits
  if d.digits = 0 ∨ top < -400 then some Double.zero
  else if 400 < top then none
  else if 0 ≤ d.exponent then Double.nearest (d.digits * Nat.pow 10 d.exponent.toNat) 1
  else Double.nearest d.digits (Nat.pow 10 (-d.exponent).toNat)

/-- The decimal has a double, that is, it is not beyond the greatest one. -/
def isFinite (d : Decimal) : Bool := d.magnitude.isSome

/-- Four times the value of a double, and the distance of its upper neighbour, over a
common denominator: `(value, gap, denominator)`. -/
def quarters (x : Double) : Nat × Nat × Nat :=
  if 0 ≤ x.power then
    (4 * x.significand * Nat.pow 2 x.power.toNat, 4 * Nat.pow 2 x.power.toNat, 4)
  else (4 * x.significand, 4, 4 * Nat.pow 2 (-x.power).toNat)

/-- Whether `c · 10 ^ k` rounds to the double. -/
def roundsTo (x : Double) (c : Nat) (k : Int) : Bool :=
  let (value, gap, den) := quarters x
  let below := if x.significand = Nat.pow 2 52 ∧ Double.leastPower < x.power then gap / 4 else gap / 2
  let candidate := if 0 ≤ k then c * Nat.pow 10 k.toNat * den else c * den
  let scale := if 0 ≤ k then 1 else Nat.pow 10 (-k).toNat
  let lo := (value - below) * scale
  let hi := (value + gap / 2) * scale
  if x.significand % 2 = 0 then decide (lo ≤ candidate) && decide (candidate ≤ hi)
  else decide (lo < candidate) && decide (candidate < hi)

/-- The distance of `c · 10 ^ k` from the double, in a unit that depends on `k` alone. -/
def distance (x : Double) (c : Nat) (k : Int) : Nat :=
  let (value, _, den) := quarters x
  let candidate := if 0 ≤ k then c * Nat.pow 10 k.toNat * den else c * den
  let scaled := if 0 ≤ k then value else value * Nat.pow 10 (-k).toNat
  (candidate - scaled) + (scaled - candidate)

/-- The position of the leading digit of a fraction below one: the number of places it
has to move left, at most `fuel`. -/
def leadingZeros (num den : Nat) : Nat → Nat
  | 0 => 0
  | fuel + 1 => if den ≤ num then 0 else leadingZeros (num * 10) den fuel + 1

/-- The whole part of the decimal logarithm of a double. -/
def log10 (x : Double) : Int :=
  let (value, _, den) := quarters x
  if den ≤ value then (digitCount (value / den) : Int) - 1
  else -(leadingZeros value den 400 : Int)

/-- The digits of a double on the grid of `n` digits, if a point of it rounds to the double;
of two such points the nearer, and halfway between them the even one. -/
def onGrid (x : Double) (n : Nat) : Option (Nat × Int) :=
  let k := log10 x - ((n : Int) - 1)
  let (value, _, den) := quarters x
  let c := if 0 ≤ k then value / (den * Nat.pow 10 k.toNat) else value * Nat.pow 10 (-k).toNat / den
  match roundsTo x c k, roundsTo x (c + 1) k with
  | true, true =>
    let down := distance x c k
    let up := distance x (c + 1) k
    if up < down ∨ (up = down ∧ c % 2 = 1) then some (c + 1, k) else some (c, k)
  | true, false => some (c, k)
  | false, true => some (c + 1, k)
  | false, false => none

/-- Zeros at the end of the digits moved into the exponent. -/
def stripZeros (c : Nat) (k : Int) : Nat → Nat × Int
  | 0 => (c, k)
  | fuel + 1 => if c ≠ 0 ∧ c % 10 = 0 then stripZeros (c / 10) (k + 1) fuel else (c, k)

/-- The fewest digits that round to the double. -/
def shortest (x : Double) : Nat × Int :=
  if x.significand = 0 then (0, 0)
  else
    match (List.range 17).findSome? fun n => onGrid x (n + 1) with
    | some (c, k) => stripZeros c k 20
    | none => (0, 0)

/-- The decimal with the fewest digits that stands for a double. -/
def ofDouble (negative : Bool) (x : Double) : Decimal :=
  ⟨negative, (shortest x).1, (shortest x).2⟩

/-- The text of an exponent, always with its sign. -/
def exponentText (n : Int) : List Char :=
  (if n < 0 then '-' else '+') :: Nat.toDigits 10 n.natAbs

/-- The text of a decimal: positional for magnitudes from `10⁻⁵` up to `10¹⁶`, always
with a point, and with an exponent otherwise. -/
def text (d : Decimal) : String :=
  let digits := Nat.toDigits 10 d.digits
  let n := digits.length
  let point := d.exponent + n
  let body :=
    if d.digits = 0 then ['0', '.', '0']
    else if 0 ≤ d.exponent ∧ point ≤ 16 then
      digits ++ List.replicate d.exponent.toNat '0' ++ ['.', '0']
    else if 0 < point ∧ point ≤ 16 then
      digits.take point.toNat ++ '.' :: digits.drop point.toNat
    else if -5 < point ∧ point ≤ 0 then
      '0' :: '.' :: (List.replicate (-point).toNat '0' ++ digits)
    else
      let fraction := if n = 1 then [] else '.' :: digits.drop 1
      digits.take 1 ++ fraction ++ 'e' :: exponentText (point - 1)
  String.ofList (if d.negative then '-' :: body else body)

end Decimal
end NotificationRelay
