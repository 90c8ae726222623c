/-
# Doubles

A magnitude of a number with a fraction or an exponent is a double: a significand of at
most 53 bits times a power of two. `Double.nearest` rounds a fraction to one, a half to
the even significand, and finds none for a fraction beyond the greatest double. A
product or a quotient of two doubles is the exact one, rounded. All of it is computed
with natural numbers, so that it can be evaluated in proofs.
-/

namespace NotificationRelay

/-- A magnitude `significand · 2 ^ power`. -/
structure Double where
  significand : Nat
  power : Int
  deriving DecidableEq, Repr

namespace Double

/-- The least power of two of a double. -/
def leastPower : Int := -1074

/-- The greatest power of two of a finite double. -/
def greatestPower : Int := 971

/-- The magnitude zero. -/
def zero : Double := ⟨0, leastPower⟩

/-- `a / b` rounded to the nearest whole number, a half to the even neighbour. -/
def roundDiv (a b : Nat) : Nat :=
  let q := a / b
  let r := a % b
  if 2 * r < b then q else if b < 2 * r then q + 1 else if q % 2 = 0 then q else q + 1

/-- The whole part of the binary logarithm of a positive fraction. -/
def log2Fraction (num den : Nat) : Int :=
  let guess : Int := (num.log2 : Int) - den.log2
  let below :=
    if 0 ≤ guess then decide (num < den * Nat.pow 2 guess.toNat)
    else decide (num * Nat.pow 2 (-guess).toNat < den)
  if below then guess - 1 else guess

/-- The double nearest to a fraction, if it is finite. -/
def nearest (num den : Nat) : Option Double :=
  let power := max leastPower (log2Fraction num den - 52)
  let m :=
    if 0 ≤ power then roundDiv num (den * Nat.pow 2 power.toNat)
    else roundDiv (num * Nat.pow 2 (-power).toNat) den
  let rounded : Double :=
    if m = 0 then zero else if m = Nat.pow 2 53 then ⟨Nat.pow 2 52, power + 1⟩ else ⟨m, power⟩
  if greatestPower < rounded.power then none else some rounded

/-- A double as a fraction: its numerator and its denominator. -/
def fraction (x : Double) : Nat × Nat :=
  if 0 ≤ x.power then (x.significand * Nat.pow 2 x.power.toNat, 1)
  else (x.significand, Nat.pow 2 (-x.power).toNat)

/-- The rounded product of two doubles, if it is finite. -/
def times (x y : Double) : Option Double :=
  nearest (x.fraction.1 * y.fraction.1) (x.fraction.2 * y.fraction.2)

/-- The rounded quotient of a double and a positive one, if it is finite. -/
def dividedBy (x y : Double) : Option Double :=
  nearest (x.fraction.1 * y.fraction.2) (x.fraction.2 * y.fraction.1)

/-- The double nearest to a power of ten, if it is finite. -/
def tenTo (n : Nat) : Option Double := nearest (Nat.pow 10 n) 1

end Double
end NotificationRelay
