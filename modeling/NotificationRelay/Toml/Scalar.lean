/-
# Unquoted values

Booleans, numbers and moments of the configuration format. An unquoted value is the
longest run of letters, digits and the marks `+ - _ . :`, and only a date may go on
after a blank, with its time. Digits may be grouped by single underscores. A positive
float must not exceed the greatest double.
-/
import NotificationRelay.Calendar.Day
import NotificationRelay.Json.Decimal
import NotificationRelay.Text.Numeral
import NotificationRelay.Toml.Item

namespace NotificationRelay
namespace Toml

/-- A character of an unquoted value. -/
def isTokenChar (c : Char) : Bool :=
  Text.isDigit c || (decide ('a' ≤ c) && decide (c ≤ 'z')) || (decide ('A' ≤ c) && decide (c ≤ 'Z'))
    || c == '+' || c == '-' || c == '_' || c == '.' || c == ':'

/-- The digits of a group: a digit first, then digits with single underscores between
them; `none` if the text is anything else. -/
def groupedDigits (accepts : Char → Bool) : List Char → Option (List Char)
  | [] => none
  | [c] => if accepts c then some [c] else none
  | c :: '_' :: rest => if accepts c then (groupedDigits accepts rest).map (c :: ·) else none
  | c :: rest => if accepts c then (groupedDigits accepts rest).map (c :: ·) else none

/-- The sign of a number and what follows it. -/
def splitSign : List Char → Bool × List Char
  | '+' :: cs => (false, cs)
  | '-' :: cs => (true, cs)
  | cs => (false, cs)

/-- The digits of a decimal whole number, which has no leading zero. -/
def decimalDigits (cs : List Char) : Option (List Char) :=
  match cs with
  | ['0'] => some ['0']
  | '0' :: _ => none
  | _ => groupedDigits Text.isDigit cs

/-- A number that fits 64 bits with a sign. -/
def fitting (n : Int) : Option Item :=
  if -9223372036854775808 ≤ n ∧ n ≤ 9223372036854775807 then some (.integer n) else none

/-- A whole number in base sixteen, eight or two. -/
def based (base : Nat) (accepts : Char → Bool) (cs : List Char) : Option Item :=
  (groupedDigits accepts cs).bind fun digits => fitting (Text.ofDigits base digits)

/-- A whole number. -/
def integer? (cs : List Char) : Option Item :=
  match cs with
  | '0' :: 'x' :: rest => based 16 Text.isHexDigit rest
  | '0' :: 'o' :: rest => based 8 (fun c => decide ('0' ≤ c) && decide (c ≤ '7')) rest
  | '0' :: 'b' :: rest => based 2 (fun c => c == '0' || c == '1') rest
  | _ =>
    let (negative, rest) := splitSign cs
    (decimalDigits rest).bind fun digits =>
      let n : Int := Text.ofDigits 10 digits
      fitting (if negative then -n else n)

/-- The exponent after its mark. -/
def exponent? (cs : List Char) : Option Int :=
  let (negative, rest) := splitSign cs
  (groupedDigits Text.isDigit rest).map fun digits =>
    let n : Int := Text.ofDigits 10 digits
    if negative then -n else n

/-- Whether a character begins an exponent. -/
def isExponentMark (c : Char) : Bool := c == 'e' || c == 'E'

/-- The decimal written by a float after its sign. -/
def decimal? (negative : Bool) (cs : List Char) : Option Decimal :=
  let whole := cs.takeWhile fun c => c != '.' && !isExponentMark c
  let rest := cs.drop whole.length
  let exponentPart := rest.dropWhile fun c => !isExponentMark c
  let fractionPart := rest.takeWhile fun c => !isExponentMark c
  let fraction? : Option (List Char) :=
    match fractionPart with
    | [] => some []
    | _ :: places => groupedDigits Text.isDigit places
  let exponent : Option Int :=
    match exponentPart with
    | [] => some 0
    | _ :: digits => exponent? digits
  match decimalDigits whole, fraction?, exponent with
  | some digits, some places, some e =>
    if rest.isEmpty then none
    else some ⟨negative, Text.ofDigits 10 (digits ++ places), e - places.length⟩
  | _, _, _ => none

/-- A float. -/
def float? (cs : List Char) : Option Item :=
  let (negative, rest) := splitSign cs
  if rest = "inf".toList ∨ rest = "nan".toList then some .float
  else
    (decimal? negative rest).bind fun d =>
      if negative || d.isFinite then some .float else none

/-- The number of two digits, at most a bound. -/
def twoDigits? (bound : Nat) : List Char → Option Nat
  | [a, b] =>
    if Text.isDigit a && Text.isDigit b && decide (Text.ofDigits 10 [a, b] ≤ bound) then
      some (Text.ofDigits 10 [a, b])
    else none
  | _ => none

/-- A date that exists. -/
def isDate (cs : List Char) : Bool :=
  match cs with
  | [a, b, c, d, '-', m, n, '-', e, f] =>
    match twoDigits? 12 [m, n], twoDigits? 31 [e, f] with
    | some month, some day =>
      [a, b, c, d].all Text.isDigit && decide (1 ≤ month) && decide (1 ≤ day)
        && decide (day ≤ Day.monthLength (Text.ofDigits 10 [a, b, c, d]) month)
    | _, _ => false
  | _ => false

/-- What follows a time of day at the start of a text. -/
def afterTime? (cs : List Char) : Option (List Char) :=
  match cs with
  | a :: b :: ':' :: c :: d :: ':' :: e :: f :: rest =>
    match twoDigits? 23 [a, b], twoDigits? 59 [c, d], twoDigits? 60 [e, f] with
    | some _, some _, some _ =>
      match rest with
      | '.' :: places =>
        if (places.takeWhile Text.isDigit).isEmpty then none
        else some (places.dropWhile Text.isDigit)
      | _ => some rest
    | _, _, _ => none
  | _ => none

/-- An offset from universal time, or none. -/
def isOffset (cs : List Char) : Bool :=
  match cs with
  | [] => true
  | ['Z'] => true
  | ['z'] => true
  | [s, a, b, ':', c, d] =>
    (s == '+' || s == '-') && (twoDigits? 23 [a, b]).isSome && (twoDigits? 59 [c, d]).isSome
  | _ => false

/-- A time of day with an offset or without. -/
def isTimeWithOffset (cs : List Char) : Bool :=
  match afterTime? cs with
  | some rest => isOffset rest
  | none => false

/-- A date, a time of day, or both. -/
def isMoment (cs : List Char) : Bool :=
  isDate cs || afterTime? cs == some []
    || (isDate (cs.take 10)
      && match cs.drop 10 with
        | c :: rest => (c == 'T' || c == 't') && isTimeWithOffset rest
        | [] => false)

/-- The value of an unquoted run. -/
def scalar? (cs : List Char) : Option Item :=
  if cs = "true".toList then some (.boolean true)
  else if cs = "false".toList then some (.boolean false)
  else if isMoment cs then some .moment
  else
    match integer? cs with
    | some item => some item
    | none => float? cs

/-- An unquoted value at the start of a text, and what follows it. -/
def readScalar (cs : List Char) : Option (Item × List Char) :=
  let token := cs.takeWhile isTokenChar
  let rest := cs.drop token.length
  match rest with
  | ' ' :: after =>
    let time := after.takeWhile isTokenChar
    if isDate token && isTimeWithOffset time then some (.moment, after.drop time.length)
    else (scalar? token).map fun item => (item, rest)
  | _ => (scalar? token).map fun item => (item, rest)

end Toml
end NotificationRelay
