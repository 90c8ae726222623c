/-
# Dates as text

A date is printed as `YYYY-MM-DD`. Years from 0 to 9999 have four digits, all others
a sign and at least four. Reading is more tolerant: blanks may stand around the year,
the month and the day, month and day may have one digit, and a year has up to four
digits, or any number of them after a sign.
-/
import NotificationRelay.Calendar.Day
import NotificationRelay.Text.Blank
import NotificationRelay.Text.Numeral

namespace NotificationRelay
namespace Day

/-- A number with at least so many digits. -/
def padded (width n : Nat) : List Char :=
  let digits := Nat.toDigits 10 n
  List.replicate (width - digits.length) '0' ++ digits

/-- The text of a year. -/
def yearChars (year : Int) : List Char :=
  if 0 ≤ year ∧ year ≤ 9999 then padded 4 year.toNat
  else (if year < 0 then '-' else '+') :: padded 4 year.natAbs

/-- The text of a date. -/
def chars (d : Day) : List Char :=
  let c := d.civil
  yearChars c.year ++ '-' :: (padded 2 c.month ++ '-' :: padded 2 c.day)

/-- The text of a date. -/
def text (d : Day) : String := String.ofList d.chars

/-- The text of a second that lies on a day, in universal time. -/
def instantText (seconds : Int) : String :=
  let time := (seconds % 86400).toNat
  String.ofList ((Day.mk (seconds / 86400)).chars ++ 'T' :: (padded 2 (time / 3600) ++ ':' ::
    (padded 2 (time / 60 % 60) ++ ':' :: (padded 2 (time % 60) ++ ['Z']))))

/-- The number written by at most `most` digits, at least one, and what follows them. -/
def readDigits (most : Nat) (cs : List Char) : Option (Nat × List Char) :=
  let digits := (cs.take most).takeWhile Text.isDigit
  if digits.isEmpty then none else some (Text.ofDigits 10 digits, cs.drop digits.length)

/-- A year after blanks and what follows it. -/
def readYear (cs : List Char) : Option (Int × List Char) :=
  match Text.trimLeft cs with
  | '-' :: rest => (readDigits rest.length rest).map fun (n, rest) => (-(n : Int), rest)
  | '+' :: rest => (readDigits rest.length rest).map fun (n, rest) => ((n : Int), rest)
  | rest => (readDigits 4 rest).map fun (n, rest) => ((n : Int), rest)

/-- A hyphen and a number of one or two digits, each after blanks, and what follows. -/
def readPart (cs : List Char) : Option (Nat × List Char) :=
  match Text.trimLeft cs with
  | '-' :: rest => readDigits 2 (Text.trimLeft rest)
  | _ => none

/-- The day that a text writes. -/
def ofChars? (cs : List Char) : Option Day :=
  match readYear cs with
  | none => none
  | some (year, rest) =>
    match readPart rest with
    | none => none
    | some (month, rest) =>
      match readPart rest with
      | none => none
      | some (day, rest) =>
        if (Text.trimLeft rest).isEmpty then ofCivil? ⟨year, month, day⟩ else none

/-- The day that a text writes. -/
def ofText? (s : String) : Option Day := ofChars? s.toList

end Day
end NotificationRelay
