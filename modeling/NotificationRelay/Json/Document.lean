/-
# JSON text

Reading a text goes through its `Document`, the tree of what is written: an object
keeps every field in the order and as often as it stands there, a number its digits,
and a quoted text is kept even when it has no value, because it escapes one half of a
surrogate pair. `Document.value?` turns the tree into a value and refuses what has
none: a lone surrogate, a number beyond the greatest double, a nesting of more than
127. A reader that skips an unknown field skips its document and asks for no value.
-/
import NotificationRelay.Json.Numeral

namespace NotificationRelay
namespace Json

/-- The tree of a JSON text. -/
inductive Document where
  | null
  | bool (b : Bool)
  | number (n : Numeral)
  | string (s : Option String)
  | array (items : List Document)
  | object (fields : List (Option String × Document))
  deriving Inhabited

/-- The deepest nesting that has a value. -/
def maxDepth : Nat := 127

namespace Document

mutual

/-- The value of a document nested at most `depth` deep. -/
def valueWithin (depth : Nat) : Document → Option Json
  | .null => some .null
  | .bool b => some (.bool b)
  | .number n => n.number?.map .number
  | .string s => s.map .string
  | .array items => if depth = 0 then none else (itemsWithin (depth - 1) items).map .array
  | .object fields =>
    if depth = 0 then none
    else (fieldsWithin (depth - 1) fields).map fun fs => .object (sortFields fs)

/-- The values of the items of an array. -/
def itemsWithin (depth : Nat) : List Document → Option (List Json)
  | [] => some []
  | d :: rest =>
    match valueWithin depth d, itemsWithin depth rest with
    | some v, some vs => some (v :: vs)
    | _, _ => none

/-- The values of the fields of an object, as often as they are written. -/
def fieldsWithin (depth : Nat) :
    List (Option String × Document) → Option (List (String × Json))
  | [] => some []
  | (key, d) :: rest =>
    match key, valueWithin depth d, fieldsWithin depth rest with
    | some k, some v, some fs => some ((k, v) :: fs)
    | _, _, _ => none

end

/-- The value of a document. -/
def value? (d : Document) : Option Json := d.valueWithin maxDepth

end Document

/-- The blanks of the format. -/
def isSpace (c : Char) : Bool := c == ' ' || c == '\n' || c == '\t' || c == '\r'

/-- The text after its leading blanks. -/
def skipSpace (cs : List Char) : List Char := cs.dropWhile isSpace

/-- A piece of a quoted text: a character, or an escaped UTF-16 unit. -/
inductive Piece where
  | char (c : Char)
  | unit (n : Nat)

/-- The unit that four hexadecimal digits write. -/
def unit? (a b c d : Char) : Option Piece :=
  if [a, b, c, d].all Text.isHexDigit then some (.unit (Text.ofDigits 16 [a, b, c, d])) else none

/-- The character that a letter after a backslash stands for. -/
def escaped? (c : Char) : Option Char :=
  if c = '"' ∨ c = '\\' ∨ c = '/' then some c
  else if c = 'b' then some (Char.ofNat 8)
  else if c = 'f' then some (Char.ofNat 12)
  else if c = 'n' then some '\n'
  else if c = 'r' then some '\r'
  else if c = 't' then some '\t'
  else none

/-- The pieces of a quoted text up to its closing quote, and what follows it. -/
def readPieces : List Char → Option (List Piece × List Char)
  | [] => none
  | '"' :: rest => some ([], rest)
  | '\\' :: 'u' :: a :: b :: c :: d :: rest =>
    match unit? a b c d, readPieces rest with
    | some p, some (ps, after) => some (p :: ps, after)
    | _, _ => none
  | '\\' :: c :: rest =>
    match escaped? c, readPieces rest with
    | some c, some (ps, after) => some (.char c :: ps, after)
    | _, _ => none
  | c :: rest =>
    if c.toNat < 32 then none
    else (readPieces rest).map fun (ps, after) => (.char c :: ps, after)

/-- The characters of a quoted text; `none` where a surrogate stands alone. -/
def assemble : List Piece → Option (List Char)
  | [] => some []
  | .char c :: rest => (assemble rest).map (c :: ·)
  | .unit hi :: .unit lo :: rest =>
    if 0xD800 ≤ hi ∧ hi < 0xDC00 then
      if 0xDC00 ≤ lo ∧ lo < 0xE000 then
        (assemble rest).map (Char.ofNat (0x10000 + (hi - 0xD800) * 0x400 + (lo - 0xDC00)) :: ·)
      else none
    else if 0xDC00 ≤ hi ∧ hi < 0xE000 then none
    else (assemble (.unit lo :: rest)).map (Char.ofNat hi :: ·)
  | .unit n :: rest =>
    if 0xD800 ≤ n ∧ n < 0xE000 then none else (assemble rest).map (Char.ofNat n :: ·)

/-- A quoted text after its opening quote. -/
def readString (cs : List Char) : Option (Option String × List Char) :=
  (readPieces cs).map fun (ps, rest) => ((assemble ps).map String.ofList, rest)

/-- The digits at the start of a text and what follows them. -/
def spanDigits (cs : List Char) : List Char × List Char :=
  (cs.takeWhile Text.isDigit, cs.dropWhile Text.isDigit)

/-- The fraction at the start of a text: its digits, or none if there is no point. -/
def readFraction : List Char → Option (Option (List Char) × List Char)
  | '.' :: cs =>
    let (digits, rest) := spanDigits cs
    if digits.isEmpty then none else some (some digits, rest)
  | cs => some (none, cs)

/-- The sign at the start of an exponent. -/
def readSign : List Char → Bool × List Char
  | '+' :: cs => (false, cs)
  | '-' :: cs => (true, cs)
  | cs => (false, cs)

/-- The exponent at the start of a text, if there is one. -/
def readExponent : List Char → Option (Option Int × List Char)
  | c :: cs =>
    if c = 'e' ∨ c = 'E' then
      let (negative, cs) := readSign cs
      let (digits, rest) := spanDigits cs
      if digits.isEmpty then none
      else
        let n : Int := Text.ofDigits 10 digits
        some (some (if negative then -n else n), rest)
    else some (none, c :: cs)
  | [] => some (none, [])

/-- A number after its sign: digits without a leading zero, fraction, exponent. -/
def readNumber (negative : Bool) (cs : List Char) : Option (Document × List Char) :=
  let (digits, rest) := spanDigits cs
  match digits with
  | [] => none
  | '0' :: _ :: _ => none
  | _ =>
    match readFraction rest with
    | none => none
    | some (fraction, rest) =>
      match readExponent rest with
      | none => none
      | some (exponent, rest) =>
        some (.number (Numeral.ofParts negative digits fraction exponent), rest)

/-- The text after a word that must stand at its start. -/
def expect : List Char → List Char → Option (List Char)
  | [], cs => some cs
  | _ :: _, [] => none
  | w :: ws, c :: cs => if w = c then expect ws cs else none

/-- The opening and closing brace of an object. -/
def openBrace : Char := Char.ofNat 0x7b

/-- The closing brace of an object. -/
def closeBrace : Char := Char.ofNat 0x7d

mutual

/-- One value at the start of a text, after blanks. The fuel bounds the number of
values and separators; the length of the text suffices. -/
def readDocument : Nat → List Char → Option (Document × List Char)
  | 0, _ => none
  | fuel + 1, cs =>
    match skipSpace cs with
    | [] => none
    | '"' :: rest => (readString rest).map fun (s, rest) => (.string s, rest)
    | '[' :: rest =>
      match skipSpace rest with
      | ']' :: rest => some (.array [], rest)
      | rest => (readItems fuel rest).map fun (items, rest) => (.array items, rest)
    | 'n' :: rest => (expect "ull".toList rest).map fun rest => (.null, rest)
    | 't' :: rest => (expect "rue".toList rest).map fun rest => (.bool true, rest)
    | 'f' :: rest => (expect "alse".toList rest).map fun rest => (.bool false, rest)
    | '-' :: rest => readNumber true rest
    | c :: rest =>
      if c = openBrace then
        match skipSpace rest with
        | [] => none
        | d :: after =>
          if d = closeBrace then some (.object [], after)
          else (readFields fuel (d :: after)).map fun (fields, rest) => (.object fields, rest)
      else readNumber false (c :: rest)

/-- The items of an array from its first one to its closing bracket. -/
def readItems : Nat → List Char → Option (List Document × List Char)
  | 0, _ => none
  | fuel + 1, cs =>
    match readDocument fuel cs with
    | none => none
    | some (d, rest) =>
      match skipSpace rest with
      | ',' :: rest => (readItems fuel rest).map fun (items, rest) => (d :: items, rest)
      | ']' :: rest => some ([d], rest)
      | _ => none

/-- The fields of an object from its first one to its closing brace. -/
def readFields : Nat → List Char → Option (List (Option String × Document) × List Char)
  | 0, _ => none
  | fuel + 1, cs =>
    match skipSpace cs with
    | '"' :: rest =>
      match readString rest with
      | none => none
      | some (key, rest) =>
        match skipSpace rest with
        | ':' :: rest =>
          match readDocument fuel rest with
          | none => none
          | some (d, rest) =>
            match skipSpace rest with
            | ',' :: rest => (readFields fuel rest).map fun (fs, rest) => ((key, d) :: fs, rest)
            | c :: rest => if c = closeBrace then some ([(key, d)], rest) else none
            | [] => none
        | _ => none
    | _ => none

end

/-- The document of a text that holds one value and blanks. -/
def parse? (text : String) : Option Document :=
  let cs := text.toList
  match readDocument (cs.length + 1) cs with
  | some (d, rest) => if (skipSpace rest).isEmpty then some d else none
  | none => none

/-- The value of a text that holds one value and blanks. -/
def ofText? (text : String) : Option Json := (parse? text).bind Document.value?

end Json
end NotificationRelay
