/-
# JSON values

A value of the data format that requests, payloads and events are written in. A
number is whole or a decimal; the two are different numbers even where they are
equal, since no field that counts or identifies accepts a decimal. The fields of an
object stand in the order of their keys, each key once, however they were written.
-/
import NotificationRelay.Json.Decimal

namespace NotificationRelay

/-- A whole number, or one written with a fraction or an exponent. -/
inductive Number where
  | whole (n : Int)
  | real (d : Decimal)
  deriving DecidableEq, Repr, Inhabited

/-- A JSON value. -/
inductive Json where
  | null
  | bool (b : Bool)
  | number (n : Number)
  | string (s : String)
  | array (items : List Json)
  | object (fields : List (String × Json))
  deriving Repr, Inhabited

namespace Json

/-- The value of a key in a list of fields. -/
def find? (name : String) : List (String × Json) → Option Json
  | [] => none
  | (key, value) :: rest => if key = name then some value else find? name rest

/-- A field put where its key belongs; a later value of a key replaces an earlier one. -/
def insertField (key : String) (value : Json) : List (String × Json) → List (String × Json)
  | [] => [(key, value)]
  | (k, v) :: rest =>
    if key < k then (key, value) :: (k, v) :: rest
    else if key = k then (key, value) :: rest
    else (k, v) :: insertField key value rest

/-- The fields of an object in key order. -/
def sortFields (fields : List (String × Json)) : List (String × Json) :=
  fields.foldl (fun sorted f => insertField f.1 f.2 sorted) []

/-- A whole number. -/
def int (n : Int) : Json := .number (.whole n)

/-- A count. -/
def nat (n : Nat) : Json := .number (.whole n)

/-- A text that may be absent. -/
def text? : Option String → Json
  | some s => .string s
  | none => .null

/-- A list of texts. -/
def texts (l : List String) : Json := .array (l.map .string)

/-- The hexadecimal digit of a number below sixteen. -/
def hexDigit (n : Nat) : Char := if n < 10 then Char.ofNat (48 + n) else Char.ofNat (87 + n)

/-- One character inside a quoted text: the quote, the backslash and the control
characters are escaped, everything else stands for itself. -/
def escapeChar (c : Char) : List Char :=
  if c = '"' then ['\\', '"']
  else if c = '\\' then ['\\', '\\']
  else if c = '\n' then ['\\', 'n']
  else if c = '\r' then ['\\', 'r']
  else if c = '\t' then ['\\', 't']
  else if c.toNat = 8 then ['\\', 'b']
  else if c.toNat = 12 then ['\\', 'f']
  else if c.toNat < 32 then ['\\', 'u', '0', '0', hexDigit (c.toNat / 16), hexDigit (c.toNat % 16)]
  else [c]

/-- A quoted text. -/
def quote (s : String) : List Char := '"' :: (s.toList.flatMap escapeChar ++ ['"'])

/-- The text of a number. -/
def numberText : Number → List Char
  | .whole n => (toString n).toList
  | .real d => d.text.toList

mutual

/-- The characters of a value, without blanks. -/
def chars : Json → List Char
  | .null => "null".toList
  | .bool true => "true".toList
  | .bool false => "false".toList
  | .number n => numberText n
  | .string s => quote s
  | .array items => '[' :: (itemChars items ++ [']'])
  | .object fields => Char.ofNat 0x7b :: (fieldChars fields ++ [Char.ofNat 0x7d])

/-- The items of an array, with commas between them. -/
def itemChars : List Json → List Char
  | [] => []
  | [v] => chars v
  | v :: rest => chars v ++ ',' :: itemChars rest

/-- The fields of an object, with commas between them. -/
def fieldChars : List (String × Json) → List Char
  | [] => []
  | [(k, v)] => quote k ++ ':' :: chars v
  | (k, v) :: rest => quote k ++ ':' :: (chars v ++ ',' :: fieldChars rest)

end

/-- The text of a value, without blanks. -/
def compact (v : Json) : String := String.ofList v.chars

end Json
end NotificationRelay
