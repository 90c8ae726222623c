/-
# Quoted texts of the configuration format

Four kinds of quotes: basic ones, with escapes, and literal ones, without, each on
one line or, tripled, on several. A line break right after an opening triple quote is
not part of the text, line breaks inside are kept as line feeds, and a backslash at
the end of a line removes the break and the blanks that follow it.
-/
import NotificationRelay.Text.Numeral

namespace NotificationRelay
namespace Toml

/-- A blank that does not end a line. -/
def isLineSpace (c : Char) : Bool := c == ' ' || c == '\t'

/-- The text after blanks that do not end a line. -/
def skipLineSpace (cs : List Char) : List Char := cs.dropWhile isLineSpace

/-- A character that may stand in a comment or a quoted text: not a control character
other than the tab. -/
def isPlain (c : Char) : Bool := c == '\t' || (decide (32 ≤ c.toNat) && c.toNat != 127)

/-- The character of a code point, unless it is a surrogate or out of range. -/
def charOf? (digits : List Char) : Option Char :=
  let n := Text.ofDigits 16 digits
  if digits.all Text.isHexDigit && (decide (n < 0xD800) || (decide (0xDFFF < n) && decide (n < 0x110000)))
  then some (Char.ofNat n) else none

/-- The character that a letter after a backslash stands for. -/
def escaped? (c : Char) : Option Char :=
  if c = '"' ∨ c = '\\' then some c
  else if c = 'b' then some (Char.ofNat 8)
  else if c = 't' then some '\t'
  else if c = 'n' then some '\n'
  else if c = 'f' then some (Char.ofNat 12)
  else if c = 'r' then some '\r'
  else none

/-- An escape after its backslash, and what follows it. -/
def readEscape : List Char → Option (Char × List Char)
  | 'u' :: a :: b :: c :: d :: rest => (charOf? [a, b, c, d]).map fun x => (x, rest)
  | 'U' :: a :: b :: c :: d :: e :: f :: g :: h :: rest =>
    (charOf? [a, b, c, d, e, f, g, h]).map fun x => (x, rest)
  | c :: rest => (escaped? c).map fun x => (x, rest)
  | [] => none

/-- A line break at the start of a text removed, if there is one. -/
def dropBreak : List Char → Option (List Char)
  | '\n' :: rest => some rest
  | '\r' :: '\n' :: rest => some rest
  | _ => none

/-- The text after blanks and line breaks. -/
def skipBlankLines : (fuel : Nat) → List Char → List Char
  | 0, cs => cs
  | fuel + 1, cs =>
    match dropBreak (skipLineSpace cs) with
    | some rest => skipBlankLines fuel rest
    | none => skipLineSpace cs

/-- The text after a backslash that ends its line, if that is what it does. -/
def joinLines (cs : List Char) : Option (List Char) :=
  (dropBreak (skipLineSpace cs)).map fun rest => skipBlankLines rest.length rest

/-- A basic text on one line up to its closing quote. -/
def readBasic : (fuel : Nat) → List Char → Option (List Char × List Char)
  | 0, _ => none
  | _, '"' :: rest => some ([], rest)
  | fuel + 1, '\\' :: rest =>
    match readEscape rest with
    | none => none
    | some (c, rest) => (readBasic fuel rest).map fun (cs, after) => (c :: cs, after)
  | fuel + 1, c :: rest =>
    if isPlain c then (readBasic fuel rest).map fun (cs, after) => (c :: cs, after) else none
  | _, [] => none

/-- A literal text on one line up to its closing quote. -/
def readLiteral : List Char → Option (List Char × List Char)
  | [] => none
  | c :: rest =>
    if c = '\'' then some ([], rest)
    else if isPlain c then (readLiteral rest).map fun (cs, after) => (c :: cs, after)
    else none

/-- The number of quotes at the start of a text. -/
def quoteRun (quote : Char) (cs : List Char) : Nat := (cs.takeWhile (· == quote)).length

/-- The end of a text on several lines, where three to five quotes stand: those before
the last three belong to it. -/
def closing (quote : Char) (cs : List Char) : Option (List Char × List Char) :=
  let n := min (quoteRun quote cs) 5
  if 3 ≤ n then some (List.replicate (n - 3) quote, cs.drop n) else none

/-- A text on several lines up to its closing quotes, with escapes if it is basic. -/
def readLines (quote : Char) (basic : Bool) : (fuel : Nat) → List Char →
    Option (List Char × List Char)
  | 0, _ => none
  | fuel + 1, cs =>
    match closing quote cs with
    | some found => some found
    | none =>
      match cs with
      | [] => none
      | '\\' :: rest =>
        if basic then
          match joinLines rest with
          | some rest => readLines quote basic fuel rest
          | none =>
            match readEscape rest with
            | none => none
            | some (c, rest) =>
              (readLines quote basic fuel rest).map fun (cs, after) => (c :: cs, after)
        else (readLines quote basic fuel rest).map fun (cs, after) => ('\\' :: cs, after)
      | c :: rest =>
        match dropBreak (c :: rest) with
        | some rest => (readLines quote basic fuel rest).map fun (cs, after) => ('\n' :: cs, after)
        | none =>
          if isPlain c then
            (readLines quote basic fuel rest).map fun (cs, after) => (c :: cs, after)
          else none

/-- A text on several lines after its opening quotes. -/
def readBlock (quote : Char) (basic : Bool) (cs : List Char) : Option (List Char × List Char) :=
  let body := (dropBreak cs).getD cs
  readLines quote basic (body.length + 1) body

/-- A quoted text on one line, such as a key may be. -/
def readInlineText : List Char → Option (List Char × List Char)
  | c :: rest =>
    if c = '"' then readBasic (rest.length + 1) rest
    else if c = '\'' then readLiteral rest
    else none
  | [] => none

/-- A quoted text of any kind. -/
def readText (cs : List Char) : Option (List Char × List Char) :=
  match cs with
  | a :: b :: c :: rest =>
    if a = b ∧ b = c ∧ (a = '"' ∨ a = '\'') then readBlock a (a == '"') rest
    else readInlineText cs
  | _ => readInlineText cs

end Toml
end NotificationRelay
