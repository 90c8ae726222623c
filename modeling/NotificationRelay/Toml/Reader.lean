/-
# Reading the configuration format

A text is read line by line: blank lines and comments, keys with their values, and
the headers that open tables. Values nest at most 79 deep, and a key has at most 79
parts. A byte order mark before the first line is skipped.
-/
import NotificationRelay.Toml.Quoted
import NotificationRelay.Toml.Scalar

namespace NotificationRelay
namespace Toml

/-- The first depth of nesting, and the first number of parts of a key, that is refused. -/
def depthLimit : Nat := 80

/-- A character of an unquoted key. -/
def isBareKeyChar (c : Char) : Bool :=
  Text.isDigit c || (decide ('a' ≤ c) && decide (c ≤ 'z')) || (decide ('A' ≤ c) && decide (c ≤ 'Z'))
    || c == '_' || c == '-'

/-- One part of a key. -/
def readKeyPart (cs : List Char) : Option (String × List Char) :=
  match cs with
  | c :: _ =>
    if c = '"' ∨ c = '\'' then (readInlineText cs).map fun (key, rest) => (String.ofList key, rest)
    else
      let key := cs.takeWhile isBareKeyChar
      if key.isEmpty then none else some (String.ofList key, cs.drop key.length)
  | [] => none

/-- The parts of a key, with blanks around its dots, and what follows it. -/
def readKeyParts : (fuel : Nat) → List Char → Option (List String × List Char)
  | 0, _ => none
  | fuel + 1, cs =>
    match readKeyPart (skipLineSpace cs) with
    | none => none
    | some (part, rest) =>
      match skipLineSpace rest with
      | '.' :: rest => (readKeyParts fuel rest).map fun (parts, rest) => (part :: parts, rest)
      | rest => some ([part], rest)

/-- A key: the path to its table, its last part, and what follows it after blanks. -/
def readKey (cs : List Char) : Option (List String × String × List Char) :=
  match readKeyParts depthLimit cs with
  | none => none
  | some (parts, rest) =>
    if depthLimit ≤ parts.length then none
    else
      match parts.getLast? with
      | some key => some (parts.dropLast, key, rest)
      | none => none

/-- The text after a comment, if it has one at its start. -/
def skipComment : List Char → Option (List Char)
  | '#' :: rest =>
    let after := rest.dropWhile isPlain
    match after with
    | [] => some []
    | _ => if (dropBreak after).isSome then some after else none
  | cs => some cs

/-- The text after blanks, line breaks and comments. -/
def skipTrivia : (fuel : Nat) → List Char → Option (List Char)
  | 0, cs => some cs
  | fuel + 1, cs =>
    match skipLineSpace cs with
    | '#' :: rest => (skipComment ('#' :: rest)).bind (skipTrivia fuel)
    | rest =>
      match dropBreak rest with
      | some rest => skipTrivia fuel rest
      | none => some rest

/-- The text after the rest of a line: blanks, a comment, and the line break or the end. -/
def endLine (cs : List Char) : Option (List Char) :=
  match skipComment (skipLineSpace cs) with
  | none => none
  | some [] => some []
  | some rest => dropBreak rest

mutual

/-- A value at the start of a text, inside `depth` others, and what follows it. -/
def readValue (depth : Nat) : (fuel : Nat) → List Char → Option (Item × List Char)
  | 0, _ => none
  | fuel + 1, cs =>
    match cs with
    | [] => none
    | '[' :: rest =>
      if depthLimit ≤ depth + 1 then none
      else (readItems (depth + 1) fuel rest).map fun (items, rest) => (.array items, rest)
    | c :: rest =>
      if c = Char.ofNat 0x7b then
        if depthLimit ≤ depth + 1 then none
        else
          match skipLineSpace rest with
          | d :: after =>
            if d = Char.ofNat 0x7d then some (.table .inline [], after)
            else
              (readPairs (depth + 1) fuel [] (d :: after)).map fun (entries, rest) =>
                (.table .inline entries, rest)
          | [] => none
      else if c = '"' ∨ c = '\'' then
        (readText cs).map fun (text, rest) => (.string (String.ofList text), rest)
      else readScalar cs

/-- The items of an array up to its closing bracket; a comma may stand after the last. -/
def readItems (depth : Nat) : (fuel : Nat) → List Char → Option (List Item × List Char)
  | 0, _ => none
  | fuel + 1, cs =>
    match skipTrivia cs.length cs with
    | some (']' :: rest) => some ([], rest)
    | some rest =>
      match readValue depth fuel rest with
      | none => none
      | some (item, rest) =>
        match skipTrivia rest.length rest with
        | some (',' :: rest) =>
          (readItems depth fuel rest).map fun (items, rest) => (item :: items, rest)
        | some (']' :: rest) => some ([item], rest)
        | _ => none
    | none => none

/-- The pairs of an inline table up to its closing brace, added to the given entries. -/
def readPairs (depth : Nat) : (fuel : Nat) → Entries → List Char → Option (Entries × List Char)
  | 0, _, _ => none
  | fuel + 1, entries, cs =>
    match readKey cs with
    | some (path, key, '=' :: rest) =>
      match readValue depth fuel (skipLineSpace rest) with
      | none => none
      | some (item, rest) =>
        match assign path key item .header entries with
        | none => none
        | some entries =>
          match skipLineSpace rest with
          | ',' :: rest => readPairs depth fuel entries rest
          | c :: rest => if c = Char.ofNat 0x7d then some (entries, rest) else none
          | [] => none
    | _ => none

end

/-- A header after its opening bracket: whether it opens one more table of a list, the
path to its table, its last part, and what follows it. -/
def readHeader (cs : List Char) : Option (Bool × List String × String × List Char) :=
  match cs with
  | '[' :: rest =>
    match readKey rest with
    | some (path, key, ']' :: ']' :: rest) => some (true, path, key, rest)
    | _ => none
  | _ =>
    match readKey cs with
    | some (path, key, ']' :: rest) => some (false, path, key, rest)
    | _ => none

/-- The lines of a text, added to a tree; `current` is the path of the open table. -/
def readLinesInto : (fuel : Nat) → (current : List String) → Entries → List Char → Option Entries
  | 0, _, _, _ => none
  | fuel + 1, current, root, cs =>
    match skipTrivia cs.length cs with
    | none => none
    | some [] => some root
    | some ('[' :: rest) =>
      match readHeader rest with
      | none => none
      | some (listed, path, key, rest) =>
        match endLine rest, openTable listed path key root with
        | some rest, some root => readLinesInto fuel (path ++ [key]) root rest
        | _, _ => none
    | some rest =>
      match readKey rest with
      | some (path, key, '=' :: rest) =>
        match readValue 0 (rest.length + 1) (skipLineSpace rest) with
        | none => none
        | some (item, rest) =>
          match endLine rest, assignIn current path key item root with
          | some rest, some root => readLinesInto fuel current root rest
          | _, _ => none
      | _ => none

/-- The text after a byte order mark. -/
def skipMark : List Char → List Char
  | c :: rest => if c.toNat = 0xFEFF then rest else c :: rest
  | [] => []

/-- The root table of a text. -/
def parse? (text : String) : Option Entries :=
  let cs := skipMark text.toList
  readLinesInto (cs.length + 1) [] [] cs

end Toml
end NotificationRelay
