/-
# Records in JSON

A record is written as an object of its fields or as an array of their values in
the order of declaration. Reading one goes in two passes. First every known field
that is present must have a value of its type, in the order in which the fields
stand; the first that has not is the error. Then every field that has no default
must be present, in the order of declaration. Unknown fields of an object are
ignored, and an array may be shorter than the record but not longer.
-/
import NotificationRelay.Json.Value
import NotificationRelay.Text.Numeral

namespace NotificationRelay

/-- Why a value is not what a reader wants. -/
inductive DecodeError where
  /-- A value of the wrong kind, or an array of the wrong length. -/
  | mismatch
  /-- A field without a default is absent. -/
  | missing (field : String)
  /-- A value that names no sender type. -/
  | unknownSenderType (value : Json)
  /-- A value that names no kind of notification. -/
  | unknownKind (value : Json)

/-- The text of a decoding error; a mere mismatch has none. -/
def DecodeError.message? : DecodeError → Option String
  | .mismatch => none
  | .missing field => some ("missing field `" ++ field ++ "`")
  | .unknownSenderType value => some ("unknown sender type: " ++ value.compact)
  | .unknownKind value => some ("unknown notification type: " ++ value.compact)

namespace Json

/-- A reader of values. -/
abbrev Decoder (α : Type) := Json → Except DecodeError α

/-- A text. -/
def asString : Decoder String
  | .string s => .ok s
  | _ => .error .mismatch

/-- A truth value. -/
def asBool : Decoder Bool
  | .bool b => .ok b
  | _ => .error .mismatch

/-- A whole number between two bounds. -/
def asInt (lo hi : Int) : Decoder Int
  | .number (.whole n) => if lo ≤ n ∧ n ≤ hi then .ok n else .error .mismatch
  | _ => .error .mismatch

/-- A signed 64-bit number. -/
def asInt64 : Decoder Int := asInt (-9223372036854775808) 9223372036854775807

/-- A count up to a bound. -/
def asNat (hi : Nat) (v : Json) : Except DecodeError Nat :=
  (asInt 0 hi v).map Int.toNat

/-- An unsigned 64-bit number. -/
def asWord : Decoder Nat := asNat Text.maxWord

/-- A value that may be null. -/
def asOption {α : Type} (read : Decoder α) : Decoder (Option α)
  | .null => .ok none
  | v => (read v).map some

/-- Every item of a list read in turn. -/
def readAll {α : Type} (read : Decoder α) : List Json → Except DecodeError (List α)
  | [] => .ok []
  | v :: rest =>
    match read v with
    | .error e => .error e
    | .ok a => (readAll read rest).map (a :: ·)

/-- An array of values of one type. -/
def asList {α : Type} (read : Decoder α) : Decoder (List α)
  | .array items => readAll read items
  | _ => .error .mismatch

/-- The fields of a record, and whether they were written by name. -/
structure Record where
  fields : List (String × Json)
  named : Bool

/-- Every field in turn has a value of its type. -/
def checkAll (check : String → Decoder Unit) : List (String × Json) → Except DecodeError Unit
  | [] => .ok ()
  | (key, value) :: rest =>
    match check key value with
    | .error e => .error e
    | .ok () => checkAll check rest

/-- A record with the given fields, each value of which passes its check. -/
def asRecord (names : List String) (check : String → Decoder Unit) : Decoder Record
  | .object fields => (checkAll check fields).map fun _ => ⟨fields, true⟩
  | .array items =>
    match checkAll check (names.zip items) with
    | .error e => .error e
    | .ok () => if names.length < items.length then .error .mismatch else .ok ⟨names.zip items, false⟩
  | _ => .error .mismatch

namespace Record

/-- A field without a default. -/
def required {α : Type} (r : Record) (name : String) (read : Decoder α) : Except DecodeError α :=
  match find? name r.fields with
  | some v => read v
  | none => .error (if r.named then .missing name else .mismatch)

/-- A field with a default. -/
def withDefault {α : Type} (r : Record) (name : String) (absent : α) (read : Decoder α) :
    Except DecodeError α :=
  match find? name r.fields with
  | some v => read v
  | none => .ok absent

/-- A field that may be absent or null. -/
def optional {α : Type} (r : Record) (name : String) (read : Decoder α) :
    Except DecodeError (Option α) :=
  r.withDefault name none (asOption read)

end Record

/-- A check that forgets the value it read. -/
def passes {α : Type} (read : Decoder α) : Decoder Unit := fun v => (read v).map fun _ => ()

end Json
end NotificationRelay
