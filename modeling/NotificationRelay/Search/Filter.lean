/-
# Search filters

A client may narrow a search with a text: nothing at all, or a JSON record with the
channels to look in and a date or a range of dates. The fields `channels` and `date`
stand there at most once, as do the two ends of a range; unknown fields are skipped
without being read.
-/
import NotificationRelay.Error
import NotificationRelay.Json.Document
import NotificationRelay.Search.Criteria

namespace NotificationRelay

namespace Json

/-- The documents under a key, as often as it is written. -/
def Document.under (name : String) (fields : List (Option String × Document)) : List Document :=
  (fields.filter fun f => f.1 == some name).map Prod.snd

/-- The document under a key that is written at most once: `none` if it is repeated. -/
def Document.once? (name : String) (fields : List (Option String × Document)) :
    Option (Option Document) :=
  match under name fields with
  | [] => some none
  | [d] => some (some d)
  | _ => none

end Json

namespace Search

/-- The dates of a filter. -/
inductive DateChoice where
  | single (day : Day)
  | range (low high : Day)
  deriving DecidableEq, Repr

/-- A search filter. -/
structure Filter where
  /-- The senders to look for; the subscriptions of the searcher if absent. -/
  channels : Option (List String)
  dates : Option DateChoice

namespace Filter

open Json (Document asString asList asOption)

/-- The filter that excludes nothing. -/
def unrestricted : Filter := ⟨none, none⟩

/-- A date as a value. -/
def dayOf? : Json → Option Day
  | .string s => Day.ofText? s
  | _ => none

/-- The depth of nesting left inside a filter. -/
def innerDepth : Nat := Json.maxDepth - 1

/-- The date or the range of dates that a document writes. -/
def choice? (d : Document) : Option DateChoice :=
  match d with
  | .object fields =>
    match d.valueWithin innerDepth, Document.once? "lowDate" fields,
        Document.once? "highDate" fields with
    | some _, some (some low), some (some high) =>
      match (low.value?).bind dayOf?, (high.value?).bind dayOf? with
      | some low, some high => some (.range low high)
      | _, _ => none
    | _, _, _ => none
  | _ => ((d.valueWithin innerDepth).bind dayOf?).map .single

/-- The dates of a filter: an absent or null field is no restriction. -/
def dates? : Option Document → Option (Option DateChoice)
  | none => some none
  | some .null => some none
  | some d => (choice? d).map some

/-- The channels of a filter: an absent or null field is no restriction. -/
def channels? : Option Document → Option (Option (List String))
  | none => some none
  | some d =>
    match d.valueWithin innerDepth with
    | none => none
    | some v =>
      match asOption (asList asString) v with
      | .ok channels => some channels
      | .error _ => none

/-- A filter from its two fields. -/
def ofFields? (channels dates : Option Document) : Option Filter :=
  match channels? channels, dates? dates with
  | some channels, some dates => some ⟨channels, dates⟩
  | _, _ => none

/-- The filter that a document writes. -/
def ofDocument? : Document → Option Filter
  | .object fields =>
    if fields.any fun f => f.1.isNone then none
    else
      match Document.once? "channels" fields, Document.once? "date" fields with
      | some channels, some dates => ofFields? channels dates
      | _, _ => none
  | .array [] => ofFields? none none
  | .array [channels] => ofFields? (some channels) none
  | .array [channels, dates] => ofFields? (some channels) (some dates)
  | _ => none

/-- The filter that a text writes; a blank text restricts nothing. -/
def ofText (raw : String) : Except Rejection Filter :=
  if Text.isAllBlank raw then .ok unrestricted
  else
    match (Json.parse? raw).bind ofDocument? with
    | some filter => .ok filter
    | none => .error .searchFilter

/-- The window of a filter, unless its range ends before it begins. -/
def window (f : Filter) : Except Rejection (Option DateWindow) :=
  match f.dates with
  | none => .ok none
  | some (.single day) => .ok (some (.on day))
  | some (.range low high) =>
    if high.number < low.number then .error (.dates low high) else .ok (some (.between low high))

end Filter
end Search
end NotificationRelay
