/-
# Requests of delivery nodes

A delivery node may ask for history. Its request is a JSON record with the tag
`historicalFeeds` under `event`, or first in an array, the two ends of a time window,
and a page, the first of a hundred feeds by default. Each of these fields stands there
at most once. Unknown fields are ignored but must have a value.
-/
import NotificationRelay.Json.Document
import NotificationRelay.Json.Record
import NotificationRelay.Search.Filter

namespace NotificationRelay

/-- A request for a page of history. -/
structure NodeRequest where
  start : Int
  stop : Int
  page : Nat
  size : Nat
  deriving DecidableEq, Repr

namespace NodeRequest

open Json (Document asInt64 asWord asString)

/-- The tag of a request for history. -/
def tag : String := "historicalFeeds"

/-- The page asked for by default. -/
def defaultPage : Nat := 1

/-- The page size asked for by default. -/
def defaultSize : Nat := 100

/-- The names of the fields after the tag, in the order of declaration. -/
def fieldNames : List String := ["startTime", "endTime", "page", "pageSize"]

/-- The request in the fields of a record. -/
def ofRecord (r : Json.Record) : Except DecodeError NodeRequest := do
  let start ← r.required "startTime" asInt64
  let stop ← r.required "endTime" asInt64
  let page ← r.withDefault "page" defaultPage asWord
  let size ← r.withDefault "pageSize" defaultSize asWord
  pure ⟨start, stop, page, size⟩

/-- Whether every known field is written at most once. -/
def isUnambiguous (fields : List (Option String × Document)) : Bool :=
  ("event" :: fieldNames).all fun name => (Document.once? name fields).isSome

/-- The request that a tagged record makes. -/
def ofTagged? (event : Json) (r : Json.Record) : Option NodeRequest :=
  match event with
  | .string s => if s = tag then (ofRecord r).toOption else none
  | _ => none

/-- The request that a document writes. -/
def ofDocument? (d : Document) : Option NodeRequest :=
  match d, d.value? with
  | .object written, some (.object fields) =>
    if isUnambiguous written then
      (Json.find? "event" fields).bind fun event => ofTagged? event ⟨fields, true⟩
    else none
  | _, some (.array (event :: items)) =>
    if fieldNames.length < items.length then none
    else ofTagged? event ⟨fieldNames.zip items, false⟩
  | _, _ => none

/-- The request that a text writes, if it writes one. -/
def ofText? (text : String) : Option NodeRequest := (Json.parse? text).bind ofDocument?

end NodeRequest
end NotificationRelay
