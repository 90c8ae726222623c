/-
# Views of a feed

What is shown of a feed depends on who looks: a reader of a listing, a live client, a
delivery node, or a node that fetches history. Pages of views carry the size of the
whole list they were cut from.
-/
import NotificationRelay.Calendar.DateText
import NotificationRelay.Feed.Basic

namespace NotificationRelay
namespace Feed

/-- A feed in a listing or a connect snapshot. -/
structure View where
  id : FeedId
  payloadId : String
  sender : String
  epoch : Int
  payload : Payload
  source : String
  expiry : Option Int

/-- A feed pushed to a live client. -/
structure Live where
  id : FeedId
  sender : String
  epoch : Int
  payload : Payload
  source : String

/-- A feed pushed to a delivery node. -/
structure Delivery where
  id : FeedId
  payloadId : String
  sender : String
  recipients : List String
  payload : Payload
  epoch : Int
  source : String
  isSpam : Bool

/-- A feed in a historical export. -/
structure Export where
  id : FeedId
  payloadId : String
  recipients : List String
  payload : Payload
  epoch : Int

/-- The listed form of a feed. -/
def view (f : Feed) : View := ⟨f.id, f.payloadId, f.sender, f.epoch, f.payload, f.source, f.expiry⟩

/-- The exported form of a feed. -/
def exported (f : Feed) : Export := ⟨f.id, f.payloadId, f.recipients, f.payload, f.epoch⟩

/-- The form of a feed for a client, with the payload that is sent. -/
def live (f : Feed) (payload : Payload) : Live := ⟨f.id, f.sender, f.epoch, payload, f.source⟩

/-- The form of a feed for a delivery node, with the payload that is sent. -/
def delivery (f : Feed) (payload : Payload) : Delivery :=
  ⟨f.id, f.payloadId, f.sender, f.recipients, payload, f.epoch, f.source, f.isSpam⟩

/-- A moment that may be absent, as text. -/
def momentJson : Option Int → Json
  | some s => .string (Day.instantText s)
  | none => .null

/-- The listed form as a value. -/
def View.toJson (v : View) : Json :=
  .object [("id", .int v.id), ("payloadId", .string v.payloadId), ("sender", .string v.sender),
    ("epoch", .int v.epoch), ("payload", v.payload.toJson), ("source", .string v.source),
    ("etime", momentJson v.expiry)]

/-- The form for a client as a value. -/
def Live.toJson (v : Live) : Json :=
  .object [("id", .int v.id), ("sender", .string v.sender), ("epoch", .int v.epoch),
    ("payload", v.payload.toJson), ("source", .string v.source)]

/-- The form for a delivery node as a value. -/
def Delivery.toJson (v : Delivery) : Json :=
  .object [("id", .int v.id), ("payloadId", .string v.payloadId), ("sender", .string v.sender),
    ("recipients", .texts v.recipients), ("payload", v.payload.toJson), ("epoch", .int v.epoch),
    ("source", .string v.source), ("isSpam", .bool v.isSpam)]

/-- The exported form as a value. -/
def Export.toJson (v : Export) : Json :=
  .object [("id", .int v.id), ("payloadId", .string v.payloadId), ("recipients", .texts v.recipients),
    ("payload", v.payload.toJson), ("epoch", .int v.epoch)]

end Feed

/-- One page of a listing and the size of the whole. -/
structure FeedPage where
  feeds : List Feed.View
  total : Nat

/-- One page of an export and the size of the whole. -/
structure ExportPage where
  feeds : List Feed.Export
  total : Nat

/-- The page of an empty listing. -/
def FeedPage.empty : FeedPage := ⟨[], 0⟩

/-- A listing as a value. -/
def FeedPage.toJson (p : FeedPage) : Json :=
  .object [("feeds", .array (p.feeds.map Feed.View.toJson)), ("itemcount", .nat p.total)]

/-- A search result as a value. -/
def FeedPage.resultsJson (p : FeedPage) : Json :=
  .object [("results", .array (p.feeds.map Feed.View.toJson)), ("count", .nat p.total)]

/-- An export as a value. -/
def ExportPage.toJson (p : ExportPage) : Json :=
  .object [("feeds", .array (p.feeds.map Feed.Export.toJson)), ("count", .nat p.total)]

end NotificationRelay
