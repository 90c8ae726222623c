/-
# Feeds

A feed is one stored notification. It is made from a draft, the checked content of
a submission, and adds an identifier, given once and never again, and two marks of
its progress: whether it has been processed, and how many attempts left it
unprocessed. The count of attempts stops at the greatest 32-bit number.
-/
import NotificationRelay.Calendar.Day
import NotificationRelay.Feed.SenderType
import NotificationRelay.Payload.Basic

namespace NotificationRelay

/-- The identifier of a feed; later feeds have greater ones. -/
abbrev FeedId := Int

/-- The checked content of a submission, ready to be stored. -/
structure Draft where
  /-- The key under which a notification is stored once. -/
  payloadId : String
  sender : String
  channel : Option String
  senderType : SenderType
  /-- Canonical addresses, each once. -/
  recipients : List String
  payload : Payload
  source : String
  isSpam : Bool
  hidden : Bool
  epoch : Int
  /-- The moment after which the feed is due for deletion, in whole seconds. Moments are only ever
  compared with each other, so that a finer unit would change nothing else. -/
  expiry : Option Int
  delegate : Option String

/-- A stored notification. -/
structure Feed extends Draft where
  id : FeedId
  processed : Bool
  attempts : Nat

namespace Feed

/-- The feed that a draft becomes. -/
def ofDraft (id : FeedId) (d : Draft) : Feed :=
  { d with id := id, processed := false, attempts := 0 }

/-- The day of the epoch, if the epoch lies on one. -/
def day? (f : Feed) : Option Day := Day.ofSeconds? f.epoch

/-- Whether the expiry lies before a moment. Both are in whole seconds here, where the service keeps
fractions of a second; of either, only the order counts. -/
def isExpired (f : Feed) (now : Int) : Bool :=
  match f.expiry with
  | some expiry => decide (expiry < now)
  | none => false

/-- The payload stamped with the identifier and the epoch of the feed. -/
def enriched (f : Feed) : Payload := f.payload.enrich f.id f.epoch

/-- The greatest number of attempts that is counted. -/
def maxAttempts : Nat := 4294967295

/-- The feed after one more attempt. -/
def bumped (f : Feed) : Feed := { f with attempts := min (f.attempts + 1) maxAttempts }

/-- The feed after it has been processed with a payload. -/
def completed (f : Feed) (payload : Payload) : Feed :=
  { f with processed := true, payload := payload }

/-- A second that may be absent, as a value. -/
def secondsJson : Option Int → Json
  | some s => .int s
  | none => .null

/-- The whole record as a value. -/
def toJson (f : Feed) : Json :=
  .object [("id", .int f.id), ("payloadId", .string f.payloadId), ("sender", .string f.sender),
    ("channel", .text? f.channel), ("senderType", f.senderType.toJson),
    ("recipients", .texts f.recipients), ("payload", f.payload.toJson),
    ("source", .string f.source), ("isSpam", .bool f.isSpam), ("hidden", .bool f.hidden),
    ("epoch", .int f.epoch), ("expiry", secondsJson f.expiry), ("delegate", .text? f.delegate),
    ("processed", .bool f.processed), ("attempts", .nat f.attempts)]

end Feed
end NotificationRelay
