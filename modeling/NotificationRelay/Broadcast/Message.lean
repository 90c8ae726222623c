/-
# Broadcast messages and their sink

Feeds are also handed to one external topic. The sink answers each message with a
status; those from 200 to 299 accept it, any other refuses it. Every message that
reaches the sink is recorded with its status. A sink that cannot be reached accepts
nothing and records nothing.
-/
import NotificationRelay.Feed.Basic

namespace NotificationRelay
namespace Broadcast

/-- Where messages go. -/
structure Topic where
  /-- Without it nothing is broadcast and the watermark is left alone. -/
  enabled : Bool
  topic : String
  subtopic : String

/-- A message for the topic. -/
structure Message where
  id : FeedId
  sender : String
  recipients : List String
  payload : Payload
  epoch : Int
  isSpam : Bool
  topic : String
  subtopic : String

/-- The message that tells of a feed. -/
def Topic.message (t : Topic) (f : Feed) (payload : Payload) : Message :=
  ⟨f.id, f.sender, f.recipients, payload, f.epoch, f.isSpam, t.topic, t.subtopic⟩

/-- A message as it is posted. -/
def Message.toJson (m : Message) : Json :=
  .object [("id", .int m.id), ("sender", .string m.sender), ("recipients", .texts m.recipients),
    ("payload", m.payload.toJson), ("epoch", .int m.epoch), ("isSpam", .bool m.isSpam),
    ("topic", .string m.topic), ("subtopic", .string m.subtopic)]

/-- A message that reached the sink, and the answer to it. -/
structure Attempt where
  status : Nat
  message : Message

/-- The far end of the topic. -/
structure Sink where
  reachable : Bool
  /-- The statuses of the next answers; 200 when there are none left. -/
  answers : List Nat
  /-- The messages received, in order. -/
  log : List Attempt

namespace Sink

/-- A status that accepts a message. -/
def accepts (status : Nat) : Bool := decide (200 ≤ status) && decide (status ≤ 299)

/-- The status of the next answer. -/
def next (s : Sink) : Nat := s.answers.headD 200

/-- Hands a message to the sink; whether it was accepted. -/
def post (s : Sink) (m : Message) : Bool × Sink :=
  if s.reachable then
    (accepts s.next, { s with answers := s.answers.tail, log := s.log ++ [⟨s.next, m⟩] })
  else (false, s)

end Sink

/-- What became of a feed at the broadcast stage. -/
inductive Outcome where
  | published
  /-- The epoch lies below the watermark. -/
  | stale
  /-- The watermark let the feed pass and the sink refused it. -/
  | failed
  /-- The watermark could not be consulted; nothing was sent. -/
  | watermarkUnavailable
  /-- Nothing is broadcast. -/
  | disabled
  deriving DecidableEq, Repr

/-- The name of an outcome. -/
def Outcome.text : Outcome → String
  | .published => "published"
  | .stale => "stale"
  | .failed => "failed"
  | .watermarkUnavailable => "watermark_unavailable"
  | .disabled => "disabled"

/-- The name of the watermark that guards the topic. -/
def watermarkKey : String := "broadcastLatestEpoch"

end Broadcast
end NotificationRelay
