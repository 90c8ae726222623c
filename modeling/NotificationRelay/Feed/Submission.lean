/-
# Submissions

A submission is a request to store a notification, as it comes from outside. It is
checked once, before anything is stored, and either becomes a draft or is turned down
for the first reason found: blank names, the spam flag, a recipient that is no
address, the payload, its audience, the expiry. A draft has trimmed names and
canonical recipients, each once, in the order of their first mention.
-/
import NotificationRelay.Address
import NotificationRelay.Payload.Audience
import NotificationRelay.Table

namespace NotificationRelay

/-- A request to store a notification. -/
structure Submission where
  payloadId : String
  sender : String
  channel : Option String
  senderType : SenderType
  recipients : List String
  payload : Json
  source : String
  isSpam : Nat
  hidden : Bool
  expiry : Option Int
  delegate : Option String

namespace Submission

open Json (Decoder asString asBool asNat asInt64 asList asOption asRecord passes)

/-- The fields of a submission in the order of declaration. -/
def fieldNames : List String :=
  ["payloadId", "sender", "channel", "senderType", "recipients", "payload", "source", "isSpam",
    "hidden", "expiry", "delegate"]

/-- The check of a field of a submission. -/
def check (name : String) : Decoder Unit :=
  if name = "payloadId" ∨ name = "sender" ∨ name = "source" then passes asString
  else if name = "channel" ∨ name = "delegate" then passes (asOption asString)
  else if name = "senderType" then passes SenderType.ofJson
  else if name = "recipients" then passes (asList asString)
  else if name = "isSpam" then passes (asNat 255)
  else if name = "hidden" then passes asBool
  else if name = "expiry" then passes (asOption asInt64)
  else fun _ => .ok ()

/-- Reads a submission. -/
def ofJson (v : Json) : Except DecodeError Submission := do
  let r ← asRecord fieldNames check v
  let payloadId ← r.required "payloadId" asString
  let sender ← r.required "sender" asString
  let channel ← r.optional "channel" asString
  let senderType ← r.required "senderType" SenderType.ofJson
  let recipients ← r.required "recipients" (asList asString)
  let payload ← r.required "payload" .ok
  let source ← r.required "source" asString
  let isSpam ← r.withDefault "isSpam" 0 (asNat 255)
  let hidden ← r.withDefault "hidden" false asBool
  let expiry ← r.optional "expiry" asInt64
  let delegate ← r.optional "delegate" asString
  pure ⟨payloadId, sender, channel, senderType, recipients, payload, source, isSpam, hidden,
    expiry, delegate⟩

/-- The canonical forms of addresses, all of which must have one. -/
def canonicalForms : List String → Except Rejection (List String)
  | [] => .ok []
  | raw :: rest =>
    match Address.normalize raw with
    | none => .error (.recipient raw)
    | some address => (canonicalForms rest).map (address :: ·)

/-- The canonical forms of addresses in the order of their first mention. -/
def canonicalRecipients (raws : List String) : Except Rejection (List String) :=
  (canonicalForms raws).map firstMentions

/-- A text without the blanks at its ends, unless nothing remains. -/
def nonBlank (reason : Rejection) (s : String) : Except Rejection String :=
  let trimmed := Text.trim s
  if trimmed.isEmpty then .error reason else .ok trimmed

/-- The spam flag, which is zero or one. -/
def spamFlag (n : Nat) : Except Rejection Bool :=
  if n = 0 then .ok false else if n = 1 then .ok true else .error (.spamFlag n)

/-- The payload of a submission, whose addresses fit its kind. -/
def checkedPayload (v : Json) : Except Rejection Payload :=
  match Payload.ofJson v with
  | .error e => .error (.payload e)
  | .ok payload => payload.audience.map fun _ => payload

/-- An expiry that lies on a day. -/
def checkedExpiry : Option Int → Except Rejection (Option Int)
  | none => .ok none
  | some seconds => if isRepresentable seconds then .ok (some seconds) else .error (.expiry seconds)

/-- A name that is absent when it is blank. -/
def unlessBlank (name : Option String) : Option String :=
  name.filter fun s => !Text.isAllBlank s

/-- The draft of a submission that passes every check, stamped with an epoch. -/
def validate (s : Submission) (epoch : Int) : Except Rejection Draft := do
  let payloadId ← nonBlank .blankPayloadId s.payloadId
  let sender ← nonBlank .blankSender s.sender
  let source ← nonBlank .blankSource s.source
  let isSpam ← spamFlag s.isSpam
  let recipients ← canonicalRecipients s.recipients
  let payload ← checkedPayload s.payload
  let expiry ← checkedExpiry s.expiry
  pure
    { payloadId, sender, channel := unlessBlank s.channel, senderType := s.senderType, recipients,
      payload, source, isSpam, hidden := s.hidden, epoch, expiry,
      delegate := unlessBlank s.delegate }

end Submission
end NotificationRelay
