/-
# Types of sender

A notification comes from a channel, a chat, a video call or a space. The type is
written as a number; it is read from a number, from its name in any ASCII case, or
from a text that holds the number.
-/
import NotificationRelay.Json.Record
import NotificationRelay.Text.Lower

namespace NotificationRelay

/-- What emitted a notification. -/
inductive SenderType where
  | channel
  | chat
  | video
  | space
  deriving DecidableEq, Repr, Inhabited

namespace SenderType

/-- The number of a sender type. -/
def code : SenderType → Nat
  | .channel => 0
  | .chat => 1
  | .video => 2
  | .space => 3

/-- The sender type of a number. -/
def ofCode? (n : Nat) : Option SenderType :=
  if n = 0 then some .channel
  else if n = 1 then some .chat
  else if n = 2 then some .video
  else if n = 3 then some .space
  else none

/-- The name of a sender type. -/
def name : SenderType → String
  | .channel => "channel"
  | .chat => "chat"
  | .video => "video"
  | .space => "space"

/-- All sender types. -/
def all : List SenderType := [.channel, .chat, .video, .space]

/-- The sender type that a text names, by name or by number. -/
def ofName? (s : String) : Option SenderType :=
  let small := Text.asciiLower s.toList
  match all.find? (·.name.toList == small) with
  | some t => some t
  | none => (Text.numeral? small).bind ofCode?

/-- The sender type that a value names. -/
def ofJson? : Json → Option SenderType
  | .number (.whole n) => if 0 ≤ n then ofCode? n.toNat else none
  | .string s => ofName? s
  | _ => none

/-- Reads the sender type that a value names. -/
def ofJson (v : Json) : Except DecodeError SenderType :=
  match ofJson? v with
  | some t => .ok t
  | none => .error (.unknownSenderType v)

/-- A sender type as a value. -/
def toJson (t : SenderType) : Json := .nat t.code

end SenderType
end NotificationRelay
