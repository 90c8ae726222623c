/-
# Admission and frames

A session is admitted before its socket opens. A client needs a valid address with a
place left, and finds in its queue the first pages of its normal and its spam feeds; a
page that cannot be read, or finds no room, is left out. A delivery node is always
admitted. Of what a session sends only the text frames of a delivery node are read: a
request for history is answered into its queue, and anything else is ignored.
-/
import NotificationRelay.Gateway.NodeRequest
import NotificationRelay.Query.Listing

namespace NotificationRelay
namespace Gateway

/-- The bounds that the gateway keeps. -/
structure Bounds where
  /-- The number of events that a queue holds. -/
  queueCapacity : Nat
  /-- The size of a page in a connect snapshot. -/
  snapshotSize : Nat
  /-- The greatest size of any page. -/
  maxPageSize : Nat

/-- What becomes of a request for a session. -/
inductive Admission where
  | admitted (id : SessionId)
  | refused (error : SessionError)
  /-- The queues of the gateway hold nothing. -/
  | noQueue

/-- Offers the event of a page that could be read. -/
def offerPage {α : Type} (id : SessionId) (event : α → Event) :
    Except FeedError α → Program Unit
  | .error _ => .done ()
  | .ok page => do
    let _ ← Program.perform (.offer id (event page))
    return ()

/-- Queues the connect snapshot of a client. -/
def snapshot (b : Bounds) (address : String) (id : SessionId) : Program Unit := do
  let p := Paging.make 1 b.snapshotSize
  let normal ← Query.feeds b.maxPageSize address false false p
  offerPage id .snapshot normal
  let spam ← Query.feeds b.maxPageSize address true false p
  offerPage id .spamSnapshot spam

/-- Gives up the queue of a session that is refused. -/
def refuse (id : SessionId) (e : SessionError) : Program Admission := do
  Program.perform (.closeQueue id)
  return .refused e

/-- Connects a session, if it is admitted. -/
def connect (b : Bounds) (mode : SessionMode) (address : Option String) : Program Admission := do
  match ← Program.perform (.openQueue b.queueCapacity) with
  | none => return .noQueue
  | some id =>
    match mode with
    | .delivery =>
      Program.perform (.registerNode id)
      return .admitted id
    | .client =>
      let raw := address.getD ""
      match Address.normalize raw with
      | none => refuse id (.invalidAddress raw)
      | some canonical =>
        match ← Program.perform (.registerClient canonical id) with
        | .error e => refuse id e
        | .ok () =>
          snapshot b canonical id
          return .admitted id

/-- Answers the text of a delivery node into its queue. -/
def answer (b : Bounds) (id : SessionId) (text : String) : Program Unit :=
  match NodeRequest.ofText? text with
  | none => .done ()
  | some request => do
    let page ← Query.history b.maxPageSize request.start request.stop
      (Paging.make request.page request.size)
    offerPage id .history page

/-- What arrives on a socket. -/
inductive Frame where
  | text (content : String)
  | binary
  /-- The other side has closed, or the socket has failed. -/
  | closed

/-- Handles a frame of a session. -/
def receive (b : Bounds) (mode : SessionMode) (id : SessionId) : Frame → Program Unit
  | .text content =>
    match mode with
    | .delivery => answer b id content
    | .client => .done ()
  | .binary => .done ()
  | .closed => Program.perform (.unregister id)

end Gateway
end NotificationRelay
