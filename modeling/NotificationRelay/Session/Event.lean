/-
# Events

What a live session is sent: a new feed for a client, normal or spam, a new feed for
a delivery node, the two halves of a connect snapshot, or a page of history.
-/
import NotificationRelay.Feed.View

namespace NotificationRelay

/-- What a session stands for. -/
inductive SessionMode where
  /-- An end user, bound to one address. -/
  | client
  /-- A node that passes every feed on. -/
  | delivery
  deriving DecidableEq, Repr

namespace SessionMode

/-- The name of a mode. -/
def name : SessionMode → String
  | .client => "client"
  | .delivery => "delivery"

/-- The mode with a name. -/
def ofName? (s : String) : Option SessionMode :=
  if s = "client" then some .client else if s = "delivery" then some .delivery else none

/-- The mode that a value names: its name, or an object with the name as its only key
and null under it. -/
def ofJson? : Json → Option SessionMode
  | .string s => ofName? s
  | .object [(s, .null)] => ofName? s
  | _ => none

end SessionMode

/-- An event for a live session. -/
inductive Event where
  | userFeed (feed : Feed.Live)
  | userSpamFeed (feed : Feed.Live)
  | liveFeed (feed : Feed.Delivery)
  | snapshot (page : FeedPage)
  | spamSnapshot (page : FeedPage)
  | history (page : ExportPage)

namespace Event

/-- The name of an event. -/
def name : Event → String
  | .userFeed _ => "userFeeds"
  | .userSpamFeed _ => "userSpamFeeds"
  | .liveFeed _ => "liveFeeds"
  | .snapshot _ => "feed"
  | .spamSnapshot _ => "spam"
  | .history _ => "historicalFeeds"

/-- The content of an event. -/
def data : Event → Json
  | .userFeed feed => feed.toJson
  | .userSpamFeed feed => feed.toJson
  | .liveFeed feed => feed.toJson
  | .snapshot page => page.toJson
  | .spamSnapshot page => page.toJson
  | .history page => page.toJson

/-- An event as it is written to a session. -/
def toJson (e : Event) : Json := .object [("event", .string e.name), ("data", e.data)]

/-- The event that tells a client of a feed. -/
def forClient (f : Feed) (payload : Payload) : Event :=
  if f.isSpam then .userSpamFeed (f.live payload) else .userFeed (f.live payload)

/-- The event that tells a delivery node of a feed. -/
def forNode (f : Feed) (payload : Payload) : Event := .liveFeed (f.delivery payload)

end Event
end NotificationRelay
