/-
# What is sent of a feed

Whoever is told of a feed is told of it with a payload that has been stamped: the identifier and the
epoch of the feed are written into it, in decimal, and nothing else of it is changed
(`Payload.Stamped`). A message for the topic carries the feed with such a payload
(`Broadcast.Message.Carries`, `Broadcast.Topic.Sends`), and so do the events for clients
(`Event.TellsClient`) and for delivery nodes (`Event.TellsNode`). All of this is said of a feed by
its identifier and its draft, field by field, so that it determines what is sent.

Whatever the relay makes for these purposes is as is said here: `Payload.stamped_enrich`,
`Broadcast.Topic.carries_message`, `Event.tellsClient_forClient` and `Event.tellsNode_forNode`.
-/
import NotificationRelay.Broadcast.Message
import NotificationRelay.Session.Event

namespace NotificationRelay

/-! ## Payloads -/

/-- A payload into which the identifier and the epoch of a feed have been written, in decimal, and
in which everything else is as it came in. -/
structure Payload.Stamped (p : Payload) (id epoch : Int) (q : Payload) : Prop where
  sid : q.data.sid = some (toString id)
  epoch : q.data.epoch = some (toString epoch)
  kind : q.data.kind = p.data.kind
  asub : q.data.asub = p.data.asub
  amsg : q.data.amsg = p.data.amsg
  extra : q.data.extra = p.data.extra
  caption : q.caption = p.caption
  recipients : q.recipients = p.recipients
  proof : q.proof = p.proof

namespace Payload

variable {p q r : Payload} {id epoch : Int}

/-- What the relay makes of a payload that came in is that payload, stamped. -/
theorem stamped_enrich (p : Payload) (id epoch : Int) : p.Stamped id epoch (p.enrich id epoch) :=
  ⟨rfl, rfl, rfl, rfl, rfl, rfl, rfl, rfl, rfl⟩

/-- A payload that is stamped again is stamped as if it had just come in. -/
theorem Stamped.again (first : p.Stamped id epoch q) (second : q.Stamped id epoch r) :
    p.Stamped id epoch r where
  sid := second.sid
  epoch := second.epoch
  kind := second.kind.trans first.kind
  asub := second.asub.trans first.asub
  amsg := second.amsg.trans first.amsg
  extra := second.extra.trans first.extra
  caption := second.caption.trans first.caption
  recipients := second.recipients.trans first.recipients
  proof := second.proof.trans first.proof

end Payload

/-! ## Messages -/

/-- A message carries a feed to the topic, with a stamped payload. -/
structure Broadcast.Message.Carries (m : Message) (t : Topic) (i : FeedId) (d : Draft) : Prop where
  id : m.id = i
  sender : m.sender = d.sender
  recipients : m.recipients = d.recipients
  payload : d.payload.Stamped i d.epoch m.payload
  epoch : m.epoch = d.epoch
  isSpam : m.isSpam = d.isSpam
  topic : m.topic = t.topic
  subtopic : m.subtopic = t.subtopic

/-- The message that is made of a feed carries it. -/
theorem Broadcast.Topic.carries_message (t : Topic) (f : Feed) :
    (t.message f f.enriched).Carries t f.id f.toDraft :=
  ⟨rfl, rfl, rfl, f.payload.stamped_enrich f.id f.epoch, rfl, rfl, rfl, rfl⟩

/-- There is one message, and it carries a feed. -/
def Broadcast.Topic.Sends (t : Topic) (f : Feed) (ms : List Message) : Prop :=
  ∃ m, ms = [m] ∧ m.Carries t f.id f.toDraft

/-- Whoever sends the message that is made of a feed sends the feed. -/
theorem Broadcast.Topic.sends_message (t : Topic) (f : Feed) : t.Sends f [t.message f f.enriched] :=
  ⟨_, rfl, t.carries_message f⟩

/-! ## Events -/

/-- What is pushed to a client shows a feed, with a stamped payload. -/
structure Feed.Live.Shows (v : Live) (i : FeedId) (d : Draft) : Prop where
  id : v.id = i
  sender : v.sender = d.sender
  epoch : v.epoch = d.epoch
  payload : d.payload.Stamped i d.epoch v.payload
  source : v.source = d.source

/-- What is pushed to a delivery node shows a feed, with a stamped payload. -/
structure Feed.Delivery.Shows (v : Delivery) (i : FeedId) (d : Draft) : Prop where
  id : v.id = i
  payloadId : v.payloadId = d.payloadId
  sender : v.sender = d.sender
  recipients : v.recipients = d.recipients
  payload : d.payload.Stamped i d.epoch v.payload
  epoch : v.epoch = d.epoch
  source : v.source = d.source
  isSpam : v.isSpam = d.isSpam

namespace Event

/-- An event tells a client of a feed, as spam if it is spam. -/
inductive TellsClient (i : FeedId) (d : Draft) : Event → Prop
  | normal {v : Feed.Live} (normal : d.isSpam = false) (shows : v.Shows i d) :
      TellsClient i d (.userFeed v)
  | spam {v : Feed.Live} (spam : d.isSpam = true) (shows : v.Shows i d) :
      TellsClient i d (.userSpamFeed v)

/-- An event tells a delivery node of a feed. -/
inductive TellsNode (i : FeedId) (d : Draft) : Event → Prop
  | live {v : Feed.Delivery} (shows : v.Shows i d) : TellsNode i d (.liveFeed v)

/-- The event that is made of a feed for clients tells them of it. -/
theorem tellsClient_forClient (f : Feed) : (forClient f f.enriched).TellsClient f.id f.toDraft := by
  have shows : (f.live f.enriched).Shows f.id f.toDraft :=
    ⟨rfl, rfl, rfl, f.payload.stamped_enrich f.id f.epoch, rfl⟩
  unfold forClient
  split
  · next spam => exact .spam spam shows
  · next normal => exact .normal (Bool.eq_false_iff.2 normal) shows

/-- The event that is made of a feed for delivery nodes tells them of it. -/
theorem tellsNode_forNode (f : Feed) : (forNode f f.enriched).TellsNode f.id f.toDraft :=
  .live ⟨rfl, rfl, rfl, rfl, f.payload.stamped_enrich f.id f.epoch, rfl, rfl, rfl⟩

end Event
end NotificationRelay
