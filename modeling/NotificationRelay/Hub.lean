/-
# The hub and its calls

The hub is all that the parts of the relay share: the store, the cache of
subscriptions, the registry of sessions with their queues, the sink of the topic, and
the wake-up that waits for the outbox loop. A service works on it by calls. Each call is
one atomic step, whatever runs beside it, and a call to the store may fail: `Outages` says
which calls fail, and for what reason. A failing call changes nothing.
-/
import NotificationRelay.Broadcast.Message
import NotificationRelay.Session.Queue
import NotificationRelay.Session.Registry
import NotificationRelay.Store.Queries

namespace NotificationRelay

/-- What the parts of the relay share. -/
structure Hub where
  store : Store
  /-- The channels of a subscriber as they were when first looked up. -/
  cache : List (String × List String)
  registry : Registry
  /-- The queue of each session; a session is numbered by its place. -/
  queues : List EventQueue
  sink : Broadcast.Sink
  /-- The outbox loop has been called and has not woken up for it; however often it is
  called meanwhile, it wakes up once. -/
  called : Bool

namespace Hub

/-- A hub before anything has happened. -/
def empty (clientLimit : Nat) (sink : Broadcast.Sink) : Hub :=
  ⟨Store.empty, [], Registry.empty clientLimit, [], sink, false⟩

/-- Opens a queue for a new session; a queue that holds nothing is refused. -/
def openQueue (h : Hub) (capacity : Nat) : Option SessionId × Hub :=
  match EventQueue.open? capacity with
  | some queue => (some h.queues.length, { h with queues := h.queues ++ [queue] })
  | none => (none, h)

/-- The hub with the queue of one session replaced. -/
def setQueue (h : Hub) (id : SessionId) (queue : EventQueue) : Hub :=
  { h with queues := h.queues.set id queue }

/-- Offers an event to a session. -/
def offer (h : Hub) (id : SessionId) (e : Event) : Except Refusal Unit × Hub :=
  match h.queues[id]? with
  | some queue => ((queue.offer e).1, h.setQueue id (queue.offer e).2)
  | none => (.error .closed, h)

/-- Takes the oldest events of a session, at most so many. -/
def take (h : Hub) (id : SessionId) (most : Nat) : List Event × Hub :=
  match h.queues[id]? with
  | some queue => ((queue.take most).1, h.setQueue id (queue.take most).2)
  | none => ([], h)

/-- Takes the reader of a session away. -/
def closeQueue (h : Hub) (id : SessionId) : Hub :=
  match h.queues[id]? with
  | some queue => h.setQueue id queue.close
  | none => h

end Hub

/-- A call that a service makes. -/
inductive Call where
  /-- Store a draft once. -/
  | insert (draft : Draft)
  /-- Load a feed. -/
  | load (id : FeedId)
  /-- Mark a feed as processed. -/
  | complete (id : FeedId) (payload : Payload)
  /-- Count an attempt. -/
  | bump (id : FeedId)
  /-- Select feeds to try again. -/
  | candidates (cap limit : Nat)
  /-- Select feeds that wait for dispatch. -/
  | pending (limit : Nat)
  /-- Take a feed out of the outbox. -/
  | acknowledge (id : FeedId)
  /-- Add a feed to a recipient. -/
  | append (recipient : String) (id : FeedId) (isSpam : Bool)
  /-- List the feeds of a recipient. -/
  | indexed (recipient : String) (isSpam : Bool)
  /-- Take feeds out of the index. -/
  | unindex (ids : List FeedId)
  /-- Move the broadcast watermark for a feed with an epoch. -/
  | advance (id : FeedId) (epoch : Int)
  /-- One page of given feeds. -/
  | pageByIds (ids : List FeedId) (listing : Listing) (paging : Paging)
  /-- One page of the feeds of a sender. -/
  | pageBySender (sender : String) (kind : Option Kind) (paging : Paging)
  /-- One page of what a search finds. -/
  | search (criteria : Criteria) (paging : Paging)
  /-- One page of a time window. -/
  | pageBetween (start stop : Int) (paging : Paging)
  /-- The senders of given feeds. -/
  | distinctSenders (ids : List FeedId)
  /-- Delete what expired before a moment. -/
  | deleteExpired (now : Int)
  /-- Look up the channels of a subscriber. -/
  | channels (subscriber : String)
  /-- Look into the cache of subscriptions. -/
  | cached (subscriber : String)
  /-- Keep the channels of a subscriber in the cache. -/
  | remember (subscriber : String) (channels : List String)
  /-- Open a queue for a new session. -/
  | openQueue (capacity : Nat)
  /-- Give a queue up again. -/
  | closeQueue (id : SessionId)
  /-- Connect a client. -/
  | registerClient (address : String) (id : SessionId)
  /-- Connect a delivery node. -/
  | registerNode (id : SessionId)
  /-- Disconnect a session. -/
  | unregister (id : SessionId)
  /-- Find the clients of addresses. -/
  | clientsFor (addresses : List String)
  /-- Find the delivery nodes. -/
  | nodes
  /-- Offer an event to a session. -/
  | offer (id : SessionId) (event : Event)
  /-- Hand a message to the sink. -/
  | post (message : Broadcast.Message)
  /-- Call the outbox loop. -/
  | wake
  /-- Note that the processing of a feed begins. -/
  | note (id : FeedId)

/-- The answer to a store call. -/
abbrev Stored (α : Type) := Except StoreError α

/-- The type of the answer to a call. -/
@[reducible] def Call.Answer : Call → Type
  | .insert _ => Stored Inserted
  | .load _ => Stored (Option Feed)
  | .complete _ _ => Stored Unit
  | .bump _ => Stored Unit
  | .candidates _ _ => Stored (List Feed)
  | .pending _ => Stored (List FeedId)
  | .acknowledge _ => Stored Unit
  | .append _ _ _ => Stored Unit
  | .indexed _ _ => Stored (List FeedId)
  | .unindex _ => Stored Nat
  | .advance _ _ => Stored Bool
  | .pageByIds _ _ _ => Stored Paged
  | .pageBySender _ _ _ => Stored Paged
  | .search _ _ => Stored Paged
  | .pageBetween _ _ _ => Stored Paged
  | .distinctSenders _ => Stored (List String)
  | .deleteExpired _ => Stored (List FeedId)
  | .channels _ => Stored (List String)
  | .cached _ => Option (List String)
  | .remember _ _ => Unit
  | .openQueue _ => Option SessionId
  | .closeQueue _ => Unit
  | .registerClient _ _ => Except SessionError Unit
  | .registerNode _ => Unit
  | .unregister _ => Unit
  | .clientsFor _ => List SessionId
  | .nodes => List SessionId
  | .offer _ _ => Except Refusal Unit
  | .post _ => Bool
  | .wake => Unit
  | .note _ => Unit

/-- Which store calls fail, and why. -/
abbrev Outages := Call → Option String

namespace Outages

/-- Every call succeeds. -/
def none : Outages := fun _ => Option.none

/-- A store operation behind a call that may fail. -/
def guard {α : Type} (outages : Outages) (c : Call) (h : Hub) (operation : Stored α × Store) :
    Stored α × Hub :=
  match outages c with
  | some reason => (.error (.unavailable reason), h)
  | Option.none => (operation.1, { h with store := operation.2 })

end Outages

/-- A result and the store it leaves, where the operation cannot fail by itself. -/
def succeed {α : Type} (result : α × Store) : Stored α × Store := (.ok result.1, result.2)

/-- A result that is read from a store. -/
def readFrom {α : Type} (s : Store) (a : α) : Stored α × Store := (.ok a, s)

/-- Performs a call on a hub. -/
def Call.perform (outages : Outages) : (c : Call) → Hub → c.Answer × Hub
  | .insert d, h => outages.guard (.insert d) h (succeed (h.store.insert d))
  | .load id, h => outages.guard (.load id) h (readFrom h.store (h.store.feed? id))
  | .complete id p, h => outages.guard (.complete id p) h (h.store.complete id p)
  | .bump id, h => outages.guard (.bump id) h (h.store.bump id)
  | .candidates cap limit, h =>
    outages.guard (.candidates cap limit) h (readFrom h.store (h.store.candidates cap limit))
  | .pending limit, h => outages.guard (.pending limit) h (readFrom h.store (h.store.pending limit))
  | .acknowledge id, h => outages.guard (.acknowledge id) h (.ok (), h.store.acknowledge id)
  | .append r id spam, h => outages.guard (.append r id spam) h (.ok (), h.store.append r id spam)
  | .indexed r spam, h =>
    outages.guard (.indexed r spam) h (readFrom h.store (h.store.indexed r spam))
  | .unindex ids, h => outages.guard (.unindex ids) h (succeed (h.store.unindex ids))
  | .advance id epoch, h =>
    outages.guard (.advance id epoch) h (succeed (h.store.advance Broadcast.watermarkKey epoch))
  | .pageByIds ids l p, h =>
    outages.guard (.pageByIds ids l p) h (readFrom h.store (h.store.pageByIds ids l p))
  | .pageBySender sender k p, h =>
    outages.guard (.pageBySender sender k p) h (readFrom h.store (h.store.pageBySender sender k p))
  | .search c p, h => outages.guard (.search c p) h (readFrom h.store (h.store.search c p))
  | .pageBetween a b p, h =>
    outages.guard (.pageBetween a b p) h (readFrom h.store (h.store.pageBetween a b p))
  | .distinctSenders ids, h =>
    outages.guard (.distinctSenders ids) h (readFrom h.store (h.store.distinctSenders ids))
  | .deleteExpired now, h =>
    outages.guard (.deleteExpired now) h (succeed (h.store.deleteExpired now))
  | .channels subscriber, h =>
    outages.guard (.channels subscriber) h (readFrom h.store (h.store.channels subscriber))
  | .cached subscriber, h => (Table.get? subscriber h.cache, h)
  | .remember subscriber found, h => ((), { h with cache := Table.put subscriber found h.cache })
  | .openQueue capacity, h => h.openQueue capacity
  | .closeQueue id, h => ((), h.closeQueue id)
  | .registerClient address id, h =>
    ((h.registry.registerClient address id).1,
      { h with registry := (h.registry.registerClient address id).2 })
  | .registerNode id, h => ((), { h with registry := h.registry.registerNode id })
  | .unregister id, h => ((), { h with registry := h.registry.unregister id })
  | .clientsFor addresses, h => (h.registry.clientsFor addresses, h)
  | .nodes, h => (h.registry.nodes, h)
  | .offer id e, h => h.offer id e
  | .post m, h => ((h.sink.post m).1, { h with sink := (h.sink.post m).2 })
  | .wake, h => ((), { h with called := true })
  | .note _, h => ((), h)

end NotificationRelay
