/-
# The store

Everything that is kept of notifications: the feeds by identifier, the payload
identifiers already taken, the feeds that wait for dispatch, the index from a
recipient to its normal and its spam feeds, named watermarks, and the channels of
each subscriber. Each operation below is one atomic step, and says nothing of
failure; the calls that may fail are in `Call`.
-/
import NotificationRelay.Error
import NotificationRelay.Table

namespace NotificationRelay

/-- The feeds of one recipient. -/
structure Partitions where
  normal : List FeedId
  spam : List FeedId

namespace Partitions

/-- One of the two partitions of a recipient. -/
def side (p : Partitions) (isSpam : Bool) : List FeedId := if isSpam then p.spam else p.normal

/-- A recipient without feeds. -/
def none : Partitions := ⟨[], []⟩

/-- A recipient with one more feed. -/
def add (p : Partitions) (isSpam : Bool) (id : FeedId) : Partitions :=
  if isSpam then { p with spam := Ascending.insert id p.spam }
  else { p with normal := Ascending.insert id p.normal }

/-- A recipient without the given feeds. -/
def drop (p : Partitions) (ids : List FeedId) : Partitions :=
  ⟨Ascending.diff p.normal ids, Ascending.diff p.spam ids⟩

/-- The number of entries of a recipient. -/
def size (p : Partitions) : Nat := p.normal.length + p.spam.length

end Partitions

/-- The tables of the store. -/
structure Store where
  /-- The greatest identifier given so far. -/
  lastId : FeedId
  /-- The feeds, ascending by identifier. -/
  feeds : List Feed
  payloadIds : List (String × FeedId)
  index : List (String × Partitions)
  /-- The feeds that wait for dispatch, ascending. -/
  outbox : List FeedId
  watermarks : List (String × Int)
  subscriptions : List (String × List String)

/-- What became of an insertion. -/
structure Inserted where
  id : FeedId
  /-- False if a feed with the same payload identifier was there already. -/
  created : Bool
  deriving DecidableEq, Repr

namespace Store

/-- The store without a feed. -/
def empty : Store := ⟨0, [], [], [], [], [], []⟩

/-! ## Feeds -/

/-- The feed with an identifier. -/
def feed? (s : Store) (id : FeedId) : Option Feed := s.feeds.find? fun f => decide (f.id = id)

/-- The store with one feed changed. -/
def modify (s : Store) (id : FeedId) (change : Feed → Feed) : Store :=
  { s with feeds := s.feeds.map fun f => if f.id = id then change f else f }

/-- A change of one feed that has to be there. -/
def update (s : Store) (id : FeedId) (change : Feed → Feed) : Except StoreError Unit × Store :=
  match s.feed? id with
  | some _ => (.ok (), s.modify id change)
  | none => (.error (.notFound id), s)

/-- Stores a draft under the next identifier and queues it for dispatch, unless its
payload identifier is taken. -/
def insert (s : Store) (d : Draft) : Inserted × Store :=
  match Table.get? d.payloadId s.payloadIds with
  | some id => (⟨id, false⟩, s)
  | none =>
    let id := s.lastId + 1
    (⟨id, true⟩,
      { s with
        lastId := id
        feeds := s.feeds ++ [Feed.ofDraft id d]
        payloadIds := Table.put d.payloadId id s.payloadIds
        outbox := Ascending.insert id s.outbox })

/-- Marks a feed as processed and keeps the payload that was sent. -/
def complete (s : Store) (id : FeedId) (payload : Payload) : Except StoreError Unit × Store :=
  s.update id (·.completed payload)

/-- Counts one more attempt that left a feed unprocessed. -/
def bump (s : Store) (id : FeedId) : Except StoreError Unit × Store :=
  s.update id Feed.bumped

/-- Sets the count of attempts of a feed. -/
def setAttempts (s : Store) (id : FeedId) (attempts : Nat) : Except StoreError Unit × Store :=
  s.update id fun f => { f with attempts := attempts }

/-- A feed that may be tried again: unprocessed, not spam, below the cap, and not
waiting for its first dispatch. -/
def isRetryable (s : Store) (cap : Nat) (f : Feed) : Bool :=
  !f.processed && !f.isSpam && decide (f.attempts < cap) && !s.outbox.contains f.id

/-- The order of retries: fewer attempts first, and of equal ones the newer feed. -/
def retriesBefore (a b : Feed) : Bool :=
  decide (a.attempts < b.attempts) || (decide (a.attempts = b.attempts) && decide (b.id ≤ a.id))

/-- The first feeds to try again. -/
def candidates (s : Store) (cap limit : Nat) : List Feed :=
  ((s.feeds.filter (s.isRetryable cap)).mergeSort retriesBefore).take limit

/-! ## Outbox -/

/-- The oldest feeds that wait for dispatch. -/
def pending (s : Store) (limit : Nat) : List FeedId := s.outbox.take limit

/-- Takes a feed out of the outbox. -/
def acknowledge (s : Store) (id : FeedId) : Store :=
  { s with outbox := s.outbox.filter fun n => decide (n ≠ id) }

/-! ## Recipient index -/

/-- The feeds of a recipient. -/
def partitions (s : Store) (recipient : String) : Partitions :=
  (Table.get? recipient s.index).getD Partitions.none

/-- Adds a feed to a recipient. -/
def append (s : Store) (recipient : String) (id : FeedId) (isSpam : Bool) : Store :=
  { s with index := Table.put recipient ((s.partitions recipient).add isSpam id) s.index }

/-- The feeds of a recipient in one partition, ascending. -/
def indexed (s : Store) (recipient : String) (isSpam : Bool) : List FeedId :=
  (s.partitions recipient).side isSpam

/-- The number of entries of the index. -/
def indexSize (s : Store) : Nat := s.index.foldr (fun r n => r.2.size + n) 0

/-- Takes feeds out of the index of every recipient; the number of entries removed. -/
def unindex (s : Store) (ids : List FeedId) : Nat × Store :=
  let s' := { s with index := s.index.map fun r => (r.1, r.2.drop ids) }
  (s.indexSize - s'.indexSize, s')

/-! ## Watermarks -/

/-- The value of a watermark. -/
def watermark? (s : Store) (key : String) : Option Int := Table.get? key s.watermarks

/-- Sets a watermark. -/
def setWatermark (s : Store) (key : String) (value : Int) : Store :=
  { s with watermarks := Table.put key value s.watermarks }

/-- Moves a watermark to a value that is not below it; whether it moved. -/
def advance (s : Store) (key : String) (value : Int) : Bool × Store :=
  match s.watermark? key with
  | some current => if value < current then (false, s) else (true, s.setWatermark key value)
  | none => (true, s.setWatermark key value)

/-! ## Subscriptions -/

/-- The channels of a subscriber in the order of subscription. -/
def channels (s : Store) (subscriber : String) : List String :=
  (Table.get? subscriber s.subscriptions).getD []

/-- Subscribes to a channel, once. -/
def subscribe (s : Store) (subscriber channel : String) : Store :=
  let channels := s.channels subscriber
  let channels := if channels.contains channel then channels else channels ++ [channel]
  { s with subscriptions := Table.put subscriber channels s.subscriptions }

end Store
end NotificationRelay
