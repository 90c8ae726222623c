/-
# Reading the store

A query picks feeds by a condition, puts them in an order, newest first or oldest
first, and cuts one page out. The total is the number of feeds picked, whatever the
page. Deleting what has expired is here too, since it picks feeds by a condition.
-/
import NotificationRelay.Paging
import NotificationRelay.Search.Criteria
import NotificationRelay.Store.Basic

namespace NotificationRelay

/-- One page of feeds and the number of feeds it was cut from. -/
structure Paged where
  feeds : List Feed
  total : Nat

namespace Store

/-- One page of a list and its length. -/
def page (p : Paging) (feeds : List Feed) : Paged := ⟨p.slice feeds, feeds.length⟩

/-- The feeds that meet a condition, newest first. -/
def newest (s : Store) (condition : Feed → Bool) : List Feed := (s.feeds.filter condition).reverse

/-- The feeds among the given identifiers that belong to a listing. -/
def pageByIds (s : Store) (ids : List FeedId) (listing : Listing) (p : Paging) : Paged :=
  page p (s.newest fun f => ids.contains f.id && listing.accepts f)

/-- Whether a feed is shown under a sender and, if one is given, a kind. -/
def isOfSender (sender : String) (kind : Option Kind) (f : Feed) : Bool :=
  decide (f.sender = sender) && !f.hidden && absentOr kind f.payload.data.kind

/-- The feeds of a sender that are not hidden. -/
def pageBySender (s : Store) (sender : String) (kind : Option Kind) (p : Paging) : Paged :=
  page p (s.newest (isOfSender sender kind))

/-- The feeds that a search finds. -/
def search (s : Store) (criteria : Criteria) (p : Paging) : Paged :=
  page p (s.newest criteria.accepts)

/-- Whether a feed belongs to the export of a time window, both ends included. -/
def isExported (start stop : Int) (f : Feed) : Bool :=
  !f.isSpam && decide (start ≤ f.epoch) && decide (f.epoch ≤ stop)

/-- The feeds of a time window, oldest first. -/
def pageBetween (s : Store) (start stop : Int) (p : Paging) : Paged :=
  page p (s.feeds.filter (isExported start stop))

/-- The senders of the given feeds, each at its first mention. -/
def distinctSenders (s : Store) (ids : List FeedId) : List String :=
  firstMentions ((ids.filterMap s.feed?).map (·.sender))

/-- Deletes the feeds whose expiry lies before a moment, frees their payload
identifiers and takes them out of the outbox; their identifiers, ascending. The
index is not touched. -/
def deleteExpired (s : Store) (now : Int) : List FeedId × Store :=
  let expired := s.feeds.filter (·.isExpired now)
  let ids := expired.map (·.id)
  let payloadIds := expired.map (·.payloadId)
  (ids,
    { s with
      feeds := s.feeds.filter fun f => !ids.contains f.id
      payloadIds := s.payloadIds.filter fun r => !payloadIds.contains r.1
      outbox := Ascending.diff s.outbox ids })

end Store
end NotificationRelay
