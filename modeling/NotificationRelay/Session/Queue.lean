/-
# Event queues

Each session has a bounded queue of events that waits for its reader. Offering an
event never waits: a full queue refuses it, and so does one whose reader is gone,
which is told apart first.
-/
import NotificationRelay.Session.Event

namespace NotificationRelay

/-- Why a queue refuses an event. -/
inductive Refusal where
  | full
  | closed
  deriving DecidableEq, Repr

/-- A bounded queue of events, oldest first. -/
structure EventQueue where
  capacity : Nat
  events : List Event
  /-- The reader is gone. -/
  closed : Bool

namespace EventQueue

/-- A queue for at least one event. -/
def open? (capacity : Nat) : Option EventQueue :=
  if capacity = 0 then none else some ⟨capacity, [], false⟩

/-- Offers an event. -/
def offer (q : EventQueue) (e : Event) : Except Refusal Unit × EventQueue :=
  if q.closed then (.error .closed, q)
  else if q.events.length < q.capacity then (.ok (), { q with events := q.events ++ [e] })
  else (.error .full, q)

/-- Takes the oldest events, at most so many. -/
def take (q : EventQueue) (most : Nat) : List Event × EventQueue :=
  (q.events.take most, { q with events := q.events.drop most })

/-- The queue after its reader has gone; nobody can take what it still held. -/
def close (q : EventQueue) : EventQueue := { q with events := [], closed := true }

end EventQueue
end NotificationRelay
