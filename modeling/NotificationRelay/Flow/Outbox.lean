/-
# Outbox

Every new feed waits in the outbox for its first processing. One pass takes the
oldest entries up to the batch size, processes each that is not yet processed, and
acknowledges each that could be loaded, whatever became of it; an entry that cannot
be loaded, or acknowledged, stays. The relay repeats passes as long as they
acknowledge a whole batch.
-/
import NotificationRelay.Flow.Processing

namespace NotificationRelay
namespace Outbox

/-- Takes an entry out of the outbox; whether it is out. -/
def acknowledge (id : FeedId) : Program Bool := do
  match ← Program.perform (.acknowledge id) with
  | .ok () => return true
  | .error _ => return false

/-- Handles one entry; whether it was acknowledged. -/
def relayOne (t : Broadcast.Topic) (id : FeedId) : Program Bool := do
  match ← Program.perform (.load id) with
  | .error _ => return false
  | .ok none => acknowledge id
  | .ok (some f) =>
    if f.processed then acknowledge id
    else
      let _ ← Processing.process t f
      acknowledge id

/-- One pass over at most `batch` entries, handled together by `handle`; how many were
acknowledged. -/
def drainBy (handle : List FeedId → Program (List Bool)) (batch : Nat) : Program (Stored Nat) := do
  match ← Program.perform (.pending batch) with
  | .error e => return .error e
  | .ok ids =>
    let acknowledged ← handle ids
    return .ok (acknowledged.countP id)

/-- One pass that handles one entry after another. -/
def drain (t : Broadcast.Topic) (batch : Nat) : Program (Stored Nat) :=
  drainBy (fun ids => Program.forEach ids (relayOne t)) batch

/-- Passes for as long as they acknowledge a whole batch, at most `passes` of them;
whether the relay came to rest. -/
def drainWhileFull (t : Broadcast.Topic) (batch : Nat) : (passes : Nat) → Program Bool
  | 0 => .done false
  | passes + 1 => do
    match ← drain t batch with
    | .error _ => return true
    | .ok acknowledged =>
      if acknowledged = batch then drainWhileFull t batch passes else return true

/-- The relay woken on a hub. Each full pass empties a batch, so that one pass more
than there are entries suffices. -/
def settle (outages : Outages) (t : Broadcast.Topic) (batch : Nat) (h : Hub) : Bool × Hub :=
  (drainWhileFull t batch (h.store.outbox.length + 1)).run outages h

end Outbox
end NotificationRelay
