/-
# Processing

What happens to a stored feed: the start is noted, its payload is stamped with its
identifier and epoch, offered to the live sessions, broadcast, and the feed is marked as
processed. Refusals of sessions and of the sink are part of a success. A watermark that cannot be
consulted, or a mark that cannot be written, leaves the feed unprocessed, counts an
attempt, and is the result.
-/
import NotificationRelay.Broadcast.Publication
import NotificationRelay.Flow.Dispatch

namespace NotificationRelay
namespace Processing

/-- What happened to a feed that was processed. -/
structure Report where
  dispatch : Dispatch.Report
  publish : Broadcast.Outcome
  deriving DecidableEq, Repr

/-- A report as a value. -/
def Report.toJson (r : Report) : Json :=
  .object [("dispatch", r.dispatch.toJson), ("publish", .string r.publish.text)]

/-- Processes a feed as it was loaded. -/
def process (t : Broadcast.Topic) (f : Feed) : Program (Except FeedError Report) := do
  Program.perform (.note f.id)
  let dispatch ← Dispatch.dispatch f f.enriched
  let outcome ← Broadcast.publish t f f.enriched
  if outcome = .watermarkUnavailable then
    let _ ← Program.perform (.bump f.id)
    return .error (.watermarkUnavailable f.id)
  else
    match ← Program.perform (.complete f.id f.enriched) with
    | .ok () => return .ok ⟨dispatch, outcome⟩
    | .error e =>
      let _ ← Program.perform (.bump f.id)
      return .error (.completion f.id e)

/-- Whether processing left the feed unprocessed. -/
def failed : Except FeedError Report → Bool
  | .ok _ => false
  | .error _ => true

end Processing
end NotificationRelay
