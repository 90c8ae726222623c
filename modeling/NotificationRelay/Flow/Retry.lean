/-
# Retry

Feeds that processing left over are tried again until they reach the cap of attempts.
A pass selects at most a batch of them, fewest attempts first, and processes each as
it was selected.
-/
import NotificationRelay.Flow.Processing

namespace NotificationRelay
namespace Retry

/-- What a pass did. -/
structure Report where
  selected : Nat
  completed : Nat
  failed : Nat
  deriving DecidableEq, Repr

/-- A report as a value. -/
def Report.toJson (r : Report) : Json :=
  .object [("selected", .nat r.selected), ("completed", .nat r.completed), ("failed", .nat r.failed)]

/-- One pass with a cap of attempts and a batch size, whose feeds are processed together by
`handle`. -/
def passBy (handle : List Feed → Program (List (Except FeedError Processing.Report)))
    (cap batch : Nat) : Program (Stored Report) := do
  match ← Program.perform (.candidates cap batch) with
  | .error e => return .error e
  | .ok feeds =>
    let results ← handle feeds
    let failed := results.countP Processing.failed
    return .ok ⟨feeds.length, feeds.length - failed, failed⟩

/-- One pass that processes one feed after another. -/
def pass (t : Broadcast.Topic) (cap batch : Nat) : Program (Stored Report) :=
  passBy (fun feeds => Program.forEach feeds (Processing.process t)) cap batch

end Retry
end NotificationRelay
