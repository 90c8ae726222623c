/-
# Intake

A submission is checked, stored once, and indexed under each of its recipients. A
second draft with a payload identifier that is taken changes nothing. A recipient
that cannot be indexed is left out; the feed stays stored. When the index is written
the outbox loop is called.
-/
import NotificationRelay.Feed.Submission
import NotificationRelay.Program

namespace NotificationRelay
namespace Intake

/-- Indexes a new feed under each of its recipients, and calls the outbox loop. -/
def index (d : Draft) (id : FeedId) : Program Unit := do
  let _ ← Program.forEach d.recipients fun recipient =>
    Program.perform (.append recipient id d.isSpam)
  Program.perform .wake

/-- Stores a draft and indexes it, unless it is there already. -/
def add (d : Draft) : Program (Except FeedError Inserted) := do
  match ← Program.perform (.insert d) with
  | .error e => return .error (.store e)
  | .ok inserted =>
    if inserted.created then
      index d inserted.id
      return .ok inserted
    else
      return .ok inserted

/-- Checks a submission and stores its draft. -/
def submit (s : Submission) (epoch : Int) : Program (Except FeedError Inserted) :=
  match s.validate epoch with
  | .error reason => .done (.error (.rejected reason))
  | .ok d => add d

end Intake
end NotificationRelay
