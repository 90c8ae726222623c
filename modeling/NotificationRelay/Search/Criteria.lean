/-
# Criteria

Conditions that pick feeds out of the store. A listing condition concerns hiding,
sender and the spam flag. Search criteria add a term and a window of days; a window
between two days leaves out the first and takes in the last, so that windows that
follow each other share no day, and a feed whose epoch has no day lies in no window.
-/
import NotificationRelay.Feed.Basic

namespace NotificationRelay

/-- The condition of a listing. -/
structure Listing where
  includeHidden : Bool
  sender : Option String
  isSpam : Option Bool

/-- A condition that may be absent. -/
def absentOr {α : Type} [DecidableEq α] (wanted : Option α) (actual : α) : Bool :=
  match wanted with
  | some w => decide (actual = w)
  | none => true

/-- Whether a feed belongs to a listing. -/
def Listing.accepts (l : Listing) (f : Feed) : Bool :=
  (l.includeHidden || !f.hidden) && absentOr l.sender f.sender && absentOr l.isSpam f.isSpam

/-- A window of days. -/
inductive DateWindow where
  | on (day : Day)
  /-- After `low` and not after `high`. -/
  | between (low high : Day)
  deriving DecidableEq, Repr

/-- Whether a day lies in a window. -/
def DateWindow.contains : DateWindow → Day → Bool
  | .on day, d => decide (d.number = day.number)
  | .between low high, d => decide (low.number < d.number) && decide (d.number ≤ high.number)

/-- The criteria of a search. -/
structure Criteria where
  senders : List String
  /-- A term in lower case. -/
  term : Option String
  isSpam : Bool
  window : Option DateWindow

namespace Criteria

/-- Whether the term, if there is one, occurs in a feed. -/
def acceptsTerm (c : Criteria) (f : Feed) : Bool :=
  match c.term with
  | some term => f.payload.matchesTerm term
  | none => true

/-- Whether the epoch of a feed lies in the window, if there is one. -/
def acceptsDay (c : Criteria) (f : Feed) : Bool :=
  match c.window with
  | some window =>
    match f.day? with
    | some day => window.contains day
    | none => false
  | none => true

/-- Whether a search finds a feed. -/
def accepts (c : Criteria) (f : Feed) : Bool :=
  decide (f.isSpam = c.isSpam) && c.senders.contains f.sender && c.acceptsTerm f && c.acceptsDay f

end Criteria
end NotificationRelay
