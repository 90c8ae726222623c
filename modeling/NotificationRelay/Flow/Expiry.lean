/-
# Expiry

A sweep deletes the feeds whose expiry lies before a moment, and then takes them out
of the index. If there are none the index is not asked. Moments are whole seconds here,
where the service keeps fractions of a second: a sweep only asks which of two moments
comes first.
-/
import NotificationRelay.Program

namespace NotificationRelay
namespace Expiry

/-- Deletes what expired before a moment, which is given in whole seconds; how many feeds were
deleted. -/
def sweep (now : Int) : Program (Stored Nat) := do
  match ← Program.perform (.deleteExpired now) with
  | .error e => return .error e
  | .ok ids =>
    if ids.isEmpty then return .ok 0
    else
      match ← Program.perform (.unindex ids) with
      | .error e => return .error e
      | .ok _ => return .ok ids.length

end Expiry
end NotificationRelay
