/-
# Publication

A feed is broadcast only if its epoch is not below the highest epoch let through so
far. The comparison and the advance of that watermark are one step of the store. A
feed that has been let through is handed to the sink once; if the sink refuses it the
watermark stays where it is. Where the watermark cannot be consulted nothing is sent.
-/
import NotificationRelay.Program

namespace NotificationRelay
namespace Broadcast

/-- Broadcasts a feed, with the payload that is sent. -/
def publish (t : Topic) (f : Feed) (payload : Payload) : Program Outcome :=
  if t.enabled then do
    match ← Program.perform (.advance f.id f.epoch) with
    | .error _ => return .watermarkUnavailable
    | .ok false => return .stale
    | .ok true =>
      if ← Program.perform (.post (t.message f payload)) then return .published
      else return .failed
  else .done .disabled

end Broadcast
end NotificationRelay
