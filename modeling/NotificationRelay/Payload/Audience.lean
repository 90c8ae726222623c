/-
# Audiences

The kind of a notification puts a condition on the addresses its payload lists: a
targeted one lists exactly one, a subset at least one, and a broadcast any number.
-/
import NotificationRelay.Error

namespace NotificationRelay

/-- Whom a payload addresses. -/
inductive Audience where
  | broadcast
  | targeted (address : String)
  | subset (addresses : List String)

/-- The audience of a payload, if its addresses fit its kind. -/
def Payload.audience (p : Payload) : Except Rejection Audience :=
  let addresses := p.recipients.addresses
  match p.data.kind with
  | .broadcast => .ok .broadcast
  | .targeted =>
    match addresses with
    | [address] => .ok (.targeted address)
    | _ => .error (.notSingle addresses.length)
  | .subset => if addresses.isEmpty then .error .emptySubset else .ok (.subset addresses)

end NotificationRelay
