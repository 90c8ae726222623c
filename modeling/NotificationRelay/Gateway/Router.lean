/-
# Requests to the gateway

The gateway knows two paths. One tells that the process can answer, the other opens a
session. A session is opened by a request that can be upgraded to a socket and whose
query names the mode, and at most once each the mode and the address; it is admitted
before the upgrade, so that one that is refused gets a plain answer.
-/
import NotificationRelay.Gateway.QueryString
import NotificationRelay.Gateway.Session

namespace NotificationRelay
namespace Gateway

/-- What a request asks for. -/
inductive Request where
  /-- Whether the process can answer. -/
  | health
  /-- A session. -/
  | session (mode : SessionMode) (address : Option String)
  /-- A session, in a way that cannot be understood. -/
  | malformed
  /-- Something that is not there. -/
  | unknown
  deriving DecidableEq, Repr

/-- What a request gets. -/
inductive Reply where
  /-- A plain answer. -/
  | plain (status : Nat) (body : Option String)
  /-- A socket for a session. -/
  | upgraded (mode : SessionMode) (id : SessionId)

/-- The value of a field that is given at most once: `none` if it is repeated. -/
def once? (name : String) (fields : List (String × String)) : Option (Option String) :=
  match fields.filter fun f => decide (f.1 = name) with
  | [] => some none
  | [f] => some (some f.2)
  | _ => none

/-- The session that a query asks for. -/
def sessionOf? (fields : List (String × String)) : Option (SessionMode × Option String) :=
  match once? "mode" fields, once? "address" fields with
  | some (some mode), some address => (SessionMode.ofName? mode).map fun m => (m, address)
  | _, _ => none

/-- What a request for a target asks for; `upgrade` tells whether it can be upgraded. -/
def Request.ofTarget (target : String) (upgrade : Bool) : Request :=
  let path := target.toList.takeWhile (· != '?')
  let query := String.ofList (target.toList.drop (path.length + 1))
  if path = "/health".toList then .health
  else if path = "/socket".toList then
    match sessionOf? (queryFields query) with
    | some (mode, address) => if upgrade then .session mode address else .malformed
    | none => .malformed
  else .unknown

/-- Answers a request. -/
def handle (b : Bounds) : Request → Program Reply
  | .health => .done (.plain 200 (some "ok"))
  | .malformed => .done (.plain 400 none)
  | .unknown => .done (.plain 404 none)
  | .session mode address => do
    match ← connect b mode address with
    | .admitted id => return .upgraded mode id
    | .refused e => return .plain (RelayError.session e).status (some (RelayError.session e).body)
    | .noQueue => return .plain 500 none

end Gateway
end NotificationRelay
