/-
# Dispatch

A feed is offered to two tiers of sessions: to every client connected under one of
its recipients, and to every delivery node. Each session accepts or refuses for
itself, and a refusal is counted and changes nothing for the others.
-/
import NotificationRelay.Program

namespace NotificationRelay
namespace Dispatch

/-- How many sessions of each tier accepted and refused a feed. -/
structure Report where
  clientsDelivered : Nat
  clientsFailed : Nat
  nodesDelivered : Nat
  nodesFailed : Nat
  deriving DecidableEq, Repr

/-- A report as a value. -/
def Report.toJson (r : Report) : Json :=
  .object [("clientsDelivered", .nat r.clientsDelivered), ("clientsFailed", .nat r.clientsFailed),
    ("nodesDelivered", .nat r.nodesDelivered), ("nodesFailed", .nat r.nodesFailed)]

/-- Whether an offer was accepted. -/
def accepted : Except Refusal Unit → Bool
  | .ok () => true
  | .error _ => false

/-- Offers an event to sessions; how many accepted it. -/
def offerAll (ids : List SessionId) (e : Event) : Program Nat := do
  let answers ← Program.forEach ids fun id => Program.perform (.offer id e)
  return answers.countP accepted

/-- Offers a feed, with the payload that is sent, to both tiers. -/
def dispatch (f : Feed) (payload : Payload) : Program Report := do
  let clients ← Program.perform (.clientsFor f.recipients)
  let nodes ← Program.perform .nodes
  let toClients ← offerAll clients (Event.forClient f payload)
  let toNodes ← offerAll nodes (Event.forNode f payload)
  return ⟨toClients, clients.length - toClients, toNodes, nodes.length - toNodes⟩

end Dispatch
end NotificationRelay
