/-
# Registry

The sessions that are connected. A client is bound to a canonical address and found
through it; delivery nodes are found all at once. The number of clients of an address
is capped, the number of nodes is not.
-/
import NotificationRelay.Error
import NotificationRelay.Table

namespace NotificationRelay

/-- The identifier of a session. -/
abbrev SessionId := Nat

/-- The connected sessions. -/
structure Registry where
  /-- The number of clients that an address may have. -/
  limit : Nat
  clients : List (SessionId × String)
  byAddress : List (String × List SessionId)
  nodes : List SessionId

namespace Registry

/-- A registry without sessions. -/
def empty (limit : Nat) : Registry := ⟨limit, [], [], []⟩

/-- The sessions filed under an address. -/
def at? (r : Registry) (address : String) : List SessionId :=
  (Table.get? address r.byAddress).getD []

/-- A list with one more member, unless it is there. -/
def withMember (id : SessionId) (ids : List SessionId) : List SessionId :=
  if id ∈ ids then ids else ids ++ [id]

/-- Connects a client of an address, unless the address has as many as it may. -/
def registerClient (r : Registry) (address : String) (id : SessionId) :
    Except SessionError Unit × Registry :=
  if r.limit ≤ (r.at? address).length then (.error (.tooManyConnections address r.limit), r)
  else
    (.ok (),
      { r with
        clients := Table.put id address r.clients
        byAddress := Table.put address (withMember id (r.at? address)) r.byAddress })

/-- Connects a delivery node. -/
def registerNode (r : Registry) (id : SessionId) : Registry :=
  { r with nodes := withMember id r.nodes }

/-- The rows of the address table after a session has left an address; an address
without sessions has no row. -/
def leave (address : String) (id : SessionId) (rows : List (String × List SessionId)) :
    List (String × List SessionId) :=
  match Table.get? address rows with
  | none => rows
  | some ids =>
    let rest := ids.filter fun n => decide (n ≠ id)
    if rest.isEmpty then Table.erase address rows else Table.put address rest rows

/-- Disconnects a session of either mode; an unknown one is ignored. -/
def unregister (r : Registry) (id : SessionId) : Registry :=
  let nodes := r.nodes.filter fun n => decide (n ≠ id)
  match Table.get? id r.clients with
  | none => { r with nodes := nodes }
  | some address =>
    { r with
      nodes := nodes
      clients := Table.erase id r.clients
      byAddress := leave address id r.byAddress }

/-- The connected clients of any of the addresses, each once. -/
def clientsFor (r : Registry) (addresses : List String) : List SessionId :=
  (firstMentions (addresses.flatMap r.at?)).filter fun id => (Table.get? id r.clients).isSome

/-- The number of connected clients. -/
def clientCount (r : Registry) : Nat := r.clients.length

end Registry
end NotificationRelay
