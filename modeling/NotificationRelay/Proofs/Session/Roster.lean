/-
# Who is connected

The turns of a run tell who is connected, and as what: a session has a seat from the call that
connects it to the one that disconnects it (`Turn.seats`). The registry keeps the same in three
tables, one from clients to addresses, one from addresses to clients, and one of the delivery
nodes. `Registry.Seats` says that all three agree with the seats, and then the registry finds a
client for addresses exactly if it sits at one of them, and once
(`Registry.Seats.count_clientsFor`).

The tables could come apart only if a session were connected twice. That is ruled out by the
numbers of sessions: a session is connected right after its queue has been opened, under a number
that no session had before. `seating` is the discipline that every call minds this, all acts
follow it (`Act.PerformedBy.follows_seating`), and so the registry is right at every call of every
course (`Course.seated`).
-/
import Mathlib.Logic.Function.Basic
import NotificationRelay.Proofs.Run.Discipline
import NotificationRelay.Proofs.Session.Binding

namespace NotificationRelay

/-- What a connected session stands for. -/
inductive Seat where
  | client (address : String)
  | node
  deriving DecidableEq

/-! ## Seats in the registry -/

namespace Registry

/-- The tables of the registry say of each session what it stands for. -/
structure Seats (seat : SessionId → Option Seat) (r : Registry) : Prop where
  clients : ∀ k a, Table.get? k r.clients = some a ↔ seat k = some (.client a)
  filed : ∀ k a, k ∈ r.at? a ↔ seat k = some (.client a)
  nodes : ∀ k, k ∈ r.nodes ↔ seat k = some .node
  distinct : r.nodes.Nodup

/-- The members with a session are the old ones and the session. -/
theorem mem_withMember_iff {k j : SessionId} {ids : List SessionId} :
    j ∈ withMember k ids ↔ j ∈ ids ∨ j = k := by
  refine ⟨mem_withMember, fun hj => ?_⟩
  unfold withMember
  split
  · next there => exact hj.elim id fun same => same ▸ there
  · exact List.mem_append.2 (hj.imp_right List.mem_singleton.2)

/-- A session that leaves an address is no longer filed under it. -/
theorem at?_leave (address a : String) (k j : SessionId) (rows : List (String × List SessionId)) :
    j ∈ (Table.get? a (leave address k rows)).getD [] ↔
      j ∈ (Table.get? a rows).getD [] ∧ (address = a → j ≠ k) := by
  refine ⟨fun hj => ⟨mem_of_mem_leave hj, ?_⟩, fun ⟨hj, other⟩ => ?_⟩
  · rintro rfl rfl
    unfold leave at hj
    cases hrow : Table.get? address rows with
    | none =>
      simp only [hrow] at hj
      cases hj
    | some ids =>
      simp only [hrow] at hj
      split at hj
      · unfold Table.erase at hj
        rw [Table.get?_filter address fun key => decide (key ≠ address)] at hj
        simp at hj
      · rw [Table.get?_put] at hj
        simp at hj
  · unfold leave
    cases hrow : Table.get? address rows with
    | none => exact hj
    | some ids =>
      dsimp only
      by_cases same : address = a
      · subst same
        rw [hrow] at hj
        have stays : j ∈ ids.filter fun n => decide (n ≠ k) :=
          List.mem_filter.2 ⟨hj, decide_eq_true (other rfl)⟩
        rw [if_neg fun empty => by rw [List.isEmpty_iff.1 empty] at stays; cases stays]
        rwa [Table.get?_put, if_pos rfl]
      · split
        · unfold Table.erase
          rw [Table.get?_filter a fun key => decide (key ≠ address)]
          rwa [if_pos (decide_eq_true (Ne.symm same))]
        · rwa [Table.get?_put, if_neg same]

/-- Unregistering a session takes its row away and no other. -/
theorem get?_unregister (r : Registry) (k j : SessionId) :
    Table.get? j (r.unregister k).clients =
      if j = k then none else Table.get? j r.clients := by
  unfold unregister
  cases hk : Table.get? k r.clients with
  | none =>
    show Table.get? j r.clients = _
    split
    · next same => rw [same, hk]
    · rfl
  | some address =>
    show Table.get? j (r.clients.filter fun row => decide (row.1 ≠ k)) = _
    rw [Table.get?_filter j fun key => decide (key ≠ k)]
    by_cases hj : j = k <;> simp [hj]

/-- Only the latest address of a session is looked at when it is disconnected. -/
theorem mem_at?_unregister (r : Registry) (k j : SessionId) (a : String) :
    j ∈ (r.unregister k).at? a ↔ j ∈ r.at? a ∧ ¬ (j = k ∧ Table.get? k r.clients = some a) := by
  unfold unregister
  cases hk : Table.get? k r.clients with
  | none => simp [at?]
  | some address =>
    refine (at?_leave address a k j r.byAddress).trans (and_congr_right fun _ => ?_)
    rw [Option.some.injEq, not_and']

namespace Seats

variable {seat : SessionId → Option Seat} {r : Registry} {k : SessionId}

/-- Nobody is connected in an empty registry. -/
theorem empty (limit : Nat) : Seats (fun _ => none) (.empty limit) where
  clients _ _ := ⟨nofun, nofun⟩
  filed _ _ := ⟨nofun, nofun⟩
  nodes _ := ⟨nofun, nofun⟩
  distinct := .nil

/-- A new client is filed under its address. -/
theorem registerClient (hs : Seats seat r) {address : String} (new : seat k = none)
    (room : ¬ r.limit ≤ (r.at? address).length) :
    Seats (Function.update seat k (some (.client address))) (r.registerClient address k).2 := by
  have clients : (r.registerClient address k).2.clients = Table.put k address r.clients := by
    rw [Registry.registerClient, if_neg room]
  have nodes : (r.registerClient address k).2.nodes = r.nodes := by
    rw [Registry.registerClient, if_neg room]
  refine ⟨fun j a => ?_, fun j a => ?_, fun j => ?_, nodes ▸ hs.distinct⟩
  · rw [clients, Table.get?_put]
    by_cases hj : j = k
    · subst hj
      simp
    · rw [if_neg (Ne.symm hj), Function.update_of_ne hj]
      exact hs.clients j a
  · rw [r.at?_registerClient room]
    by_cases hj : j = k
    · subst hj
      rw [Function.update_self]
      split
      · next same => simp [mem_withMember_iff, same]
      · next other => simp [hs.filed, new, other]
    · rw [Function.update_of_ne hj, ← hs.filed j a]
      split
      · next same => simp [mem_withMember_iff, hj, same]
      · rfl
  · rw [nodes, hs.nodes]
    by_cases hj : j = k
    · subst hj
      simp [new]
    · rw [Function.update_of_ne hj]

/-- A new delivery node is among the nodes. -/
theorem registerNode (hs : Seats seat r) (new : seat k = none) :
    Seats (Function.update seat k (some .node)) (r.registerNode k) := by
  have unseated : ∀ j a, seat j = some (.client a) ↔
      Function.update seat k (some .node) j = some (.client a) := fun j a => by
    by_cases hj : j = k
    · subst hj
      simp [new]
    · rw [Function.update_of_ne hj]
  refine ⟨fun j a => (hs.clients j a).trans (unseated j a),
    fun j a => (hs.filed j a).trans (unseated j a), fun j => ?_, ?_⟩
  · show j ∈ withMember k r.nodes ↔ _
    rw [mem_withMember_iff]
    by_cases hj : j = k
    · subst hj
      simp
    · rw [Function.update_of_ne hj, or_iff_left hj]
      exact hs.nodes j
  · have out : k ∉ r.nodes := by simp [hs.nodes, new]
    show (withMember k r.nodes).Nodup
    rw [withMember, if_neg out]
    exact List.nodup_append.2 ⟨hs.distinct, List.pairwise_singleton _ k, fun j hj i hi same => by
      rw [same, List.mem_singleton.1 hi] at hj
      exact out hj⟩

/-- A session that is disconnected is in none of the tables. -/
theorem unregister (hs : Seats seat r) (k : SessionId) :
    Seats (Function.update seat k none) (r.unregister k) := by
  have nodes : (r.unregister k).nodes = r.nodes.filter fun n => decide (n ≠ k) := by
    unfold Registry.unregister
    split <;> rfl
  -- its address is the only one under which it is filed
  have filed : ∀ j a, j ∈ (r.unregister k).at? a ↔ j ∈ r.at? a ∧ j ≠ k := fun j a => by
    refine (mem_at?_unregister r k j a).trans (and_congr_right fun hj => not_congr ?_)
    refine ⟨And.left, ?_⟩
    rintro rfl
    exact ⟨rfl, (hs.clients j a).2 ((hs.filed j a).1 hj)⟩
  refine ⟨fun j a => ?_, fun j a => ?_, fun j => ?_, nodes ▸ hs.distinct.filter _⟩
  · rw [get?_unregister]
    by_cases hj : j = k
    · subst hj
      simp
    · rw [if_neg hj, Function.update_of_ne hj]
      exact hs.clients j a
  · rw [filed, hs.filed]
    by_cases hj : j = k
    · subst hj
      simp
    · rw [Function.update_of_ne hj, and_iff_left hj]
  · rw [nodes, List.mem_filter, decide_eq_true_iff, hs.nodes]
    by_cases hj : j = k
    · subst hj
      simp
    · rw [Function.update_of_ne hj, and_iff_left hj]

/-- No client is found twice. -/
theorem nodup_clientsFor (r : Registry) (addresses : List String) :
    (r.clientsFor addresses).Nodup := (nodup_firstMentions _).filter _

/-- The clients that are found are those that sit at one of the addresses. -/
theorem mem_clientsFor (hs : Seats seat r) {addresses : List String} {k : SessionId} :
    k ∈ r.clientsFor addresses ↔ ∃ a ∈ addresses, seat k = some (.client a) := by
  unfold clientsFor
  rw [List.mem_filter, mem_firstMentions, List.mem_flatMap]
  simp only [hs.filed]
  refine and_iff_left_of_imp ?_
  rintro ⟨a, -, seated⟩
  rw [(hs.clients k a).2 seated]
  rfl

/-- **A client is found for addresses** if it sits at one of them, and once. -/
theorem count_clientsFor (hs : Seats seat r) (addresses : List String) (k : SessionId) :
    (r.clientsFor addresses).count k =
      if ∃ a ∈ addresses, seat k = some (.client a) then 1 else 0 := by
  rw [(nodup_clientsFor r addresses).count]
  exact if_congr hs.mem_clientsFor rfl rfl

/-- A delivery node is listed once, and nobody else is. -/
theorem count_nodes (hs : Seats seat r) (k : SessionId) :
    r.nodes.count k = if seat k = some .node then 1 else 0 := by
  rw [hs.distinct.count]
  exact if_congr (hs.nodes k) rfl rfl

end Seats
end Registry

/-! ## Seats in a trace -/

/-- The seats after a call that was answered. -/
def Call.reseat (seat : SessionId → Option Seat) : (c : Call) → c.Answer → SessionId → Option Seat
  | .registerClient address k, .ok () => Function.update seat k (some (.client address))
  | .registerNode k, _ => Function.update seat k (some .node)
  | .unregister k, _ => Function.update seat k none
  | _, _ => seat

/-- What each session stands for after turns, if it is connected. -/
def Turn.seats (ts : List Turn) : SessionId → Option Seat :=
  ts.foldl (fun seat t => t.call.reseat seat t.answer) fun _ => none

/-- Whether a call has opened the queue of a new session. -/
def Call.opens : (c : Call) → c.Answer → Bool
  | .openQueue _, some _ => true
  | _, _ => false

/-- How many sessions were given a queue in turns. -/
def Turn.opened (ts : List Turn) : Nat := ts.countP fun t => t.call.opens t.answer

/-- The seats after one more turn are those that its call leaves. -/
theorem Turn.seats_snoc (ts : List Turn) (t : Turn) :
    seats (ts ++ [t]) = t.call.reseat (seats ts) t.answer := by
  unfold seats
  rw [List.foldl_append]
  rfl

/-- One more queue is open after a turn that opens one. -/
theorem Turn.opened_snoc (ts : List Turn) (t : Turn) :
    opened (ts ++ [t]) = opened ts + (t.call.opens t.answer).toNat := by
  unfold opened
  rw [List.countP_append, List.countP_singleton]
  cases t.call.opens t.answer <;> rfl

/-- The registry is right about who is connected, and sessions that have not been given a queue are
not. -/
structure Hub.Seated (past : List Turn) (h : Hub) : Prop where
  seats : h.registry.Seats (Turn.seats past)
  opened : h.queues.length = Turn.opened past
  unseated : ∀ k, Turn.opened past ≤ k → Turn.seats past k = none

/-- The session that a call is to connect. -/
def Call.connects? : Call → Option SessionId
  | .registerClient _ k => some k
  | .registerNode k => some k
  | _ => none

namespace Hub.Seated

variable {past : List Turn} {h : Hub}

/-- The empty hub is right about who is connected. -/
theorem empty (limit : Nat) (sink : Broadcast.Sink) : Seated [] (.empty limit sink) where
  seats := .empty limit
  opened := rfl
  unseated _ _ := rfl

/-- Who is connected stays so if the registry stays as it is. -/
theorem of_same (hs : Seated past h) {t : Turn} {h' : Hub} (registry : h'.registry = h.registry)
    (queues : h'.queues.length = h.queues.length)
    (seat : ∀ seat, t.call.reseat seat t.answer = seat) (opens : t.call.opens t.answer = false) :
    Seated (past ++ [t]) h' := by
  have seats : Turn.seats (past ++ [t]) = Turn.seats past := by rw [Turn.seats_snoc, seat]
  have opened : Turn.opened (past ++ [t]) = Turn.opened past := by
    rw [Turn.opened_snoc, opens, Bool.toNat_false, Nat.add_zero]
  refine ⟨?_, ?_, ?_⟩
  · rw [registry, seats]
    exact hs.seats
  · rw [queues, opened]
    exact hs.opened
  · rw [seats, opened]
    exact hs.unseated

/-- Nothing that happens outside disturbs the seating. -/
theorem outside (hs : Seated past h) {h' : Hub} (o : h.Outside h') : Seated past h' := by
  obtain ⟨registry, queues⟩ := o.sessions_eq
  exact ⟨registry ▸ hs.seats, queues ▸ hs.opened, hs.unseated⟩

/-- A change of one seat. -/
theorem reseat (hs : Seated past h) {t : Turn} {h' : Hub} {k : SessionId} {held : Option Seat}
    (queues : h'.queues = h.queues) (opens : t.call.opens t.answer = false)
    (seat : t.call.reseat (Turn.seats past) t.answer = Function.update (Turn.seats past) k held)
    (seats : h'.registry.Seats (Function.update (Turn.seats past) k held))
    (there : held ≠ none → k < Turn.opened past) : Seated (past ++ [t]) h' := by
  have opened : Turn.opened (past ++ [t]) = Turn.opened past := by
    rw [Turn.opened_snoc, opens, Bool.toNat_false, Nat.add_zero]
  refine ⟨?_, ?_, fun j hj => ?_⟩
  · rw [Turn.seats_snoc, seat]
    exact seats
  · rw [queues, opened]
    exact hs.opened
  · rw [opened] at hj
    rw [Turn.seats_snoc, seat]
    by_cases hjk : j = k
    · subst hjk
      rw [Function.update_self]
      by_contra held
      exact Nat.not_lt.2 hj (there held)
    · rw [Function.update_of_ne hjk]
      exact hs.unseated j hj

/-- A queue that is opened is that of a session which was not connected before. -/
theorem openQueue (hs : Seated past h) (capacity : Nat) (outages : Outages) :
    Seated (past ++ [(Call.openQueue capacity).turn outages h]) (h.openQueue capacity).2 := by
  unfold Hub.openQueue
  cases hq : EventQueue.open? capacity with
  | none =>
    refine hs.of_same rfl rfl (fun _ => rfl) ?_
    simp only [Call.turn, Call.perform, Hub.openQueue, hq]
    rfl
  | some queue =>
    have opens : (Call.openQueue capacity).opens
        ((Call.openQueue capacity).perform outages h).1 = true := by
      simp only [Call.perform, Hub.openQueue, hq]
      rfl
    have seats : Turn.seats (past ++ [(Call.openQueue capacity).turn outages h]) =
        Turn.seats past := Turn.seats_snoc _ _
    have opened : Turn.opened (past ++ [(Call.openQueue capacity).turn outages h]) =
        Turn.opened past + 1 := by
      rw [Turn.opened_snoc]
      exact congrArg (fun b : Bool => Turn.opened past + b.toNat) opens
    refine ⟨?_, ?_, fun k hk => ?_⟩
    · rw [seats]
      exact hs.seats
    · rw [opened, ← hs.opened, List.length_append]
      rfl
    · rw [opened] at hk
      rw [seats]
      exact hs.unseated k (Nat.le_of_succ_le hk)

end Hub.Seated

/-- **Every call keeps the registry right** about who is connected, if the session that it
connects has a queue and was not connected before. -/
theorem Call.seated_perform (c : Call) (outages : Outages) {h : Hub} {past : List Turn}
    (hs : h.Seated past)
    (new : ∀ k, c.connects? = some k → Turn.seats past k = none ∧ k < Turn.opened past) :
    (c.perform outages h).2.Seated (past ++ [c.turn outages h]) := by
  have asked : c.asksStore = true → (∀ seat a, c.reseat seat a = seat) →
      (∀ a, c.opens a = false) →
        (c.perform outages h).2.Seated (past ++ [c.turn outages h]) := fun hc seat opens => by
    obtain ⟨registry, queues⟩ := sessions_perform hc outages h
    exact hs.of_same registry (congrArg _ queues) (fun _ => seat _ _) (opens _)
  cases c with
  | registerClient address k =>
    obtain ⟨unseated, there⟩ := new k rfl
    by_cases room : h.registry.limit ≤ (h.registry.at? address).length
    · have refused : h.registry.registerClient address k =
          (.error (.tooManyConnections address h.registry.limit), h.registry) := if_pos room
      refine hs.of_same ?_ rfl (fun seat => ?_) rfl
      · simp only [perform, refused]
      · simp only [turn, perform, refused]
        rfl
    · refine hs.reseat rfl rfl ?_ (hs.seats.registerClient unseated room) fun _ => there
      simp only [turn, perform, Registry.registerClient, if_neg room]
      rfl
  | registerNode k =>
    obtain ⟨unseated, there⟩ := new k rfl
    exact hs.reseat rfl rfl rfl (hs.seats.registerNode unseated) fun _ => there
  | unregister k => exact hs.reseat rfl rfl rfl (hs.seats.unregister k) fun held => absurd rfl held
  | openQueue capacity => exact hs.openQueue capacity outages
  | closeQueue k =>
    exact hs.of_same (h.registry_closeQueue k) (h.length_closeQueue k) (fun _ => rfl) rfl
  | offer k e => exact hs.of_same (h.registry_offer k e) (h.length_offer k e) (fun _ => rfl) rfl
  | cached | remember | clientsFor | nodes | post | wake | note =>
    exact hs.of_same rfl rfl (fun _ => rfl) rfl
  | _ => exact asked rfl (fun _ _ => rfl) fun _ => rfl

/-! ## All acts mind it -/

/-- A session that is connected has a queue and was not connected before. -/
def seating : Discipline where
  inv past h := h.Seated past
  rule past _ c := ∀ k, c.connects? = some k → Turn.seats past k = none ∧ k < Turn.opened past
  outside o hs := hs.outside o
  step c outages hs new := c.seated_perform outages hs new

/-- A call that changes who is connected. -/
def Call.reseats : Call → Bool
  | .registerClient _ _ => true
  | .registerNode _ => true
  | .unregister _ => true
  | _ => false

/-- All other calls leave the registry as it is. -/
theorem Call.registry_perform {c : Call} (hc : c.reseats = false) (outages : Outages) (h : Hub) :
    (c.perform outages h).2.registry = h.registry := by
  cases c with
  | registerClient | registerNode | unregister => cases hc
  | openQueue capacity => exact h.registry_openQueue capacity
  | closeQueue k => exact h.registry_closeQueue k
  | offer k e => exact h.registry_offer k e
  | cached | remember | clientsFor | nodes | post | wake | note => rfl
  | _ => exact (outages.sessions_guard _ h _).1

/-- A program that leaves everybody in their seats. -/
abbrev Program.SparesSeats {α : Type} (p : Program α) : Prop := p.Only fun c => c.reseats = false

namespace Program

variable {α : Type} {p : Program α} {others : Prop} {past : List Turn}

/-- A program that changes no seats keeps to the seating. -/
theorem SparesSeats.follows (hp : p.SparesSeats) :
    p.Follows seating others (fun _ _ => True) past := by
  refine .of_only hp (fun _ _ c hc _ k hk => ?_) fun _ _ => trivial
  cases c with
  | registerClient | registerNode => cases hc
  | _ => cases hk

/-- Such a program leaves the registry as it is throughout. -/
theorem Runs.registry_of_sparesSeats {h h' : Hub} {ts : List Turn} {a : α} (r : p.Runs h ts a h')
    (hp : p.SparesSeats) : ∀ t ∈ ts, t.before.registry = h.registry := fun t ht =>
  ((r.keeps (fun g => g.registry = h.registry) hp (fun _ _ o hg => o.sessions_eq.1.trans hg)
    (fun _ outages g hc hg => (Call.registry_perform hc outages g).trans hg) rfl).2 t ht).1

/-- A program that only asks changes no seats. -/
theorem Asking.sparesSeats (hp : p.Asking) : p.SparesSeats :=
  hp.mono fun c hc => by cases c <;> first | rfl | cases hc

/-- Unregistering a session keeps to the seating. -/
theorem follows_unregister (k : SessionId) :
    (perform (.unregister k)).Follows seating others (fun _ _ => True) past :=
  fun _ _ _ _ => ⟨nofun, fun _ => trivial⟩

end Program

/-- Telling sessions of a feed changes no seats. -/
theorem Dispatch.sparesSeats_dispatch (f : Feed) (payload : Payload) :
    (dispatch f payload).SparesSeats :=
  only_dispatch rfl rfl (fun _ => rfl) fun _ => rfl

/-- Processing a feed changes no seats. -/
theorem Processing.sparesSeats_process (t : Broadcast.Topic) (f : Feed) :
    (process t f).SparesSeats := by
  have bump : ∀ result : Except FeedError Report, (Program.bind (Program.perform (.bump f.id))
      fun _ => .done result).SparesSeats := fun _ =>
    Program.Only.bind (Program.only_perform rfl) fun _ => trivial
  refine Program.Only.bind (Program.only_perform rfl) fun _ => ?_
  refine (Dispatch.sparesSeats_dispatch f f.enriched).bind fun _ => ?_
  refine Program.Only.bind ((Broadcast.only_publish t f).mono fun c hc => ?_) fun outcome => ?_
  · cases hc <;> rfl
  · split
    · exact bump _
    · exact Program.Only.bind_except (Program.only_perform rfl) (fun _ => bump _) fun _ => trivial

/-- Handling an entry of the outbox changes no seats. -/
theorem Outbox.sparesSeats_relayOne (t : Broadcast.Topic) (id : FeedId) :
    (relayOne t id).SparesSeats := by
  have acknowledge : (acknowledge id).SparesSeats :=
    Program.Only.bind_except (Program.only_perform rfl) (fun _ => trivial) fun _ => trivial
  refine only_load_bind id rfl (fun _ => trivial) acknowledge fun f _ => ?_
  show (if f.processed then Outbox.acknowledge id else _ : Program _).Only _
  split
  · exact acknowledge
  · exact Program.Only.bind (Processing.sparesSeats_process t f) fun _ => acknowledge

/-- A pass over the outbox changes no seats. -/
theorem Outbox.sparesSeats_drainBy {t : Broadcast.Topic} {limit : Nat}
    {handle : List FeedId → Program (List Bool)}
    (sideBySide : ∀ ids, Program.Weave limit (ids.map (relayOne t)) (handle ids)) (batch : Nat) :
    (drainBy handle batch).SparesSeats := by
  refine Program.Only.bind_except (Program.only_perform rfl) (fun _ => trivial) fun ids =>
    Program.Only.bind ((sideBySide ids).only fun p hp => ?_) fun _ => trivial
  obtain ⟨id, -, rfl⟩ := List.mem_map.1 hp
  exact sparesSeats_relayOne t id

/-- A retry pass changes no seats. -/
theorem Retry.sparesSeats_passBy {t : Broadcast.Topic} {limit : Nat}
    {handle : List Feed → Program (List (Except FeedError Processing.Report))}
    (sideBySide : ∀ feeds, Program.Weave limit (feeds.map (Processing.process t)) (handle feeds))
    (cap batch : Nat) : (passBy handle cap batch).SparesSeats := by
  refine Program.Only.bind_except (Program.only_perform rfl) (fun _ => trivial) fun feeds =>
    Program.Only.bind ((sideBySide feeds).only fun p hp => ?_) fun _ => trivial
  obtain ⟨f, -, rfl⟩ := List.mem_map.1 hp
  exact Processing.sparesSeats_process t f

namespace Gateway

/-- The calls that are made to send pages to a session. -/
inductive Sends (id : SessionId) : Call → Prop
  | query {c : Call} (hc : c.isQuery = true) : Sends id c
  | snapshot (page : FeedPage) : Sends id (.offer id (.snapshot page))
  | spamSnapshot (page : FeedPage) : Sends id (.offer id (.spamSnapshot page))
  | history (page : ExportPage) : Sends id (.offer id (.history page))

/-- A page is offered by calls about the session only. -/
theorem only_offerPage {α : Type} {id : SessionId} {event : α → Event}
    (sends : ∀ page, Sends id (.offer id (event page))) (answer : Except FeedError α) :
    (offerPage id event answer).Only (Sends id) := by
  cases answer with
  | error => trivial
  | ok page => exact Program.Only.bind (Program.only_perform (sends page)) fun _ => trivial

/-- A snapshot is offered by queries and calls about the session only. -/
theorem only_snapshot (b : Bounds) (address : String) (id : SessionId) :
    (snapshot b address id).Only (Sends id) := by
  have asked : ∀ isSpam p, (Query.feeds b.maxPageSize address isSpam false p).Only (Sends id) :=
    fun isSpam p => (Query.asking_recipientPage ..).mono fun c hc => .query hc
  refine (asked false _).bind fun _ => (only_offerPage .snapshot _).bind fun _ => ?_
  exact (asked true _).bind fun _ => only_offerPage .spamSnapshot _

/-- The text of a delivery node is answered by queries and calls about the session only. -/
theorem only_answer (b : Bounds) (id : SessionId) (text : String) :
    (answer b id text).Only (Sends id) := by
  unfold answer
  split
  · trivial
  · exact Program.Only.bind ((Query.asking_history ..).mono fun c hc => .query hc) fun _ =>
      only_offerPage .history _

/-- What is sent to a session changes no seats. -/
theorem Sends.sparesSeats {id : SessionId} {c : Call} (hc : Sends id c) :
    c.reseats = false := by
  cases hc with
  | query hc => cases c <;> first | rfl | cases hc
  | _ => rfl

/-- Turning a session away keeps to the seating. -/
theorem follows_refuse_seating {past : List Turn} (id : SessionId) (e : SessionError) :
    (refuse id e).Follows seating False (fun _ _ => True) past :=
  Program.SparesSeats.follows <|
    Program.Only.bind (Program.only_perform rfl) fun _ => trivial

/-- A session is connected under the number of the queue that has just been opened for it. -/
theorem follows_connect_seating {past : List Turn} (b : Bounds) (mode : SessionMode)
    (raw : Option String) : (connect b mode raw).Follows seating False (fun _ _ => True) past := by
  unfold connect
  refine Program.Follows.perform_bind_alone fun h hs => ⟨nofun, fun outages => ?_⟩
  have new : ∀ id, (Call.perform outages (.openQueue b.queueCapacity) h).1 = some id →
      Turn.seats (past ++ [(Call.openQueue b.queueCapacity).turn outages h]) id = none ∧
        id < Turn.opened (past ++ [(Call.openQueue b.queueCapacity).turn outages h]) := by
    intro id hid
    obtain ⟨last, there⟩ := Hub.of_openQueue hid
    have after := Hub.Seated.openQueue hs b.queueCapacity outages
    rw [after.opened] at there
    refine ⟨?_, there⟩
    rw [Turn.seats_snoc]
    exact hs.unseated id (Nat.le_of_eq (hs.opened.symm.trans last.symm))
  generalize (Call.perform outages (.openQueue b.queueCapacity) h).1 = answer at new ⊢
  match answer, mode with
  | none, _ => trivial
  | some id, .delivery =>
    refine Program.Follows.perform_bind_alone fun _ _ => ⟨fun k hk => ?_, fun _ => trivial⟩
    cases hk
    exact new id rfl
  | some id, .client =>
    dsimp only
    split
    · exact follows_refuse_seating id _
    · next canonical _ =>
      refine Program.Follows.perform_bind_alone fun h' _ => ⟨fun k hk => ?_, fun outages' => ?_⟩
      · cases hk
        exact new id rfl
      · generalize (Call.perform outages' (.registerClient canonical id) h').1 = answer
        cases answer with
        | error e => exact follows_refuse_seating id e
        | ok =>
          refine Program.SparesSeats.follows (Program.Only.bind ?_ fun _ => trivial)
          exact (only_snapshot b canonical id).mono fun c hc => hc.sparesSeats

end Gateway

/-- **Every act minds who is connected.** -/
theorem Act.PerformedBy.follows_seating {s : Settings} {a : Act} {p : Program a.Result}
    (hp : a.PerformedBy s p) {past : List Turn} :
    p.Follows seating False (fun _ _ => True) past := by
  have added : ∀ d, (Intake.add d).Follows seating False (fun _ _ => True) past := fun d => by
    refine Program.SparesSeats.follows ((Intake.only_add d).mono fun c hc => ?_)
    cases hc with
    | insert => rfl
    | index hc => cases hc <;> rfl
  cases hp with
  | submit x epoch =>
    show (Intake.submit x epoch).Follows _ _ _ _
    unfold Intake.submit
    split
    · trivial
    · exact added _
  | add d => exact added d
  | drain sideBySide => exact (Outbox.sparesSeats_drainBy sideBySide _).follows
  | retry sideBySide => exact (Retry.sparesSeats_passBy sideBySide _ _).follows
  | process f => exact (Processing.sparesSeats_process s.topic f).follows
  | sweep now =>
    refine Program.SparesSeats.follows ((Expiry.only_sweep now).mono fun c hc => ?_)
    cases hc <;> rfl
  | connect mode raw => exact Gateway.follows_connect_seating _ mode raw
  | receive mode id frame =>
    match frame, mode with
    | .text content, .delivery =>
      refine Program.SparesSeats.follows ((Gateway.only_answer _ id content).mono fun c hc => ?_)
      exact hc.sparesSeats
    | .text _, .client => trivial
    | .binary, _ => trivial
    | .closed, _ => exact Program.follows_unregister id
  | disconnect id => exact Program.follows_unregister id
  | feeds | channelFeeds =>
    exact (Program.Asking.sparesSeats (Query.asking_recipientPage ..)).follows
  | spamSenders => exact (Program.Asking.sparesSeats (Query.asking_spamSenders ..)).follows
  | senderFeeds => exact (Program.Asking.sparesSeats (Query.asking_senderFeeds ..)).follows
  | history => exact (Program.Asking.sparesSeats (Query.asking_history ..)).follows
  | search => exact (Program.Asking.sparesSeats (Query.asking_search ..)).follows

/-- **The registry is right about who is connected** at every call of a course that begins with
an empty hub. -/
theorem Course.seated {s : Settings} {limit : Nat} {sink : Broadcast.Sink} {ds : List Deed}
    {h : Hub} (c : Course s (.empty limit sink) ds h) {us vs : List Turn} {t : Turn}
    (split : Deed.turnsOf ds = us ++ t :: vs) : t.before.Seated us := by
  obtain ⟨-, -, turns⟩ := @Course.follows s seating _ _ ds [] (fun _ _ _ => True) c
    (fun _ _ _ _ _ _ hp _ => hp.follows_seating) (.empty limit sink)
  exact (turns us t vs split).1

end NotificationRelay
