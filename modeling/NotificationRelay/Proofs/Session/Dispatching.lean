/-
# Who is reached by a dispatch

A dispatch finds its clients through the table of addresses, drops those that it has found before
and looks the rest up once more; the recipients of a feed may repeat addresses or name some under
which nobody is connected. Wherever sessions have come and gone, the result is that of a scan of
everybody who is connected (`Registry.Seats.clientsFor_perm`): each client at a recipient and each
delivery node is offered one event, and nobody else any.

Offering an event to sessions that are listed once each is the same as offering it to each of them
alone (`Dispatch.run_offerAll`): whether a session accepts depends on its own queue
(`Hub.accepted_offer`). `Dispatch.dispatch_exact` puts both together.
-/
import NotificationRelay.Proofs.Session.Membership
import NotificationRelay.Proofs.Session.Offering

namespace NotificationRelay

/-! ## Offering an event to several sessions -/

namespace Hub

variable {h : Hub} {j k : SessionId} {ks : List SessionId} {e : Event}

/-- A session accepts an event if there is room in its queue. -/
theorem accepted_offer (h : Hub) (k : SessionId) (e : Event) :
    Dispatch.accepted (h.offer k e).1 = h.hasRoom k := by
  unfold offer hasRoom
  cases h.queues[k]? with
  | none => rfl
  | some q =>
    show Dispatch.accepted (q.offer e).1 = _
    unfold EventQueue.offer
    split
    · next closed => simp [Dispatch.accepted, closed]
    · split <;> simp_all [Dispatch.accepted]

/-- Whether a queue has room is seen from the queue. -/
theorem hasRoom_congr {h' : Hub} (same : h'.queues[k]? = h.queues[k]?) :
    h'.hasRoom k = h.hasRoom k := by
  unfold hasRoom
  rw [same]

/-- Whether a session accepts depends on its own queue. -/
theorem offer_fst_congr {h' : Hub} (same : h'.queues[k]? = h.queues[k]?) (e : Event) :
    (h'.offer k e).1 = (h.offer k e).1 := by
  unfold offer
  rw [same]
  split <;> rfl

/-- What an offer does to the queue of the session. -/
theorem queue?_offer (h : Hub) (k : SessionId) (e : Event) :
    (h.offer k e).2.queues[k]? = h.queues[k]?.map fun q => (q.offer e).2 := by
  unfold offer
  cases hq : h.queues[k]? with
  | none => exact hq
  | some q => exact queue?_setQueue hq _

/-- The hub after an event has been offered to sessions one after another. -/
def offerEach (h : Hub) (e : Event) (ks : List SessionId) : Hub :=
  ks.foldl (fun h k => (h.offer k e).2) h

/-- Each of the sessions has been offered the event, and nothing has changed for the others. -/
theorem queue?_offerEach (distinct : ks.Nodup) (h : Hub) (e : Event) (k : SessionId) :
    (h.offerEach e ks).queues[k]? =
      if k ∈ ks then h.queues[k]?.map fun q => (q.offer e).2 else h.queues[k]? := by
  induction ks generalizing h with
  | nil => rfl
  | cons j ks ih =>
    obtain ⟨once, distinct⟩ := List.nodup_cons.1 distinct
    show ((h.offer j e).2.offerEach e ks).queues[k]? = _
    rw [ih distinct]
    by_cases same : k = j
    · subst same
      rw [if_neg once, if_pos List.mem_cons_self, queue?_offer]
    · simp [queue?_offer_of_ne (Ne.symm same), same]

/-- Offers change queues only. -/
theorem offerEach_eq (h : Hub) (e : Event) (ks : List SessionId) :
    h.offerEach e ks = { h with queues := (h.offerEach e ks).queues } := by
  have offer : ∀ (h : Hub) (k : SessionId) queues,
      { (h.offer k e).2 with queues := queues } = { h with queues := queues } := fun h k _ => by
    unfold offer
    split <;> rfl
  induction ks generalizing h with
  | nil => rfl
  | cons j ks ih => exact (ih (h.offer j e).2).trans (offer h j _)

end Hub

/-- Whether a call was an offer that a session accepted. -/
def Turn.offerAccepted : Turn → Bool
  | ⟨_, .offer _ _, answer, _⟩ => Dispatch.accepted answer
  | _ => false

namespace Dispatch

variable {h : Hub} {ks : List SessionId} {e : Event}

/-- **Sessions that are listed once answer as each would alone.** -/
theorem run_offers (distinct : ks.Nodup) (outages : Outages) (h : Hub) (e : Event) :
    (Program.forEach ks fun k => Program.perform (.offer k e)).run outages h =
      (ks.map fun k => (h.offer k e).1, h.offerEach e ks) := by
  induction ks generalizing h with
  | nil => rfl
  | cons j ks ih =>
    obtain ⟨once, distinct⟩ := List.nodup_cons.1 distinct
    have others : ks.map (fun k => ((h.offer j e).2.offer k e).1) =
        ks.map fun k => (h.offer k e).1 :=
      List.map_congr_left fun k hk => Hub.offer_fst_congr
        (Hub.queue?_offer_of_ne (fun same : j = k => once (same ▸ hk)) e) e
    show ((Program.forEach ks fun k => Program.perform (.offer k e)) >>= fun answers =>
      Program.done ((h.offer j e).1 :: answers)).run outages (h.offer j e).2 = _
    rw [Program.run_bind, ih distinct, others]
    rfl

/-- An event that is offered to sessions reaches those whose queues have room. -/
theorem run_offerAll (distinct : ks.Nodup) (outages : Outages) (h : Hub) (e : Event) :
    (offerAll ks e).run outages h = (ks.countP h.hasRoom, h.offerEach e ks) := by
  unfold offerAll
  rw [Program.run_bind, run_offers distinct]
  show ((ks.map fun k => (h.offer k e).1).countP accepted, h.offerEach e ks) = _
  rw [List.countP_map]
  congr 1
  exact List.countP_congr fun k _ => by simp [h.accepted_offer k e]

/-- Each of the sessions is asked while its queue is as it was before any was asked. -/
theorem turns_offers (distinct : ks.Nodup) (outages : Outages) (h : Hub) (e : Event) {u : Turn}
    (hu : u ∈ (Program.forEach ks fun k => Program.perform (.offer k e)).turns outages h) :
    ∃ k ∈ ks, ∃ h', u = (Call.offer k e).turn outages h' ∧ h'.queues[k]? = h.queues[k]? := by
  induction ks generalizing h with
  | nil => cases hu
  | cons j ks ih =>
    obtain ⟨once, distinct⟩ := List.nodup_cons.1 distinct
    replace hu : u ∈ (Call.offer j e).turn outages h ::
      ((Program.forEach ks fun k => Program.perform (.offer k e)).bind fun answers =>
        Program.done ((h.offer j e).1 :: answers)).turns outages (h.offer j e).2 := hu
    rw [Program.turns_bind] at hu
    rcases List.mem_cons.1 hu with rfl | hu
    · exact ⟨j, List.mem_cons_self, h, rfl, rfl⟩
    · obtain ⟨k, hk, h', rfl, same⟩ := ih distinct _ ((List.mem_append.1 hu).resolve_right nofun)
      refine ⟨k, List.mem_cons_of_mem _ hk, h', rfl, same.trans ?_⟩
      exact Hub.queue?_offer_of_ne (fun same : j = k => once (same ▸ hk)) e

/-- Sessions are offered an event one after another, each with its queue as it was. -/
theorem turns_offerAll (distinct : ks.Nodup) (outages : Outages) (h : Hub) (e : Event) {u : Turn}
    (hu : u ∈ (offerAll ks e).turns outages h) :
    ∃ k ∈ ks, ∃ h', u = (Call.offer k e).turn outages h' ∧ h'.queues[k]? = h.queues[k]? := by
  replace hu : u ∈ ((Program.forEach ks fun k => Program.perform (.offer k e)).bind fun answers =>
    Program.done (answers.countP accepted)).turns outages h := hu
  rw [Program.turns_bind] at hu
  exact turns_offers distinct outages h e ((List.mem_append.1 hu).resolve_right nofun)

end Dispatch

/-! ## The sessions that are found -/

/-- **The clients that are found are those of a scan** of everybody who is connected, each once. -/
theorem Registry.Seats.clientsFor_perm {seat : SessionId → Option Seat} {r : Registry}
    (hs : r.Seats seat) (ht : r.Tidy) (addresses : List String) :
    (r.clientsFor addresses).Perm
      ((r.clients.filter fun row => decide (row.2 ∈ addresses)).map Prod.fst) := by
  have once : ((r.clients.filter fun row => decide (row.2 ∈ addresses)).map Prod.fst).Nodup :=
    ht.clients.sublist (List.filter_sublist.map _)
  refine (List.perm_ext_iff_of_nodup (nodup_clientsFor r addresses) once).2 fun k => ?_
  rw [hs.mem_clientsFor, List.mem_map]
  refine ⟨fun ⟨a, ha, seated⟩ => ?_, fun ⟨row, hrow, hk⟩ => ?_⟩
  · exact ⟨(k, a), List.mem_filter.2 ⟨Table.mem_of_get? ((hs.clients k a).2 seated),
      decide_eq_true ha⟩, rfl⟩
  · obtain ⟨hrow, ha⟩ := List.mem_filter.1 hrow
    refine ⟨row.2, of_decide_eq_true ha, (hs.clients k row.2).1 ?_⟩
    exact Table.get?_of_mem ht.clients (hk ▸ hrow)

/-! ## A dispatch -/

/-- What a session is due of a feed that is dispatched with a payload: a client at one of the
recipients is told once, by the event for spam if the feed is spam, and so is a delivery node. -/
def Dispatch.due (f : Feed) (payload : Payload) : Option Seat → List Event
  | some (.client a) =>
    if a ∈ f.recipients then
      [if f.isSpam then .userSpamFeed (f.live payload) else .userFeed (f.live payload)]
    else []
  | some .node => [.liveFeed (f.delivery payload)]
  | none => []

/-- The queue after events have been offered to it, oldest first. -/
def EventQueue.offerAll (q : EventQueue) (es : List Event) : EventQueue :=
  es.foldl (fun q e => (q.offer e).2) q

/-- A feed has been dispatched to everybody to whom it is due and to nobody else. -/
structure Dispatch.Exact (seat : SessionId → Option Seat) (f : Feed) (payload : Payload) (h : Hub)
    (ts : List Turn) (report : Report) (after : Hub) : Prop where
  /-- Each session is offered what it is due, in full. -/
  offers : ∀ k, Turn.offersTo k ts = due f payload (seat k)
  /-- Nothing is done but finding sessions and offering them events. -/
  calls : ∀ u ∈ ts, u.call = .clientsFor f.recipients ∨ u.call = .nodes ∨
    ∃ k e, u.call = .offer k e
  /-- Whether a session accepts depends on its own queue. -/
  answers : ∀ u ∈ ts, ∀ k e, u.call = .offer k e → u.offerAccepted = h.hasRoom k
  /-- What becomes of a queue depends on this queue and on what its session is due. -/
  queues : ∀ k : SessionId,
    after.queues[k]? = h.queues[k]?.map fun q => q.offerAll (due f payload (seat k))
  /-- A client or a node has accepted the event if its own queue had room for it. -/
  clientsDelivered : report.clientsDelivered =
    h.registry.clients.countP fun row => decide (row.2 ∈ f.recipients) && h.hasRoom row.1
  nodesDelivered : report.nodesDelivered = h.registry.nodes.countP h.hasRoom
  /-- Each of the others has refused it. -/
  clients : report.clientsDelivered + report.clientsFailed =
    h.registry.clients.countP fun row => decide (row.2 ∈ f.recipients)
  nodes : report.nodesDelivered + report.nodesFailed = h.registry.nodes.length
  /-- The registry is as it was, and so is everything but the queues. -/
  rest : after = { h with queues := after.queues }

namespace Dispatch

variable {f : Feed} {payload : Payload}

/-- Found sessions are offered the feed, clients first. -/
theorem run_dispatch {r : Registry} (registry : h.registry = r) (distinct : r.nodes.Nodup)
    (outages : Outages) (f : Feed) (payload : Payload) :
    let clients := r.clientsFor f.recipients
    let told := h.offerEach (Event.forClient f payload) clients
    (dispatch f payload).run outages h =
      (⟨clients.countP h.hasRoom, clients.length - clients.countP h.hasRoom,
        r.nodes.countP told.hasRoom, r.nodes.length - r.nodes.countP told.hasRoom⟩,
        told.offerEach (Event.forNode f payload) r.nodes) := by
  intro clients told
  have once : clients.Nodup := Registry.Seats.nodup_clientsFor r f.recipients
  subst registry
  show (offerAll clients (Event.forClient f payload) >>= fun toClients =>
    offerAll h.registry.nodes (Event.forNode f payload) >>= fun toNodes =>
      (pure ⟨toClients, clients.length - toClients, toNodes, h.registry.nodes.length - toNodes⟩ :
        Program Report)).run outages h = _
  rw [Program.run_bind, run_offerAll once, Program.run_bind, run_offerAll distinct]
  rfl

section

variable {seat : SessionId → Option Seat} {r : Registry}

/-- Sessions are offered what they are due. -/
theorem offeredTo?_calls_eq_due (hs : r.Seats seat) (f : Feed) (payload : Payload)
    (k : SessionId) :
    (calls r f payload).filterMap (Call.offeredTo? k) = due f payload (seat k) := by
  simp only [calls, List.filterMap_cons, List.filterMap_append, Call.offeredTo?,
    Call.offeredTo?_offers, hs.count_clientsFor, hs.count_nodes]
  rcases seat k with _ | a | _
  · simp [due]
  · by_cases ha : a ∈ f.recipients <;> simp [due, ha, Event.forClient]
  · simp [due, Event.forNode]

/-- Two sorts of session are told of a feed, and nobody is of both. -/
theorem not_mem_clientsFor_of_mem_nodes (hs : r.Seats seat) {addresses : List String}
    {k : SessionId} (node : k ∈ r.nodes) : k ∉ r.clientsFor addresses := fun client => by
  obtain ⟨a, -, seated⟩ := hs.mem_clientsFor.1 client
  rw [(hs.nodes k).1 node] at seated
  cases seated

/-- The queue of a session after what it is due has been offered to it. -/
theorem queue?_told (hs : r.Seats seat) (h : Hub) (f : Feed) (payload : Payload) (k : SessionId) :
    ((h.offerEach (Event.forClient f payload) (r.clientsFor f.recipients)).offerEach
        (Event.forNode f payload) r.nodes).queues[k]? =
      h.queues[k]?.map fun q => q.offerAll (due f payload (seat k)) := by
  rw [Hub.queue?_offerEach hs.distinct,
    Hub.queue?_offerEach (Registry.Seats.nodup_clientsFor r f.recipients)]
  simp only [hs.mem_clientsFor, hs.nodes]
  rcases seat k with _ | a | _
  · simp [due, EventQueue.offerAll]
  · by_cases ha : a ∈ f.recipients <;> simp [due, EventQueue.offerAll, ha, Event.forClient]
  · simp [due, EventQueue.offerAll, Event.forNode]

/-- What clients have been offered takes no room from a delivery node. -/
theorem countP_nodes_told (hs : r.Seats seat) (h : Hub) (e : Event) (addresses : List String) :
    r.nodes.countP (h.offerEach e (r.clientsFor addresses)).hasRoom = r.nodes.countP h.hasRoom := by
  refine List.countP_congr fun k node => ?_
  have same := Hub.queue?_offerEach (Registry.Seats.nodup_clientsFor r addresses) h e k
  rw [if_neg (not_mem_clientsFor_of_mem_nodes hs node)] at same
  rw [Hub.hasRoom_congr same]

/-- Each of the offers is made while the queue of the session is as it was before the dispatch. -/
theorem turns_dispatch (hs : h.registry.Seats seat) (outages : Outages) (f : Feed)
    (payload : Payload) {u : Turn} (hu : u ∈ (dispatch f payload).turns outages h) :
    u.call = .clientsFor f.recipients ∨ u.call = .nodes ∨
      ∃ k e h', u = (Call.offer k e).turn outages h' ∧ h'.queues[k]? = h.queues[k]? := by
  have once := Registry.Seats.nodup_clientsFor h.registry f.recipients
  replace hu : u ∈ (Call.clientsFor f.recipients).turn outages h :: Call.nodes.turn outages h ::
    ((offerAll (h.registry.clientsFor f.recipients) (Event.forClient f payload)).bind
      fun toClients => (offerAll h.registry.nodes (Event.forNode f payload)).bind
        fun toNodes => Program.done (⟨toClients,
          (h.registry.clientsFor f.recipients).length - toClients, toNodes,
          h.registry.nodes.length - toNodes⟩ : Report)).turns outages h := hu
  rw [Program.turns_bind, Program.turns_bind, run_offerAll once] at hu
  simp only [List.mem_cons, List.mem_append] at hu
  rcases hu with rfl | rfl | client | node | ended
  · exact .inl rfl
  · exact .inr (.inl rfl)
  · obtain ⟨k, -, h', rfl, same⟩ := turns_offerAll once outages h _ client
    exact .inr (.inr ⟨k, _, h', rfl, same⟩)
  · obtain ⟨k, hk, h', rfl, same⟩ := turns_offerAll hs.distinct outages _ _ node
    refine .inr (.inr ⟨k, _, h', rfl, same.trans ?_⟩)
    rw [Hub.queue?_offerEach once, if_neg (not_mem_clientsFor_of_mem_nodes hs hk)]
  · cases ended

end

/-- **A dispatch reaches exactly the right sessions.** However sessions have come and gone before,
each connected only while it was not connected, and whatever addresses a feed lists: every client
at one of them is offered one event, every delivery node is, and nobody else is offered anything.
Whether an offer is accepted depends on the queue of this session only, and the report counts the
sessions that accepted and those that refused. The registry is left as it was. -/
theorem dispatch_exact {limit : Nat} {past : List (Registry.Op × Except SessionError Unit)}
    (arises : Registry.Arises limit past h.registry) (outages : Outages) (f : Feed)
    (payload : Payload) :
    Exact (Registry.seats past) f payload h ((dispatch f payload).turns outages h)
      ((dispatch f payload).run outages h).1 ((dispatch f payload).run outages h).2 := by
  have hs := arises.kept.seated
  have found := hs.clientsFor_perm arises.kept.tidy f.recipients
  have made := calls_of_dispatch (Program.runs_run outages (dispatch f payload) h)
  have ran := run_dispatch rfl hs.distinct outages f payload
  -- The addresses of clients are those of the table.
  have delivered : (h.registry.clientsFor f.recipients).countP h.hasRoom =
      h.registry.clients.countP fun row =>
        decide (row.2 ∈ f.recipients) && h.hasRoom row.1 := by
    rw [found.countP_eq, List.countP_map, List.countP_filter]
    simp only [Function.comp_apply, Bool.and_comm]
  have matching : (h.registry.clientsFor f.recipients).length =
      h.registry.clients.countP fun row => decide (row.2 ∈ f.recipients) := by
    rw [found.length_eq, List.length_map, List.countP_eq_length_filter]
  simp only [countP_nodes_told hs] at ran
  rw [ran]
  refine ⟨fun k => ?_, fun u hu => ?_, fun u hu k e offer => ?_, queue?_told hs h f payload,
    delivered, rfl, ?_, ?_, ?_⟩
  · rw [Turn.offersTo_eq, made, offeredTo?_calls_eq_due hs]
  · rcases turns_dispatch hs outages f payload hu with hc | hc | ⟨k, e, -, rfl, -⟩
    · exact .inl hc
    · exact .inr (.inl hc)
    · exact .inr (.inr ⟨k, e, rfl⟩)
  · rcases turns_dispatch hs outages f payload hu with hc | hc | ⟨j, e', h', rfl, same⟩
    · cases hc.symm.trans offer
    · cases hc.symm.trans offer
    · cases offer
      exact (h'.accepted_offer k e).trans (Hub.hasRoom_congr same)
  · rw [← matching]
    exact Nat.add_sub_cancel' List.countP_le_length
  · exact Nat.add_sub_cancel' List.countP_le_length
  · rw [Hub.offerEach_eq, Hub.offerEach_eq]

/-- Two clients are connected under one address and one under another, and the queue of the second
is full; a delivery node is connected, too. -/
def crowded : Hub :=
  { Hub.sample with
    registry := ((((Registry.empty 2).registerClient "a" 0).2.registerClient "a" 1).2.registerClient
      "b" 2).2.registerNode 3
    queues := [⟨1, [], false⟩, ⟨1, [.snapshot .empty], false⟩, ⟨1, [], false⟩, ⟨1, [], false⟩] }

/-- A feed lists the address twice, and one under which nobody is connected. -/
theorem dispatch_exact_of_fullQueue :
    let f := Feed.ofDraft 1 (.sample "p" ["a", "c", "a"] 5)
    let ts := (dispatch f f.enriched).turns .none crowded
    ∃ past, Registry.Arises 2 past crowded.registry ∧
      ((dispatch f f.enriched).run .none crowded).1 = ⟨1, 1, 1, 0⟩ ∧
      Turn.offersTo 1 ts = [.userFeed (f.live f.enriched)] ∧ Turn.offersTo 2 ts = [] ∧
      Exact (Registry.seats past) f f.enriched crowded ts
        ((dispatch f f.enriched).run .none crowded).1
        ((dispatch f f.enriched).run .none crowded).2 := by
  intro f ts
  have first : Registry.Arises 2 _ _ := .step (.client "a" 0) .empty fun _ _ => rfl
  have second := Registry.Arises.step (.client "a" 1) first fun k hk => by cases hk; rfl
  have third := Registry.Arises.step (.client "b" 2) second fun k hk => by cases hk; rfl
  have fourth := Registry.Arises.step (.node 3) third fun k hk => by cases hk; rfl
  have reached : Exact _ f f.enriched crowded ts _ _ := dispatch_exact fourth .none f f.enriched
  exact ⟨_, fourth, rfl, reached.offers 1, reached.offers 2, reached⟩

end Dispatch

end NotificationRelay
