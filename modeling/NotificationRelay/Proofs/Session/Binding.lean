/-
# Sessions and their addresses

A client session is connected once, under one address, and its number is not given to another
session. The turns of a run tell which sessions were connected under which addresses
(`Turn.joined?`, `Turn.joined`), and `Hub.Bound` says that the registry files a session under
no other address than that. A call keeps this if the session that it connects is new
(`Call.bound_perform`); disconnecting sessions and whatever their readers do keeps it anyhow.
-/
import NotificationRelay.Proofs.Run.Calls

namespace NotificationRelay

/-- The client that a call has connected, and its address. -/
def Call.joined? : (c : Call) → c.Answer → Option (SessionId × String)
  | .registerClient address id, .ok () => some (id, address)
  | _, _ => none

/-- The client that was connected in a turn, and its address. -/
def Turn.joined? (t : Turn) : Option (SessionId × String) := t.call.joined? t.answer

/-- The clients connected in turns, with their addresses, in order. -/
def Turn.joined (ts : List Turn) : List (SessionId × String) := ts.filterMap Turn.joined?

theorem Turn.joined_append (ts us : List Turn) : joined (ts ++ us) = joined ts ++ joined us :=
  List.filterMap_append

theorem Turn.joined_singleton (t : Turn) : joined [t] = t.joined?.toList := by
  unfold joined
  cases ht : t.joined? <;> simp [ht]

namespace Registry

variable (r : Registry)

/-- A client that is found for addresses is filed under one of them. -/
theorem exists_of_mem_clientsFor {r : Registry} {addresses : List String} {id : SessionId}
    (hid : id ∈ r.clientsFor addresses) : ∃ a ∈ addresses, id ∈ r.at? a := by
  unfold clientsFor at hid
  exact List.mem_flatMap.1 (mem_firstMentions.1 (List.mem_filter.1 hid).1)

/-- A client that is admitted joins the members of its address, and of no other. -/
theorem at?_registerClient {address : String} {id : SessionId}
    (room : ¬ r.limit ≤ (r.at? address).length) (a : String) :
    (r.registerClient address id).2.at? a =
      if address = a then withMember id (r.at? address) else r.at? a := by
  unfold registerClient
  rw [if_neg room]
  simp only [at?, Table.get?_put]
  split <;> rfl

/-- A member was there before, or is the one that has joined. -/
theorem mem_withMember {id other : SessionId} {ids : List SessionId}
    (h : other ∈ withMember id ids) : other ∈ ids ∨ other = id := by
  unfold withMember at h
  split at h
  · exact .inl h
  · simpa using h

/-- Leaving an address adds no session to any. -/
theorem mem_of_mem_leave {address a : String} {id other : SessionId}
    {rows : List (String × List SessionId)}
    (h : other ∈ (Table.get? a (leave address id rows)).getD []) :
    other ∈ (Table.get? a rows).getD [] := by
  unfold leave at h
  cases hrow : Table.get? address rows with
  | none => simpa only [hrow] using h
  | some ids =>
    simp only [hrow] at h
    split at h
    · unfold Table.erase at h
      rw [Table.get?_filter a fun key => decide (key ≠ address)] at h
      split at h
      · exact h
      · cases h
    · rw [Table.get?_put] at h
      split at h
      · next same =>
        subst same
        rw [hrow]
        exact (List.mem_filter.1 h).1
      · exact h

/-- Nobody joins an address when a session leaves. -/
theorem mem_of_mem_unregister {a : String} {id other : SessionId}
    (h : other ∈ (r.unregister id).at? a) : other ∈ r.at? a := by
  unfold unregister at h
  split at h
  · exact h
  · exact mem_of_mem_leave h

end Registry

/-! ## What touches sessions -/

namespace Hub

variable (h : Hub)

/-- Opening a queue leaves the registry as it is. -/
theorem registry_openQueue (capacity : Nat) :
    (h.openQueue capacity).2.registry = h.registry := by
  unfold openQueue
  split <;> rfl

/-- Closing a queue leaves the registry as it is. -/
theorem registry_closeQueue (id : SessionId) : (h.closeQueue id).registry = h.registry := by
  unfold closeQueue
  split <;> rfl

/-- An offer leaves the registry as it is. -/
theorem registry_offer (id : SessionId) (e : Event) :
    (h.offer id e).2.registry = h.registry := by
  unfold offer
  split <;> rfl

/-- A reader leaves the registry as it is. -/
theorem registry_take (id : SessionId) (most : Nat) : (h.take id most).2.registry = h.registry := by
  unfold take
  split <;> rfl

/-- No queue is added when one is replaced. -/
theorem length_setQueue (id : SessionId) (queue : EventQueue) :
    (h.setQueue id queue).queues.length = h.queues.length :=
  List.length_set

/-- No queue is added when one is closed. -/
theorem length_closeQueue (id : SessionId) :
    (h.closeQueue id).queues.length = h.queues.length := by
  unfold closeQueue
  split
  · exact h.length_setQueue id _
  · rfl

/-- No queue is added by an offer. -/
theorem length_offer (id : SessionId) (e : Event) :
    (h.offer id e).2.queues.length = h.queues.length := by
  unfold offer
  split
  · exact h.length_setQueue id _
  · rfl

/-- No queue is added by a reader. -/
theorem length_take (id : SessionId) (most : Nat) :
    (h.take id most).2.queues.length = h.queues.length := by
  unfold take
  split
  · exact h.length_setQueue id _
  · rfl

/-- A session that is given a queue has the number of queues given before. -/
theorem of_openQueue {h : Hub} {capacity : Nat} {id : SessionId}
    (hid : (h.openQueue capacity).1 = some id) :
    id = h.queues.length ∧ id < (h.openQueue capacity).2.queues.length := by
  unfold openQueue at hid ⊢
  split at hid
  · cases hid
    refine ⟨rfl, ?_⟩
    rw [List.length_append]
    exact Nat.lt_succ_self _
  · cases hid

/-- No queue is lost when one is opened. -/
theorem length_openQueue (capacity : Nat) :
    h.queues.length ≤ (h.openQueue capacity).2.queues.length := by
  unfold openQueue
  split
  · rw [List.length_append]
    exact Nat.le_add_right _ _
  · exact Nat.le_refl _

/-- What happens outside leaves the registry as it is, and the number of queues. -/
theorem Outside.sessions_eq {h h' : Hub} (o : h.Outside h') :
    h'.registry = h.registry ∧ h'.queues.length = h.queues.length := by
  cases o with
  | read id most => exact ⟨h.registry_take id most, h.length_take id most⟩
  | leave id => exact ⟨h.registry_closeQueue id, h.length_closeQueue id⟩
  | turn => exact ⟨rfl, rfl⟩

/-- The registry is out of reach from outside. -/
theorem registry_eq_of_outside {h h' : Hub} (o : Relation.ReflTransGen Outside h h') :
    h'.registry = h.registry := by
  induction o with
  | refl => rfl
  | tail _ o ih => exact o.sessions_eq.1.trans ih

end Hub

/-- What the store is asked leaves sessions alone. -/
theorem Outages.sessions_guard {α : Type} (outages : Outages) (c : Call) (h : Hub)
    (operation : Stored α × Store) :
    (outages.guard c h operation).2.registry = h.registry ∧
      (outages.guard c h operation).2.queues = h.queues := by
  unfold guard
  split <;> exact ⟨rfl, rfl⟩

/-- A call to the store touches no session. -/
theorem Call.sessions_perform {c : Call} (hc : c.asksStore = true) (outages : Outages) (h : Hub) :
    (c.perform outages h).2.registry = h.registry ∧ (c.perform outages h).2.queues = h.queues := by
  cases c with
  | cached | remember | openQueue | closeQueue | registerClient | registerNode | unregister
  | clientsFor | nodes | offer | post | wake | note => cases hc
  | _ => exact outages.sessions_guard _ h _

/-! ## Sessions are filed under their own addresses -/

/-- The registry files a client only under the address with which it has joined, once; and only
sessions that have a queue have joined. -/
structure Hub.Bound (joined : List (SessionId × String)) (h : Hub) : Prop where
  opened : ∀ e ∈ joined, e.1 < h.queues.length
  alone : ∀ id a a', (id, a) ∈ joined → (id, a') ∈ joined → a = a'
  filed : ∀ a, ∀ id ∈ h.registry.at? a, (id, a) ∈ joined

namespace Hub.Bound

variable {joined : List (SessionId × String)} {h : Hub}

/-- The empty hub binds nobody. -/
theorem empty (limit : Nat) (sink : Broadcast.Sink) : Bound [] (.empty limit sink) where
  opened _ he := by cases he
  alone _ _ _ ha := by cases ha
  filed _ _ hid := by cases hid

/-- Sessions stay bound while the registry is the same and no queue is lost. -/
theorem of_same (hb : Bound joined h) {h' : Hub} (registry : h'.registry = h.registry)
    (queues : h.queues.length ≤ h'.queues.length) : Bound joined h' where
  opened e he := Nat.lt_of_lt_of_le (hb.opened e he) queues
  alone := hb.alone
  filed := by rw [registry]; exact hb.filed

/-- A session that is found for addresses has joined with one of them. -/
theorem of_mem_clientsFor (hb : Bound joined h) {addresses : List String} {id : SessionId}
    (hid : id ∈ h.registry.clientsFor addresses) : ∃ a ∈ addresses, (id, a) ∈ joined := by
  obtain ⟨a, ha, hat⟩ := Registry.exists_of_mem_clientsFor hid
  exact ⟨a, ha, hb.filed a id hat⟩

/-- A session with a number that is about to be given is new. -/
theorem fresh (hb : Bound joined h) {id : SessionId} (hid : h.queues.length ≤ id) (a : String) :
    (id, a) ∉ joined := fun hmem => Nat.not_lt.2 hid (hb.opened _ hmem)

/-- A session that has not joined before, and has a queue, is bound when it registers. -/
theorem register (hb : Bound joined h) {address : String} {id : SessionId}
    (new : ∀ a, (id, a) ∉ joined) (there : id < h.queues.length)
    (room : ¬ h.registry.limit ≤ (h.registry.at? address).length) :
    Bound (joined ++ [(id, address)])
      { h with registry := (h.registry.registerClient address id).2 } where
  opened e he := by
    rcases List.mem_append.1 he with he | he
    · exact hb.opened e he
    · rw [List.mem_singleton.1 he]
      exact there
  alone i a a' ha ha' := by
    rw [List.mem_append, List.mem_singleton, Prod.mk.injEq] at ha ha'
    rcases ha with ha | ⟨rfl, rfl⟩ <;> rcases ha' with ha' | ⟨hi, rfl⟩
    · exact hb.alone i a a' ha ha'
    · exact absurd (hi ▸ ha) (new a)
    · exact absurd ha' (new a')
    · rfl
  filed a i hi := by
    rw [List.mem_append, List.mem_singleton, Prod.mk.injEq]
    replace hi : i ∈ (h.registry.registerClient address id).2.at? a := hi
    rw [h.registry.at?_registerClient room] at hi
    split at hi
    · next same =>
      subst same
      rcases Registry.mem_withMember hi with hi | rfl
      · exact .inl (hb.filed _ i hi)
      · exact .inr ⟨rfl, rfl⟩
    · exact .inl (hb.filed a i hi)

end Hub.Bound

/-- **Every call keeps sessions bound** to the addresses with which they joined, if the client
that it connects is new and has a queue. -/
theorem Call.bound_perform (c : Call) (outages : Outages) {h : Hub}
    {joined : List (SessionId × String)} (hb : h.Bound joined)
    (new : ∀ a id, c = .registerClient a id →
      (∀ a', (id, a') ∉ joined) ∧ id < h.queues.length) :
    (c.perform outages h).2.Bound (joined ++ (c.turn outages h).joined?.toList) := by
  have silent : ∀ {h' : Hub}, (c.perform outages h).2 = h' → (c.turn outages h).joined? = none →
      h'.Bound joined →
        (c.perform outages h).2.Bound (joined ++ (c.turn outages h).joined?.toList) := by
    rintro h' rfl hnone hb'
    rwa [hnone, Option.toList_none, List.append_nil]
  have asked : c.asksStore = true → (c.turn outages h).joined? = none →
      (c.perform outages h).2.Bound (joined ++ (c.turn outages h).joined?.toList) := by
    intro hc hnone
    obtain ⟨registry, queues⟩ := sessions_perform hc outages h
    exact silent rfl hnone (hb.of_same registry (Nat.le_of_eq (congrArg _ queues.symm)))
  cases c with
  | registerClient address id =>
    obtain ⟨fresh, there⟩ := new address id rfl
    by_cases room : h.registry.limit ≤ (h.registry.at? address).length
    · have refused : h.registry.registerClient address id =
          (.error (.tooManyConnections address h.registry.limit), h.registry) := if_pos room
      have same : (perform outages (.registerClient address id) h).2 = h := by
        simp only [perform, refused]
      refine silent same ?_ hb
      simp only [Turn.joined?, turn, perform, refused]
      rfl
    · have taken : (turn (.registerClient address id) outages h).joined? = some (id, address) := by
        simp only [Turn.joined?, turn, perform, Registry.registerClient, if_neg room]
        rfl
      rw [taken]
      exact hb.register fresh there room
  | unregister id =>
    exact silent rfl rfl { hb with
      filed := fun a i hi => hb.filed a i (h.registry.mem_of_mem_unregister hi) }
  | openQueue capacity =>
    exact silent rfl rfl (hb.of_same (h.registry_openQueue capacity) (h.length_openQueue capacity))
  | closeQueue id =>
    refine silent rfl rfl (hb.of_same (h.registry_closeQueue id) ?_)
    exact Nat.le_of_eq (h.length_closeQueue id).symm
  | offer id e =>
    refine silent rfl rfl (hb.of_same (h.registry_offer id e) ?_)
    exact Nat.le_of_eq (h.length_offer id e).symm
  | cached | remember | registerNode | clientsFor | nodes | post | wake | note =>
    exact silent rfl rfl { hb with }
  | _ => exact asked rfl rfl

end NotificationRelay
