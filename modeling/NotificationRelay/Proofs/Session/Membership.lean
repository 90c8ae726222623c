/-
# The registry through comings and goings

Sessions come and go in any order, and a client may be turned away in between. `Registry.Arises`
says which registries come about in this way, with a record of what was asked and answered, if a
session is connected only while it is not connected. From the record one reads who is connected
(`Registry.seats`); the tables say the same (`Registry.Seats`), hold no row that is not needed
(`Registry.Tidy`), and an address is at its limit exactly if as many clients sit there
(`Registry.length_at?`).

Every step keeps this (`Registry.Kept.perform`), and `Registry.Arises.admission_exact` says what it
comes to. A relay takes no other steps: at every call of a course the registry has come about in
this way (`Course.registered`).
-/
import Mathlib.Data.List.Perm.Subperm
import NotificationRelay.Proofs.Session.Roster

namespace NotificationRelay

/-! ## Tables with one row a key -/

namespace Table

variable {κ α : Type} [DecidableEq κ] {key : κ} {value : α} {rows : List (κ × α)}

/-- A value that is found in a table stands in one of its rows. -/
theorem mem_of_get? (h : get? key rows = some value) : (key, value) ∈ rows := by
  induction rows with
  | nil => cases h
  | cons row rest ih =>
    obtain ⟨k, v⟩ := row
    by_cases hk : k = key
    · subst hk
      simp only [get?, if_pos, Option.some.injEq] at h
      exact h ▸ List.mem_cons_self
    · simp only [get?, if_neg hk] at h
      exact List.mem_cons_of_mem _ (ih h)

/-- Where no key occurs twice the row of a key is the one that is found. -/
theorem get?_of_mem (one : (rows.map Prod.fst).Nodup) (h : (key, value) ∈ rows) :
    get? key rows = some value := by
  induction rows with
  | nil => cases h
  | cons row rest ih =>
    obtain ⟨k, v⟩ := row
    obtain ⟨fresh, one⟩ := List.nodup_cons.1 one
    unfold get?
    rcases List.mem_cons.1 h with same | h
    · obtain ⟨rfl, rfl⟩ := Prod.mk.inj same
      exact if_pos rfl
    · have other : k ≠ key := fun same => fresh (List.mem_map.2 ⟨_, h, same.symm⟩)
      rw [if_neg other]
      exact ih one h

/-- A row after a change is the new one, or was there before. -/
theorem mem_put {row : κ × α} (h : row ∈ put key value rows) :
    row = (key, value) ∨ row ∈ rows := by
  induction rows with
  | nil => exact .inl (List.mem_singleton.1 h)
  | cons first rest ih =>
    obtain ⟨k, v⟩ := first
    unfold put at h
    split at h <;> rcases List.mem_cons.1 h with rfl | h
    · exact .inl rfl
    · exact .inr (List.mem_cons_of_mem _ h)
    · exact .inr List.mem_cons_self
    · exact (ih h).imp_right (List.mem_cons_of_mem _)

/-- A change of a table brings no key twice. -/
theorem nodup_keys_put (one : (rows.map Prod.fst).Nodup) (key : κ) (value : α) :
    ((put key value rows).map Prod.fst).Nodup := by
  induction rows with
  | nil => exact List.pairwise_singleton _ key
  | cons first rest ih =>
    obtain ⟨k, v⟩ := first
    obtain ⟨fresh, one⟩ := List.nodup_cons.1 one
    unfold put
    split
    · next same => exact List.nodup_cons.2 ⟨same ▸ fresh, one⟩
    · next other =>
      refine List.nodup_cons.2 ⟨fun there => ?_, ih one⟩
      obtain ⟨row, hrow, hk⟩ := List.mem_map.1 there
      rcases mem_put hrow with rfl | hrow
      · exact other hk.symm
      · exact fresh (List.mem_map.2 ⟨row, hrow, hk⟩)

/-- Erasing a key brings no other twice. -/
theorem nodup_keys_erase (one : (rows.map Prod.fst).Nodup) (key : κ) :
    ((erase key rows).map Prod.fst).Nodup :=
  one.sublist (List.filter_sublist.map _)

end Table

namespace Registry

/-! ## No row that is not needed -/

/-- Each session and each address has one row at most, and an address has one only if somebody is
filed under it, each session once. -/
structure Tidy (r : Registry) : Prop where
  clients : (r.clients.map Prod.fst).Nodup
  addresses : (r.byAddress.map Prod.fst).Nodup
  occupied : ∀ row ∈ r.byAddress, row.2 ≠ [] ∧ row.2.Nodup

/-- The number of clients that are connected under an address. -/
def population (r : Registry) (address : String) : Nat :=
  r.clients.countP fun row => decide (row.2 = address)

/-- A session that joins is listed once. -/
theorem nodup_withMember {k : SessionId} {ks : List SessionId} (h : ks.Nodup) :
    (withMember k ks).Nodup := by
  unfold withMember
  split
  · exact h
  · next new =>
    exact List.nodup_append.2 ⟨h, List.pairwise_singleton _ k, fun j hj i hi same =>
      new (List.mem_singleton.1 hi ▸ same ▸ hj)⟩

namespace Tidy

variable {r : Registry}

/-- The empty registry is tidy. -/
theorem empty (limit : Nat) : Tidy (.empty limit) where
  clients := .nil
  addresses := .nil
  occupied _ hrow := absurd hrow List.not_mem_nil

/-- In a tidy registry no session is listed twice under an address. -/
theorem nodup_at? (ht : r.Tidy) (address : String) : (r.at? address).Nodup := by
  unfold at?
  cases hrow : Table.get? address r.byAddress with
  | none => exact .nil
  | some ks => exact (ht.occupied _ (Table.mem_of_get? hrow)).2

/-- A registry stays tidy when a client registers. -/
theorem registerClient (ht : r.Tidy) (address : String) (k : SessionId) :
    (r.registerClient address k).2.Tidy := by
  unfold Registry.registerClient
  split
  · exact ht
  · refine ⟨Table.nodup_keys_put ht.clients k address, Table.nodup_keys_put ht.addresses _ _,
      fun row hrow => ?_⟩
    rcases Table.mem_put hrow with rfl | hrow
    · have here : k ∈ withMember k (r.at? address) := mem_withMember_iff.2 (.inr rfl)
      exact ⟨List.ne_nil_of_mem here, nodup_withMember (ht.nodup_at? address)⟩
    · exact ht.occupied row hrow

/-- When a session leaves an address no address occurs twice, none is left without members, and no
member is listed twice. -/
theorem leave {rows : List (String × List SessionId)} (one : (rows.map Prod.fst).Nodup)
    (occupied : ∀ row ∈ rows, row.2 ≠ [] ∧ row.2.Nodup) (address : String) (k : SessionId) :
    ((Registry.leave address k rows).map Prod.fst).Nodup ∧
      ∀ row ∈ Registry.leave address k rows, row.2 ≠ [] ∧ row.2.Nodup := by
  unfold Registry.leave
  cases hrow : Table.get? address rows with
  | none => exact ⟨one, occupied⟩
  | some ks =>
    dsimp only
    split
    · exact ⟨Table.nodup_keys_erase one address,
        fun row hrow => occupied row (List.mem_filter.1 hrow).1⟩
    · next others =>
      refine ⟨Table.nodup_keys_put one _ _, fun row hrow' => ?_⟩
      rcases Table.mem_put hrow' with rfl | hrow'
      · exact ⟨fun none => others (List.isEmpty_iff.2 none),
          (occupied _ (Table.mem_of_get? hrow)).2.filter _⟩
      · exact occupied row hrow'

/-- A registry stays tidy when a session leaves. -/
theorem unregister (ht : r.Tidy) (k : SessionId) : (r.unregister k).Tidy := by
  unfold Registry.unregister
  cases Table.get? k r.clients with
  | none => exact { ht with }
  | some address =>
    obtain ⟨addresses, occupied⟩ := leave ht.addresses ht.occupied address k
    exact ⟨Table.nodup_keys_erase ht.clients k, addresses, occupied⟩

end Tidy

/-- As many sessions are filed under an address as clients are connected there. -/
theorem length_at? {seat : SessionId → Option Seat} {r : Registry} (hs : r.Seats seat)
    (ht : r.Tidy) (address : String) : (r.at? address).length = r.population address := by
  let there := r.clients.filter fun row => decide (row.2 = address)
  have once : (there.map Prod.fst).Nodup := ht.clients.sublist (List.filter_sublist.map _)
  have same : (r.at? address).Perm (there.map Prod.fst) := by
    refine (List.perm_ext_iff_of_nodup (ht.nodup_at? address) once).2 fun k => ?_
    rw [hs.filed, ← hs.clients, List.mem_map]
    refine ⟨fun found => ?_, fun ⟨row, hrow, hk⟩ => ?_⟩
    · exact ⟨_, List.mem_filter.2 ⟨Table.mem_of_get? found, decide_eq_true rfl⟩, rfl⟩
    · obtain ⟨hrow, here⟩ := List.mem_filter.1 hrow
      refine Table.get?_of_mem ht.clients ?_
      rwa [← hk, ← of_decide_eq_true here]
  rw [same.length_eq, List.length_map, population, List.countP_eq_length_filter]

/-! ## Steps -/

/-- What changes a registry. -/
inductive Op where
  /-- Connect a client of an address. -/
  | client (address : String) (id : SessionId)
  /-- Connect a delivery node. -/
  | node (id : SessionId)
  /-- Disconnect a session. -/
  | leave (id : SessionId)

namespace Op

/-- The answer to a step, and the registry after it. Only a client may be turned away. -/
def perform (r : Registry) : Op → Except SessionError Unit × Registry
  | .client address k => r.registerClient address k
  | .node k => (.ok (), r.registerNode k)
  | .leave k => (.ok (), r.unregister k)

/-- The session that a step is to connect. -/
def connects? : Op → Option SessionId
  | .client _ k => some k
  | .node k => some k
  | .leave _ => none

/-- The seats after a step that was answered. -/
def reseat (seat : SessionId → Option Seat) :
    Op → Except SessionError Unit → SessionId → Option Seat
  | .client address k, .ok () => Function.update seat k (some (.client address))
  | .client _ _, .error _ => seat
  | .node k, _ => Function.update seat k (some .node)
  | .leave k, _ => Function.update seat k none

end Op

/-- What each session stands for after steps with their answers, if it is connected. -/
def seats (past : List (Op × Except SessionError Unit)) : SessionId → Option Seat :=
  past.foldl (fun seat e => e.1.reseat seat e.2) fun _ => none

/-- A registry comes about by steps each of which connects a session only while it is not
connected. -/
inductive Arises (limit : Nat) : List (Op × Except SessionError Unit) → Registry → Prop
  | empty : Arises limit [] (.empty limit)
  | step {past : List (Op × Except SessionError Unit)} {r : Registry} (op : Op)
      (before : Arises limit past r) (new : ∀ k, op.connects? = some k → seats past k = none) :
      Arises limit (past ++ [(op, (op.perform r).1)]) (op.perform r).2

/-- The seats after one more operation are those that it leaves. -/
theorem seats_snoc (past : List (Op × Except SessionError Unit))
    (e : Op × Except SessionError Unit) : seats (past ++ [e]) = e.1.reseat (seats past) e.2 := by
  unfold seats
  rw [List.foldl_append]
  rfl

/-- The tables say who is connected, hold no row that is not needed, and no address is above its
limit. -/
structure Kept (limit : Nat) (seat : SessionId → Option Seat) (r : Registry) : Prop where
  capped : r.limit = limit
  seated : r.Seats seat
  tidy : r.Tidy
  bounded : ∀ address, (r.at? address).length ≤ limit

/-- One session more makes one member more at most. -/
theorem length_withMember_le (k : SessionId) (ks : List SessionId) :
    (withMember k ks).length ≤ ks.length + 1 := by
  unfold withMember
  split
  · exact Nat.le_succ _
  · exact Nat.le_of_eq List.length_append

namespace Kept

variable {limit : Nat} {seat : SessionId → Option Seat} {r : Registry} {k : SessionId}

/-- The empty registry keeps to any cap. -/
theorem empty (limit : Nat) : Kept limit (fun _ => none) (.empty limit) :=
  ⟨rfl, .empty limit, .empty limit, fun _ => Nat.zero_le limit⟩

/-- A client is turned away exactly if its address has as many clients as it may. -/
theorem refused_iff (hk : Kept limit seat r) (address : String) :
    r.limit ≤ (r.at? address).length ↔ limit ≤ r.population address := by
  rw [hk.capped, length_at? hk.seated hk.tidy]

/-- Where an address is full a client is refused, and nothing changes. -/
theorem registerClient_of_full (hk : Kept limit seat r) {address : String} (k : SessionId)
    (full : limit ≤ r.population address) :
    r.registerClient address k = (.error (.tooManyConnections address limit), r) := by
  rw [Registry.registerClient, if_pos ((hk.refused_iff address).2 full), hk.capped]

/-- Where an address has room a client is admitted. -/
theorem registerClient_fst_of_room (hk : Kept limit seat r) {address : String} (k : SessionId)
    (room : r.population address < limit) : (r.registerClient address k).1 = .ok () := by
  rw [Registry.registerClient, if_neg (mt (hk.refused_iff address).1 (Nat.not_le.2 room))]

/-- A client that is admitted takes its seat, and the cap is kept. -/
theorem client (hk : Kept limit seat r) (address : String) (new : seat k = none)
    (room : r.population address < limit) :
    Kept limit (Function.update seat k (some (.client address)))
      (r.registerClient address k).2 := by
  have free := mt (hk.refused_iff address).1 (Nat.not_le.2 room)
  refine ⟨?_, hk.seated.registerClient new free, hk.tidy.registerClient address k, fun a => ?_⟩
  · rw [Registry.registerClient, if_neg free]
    exact hk.capped
  · rw [r.at?_registerClient free]
    split
    · have longer := length_withMember_le k (r.at? address)
      rw [length_at? hk.seated hk.tidy] at longer
      exact Nat.le_trans longer room
    · exact hk.bounded a

/-- A session that leaves is taken out of the address under which it is filed, and nobody else
is. -/
theorem mem_at?_unregister (hk : Kept limit seat r) (k j : SessionId) (address : String) :
    j ∈ (r.unregister k).at? address ↔ j ∈ r.at? address ∧ j ≠ k := by
  rw [(hk.seated.unregister k).filed, hk.seated.filed]
  by_cases hj : j = k
  · subst hj
    simp
  · rw [Function.update_of_ne hj, and_iff_left hj]

/-- A session that leaves frees its seat, and the cap is kept. -/
theorem leave (hk : Kept limit seat r) (k : SessionId) :
    Kept limit (Function.update seat k none) (r.unregister k) := by
  have tidy := hk.tidy.unregister k
  refine ⟨?_, hk.seated.unregister k, tidy, fun a => ?_⟩
  · unfold Registry.unregister
    split <;> exact hk.capped
  · have fewer : (r.unregister k).at? a ⊆ r.at? a := fun j hj =>
      ((hk.mem_at?_unregister k j a).1 hj).1
    exact Nat.le_trans ((tidy.nodup_at? a).subperm fewer).length_le (hk.bounded a)

/-- **Every step keeps the registry right**, if a session that it connects is not connected. -/
theorem perform (hk : Kept limit seat r) (op : Op)
    (new : ∀ k, op.connects? = some k → seat k = none) :
    Kept limit (op.reseat seat (op.perform r).1) (op.perform r).2 := by
  cases op with
  | client address k =>
    by_cases full : limit ≤ r.population address
    · rw [Op.perform, hk.registerClient_of_full k full]
      exact hk
    · have room := Nat.not_le.1 full
      rw [Op.perform, hk.registerClient_fst_of_room k room]
      exact hk.client address (new k rfl) room
  | node k =>
    exact ⟨hk.capped, hk.seated.registerNode (new k rfl), { hk.tidy with }, hk.bounded⟩
  | leave k => exact hk.leave k

end Kept

/-- However a registry has come about, its tables agree and its cap is kept. -/
theorem Arises.kept {limit : Nat} {past : List (Op × Except SessionError Unit)} {r : Registry}
    (h : Arises limit past r) : Kept limit (seats past) r := by
  induction h with
  | empty => exact .empty limit
  | step op _ new ih =>
    rw [seats_snoc]
    exact ih.perform op new

/-- A session that is not connected is in none of the tables, so that nothing is left to be
taken out. -/
theorem unregister_of_unseated {seat : SessionId → Option Seat} {r : Registry} (hs : r.Seats seat)
    {k : SessionId} (out : seat k = none) : r.unregister k = r := by
  have client : Table.get? k r.clients = none := by
    refine Option.eq_none_iff_forall_ne_some.2 fun a ha => ?_
    rw [(hs.clients k a).1 ha] at out
    cases out
  have nodes : r.nodes.filter (fun n => decide (n ≠ k)) = r.nodes := by
    refine List.filter_eq_self.2 fun n hn => decide_eq_true ?_
    rintro rfl
    rw [(hs.nodes n).1 hn] at out
    cases out
  unfold Registry.unregister
  rw [client, nodes]

/-- **The registry is exact, and admits exactly up to the limit.** However sessions have come and
gone, each connected only while it was not connected: the table of clients and the list of nodes
say who is connected as what; the table of addresses is the inverse of the table of clients, with
one row an address and none that is empty; no address has more clients than the limit. A client is
admitted if and only if fewer clients are connected under its address than the limit, and turning
one away changes nothing. A delivery node is always added. Disconnecting a session takes out this
one and no other, and one that is not connected is ignored. -/
theorem Arises.admission_exact {limit : Nat} {past : List (Op × Except SessionError Unit)}
    {r : Registry} (h : Arises limit past r) :
    (∀ k a, Table.get? k r.clients = some a ↔ seats past k = some (.client a)) ∧
    (∀ k, k ∈ r.nodes ↔ seats past k = some .node) ∧
    (∀ k a, (∃ ks, Table.get? a r.byAddress = some ks ∧ k ∈ ks) ↔
      Table.get? k r.clients = some a) ∧
    r.Tidy ∧
    (∀ a, r.population a ≤ limit) ∧
    (∀ a k, ((r.registerClient a k).1 = .ok () ↔ r.population a < limit) ∧
      (limit ≤ r.population a →
        r.registerClient a k = (.error (.tooManyConnections a limit), r))) ∧
    (∀ k, seats past k = none → r.registerNode k = { r with nodes := r.nodes ++ [k] }) ∧
    (∀ k, (∀ j, Table.get? j (r.unregister k).clients =
          if j = k then none else Table.get? j r.clients) ∧
      (∀ j a, j ∈ (r.unregister k).at? a ↔ j ∈ r.at? a ∧ j ≠ k) ∧
      (∀ j, j ∈ (r.unregister k).nodes ↔ j ∈ r.nodes ∧ j ≠ k) ∧
      (seats past k = none → r.unregister k = r)) := by
  have hk := h.kept
  have hs := hk.seated
  refine ⟨hs.clients, hs.nodes, fun k a => ?_, hk.tidy, fun a => ?_,
    fun a k => ⟨⟨fun admitted => ?_, hk.registerClient_fst_of_room k⟩, hk.registerClient_of_full k⟩,
    fun k new => ?_, fun k => ⟨fun j => ?_, hk.mem_at?_unregister k, fun j => ?_,
    unregister_of_unseated hs⟩⟩
  · rw [hs.clients, ← hs.filed, at?]
    cases Table.get? a r.byAddress <;> simp
  · rw [← length_at? hs hk.tidy]
    exact hk.bounded a
  · by_contra full
    rw [hk.registerClient_of_full k (Nat.not_lt.1 full)] at admitted
    cases admitted
  · have out : k ∉ r.nodes := by simp [hs.nodes, new]
    rw [registerNode, withMember, if_neg out]
  · refine Option.ext fun a => ?_
    rw [(hs.unregister k).clients]
    by_cases hj : j = k
    · subst hj
      simp
    · rw [Function.update_of_ne hj, if_neg hj, hs.clients]
  · rw [(hs.unregister k).nodes, hs.nodes]
    by_cases hj : j = k
    · subst hj
      simp
    · rw [Function.update_of_ne hj, and_iff_left hj]

/-- Where one client may be connected under an address, a second one is turned away until the
first has left. -/
theorem Arises.admission_exact_of_one : ∃ past r, Arises 1 past r ∧ seats past 0 = none ∧
    seats past 1 = none ∧ r.population "a" = 0 ∧ seats past 2 = some .node ∧
    (r.registerClient "a" 3).1 = .ok () ∧ past.map Prod.snd =
      [.ok (), .error (.tooManyConnections "a" 1), .ok (), .ok ()] := by
  have first : Arises 1 _ _ := .step (.client "a" 0) .empty fun _ _ => rfl
  have second := Arises.step (.client "a" 1) first fun k hk => by cases hk; rfl
  have third := Arises.step (.node 2) second fun k hk => by cases hk; rfl
  have fourth := Arises.step (.leave 0) third nofun
  obtain ⟨-, -, -, -, -, admission, -⟩ := fourth.admission_exact
  exact ⟨_, _, fourth, rfl, rfl, rfl, rfl, (admission "a" 3).1.2 (by decide), rfl⟩

end Registry

/-! ## The registry of a relay -/

/-- The registry has come about by steps after which the seats are those of the calls so far. -/
def Hub.Registered (limit : Nat) (past : List Turn) (h : Hub) : Prop :=
  ∃ steps, Registry.Arises limit steps h.registry ∧ Registry.seats steps = Turn.seats past

/-- **A call that concerns the registry is one step of it**, and others are none. -/
theorem Call.registered_perform (c : Call) (outages : Outages) {limit : Nat} {h : Hub}
    {past : List Turn} (hr : h.Registered limit past)
    (new : ∀ k, c.connects? = some k → Turn.seats past k = none) :
    (c.perform outages h).2.Registered limit (past ++ [c.turn outages h]) := by
  obtain ⟨steps, arises, seats⟩ := hr
  unfold Hub.Registered
  rw [← seats] at new
  rw [Turn.seats_snoc, ← seats]
  have other : c.reseats = false → (∀ seat a, c.reseat seat a = seat) →
      ∃ steps', Registry.Arises limit steps' (c.perform outages h).2.registry ∧
        Registry.seats steps' = c.reseat (Registry.seats steps) (c.turn outages h).answer :=
    fun hc still => ⟨steps, registry_perform hc outages h ▸ arises, (still _ _).symm⟩
  cases c with
  | registerClient address k =>
    refine ⟨_, arises.step (.client address k) new, (Registry.seats_snoc _ _).trans ?_⟩
    show Registry.Op.reseat _ _ (h.registry.registerClient address k).1 =
      Call.reseat _ (.registerClient address k) (h.registry.registerClient address k).1
    cases (h.registry.registerClient address k).1 <;> rfl
  | registerNode k => exact ⟨_, arises.step (.node k) new, Registry.seats_snoc _ _⟩
  | unregister k => exact ⟨_, arises.step (.leave k) nofun, Registry.seats_snoc _ _⟩
  | _ => exact other rfl fun _ _ => rfl

/-- **The registry of a relay arises by such steps**, at every call of a course that begins with
an empty hub and after it. -/
theorem Course.registered {s : Settings} {limit : Nat} {sink : Broadcast.Sink} {ds : List Deed}
    {h : Hub} (c : Course s (.empty limit sink) ds h) :
    h.Registered limit (Deed.turnsOf ds) ∧
      ∀ us t vs, Deed.turnsOf ds = us ++ t :: vs → t.before.Registered limit us := by
  let D := seating.knowing (fun past h => h.Registered limit past)
    (fun o ⟨steps, arises, seats⟩ => ⟨steps, o.sessions_eq.1 ▸ arises, seats⟩)
    fun c outages _ rule hr => c.registered_perform outages hr fun k hk => (rule k hk).1
  obtain ⟨-, last, turns⟩ := @Course.follows s D _ _ ds [] (fun _ _ _ => True) c
    (fun _ _ _ _ _ _ hp _ => hp.follows_seating.of_inv (fun _ _ => And.left) fun _ _ _ => id)
    ⟨.empty limit sink, [], .empty, rfl⟩
  exact ⟨last.2, fun us t vs split => (turns us t vs split).1.2⟩

end NotificationRelay
