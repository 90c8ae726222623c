/-
# Clients that move

A client may be connected again, for another address, while it is connected. `Registry.Ensues`
says which registries come about if such steps are allowed. The table of clients then knows the
latest address only (`Registry.latest`), but nothing takes the client out of the address that it
has moved away from: it holds a slot of every address for which it was admitted and from which it
has not been disconnected since (`Registry.Holds`).

`Registry.Ensues.slots_exact` says what this comes to. A client is found under all its slots, as
long as it is connected at all; disconnecting it gives back the slot of its latest address only;
and an address counts its stray slots as if they were clients. A client that has never moved holds
no slot but that of its address.
-/
import Mathlib.Data.List.Induction
import NotificationRelay.Proofs.Session.Membership

namespace NotificationRelay
namespace Registry

/-- What was asked of a registry and how it answered, in order. -/
abbrev Log := List (Op × Except SessionError Unit)

/-- A registry comes about by any steps, also by such that connect a session once more. -/
inductive Ensues (limit : Nat) : Log → Registry → Prop
  | empty : Ensues limit [] (.empty limit)
  | step {past : Log} {r : Registry} (op : Op) (before : Ensues limit past r) :
      Ensues limit (past ++ [(op, (op.perform r).1)]) (op.perform r).2

/-! ## What the log says -/

/-- The addresses of the clients after a step that was answered. -/
def Op.rebind (address : SessionId → Option String) :
    Op → Except SessionError Unit → SessionId → Option String
  | .client a k, .ok () => Function.update address k (some a)
  | .leave k, _ => Function.update address k none
  | _, _ => address

/-- The address for which each client was admitted last, if it is connected. -/
def latest (past : Log) : SessionId → Option String :=
  past.foldl (fun address e => e.1.rebind address e.2) fun _ => none

/-- A session holds a slot of an address: it was admitted there, and whenever it was disconnected
since, that was not its latest address. -/
def Holds (past : Log) (k : SessionId) (a : String) : Prop :=
  ∃ us vs, past = us ++ (.client a k, .ok ()) :: vs ∧
    ∀ xs e ys, vs = xs ++ (.leave k, e) :: ys →
      latest (us ++ (.client a k, .ok ()) :: xs) k ≠ some a

/-- A session has never been admitted for another address than the one it was connected for. -/
def Unmoved (past : Log) (k : SessionId) : Prop :=
  ∀ us b vs, past = us ++ (.client b k, .ok ()) :: vs → ∀ a, latest us k = some a → a = b

variable {past : Log} {k j : SessionId} {a : String}

/-- What a session stands for after one more operation. -/
theorem latest_snoc (past : Log) (e : Op × Except SessionError Unit) :
    latest (past ++ [e]) = e.1.rebind (latest past) e.2 := by
  unfold latest
  rw [List.foldl_append]
  rfl

/-- A slot is held by who has just been admitted, and by who held it and has not just been
disconnected from it. -/
theorem holds_snoc (e : Op × Except SessionError Unit) :
    Holds (past ++ [e]) k a ↔
      e = (.client a k, .ok ()) ∨ Holds past k a ∧ ¬ (e.1 = .leave k ∧ latest past k = some a) := by
  constructor
  · rintro ⟨us, vs, split, kept⟩
    rcases List.eq_nil_or_concat vs with rfl | ⟨ws, d, rfl⟩
    · obtain ⟨-, same⟩ := List.append_inj' split rfl
      exact .inl (List.singleton_inj.1 same)
    · rw [List.concat_eq_append, ← List.cons_append, ← List.append_assoc] at split
      obtain ⟨rfl, same⟩ := List.append_inj' split rfl
      obtain rfl := List.singleton_inj.1 same
      refine .inr ⟨⟨us, ws, rfl, fun xs d ys hws => kept xs d (ys ++ [e]) (by simp [hws])⟩, ?_⟩
      rintro ⟨leaves, here⟩
      refine kept ws e.2 [] ?_ here
      rw [List.concat_eq_append, ← leaves]
  · rintro (rfl | ⟨⟨us, vs, rfl, kept⟩, stays⟩)
    · exact ⟨past, [], rfl, fun xs d ys hnil => by simp at hnil⟩
    · refine ⟨us, vs ++ [e], by simp, fun xs d ys split => ?_⟩
      rcases List.eq_nil_or_concat ys with rfl | ⟨zs, f, rfl⟩
      · obtain ⟨rfl, same⟩ := List.append_inj' split rfl
        obtain rfl := List.singleton_inj.1 same
        exact fun here => stays ⟨rfl, here⟩
      · rw [List.concat_eq_append, ← List.cons_append, ← List.append_assoc] at split
        exact kept xs d zs (List.append_inj' split rfl).1

/-- Nobody holds a slot at first. -/
theorem not_holds_nil : ¬ Holds [] k a := by
  rintro ⟨us, vs, split, -⟩
  simp at split

/-- A connected client holds the slot of its latest address. -/
theorem holds_latest (here : latest past k = some a) : Holds past k a := by
  induction past using List.reverseRecOn with
  | nil => cases here
  | append_singleton past e ih =>
    rw [latest_snoc] at here
    rw [holds_snoc]
    obtain ⟨op, answer⟩ := e
    cases op with
    | client b j =>
      cases answer with
      | error _ => exact .inr ⟨ih here, fun ⟨leaves, _⟩ => nomatch leaves⟩
      | ok _ =>
        by_cases hj : k = j
        · subst hj
          rw [Op.rebind, Function.update_self, Option.some.injEq] at here
          exact .inl (here ▸ rfl)
        · rw [Op.rebind, Function.update_of_ne hj] at here
          exact .inr ⟨ih here, fun ⟨leaves, _⟩ => nomatch leaves⟩
    | node j => exact .inr ⟨ih here, fun ⟨leaves, _⟩ => nomatch leaves⟩
    | leave j =>
      by_cases hj : k = j
      · subst hj
        rw [Op.rebind, Function.update_self] at here
        cases here
      · rw [Op.rebind, Function.update_of_ne hj] at here
        exact .inr ⟨ih here, fun ⟨leaves, _⟩ => hj (Op.leave.inj leaves).symm⟩

/-- **A client that has never moved holds no slot but that of its address.** -/
theorem Unmoved.holds_iff (still : Unmoved past k) : Holds past k a ↔ latest past k = some a := by
  refine ⟨fun holds => ?_, holds_latest⟩
  induction past using List.reverseRecOn with
  | nil => exact (not_holds_nil holds).elim
  | append_singleton past e ih =>
    have earlier : Unmoved past k := fun us b vs split =>
      still us b (vs ++ [e]) (by rw [split, List.append_assoc, List.cons_append])
    rw [latest_snoc]
    rcases (holds_snoc e).1 holds with rfl | ⟨before, stays⟩
    · exact Function.update_self ..
    · have here := ih earlier before
      obtain ⟨op, answer⟩ := e
      cases op with
      | client b j =>
        cases answer with
        | error _ => exact here
        | ok _ =>
          by_cases hj : k = j
          · subst hj
            rw [Op.rebind, Function.update_self, still past b [] rfl a here]
          · rwa [Op.rebind, Function.update_of_ne hj]
      | node j => exact here
      | leave j =>
        have hj : k ≠ j := fun same => stays ⟨same ▸ rfl, here⟩
        rwa [Op.rebind, Function.update_of_ne hj]

/-! ## What the tables say -/

/-- The tables tell the latest address of each client and who holds a slot of each address, in
rows of which none is not needed. -/
structure Tracks (limit : Nat) (past : Log) (r : Registry) : Prop where
  capped : r.limit = limit
  clients : ∀ k, Table.get? k r.clients = latest past k
  slots : ∀ k a, k ∈ r.at? a ↔ Holds past k a
  tidy : r.Tidy

namespace Tracks

variable {limit : Nat} {r : Registry}

/-- The empty registry keeps track of nothing. -/
theorem empty (limit : Nat) : Tracks limit [] (.empty limit) where
  capped := rfl
  clients _ := rfl
  slots _ _ := ⟨nofun, fun holds => (not_holds_nil holds).elim⟩
  tidy := .empty limit

/-- A client that registers is kept track of, whether it is admitted or not. -/
theorem client (ht : Tracks limit past r) (b : String) (j : SessionId) :
    Tracks limit (past ++ [(.client b j, (r.registerClient b j).1)]) (r.registerClient b j).2 := by
  have tidy := ht.tidy.registerClient b j
  by_cases full : r.limit ≤ (r.at? b).length
  · have refused : r.registerClient b j = (.error (.tooManyConnections b r.limit), r) :=
      if_pos full
    rw [refused]
    refine ⟨ht.capped, fun k => ?_, fun k a => ?_, ht.tidy⟩
    · rw [latest_snoc]
      exact ht.clients k
    · rw [holds_snoc, ht.slots]
      simp
  · have admitted : (r.registerClient b j).1 = .ok () := by rw [registerClient, if_neg full]
    rw [admitted]
    refine ⟨?_, fun k => ?_, fun k a => ?_, tidy⟩
    · rw [registerClient, if_neg full]
      exact ht.capped
    · rw [latest_snoc, registerClient, if_neg full, Table.get?_put]
      by_cases hj : k = j
      · subst hj
        rw [if_pos rfl, Op.rebind, Function.update_self]
      · rw [if_neg (Ne.symm hj), Op.rebind, Function.update_of_ne hj, ht.clients]
    · rw [holds_snoc, r.at?_registerClient full, ← ht.slots]
      by_cases hb : b = a
      · subst hb
        simp [mem_withMember_iff, or_comm, eq_comm]
      · simp [hb]

/-- A delivery node that registers is kept track of. -/
theorem node (ht : Tracks limit past r) (j : SessionId) :
    Tracks limit (past ++ [(.node j, .ok ())]) (r.registerNode j) where
  capped := ht.capped
  clients k := by
    rw [latest_snoc]
    exact ht.clients k
  slots k a := by
    rw [holds_snoc, ← ht.slots]
    simp [registerNode, at?]
  tidy := { ht.tidy with }

/-- A session that leaves is kept track of. -/
theorem leave (ht : Tracks limit past r) (j : SessionId) :
    Tracks limit (past ++ [(.leave j, .ok ())]) (r.unregister j) where
  capped := by
    unfold Registry.unregister
    split <;> exact ht.capped
  clients k := by
    rw [latest_snoc, get?_unregister, ht.clients, Op.rebind, Function.update_apply]
  slots k a := by
    rw [holds_snoc, mem_at?_unregister, ht.slots, ht.clients]
    by_cases hj : k = j
    · subst hj
      simp
    · simp [hj, Ne.symm hj]
  tidy := ht.tidy.unregister j

/-- **Every step keeps the tables in line with the log.** -/
theorem perform (ht : Tracks limit past r) (op : Op) :
    Tracks limit (past ++ [(op, (op.perform r).1)]) (op.perform r).2 := by
  cases op with
  | client b j => exact ht.client b j
  | node j => exact ht.node j
  | leave j => exact ht.leave j

/-- The clients that are found are those that are connected and hold a slot at one of the addresses.
-/
theorem mem_clientsFor (ht : Tracks limit past r) {addresses : List String} :
    k ∈ r.clientsFor addresses ↔ (latest past k).isSome ∧ ∃ a ∈ addresses, Holds past k a := by
  unfold clientsFor
  rw [List.mem_filter, mem_firstMentions, List.mem_flatMap, ht.clients, and_comm]
  simp only [ht.slots]

end Tracks

/-- However a registry has come about, it keeps track of its past. -/
theorem Ensues.tracks {limit : Nat} {r : Registry} (h : Ensues limit past r) :
    Tracks limit past r := by
  induction h with
  | empty => exact .empty limit
  | step op _ ih => exact ih.perform op

/-! ## Stray slots -/

/-- The sessions that hold a slot of an address without being connected for it. -/
def strays (r : Registry) (address : String) : List SessionId :=
  (r.at? address).filter fun k => decide (Table.get? k r.clients ≠ some address)

namespace Tracks

variable {limit : Nat} {r : Registry}

/-- The strays of an address hold a slot there and stand for something else. -/
theorem mem_strays (ht : Tracks limit past r) :
    k ∈ r.strays a ↔ Holds past k a ∧ latest past k ≠ some a := by
  rw [strays, List.mem_filter, decide_eq_true_iff, ht.slots, ht.clients]

/-- An address has a slot for each client that is connected for it, and those that are stray. -/
theorem length_at? (ht : Tracks limit past r) (a : String) :
    (r.at? a).length = r.population a + (r.strays a).length := by
  let there := r.clients.filter fun row => decide (row.2 = a)
  let seated := (r.at? a).filter fun k => decide (Table.get? k r.clients = some a)
  have once : (there.map Prod.fst).Nodup := ht.tidy.clients.sublist (List.filter_sublist.map _)
  have same : seated.Perm (there.map Prod.fst) := by
    refine (List.perm_ext_iff_of_nodup ((ht.tidy.nodup_at? a).filter _) once).2 fun k => ?_
    rw [List.mem_filter, decide_eq_true_iff, List.mem_map]
    refine ⟨fun ⟨_, found⟩ => ?_, fun ⟨row, hrow, hk⟩ => ?_⟩
    · exact ⟨_, List.mem_filter.2 ⟨Table.mem_of_get? found, decide_eq_true rfl⟩, rfl⟩
    · obtain ⟨hrow, here⟩ := List.mem_filter.1 hrow
      have found : Table.get? k r.clients = some a := by
        refine Table.get?_of_mem ht.tidy.clients ?_
        rwa [← hk, ← of_decide_eq_true here]
      exact ⟨(ht.slots k a).2 (holds_latest ((ht.clients k).symm.trans found)), found⟩
  have counted : r.population a = seated.length := by
    rw [same.length_eq, List.length_map, population, List.countP_eq_length_filter]
  have split := List.length_eq_length_filter_add (l := r.at? a)
    fun k => decide (Table.get? k r.clients = some a)
  rw [split, counted, strays]
  simp only [ne_eq, decide_not]
  rfl

/-- A client is admitted if its address has room for it beside the strays. -/
theorem registerClient_fst (ht : Tracks limit past r) (a : String) (k : SessionId) :
    (r.registerClient a k).1 = if r.population a + (r.strays a).length < limit then .ok ()
      else .error (.tooManyConnections a limit) := by
  rw [registerClient, ht.capped, ht.length_at?]
  by_cases room : r.population a + (r.strays a).length < limit
  · rw [if_pos room, if_neg (Nat.not_le.2 room)]
  · rw [if_neg room, if_pos (Nat.not_lt.1 room)]

end Tracks

/-- **What an address counts and whom it finds, if clients move.** However sessions have come and
gone and been connected again: a client is found for addresses, once, if and only if it is
connected and holds a slot of one of them; it holds that of its latest address, and no other if it
has never moved. Disconnecting it takes it out of every search, but gives back the slot of its
latest address only. A client is admitted if and only if the clients that are connected for the
address and the strays, who hold a slot of it and are not connected for it, are together fewer
than the limit. -/
theorem Ensues.slots_exact {limit : Nat} {r : Registry} (h : Ensues limit past r) :
    (∀ k, Table.get? k r.clients = latest past k) ∧
    (∀ addresses k, k ∈ r.clientsFor addresses ↔
      (latest past k).isSome ∧ ∃ a ∈ addresses, Holds past k a) ∧
    (∀ addresses, (r.clientsFor addresses).Nodup) ∧
    (∀ k a, latest past k = some a → Holds past k a) ∧
    (∀ k, Unmoved past k → ∀ a, Holds past k a ↔ latest past k = some a) ∧
    (∀ k, (∀ addresses j, j ∈ (r.unregister k).clientsFor addresses ↔
        j ∈ r.clientsFor addresses ∧ j ≠ k) ∧
      (∀ a j, j ∈ (r.unregister k).at? a ↔
        Holds past j a ∧ ¬ (j = k ∧ latest past k = some a))) ∧
    (∀ a, (r.strays a).Nodup ∧
      (∀ k, k ∈ r.strays a ↔ Holds past k a ∧ latest past k ≠ some a) ∧
      ∀ k, (r.registerClient a k).1 = if r.population a + (r.strays a).length < limit then .ok ()
        else .error (.tooManyConnections a limit)) := by
  have ht := h.tracks
  refine ⟨ht.clients, fun _ _ => ht.mem_clientsFor, Seats.nodup_clientsFor r,
    fun _ _ => holds_latest, fun _ still _ => still.holds_iff, fun k => ⟨fun addresses j => ?_,
    fun a j => ?_⟩, fun a => ⟨(ht.tidy.nodup_at? a).filter _, fun _ => ht.mem_strays,
    ht.registerClient_fst a⟩⟩
  · unfold clientsFor
    rw [List.mem_filter, List.mem_filter, mem_firstMentions, mem_firstMentions, List.mem_flatMap,
      List.mem_flatMap, get?_unregister]
    by_cases hj : j = k
    · simp [hj]
    · simp [hj, mem_at?_unregister]
  · rw [mem_at?_unregister, ht.slots, ht.clients]

/-- A client that is connected for `"a"` and then for `"b"` is still found under `"a"`. -/
theorem Ensues.slots_exact_of_moved : ∃ past r, Ensues 2 past r ∧ latest past 0 = some "b" ∧
    r.clientsFor ["a"] = [0] ∧ r.strays "a" = [0] ∧
    (r.registerClient "a" 1).1 = .ok () ∧ 0 ∈ (r.unregister 0).at? "a" := by
  have first : Ensues 2 _ _ := .step (.client "a" 0) .empty
  have second := first.step (.client "b" 0)
  obtain ⟨-, -, -, -, -, leaving, admission⟩ := second.slots_exact
  obtain ⟨-, who, admitted⟩ := admission "a"
  obtain ⟨holds, moved⟩ := (who 0).1 (by decide)
  refine ⟨_, _, second, rfl, rfl, rfl, (admitted 1).trans (if_pos (by decide)), ?_⟩
  exact ((leaving 0).2 "a" 0).2 ⟨holds, fun ⟨_, here⟩ => moved here⟩

/-- With one slot an address, a client that is connected for `"a"` and then for `"b"` is found
under `"a"`, its latest address being `"b"`; and once it is disconnected, nobody is connected for
`"a"` and a client is turned away all the same. -/
theorem Ensues.slot_lost_of_moved : ∃ past r, Ensues 1 past r ∧
    past = [(.client "a" 0, .ok ()), (.client "b" 0, .ok ())] ∧ latest past 0 = some "b" ∧
    r.clientsFor ["a"] = [0] ∧ (r.unregister 0).clients = [] ∧
    (r.unregister 0).population "a" = 0 ∧
    ((r.unregister 0).registerClient "a" 1).1 = .error (.tooManyConnections "a" 1) := by
  have first : Ensues 1 _ _ := .step (.client "a" 0) .empty
  exact ⟨_, _, first.step (.client "b" 0), rfl, rfl, rfl, rfl, rfl, rfl⟩

/-! ## Sessions that are connected only while they are not -/

/-- A registry that has come about with fresh sessions has come about. -/
theorem Arises.ensues {limit : Nat} {r : Registry} (h : Arises limit past r) :
    Ensues limit past r := by
  induction h with
  | empty => exact .empty
  | step op _ _ ih => exact ih.step op

/-- If a session is connected only while it is not connected, none moves. -/
theorem Arises.unmoved {limit : Nat} {r : Registry} (h : Arises limit past r) (k : SessionId) :
    Unmoved past k := by
  induction h with
  | empty => exact fun us b vs split => by simp at split
  | step op before new ih =>
    intro us b vs split a here
    rcases List.eq_nil_or_concat vs with rfl | ⟨ws, e, rfl⟩
    · obtain ⟨rfl, same⟩ := List.append_inj' split rfl
      have connects := new k (by rw [(Prod.mk.inj (List.singleton_inj.1 same)).1]; rfl)
      rw [← before.ensues.tracks.clients, before.kept.seated.clients, connects] at here
      cases here
    · rw [List.concat_eq_append, ← List.cons_append, ← List.append_assoc] at split
      exact ih us b ws (List.append_inj' split rfl).1 a here

/-- **A relay has no stray slots**, since it connects a session only once. -/
theorem Arises.strays_eq_nil {limit : Nat} {r : Registry} (h : Arises limit past r) (a : String) :
    r.strays a = [] := by
  refine List.eq_nil_iff_forall_not_mem.2 fun k stray => ?_
  obtain ⟨holds, moved⟩ := h.ensues.tracks.mem_strays.1 stray
  exact moved ((h.unmoved k).holds_iff.1 holds)

end Registry
end NotificationRelay
