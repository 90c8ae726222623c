/-
# Who made how many of the calls

Programs that are run one after another make their calls one after another, and the calls fall into
one portion for each of them (`Program.Goes.portions`). The calls of programs that take turns can be
put in such an order (`Program.Weave.portions`). So what can be said of each portion can be said
of all calls, in the order in which they were made or up to their order.

Where it matters which result belongs to which calls, the calls are numbered instead by who made
them: each program comes to its own result by its share (`Program.Weave.exists_shares`), and what
is read off all calls is, up to order, what is read off the shares (`Turn.perm_of_shares`).
-/
import NotificationRelay.Proofs.Run.Interleaving

namespace NotificationRelay
namespace Program

variable {α β : Type}

/-- What is run goes that way. -/
theorem Runs.goes {p : Program α} {h h' : Hub} {ts : List Turn} {a : α} (r : p.Runs h ts a h') :
    p.Goes ts (.done a) := by
  induction r with
  | done a => exact .stop _
  | @call outages c next h h' ts a _ ih => exact .turn outages h ih
  | outside _ _ ih => exact ih

/-- Turns that fall into portions, by each of which one of the programs ends, in their order. -/
inductive Portions : List (Program α) → List Turn → Prop
  | nil : Portions [] []
  | cons {p : Program α} {ps : List (Program α)} {us vs : List Turn} {a : α}
      (goes : p.Goes us (.done a)) (rest : Portions ps vs) : Portions (p :: ps) (us ++ vs)

/-- Programs that are done make no calls. -/
theorem Portions.of_done (results : List α) : Portions (results.map .done) [] := by
  induction results with
  | nil => exact .nil
  | cons a results ih => exact .cons (.stop _) ih

/-- Programs that are run one after another make their calls in portions. -/
theorem Goes.portions {items : List β} {body : β → Program α} {us : List Turn} {as : List α}
    (g : (forEach items body).Goes us (.done as)) : Portions (items.map body) us := by
  induction items generalizing us as with
  | nil =>
    obtain ⟨rfl, -⟩ := Goes.of_done g
    exact .nil
  | cons b rest ih =>
    obtain ⟨us, vs, a, rfl, first, more⟩ := Goes.of_bind_done g
    obtain ⟨vs, ws, as, rfl, later, last⟩ := Goes.of_bind_done more
    obtain ⟨rfl, -⟩ := last.of_done
    rw [List.append_nil]
    exact .cons first (ih later)

/-- A call that one of the programs makes first belongs to its portion. -/
theorem Portions.of_set {ps : List (Program α)} {k : Nat} {p q : Program α} {t : Turn}
    {us : List Turn} (here : ps[k]? = some p)
    (goes : ∀ {vs a}, q.Goes vs (.done a) → p.Goes (t :: vs) (.done a))
    (portions : Portions (ps.set k q) us) : ∃ vs, vs.Perm (t :: us) ∧ Portions ps vs := by
  induction ps generalizing k us with
  | nil => cases here
  | cons x ps ih =>
    cases k with
    | zero =>
      obtain rfl := Option.some.inj here
      cases portions with
      | cons first rest => exact ⟨_, .refl _, .cons (goes first) rest⟩
    | succ k =>
      cases portions with
      | @cons _ _ us vs _ first rest =>
        obtain ⟨ws, perm, rest⟩ := ih here rest
        exact ⟨us ++ ws, (perm.append_left us).trans List.perm_middle, .cons first rest⟩

/-- **The calls of programs that take turns** can be put in portions. -/
theorem Weave.portions {limit : Nat} {ps : List (Program α)} {w : Program (List α)}
    (hw : Weave limit ps w) {us : List Turn} {results : List α}
    (g : w.Goes us (.done results)) : ∃ vs, vs.Perm us ∧ Portions ps vs := by
  induction hw generalizing us with
  | done results =>
    obtain ⟨rfl, -⟩ := Goes.of_done g
    exact ⟨[], .refl _, .of_done results⟩
  | @turn ps k c next rest here _ _ ih =>
    rcases Goes.of_call g with ⟨-, ended⟩ | ⟨outages, h, us, rfl, more⟩
    · cases ended
    obtain ⟨vs, perm, portions⟩ := ih _ more
    obtain ⟨ws, perm', portions⟩ :=
      Portions.of_set (t := c.turn outages h) here (.turn outages h ·) portions
    exact ⟨ws, perm'.trans (perm.cons _), portions⟩

/-- **Programs that take turns** come each to its own result by its share of the calls. -/
theorem Weave.exists_shares {limit : Nat} {ps : List (Program α)} {w : Program (List α)}
    (hw : Weave limit ps w) {us : List Turn} {results : List α}
    (g : w.Goes us (.done results)) :
    ∃ moves : List (Nat × Turn), moves.map (·.2) = us ∧ (∀ m ∈ moves, m.1 < ps.length) ∧
      results.length = ps.length ∧
      ∀ (k : Nat) (p : Program α), ps[k]? = some p →
        ∃ a, results[k]? = some a ∧ p.Goes (Turn.share k moves) (.done a) := by
  induction hw generalizing us with
  | done results =>
    obtain ⟨rfl, ended⟩ := Goes.of_done g
    obtain rfl := Program.done.inj ended
    refine ⟨[], rfl, fun _ hm => (nomatch hm), (List.length_map _).symm, fun k p hk => ?_⟩
    rw [List.getElem?_map] at hk
    obtain ⟨a, ha, rfl⟩ := Option.map_eq_some_iff.1 hk
    exact ⟨a, ha, .stop _⟩
  | @turn ps j c next rest here _ _ ih =>
    rcases Goes.of_call g with ⟨-, ended⟩ | ⟨outages, h, us, rfl, more⟩
    · cases ended
    obtain ⟨moves, rfl, inside, length, goes⟩ := ih _ more
    rw [List.length_set] at inside length
    have place : j < ps.length := (List.getElem?_eq_some_iff.1 here).1
    refine ⟨(j, c.turn outages h) :: moves, rfl, List.forall_mem_cons.2 ⟨place, inside⟩, length,
      fun k p hk => ?_⟩
    by_cases hj : j = k
    · subst hj
      obtain rfl : p = .call c next := Option.some.inj (hk.symm.trans here)
      obtain ⟨a, ha, going⟩ := goes j _ (List.getElem?_set_self place)
      rw [Turn.share_cons_self]
      exact ⟨a, ha, .turn outages h going⟩
    · rw [Turn.share_cons_of_ne hj]
      exact goes k p (by rwa [List.getElem?_set_ne hj])

end Program

namespace Turn

variable {moves : List (Nat × Turn)}

/-- What only one party does is counted in its share. -/
theorem countP_share {p : Turn → Bool} {k : Nat} (own : ∀ m ∈ moves, p m.2 = true → m.1 = k) :
    (moves.map (·.2)).countP p = (share k moves).countP p := by
  unfold share
  rw [List.countP_map, List.countP_map, List.countP_filter]
  refine List.countP_congr fun m hm => ?_
  simp only [Function.comp_apply, Bool.and_eq_true, decide_eq_true_eq]
  exact ⟨fun counted => ⟨counted, own m hm counted⟩, And.left⟩

/-- The parts of a list, taken one after another, make up the list. -/
theorem flatMap_range_getD {β : Type} (parts : List (List β)) :
    (List.range parts.length).flatMap (fun k => parts[k]?.getD []) = parts.flatten := by
  induction parts with
  | nil => rfl
  | cons part parts ih =>
    rw [List.length_cons, List.range_succ_eq_map, List.flatMap_cons, List.flatMap_map,
      List.flatten_cons, ← ih]
    rfl

/-- **What is read off the turns of all parties** is what is read off the share of each. -/
theorem perm_of_shares {β : Type} {read : Turn → Option β} {parts : List (List β)}
    (inside : ∀ m ∈ moves, m.1 < parts.length)
    (own : ∀ k part, parts[k]? = some part → (share k moves).filterMap read = part) :
    ((moves.map (·.2)).filterMap read).Perm parts.flatten := by
  have perm := (perm_shares inside).filterMap read
  rw [List.filterMap_flatMap] at perm
  rw [← flatMap_range_getD]
  refine perm.trans (.of_eq (List.flatMap_congr fun k hk => ?_))
  have there := List.getElem?_eq_getElem (List.mem_range.1 hk)
  rw [there, own k _ there]
  rfl

end Turn
end NotificationRelay
