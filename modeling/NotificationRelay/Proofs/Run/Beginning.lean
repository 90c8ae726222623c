/-
# Programs that are begun in their order

Which of the programs that are under way makes the next call is left open by `Program.Weave`, and so
is which of those that wait is begun when there is room for one more. `Program.InOrder` leaves open
only the former: it counts how many have been begun, and it is always the next in line that is begun
when another may be. One after another is such a way (`Program.inOrder_forEach`), and each of them is
a way of working side by side (`Program.InOrder.weave`).

Where every program announces itself by its first call (`Program.Opens`), these announcements are
all made, each once (`Program.Weave.opening`), and in order if the programs are begun in order
(`Program.InOrder.opening`).
-/
import Mathlib.Data.List.Forall2
import NotificationRelay.Proofs.Run.Portion

namespace NotificationRelay
namespace Program

variable {α β : Type} {limit begun : Nat} {ps : List (Program α)} {w : Program (List α)}

/-- The ways in which programs can work side by side, at most `limit` of them at a time, if they are
begun in order. The first `begun` of them have been begun. -/
inductive InOrder (limit : Nat) {α : Type} : Nat → List (Program α) → Program (List α) → Prop
  | done (begun : Nat) (results : List α) : InOrder limit begun (results.map .done) (.done results)
  | idle {begun : Nat} {ps : List (Program α)} {a : α} {w : Program (List α)}
      (here : ps[begun]? = some (.done a)) (rest : InOrder limit (begun + 1) ps w) :
      InOrder limit begun ps w
  | begin {begun : Nat} {ps : List (Program α)} {c : Call} {next : c.Answer → Program α}
      {rest : c.Answer → Program (List α)} (here : ps[begun]? = some (.call c next))
      (room : (ps.take begun).countP isUnfinished < limit)
      (weave : ∀ answer, InOrder limit (begun + 1) (ps.set begun (next answer)) (rest answer)) :
      InOrder limit begun ps (.call c rest)
  | resume {begun k : Nat} {ps : List (Program α)} {c : Call} {next : c.Answer → Program α}
      {rest : c.Answer → Program (List α)} (before : k < begun)
      (here : ps[k]? = some (.call c next))
      (weave : ∀ answer, InOrder limit begun (ps.set k (next answer)) (rest answer)) :
      InOrder limit begun ps (.call c rest)

/-! ## One after another -/

/-- A program that has come to its end does not matter to the others. -/
theorem InOrder.cons_done (hw : InOrder limit begun ps w) (a : α) :
    InOrder limit (begun + 1) (.done a :: ps) (w.bind fun as => .done (a :: as)) := by
  induction hw with
  | done begun results => exact .done (begun + 1) (a :: results)
  | idle here _ ih => exact .idle (by simpa using here) ih
  | begin here room _ ih =>
    refine .begin (by simpa using here) ?_ fun answer => ?_
    · simpa [isUnfinished] using room
    · simpa using ih answer
  | resume before here _ ih =>
    refine .resume (Nat.succ_lt_succ before) (by simpa using here) fun answer => ?_
    simpa using ih answer

/-- The first of the programs, once it has been begun, may be run to its end before the others. -/
theorem InOrder.cons_bind {p : Program α} {k : α → Program (List α)}
    (hk : ∀ a, InOrder limit 1 (.done a :: ps) (k a)) : InOrder limit 1 (p :: ps) (p.bind k) := by
  induction p with
  | done a => exact hk a
  | call c next ih => exact .resume (k := 0) Nat.one_pos rfl fun answer => ih answer

/-- **One program after another is a way of working side by side in order.** -/
theorem inOrder_forEach (hl : 1 ≤ limit) (items : List β) (body : β → Program α) :
    InOrder limit 0 (items.map body) (forEach items body) := by
  induction items with
  | nil => exact .done 0 []
  | cons b rest ih =>
    show InOrder limit 0 (body b :: rest.map body) ((body b).bind _)
    cases body b with
    | done a => exact .idle rfl (ih.cons_done a)
    | call c next =>
      exact .begin rfl hl fun answer => InOrder.cons_bind fun a => ih.cons_done a

/-! ## Side by side -/

/-- **Working side by side in order is a way of working side by side.** -/
theorem InOrder.weave (hw : InOrder limit begun ps w)
    (few : (ps.take begun).countP isUnfinished ≤ limit) : Weave limit ps w := by
  induction hw with
  | done begun results => exact .done results
  | @idle begun ps a w here _ ih =>
    refine ih ?_
    rw [List.take_add_one, here, List.countP_append]
    simpa [isUnfinished] using few
  | @begin begun ps c next rest here room _ ih =>
    refine .turn here room fun answer => ih answer ?_
    have inside : begun < ps.length := (List.getElem?_eq_some_iff.1 here).1
    rw [List.take_add_one, List.getElem?_set_self inside, List.take_set_of_le (Nat.le_refl _),
      List.countP_append]
    have one : ((some (next answer)).toList).countP isUnfinished ≤ 1 := List.countP_le_length
    omega
  | @resume begun k ps c next rest before here _ ih =>
    have there : (ps.take begun)[k]? = some (.call c next) := by
      rw [List.getElem?_take_of_lt before, here]
    obtain ⟨inside, mine⟩ := List.getElem?_eq_some_iff.1 there
    have room : (ps.take k).countP isUnfinished < (ps.take begun).countP isUnfinished := by
      rw [← Nat.min_eq_left (Nat.le_of_lt before), ← List.take_take]
      conv_rhs => rw [← List.take_append_drop k (ps.take begun), List.countP_append,
        List.drop_eq_getElem_cons inside, mine, List.countP_cons_of_pos rfl]
      omega
    refine .turn here (Nat.lt_of_lt_of_le room few) fun answer => ih answer ?_
    rw [List.take_set, List.countP_set inside, mine]
    have one : (if isUnfinished (next answer) then 1 else 0) ≤ 1 := by split <;> simp
    show (ps.take begun).countP isUnfinished - 1 + (if isUnfinished (next answer) then 1 else 0) ≤ _
    omega

/-! ## What the programs announce -/

/-- A program that announces something by its first call, and by no other. -/
def Opens (read : Call → Option β) (x : β) : Program α → Prop
  | .done _ => False
  | .call c next => read c = some x ∧
      ∀ outages h, (next (c.perform outages h).1).Only fun c => read c = none

section Opening

variable {read : Call → Option β} {x : β} {xs : List β} {us : List Turn} {results : List α}

/-- Nothing is read off a program whose calls have nothing to be read off. -/
theorem Only.unread {p q : Program α} (hp : p.Only fun c => read c = none) (g : p.Goes us q) :
    us.filterMap (fun u => read u.call) = [] :=
  List.filterMap_eq_nil_iff.2 (g.only hp).1

/-- A program that opens with something opens with it in all that it does. -/
theorem Opens.opening {p : Program α} {a : α} (hp : p.Opens read x) (g : p.Goes us (.done a)) :
    us.filterMap (fun u => read u.call) = [x] := by
  cases p with
  | done => cases hp
  | call c next =>
    rcases Goes.of_call g with ⟨-, ended⟩ | ⟨outages, h, us, rfl, rest⟩
    · cases ended
    refine (List.filterMap_cons_some (f := fun u : Turn => read u.call) hp.1).trans ?_
    rw [(hp.2 outages h).unread rest]

/-- **Programs side by side announce themselves**, each once. -/
theorem Weave.opening (hw : Weave limit ps w) (opens : List.Forall₂ (Opens read) xs ps)
    (g : w.Goes us (.done results)) : (us.filterMap fun u => read u.call).Perm xs := by
  obtain ⟨moves, rfl, inside, -, goes⟩ := hw.exists_shares g
  have parts : (xs.map fun x => [x]).flatten = xs :=
    (List.flatMap_def ..).symm.trans (List.flatMap_singleton' xs)
  conv_rhs => rw [← parts]
  refine Turn.perm_of_shares ?_ fun k part hk => ?_
  · rw [List.length_map, opens.length_eq]
    exact inside
  · rw [List.getElem?_map] at hk
    obtain ⟨x, hx, rfl⟩ := Option.map_eq_some_iff.1 hk
    obtain ⟨there, rfl⟩ := List.getElem?_eq_some_iff.1 hx
    have place : k < ps.length := opens.length_eq ▸ there
    obtain ⟨a, -, going⟩ := goes k _ (List.getElem?_eq_getElem place)
    exact ((List.forall₂_iff_get.1 opens).2 k there place).opening going

/-- **Programs that are begun in order announce themselves in order.** -/
theorem InOrder.opening (hw : InOrder limit begun ps w)
    (old : ∀ p ∈ ps.take begun, p.Only fun c => read c = none)
    (new : List.Forall₂ (Opens read) xs (ps.drop begun)) (g : w.Goes us (.done results)) :
    us.filterMap (fun u => read u.call) = xs := by
  induction hw generalizing xs us with
  | done begun results =>
    obtain ⟨rfl, -⟩ := g.of_done
    rw [← List.map_drop] at new
    cases hdrop : results.drop begun with
    | nil =>
      rw [hdrop] at new
      cases new
      rfl
    | cons a rest =>
      rw [hdrop] at new
      cases new with
      | cons opens _ => cases opens
  | @idle begun ps a w here _ _ =>
    rw [List.drop_eq_getElem?_toList_append, here] at new
    cases new with
    | cons opens _ => cases opens
  | @begin begun ps c next rest here _ _ ih =>
    rcases Goes.of_call g with ⟨-, ended⟩ | ⟨outages, h, us, rfl, more⟩
    · cases ended
    have inside : begun < ps.length := (List.getElem?_eq_some_iff.1 here).1
    rw [List.drop_eq_getElem?_toList_append, here] at new
    cases new with
    | @cons x _ xs _ opens later =>
      refine (List.filterMap_cons_some (f := fun u : Turn => read u.call) opens.1).trans
        (congrArg (x :: ·) (ih _ (fun p hp => ?_) ?_ more))
      · rw [List.take_add_one, List.getElem?_set_self inside,
          List.take_set_of_le (Nat.le_refl _)] at hp
        rcases List.mem_append.1 hp with hp | hp
        · exact old p hp
        · obtain rfl : p = next (c.perform outages h).1 := by simpa using hp
          exact opens.2 outages h
      · rw [List.drop_set_of_lt (Nat.lt_succ_self _)]
        exact later
  | @resume begun k ps c next rest before here _ ih =>
    rcases Goes.of_call g with ⟨-, ended⟩ | ⟨outages, h, us, rfl, more⟩
    · cases ended
    have mine : Program.call c next ∈ ps.take begun :=
      List.mem_of_getElem? (i := k) (by rw [List.getElem?_take_of_lt before, here])
    have quiet := old _ mine
    refine (List.filterMap_cons_none (f := fun u : Turn => read u.call) quiet.1).trans
      (ih _ (fun p hp => ?_) ?_ more)
    · rw [List.take_set] at hp
      rcases List.mem_or_eq_of_mem_set hp with hp | rfl
      · exact old p hp
      · exact quiet.2 outages h
    · rwa [List.drop_set_of_lt before]

end Opening

end Program
end NotificationRelay
