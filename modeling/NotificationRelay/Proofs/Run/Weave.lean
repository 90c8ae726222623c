/-
# Programs side by side

Programs that work side by side take turns call by call. `Program.Weave limit ps w` says
that the program `w` is one way in which the programs `ps` can do so when at most
`limit` of them are under way at a time: they are begun in their order, and one more
is begun whenever one has come to its end. Which of those under way makes the next
call is left open and may depend on every answer so far.

One program after another is such a way for every limit (`Program.weave_forEach`), and
the only one when the limit is one (`Program.Weave.eq_forEach`).
-/
import NotificationRelay.Proofs.Run.Trace

namespace NotificationRelay
namespace Program

/-- Whether a program has a call left to make. -/
def isUnfinished {α : Type} : Program α → Bool
  | .done _ => false
  | .call _ _ => true

/-- The ways in which programs can work side by side, at most `limit` of them at a time. -/
inductive Weave (limit : Nat) {α : Type} : List (Program α) → Program (List α) → Prop
  | done (results : List α) : Weave limit (results.map .done) (.done results)
  | turn {ps : List (Program α)} {k : Nat} {c : Call} {next : c.Answer → Program α}
      {rest : c.Answer → Program (List α)} (here : ps[k]? = some (.call c next))
      (room : (ps.take k).countP isUnfinished < limit)
      (weave : ∀ answer, Weave limit (ps.set k (next answer)) (rest answer)) :
      Weave limit ps (.call c rest)

variable {α β : Type} {limit : Nat}

/-- Where there is no program there is nothing to do. -/
theorem Weave.of_nil {w : Program (List α)} (hw : Weave limit [] w) : w = .done [] := by
  generalize hps : [] = ps at hw
  cases hw with
  | done results => rw [List.map_eq_nil_iff.1 hps.symm]
  | turn here => simp [← hps] at here

/-- A program that has come to its end does not matter to the others. -/
theorem Weave.cons_done {ps : List (Program α)} {w : Program (List α)} (hw : Weave limit ps w)
    (a : α) : Weave limit (.done a :: ps) (w.bind fun as => .done (a :: as)) := by
  induction hw with
  | done results => exact .done (a :: results)
  | @turn ps k c next rest here room _ ih =>
    refine .turn (k := k + 1) (by simpa using here) ?_ fun answer => ?_
    · simpa [isUnfinished] using room
    · simpa using ih answer

/-- The first of the programs may be run to its end before the others. -/
theorem Weave.cons_bind {p : Program α} {ps : List (Program α)} {k : α → Program (List α)}
    (hl : 1 ≤ limit) (hk : ∀ a, Weave limit (.done a :: ps) (k a)) :
    Weave limit (p :: ps) (p.bind k) := by
  induction p with
  | done a => exact hk a
  | call c next ih =>
    exact .turn (k := 0) rfl (by rw [List.take_zero]; exact hl) fun answer => ih answer

/-- **One program after another is a way of working side by side.** -/
theorem weave_forEach (hl : 1 ≤ limit) (items : List β) (body : β → Program α) :
    Weave limit (items.map body) (forEach items body) := by
  induction items with
  | nil => exact .done []
  | cons b rest ih => exact Weave.cons_bind hl fun a => ih.cons_done a

/-- With room for two, the second may be run to its end before the first is begun. -/
theorem Weave.swap (hl : 2 ≤ limit) (p q : Program α) :
    Weave limit [p, q] (q.bind fun b => p.bind fun a => .done [a, b]) := by
  induction q with
  | done b => exact Weave.cons_bind (by omega) fun a => .done [a, b]
  | call c next ih =>
    refine .turn (k := 1) rfl ?_ fun answer => ih answer
    have one : ([p, .call c next].take 1).countP isUnfinished ≤ 1 := List.countP_le_length
    omega

/-- The programs before the first that has a call left have come to their ends, and the
results wait for the call. -/
theorem forEach_id_set {ps : List (Program α)} {k : Nat} {c : Call}
    {next : c.Answer → Program α} (here : ps[k]? = some (.call c next))
    (ended : (ps.take k).countP isUnfinished = 0) :
    forEach ps id = .call c fun answer => forEach (ps.set k (next answer)) id := by
  induction ps generalizing k with
  | nil => simp at here
  | cons p ps ih =>
    cases k with
    | zero =>
      obtain rfl : p = .call c next := by simpa using here
      rfl
    | succ k =>
      cases p with
      | call c' next' => simp [isUnfinished] at ended
      | done a =>
        have tail := ih (by simpa using here) (by simpa [isUnfinished] using ended)
        simp only [forEach, id_eq, List.set_cons_succ, bind, tail]

/-- **With room for one there is no choice.** Programs of which only one may be under way
are run one after another. -/
theorem Weave.eq_forEach {ps : List (Program α)} {w : Program (List α)} (hw : Weave 1 ps w) :
    w = forEach ps id := by
  induction hw with
  | done results =>
    induction results with
    | nil => rfl
    | cons a results ih => rw [List.map_cons, forEach, ← ih]; rfl
  | turn here room _ ih =>
    rw [forEach_id_set here (by omega)]
    exact congrArg _ (funext ih)

/-- What is done for every item of a list, as a list of programs run one after another. -/
theorem forEach_map_id (items : List β) (body : β → Program α) :
    forEach (items.map body) id = forEach items body := by
  induction items with
  | nil => rfl
  | cons b rest ih => simp only [List.map_cons, forEach, id_eq, ih]

/-- Items are dealt with one list after the other. -/
theorem forEach_append (items more : List β) (body : β → Program α) :
    forEach (items ++ more) body =
      (forEach items body).bind fun as => (forEach more body).bind fun bs => .done (as ++ bs) := by
  induction items with
  | nil => exact (bind_done _).symm
  | cons b rest ih => simp only [List.cons_append, forEach, ih, bind_assoc, bind]

/-- A run over some items and then some more is a run over the first and one over the rest. -/
theorem Runs.of_forEach_append {items more : List β} {body : β → Program α} {h h' : Hub}
    {ts : List Turn} {results : List α} (r : (forEach (items ++ more) body).Runs h ts results h') :
    ∃ us vs as bs h₁ h₂, ts = us ++ vs ∧ (forEach items body).Runs h us as h₁ ∧
      (forEach more body).Runs h₁ vs bs h₂ := by
  rw [forEach_append] at r
  obtain ⟨us, ws, as, h₁, rfl, first, rest⟩ := r.of_bind
  obtain ⟨vs, end', bs, h₂, rfl, second, last⟩ := rest.of_bind
  obtain ⟨rfl, -, -⟩ := last.of_done
  exact ⟨us, vs, as, bs, h₁, h₂, by rw [List.append_nil], first, second⟩

/-- If one call is made for each item, a run over the items makes these calls in order. -/
theorem Runs.calls_of_forEach {items : List β} {body : β → Program α} {calls : β → Call}
    {h h' : Hub} {ts : List Turn} {results : List α}
    (r : (forEach items body).Runs h ts results h')
    (one : ∀ b g us a g', (body b).Runs g us a g' → us.map (·.call) = [calls b]) :
    ts.map (·.call) = items.map calls := by
  induction items generalizing h h' ts results with
  | nil =>
    obtain ⟨rfl, -, -⟩ := r.of_done
    rfl
  | cons b rest ih =>
    obtain ⟨us, ws, a, h₁, rfl, first, more⟩ := r.of_bind
    obtain ⟨vs, end', as, h₂, rfl, others, last⟩ := more.of_bind
    obtain ⟨rfl, -, -⟩ := last.of_done
    rw [List.append_nil, List.map_append, one _ _ _ _ _ first, ih others]
    rfl

/-- A way of handling the items of any list is to handle one after another, if no two may
be under way together. -/
theorem Weave.eq_forEach_of_one {handle : List β → Program (List α)} {body : β → Program α}
    (sideBySide : ∀ items, Weave 1 (items.map body) (handle items)) :
    handle = fun items => forEach items body :=
  funext fun items => (sideBySide items).eq_forEach.trans (forEach_map_id items body)

/-- Programs that make calls of one sort make no other side by side. -/
theorem Weave.only {sort : Call → Prop} {ps : List (Program α)} {w : Program (List α)}
    (hw : Weave limit ps w) (hp : ∀ p ∈ ps, p.Only sort) : w.Only sort := by
  induction hw with
  | done => trivial
  | @turn ps k c next rest here _ _ ih =>
    have hc := hp _ (List.mem_of_getElem? here)
    refine ⟨hc.1, fun outages h => ih _ fun p hmem => ?_⟩
    rcases List.mem_or_eq_of_mem_set hmem with hmem | rfl
    · exact hp p hmem
    · exact hc.2 outages h

end Program
end NotificationRelay
