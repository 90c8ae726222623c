/-
# Two runs side by side

To say that something has no influence is to compare two runs that differ in it. Their hubs are
alike at any time: they may differ where the two runs do, and every call leaves alike hubs alike
(`Likeness`). Most calls are answered alike on alike hubs (`Likeness.Blind`); whatever a program
does with the answer to one of the others must make no difference that counts.

`Program.Matches` says that two programs make the same calls on alike hubs, whatever the answers,
and end with results that are related. It is put together from the parts of a program. Programs
that match do so side by side, if they take turns by the same list (`Program.Matches.interleave`).
Where the program of every act matches itself, two lists of errands that differ only in what makes
hubs alike lead to the same calls, related results and alike hubs (`Errand.alike_deeds`).
-/
import Mathlib.Data.List.Forall2
import NotificationRelay.Proofs.Run.Script

namespace NotificationRelay

/-- Hubs that are alike; every call leaves them alike. -/
structure Likeness where
  like : Hub → Hub → Prop
  perform : ∀ (c : Call) (outages : Outages) {h h' : Hub}, like h h' →
    like (c.perform outages h).2 (c.perform outages h').2

/-- A call that has the same answer on alike hubs. -/
def Likeness.Blind (L : Likeness) (c : Call) : Prop :=
  ∀ outages {h h'}, L.like h h' → (c.perform outages h).1 = (c.perform outages h').1

/-- The same call made on alike hubs. -/
inductive Turn.Alike (L : Likeness) : Turn → Turn → Prop
  | mk (c : Call) (outages : Outages) {h h' : Hub} (hh : L.like h h') :
      Alike L (c.turn outages h) (c.turn outages h')

namespace Program

/-- Two programs make the same calls on alike hubs and end with related results. -/
inductive Matches (L : Likeness) {α β : Type} (R : α → β → Prop) : Program α → Program β → Prop
  | done {a : α} {b : β} (hr : R a b) : Matches L R (.done a) (.done b)
  | call {c : Call} {next : c.Answer → Program α} {next' : c.Answer → Program β}
      (rest : ∀ outages h h', L.like h h' →
        Matches L R (next (c.perform outages h).1) (next' (c.perform outages h').1)) :
      Matches L R (.call c next) (.call c next')

namespace Matches

variable {L : Likeness} {α β γ δ : Type} {R R' : α → β → Prop} {p : Program α} {q : Program β}

/-- Programs that match in their results match in anything that follows from these. -/
theorem mono (hm : p.Matches L R q) (hr : ∀ a b, R a b → R' a b) : p.Matches L R' q := by
  induction hm with
  | done h => exact .done (hr _ _ h)
  | call _ ih => exact .call fun outages h h' hh => ih outages h h' hh

/-- Programs match if their beginnings do, and all that may follow. -/
theorem bind {k : α → Program γ} {l : β → Program δ} {S : γ → δ → Prop} (hm : p.Matches L R q)
    (hk : ∀ a b, R a b → (k a).Matches L S (l b)) : (p.bind k).Matches L S (q.bind l) := by
  induction hm with
  | done h => exact hk _ _ h
  | call _ ih => exact .call fun outages h h' hh => ih outages h h' hh

/-- A program of calls that are answered alike matches itself. -/
theorem of_only {p : Program α} (hp : p.Only L.Blind) : p.Matches L Eq p := by
  induction p with
  | done a => exact .done rfl
  | call c next ih =>
    refine .call fun outages h h' hh => ?_
    rw [← hp.1 outages hh]
    exact ih _ (hp.2 outages h)

/-- A call that is answered alike, and what is done with its answer. -/
theorem blind {c : Call} {k : c.Answer → Program α} {l : c.Answer → Program β} (hc : L.Blind c)
    (hk : ∀ answer, (k answer).Matches L R (l answer)) :
    (Program.call c k).Matches L R (.call c l) := by
  refine .call fun outages h h' hh => ?_
  rw [← hc outages hh]
  exact hk _

/-- A call whose answer makes no difference to what is done with it. -/
theorem anyhow {c : Call} {k : c.Answer → Program α} {l : c.Answer → Program β}
    (hk : ∀ answer answer', (k answer).Matches L R (l answer')) :
    (Program.call c k).Matches L R (.call c l) :=
  .call fun _ _ _ _ => hk _ _

/-- Doing matching things for each item matches. -/
theorem forEach {ι : Type} {items : List ι} {body : ι → Program α} {body' : ι → Program β}
    (hb : ∀ x ∈ items, (body x).Matches L R (body' x)) :
    (Program.forEach items body).Matches L (List.Forall₂ R) (Program.forEach items body') := by
  induction items with
  | nil => exact .done .nil
  | cons x rest ih =>
    refine (hb x List.mem_cons_self).bind fun a b hab => ?_
    refine (ih fun y hy => hb y (List.mem_cons_of_mem _ hy)).bind fun as bs hall => ?_
    exact .done (.cons hab hall)

/-- Of two programs that match both are unfinished, or both are done. -/
theorem isUnfinished_eq (hm : p.Matches L R q) : p.isUnfinished = q.isUnfinished := by
  cases hm <;> rfl

/-- Programs that match, run one after another. -/
theorem inTurn {ps : List (Program α)} {qs : List (Program β)}
    (hm : List.Forall₂ (Matches L R) ps qs) :
    (Program.forEach ps id).Matches L (List.Forall₂ R) (Program.forEach qs id) := by
  induction hm with
  | nil => exact .done .nil
  | cons first _ ih =>
    refine first.bind fun a b hab => ?_
    exact ih.bind fun as bs hall => .done (.cons hab hall)

section Lists

variable {ps : List (Program α)} {qs : List (Program β)}

/-- As many programs are unfinished on one side as on the other. -/
theorem countP_isUnfinished (hm : List.Forall₂ (Matches L R) ps qs) :
    ps.countP Program.isUnfinished = qs.countP Program.isUnfinished := by
  induction hm with
  | nil => rfl
  | cons first _ ih => rw [List.countP_cons, List.countP_cons, ih, first.isUnfinished_eq]

/-- Every program has its match. -/
theorem exists_getElem? (hm : List.Forall₂ (Matches L R) ps qs) {k : Nat} {p : Program α}
    (here : ps[k]? = some p) : ∃ q, qs[k]? = some q ∧ p.Matches L R q := by
  induction hm generalizing k with
  | nil => simp at here
  | @cons p' q' _ _ first _ ih =>
    cases k with
    | zero =>
      obtain rfl : p' = p := by simpa using here
      exact ⟨q', rfl, first⟩
    | succ k => exact ih here

/-- Putting matching programs in one place keeps the others matched. -/
theorem set (hm : List.Forall₂ (Matches L R) ps qs) (k : Nat) (first : p.Matches L R q) :
    List.Forall₂ (Matches L R) (ps.set k p) (qs.set k q) := by
  induction hm generalizing k with
  | nil => exact .nil
  | cons here rest ih =>
    cases k with
    | zero => exact .cons first rest
    | succ k => exact .cons here (ih k)

end Lists

/-- **Programs that match do so side by side.** -/
theorem interleave {limit : Nat} (order : List Nat) {ps : List (Program α)}
    {qs : List (Program β)} (hm : List.Forall₂ (Matches L R) ps qs) :
    (Program.interleave limit order ps).Matches L (List.Forall₂ R)
      (Program.interleave limit order qs) := by
  induction order generalizing ps qs with
  | nil => exact inTurn hm
  | cons k order ih =>
    have busy : (ps.take k).countP Program.isUnfinished =
        (qs.take k).countP Program.isUnfinished := countP_isUnfinished (List.forall₂_take k hm)
    cases hp : ps[k]? with
    | none =>
      have hq : qs[k]? = none := by
        rw [List.getElem?_eq_none_iff] at hp ⊢
        exact hm.length_eq ▸ hp
      simp only [Program.interleave, hp, hq]
      exact ih hm
    | some p =>
      obtain ⟨q, hq, here⟩ := exists_getElem? hm hp
      cases here with
      | done =>
        simp only [Program.interleave, hp, hq]
        exact ih hm
      | call rest =>
        simp only [Program.interleave, hp, hq, busy]
        split
        · exact .call fun outages h h' hh => ih (set hm k (rest outages h h' hh))
        · exact ih hm

end Matches

end Program

/-! ## Played by scripts that are alike -/

/-- The same calls fail, and what happens before each leaves alike hubs alike. -/
def Script.Alike (L : Likeness) (script script' : Script) : Prop :=
  ∀ n, (script n).outages = (script' n).outages ∧
    ∀ {h h'}, L.like h h' → L.like ((script n).stir h) ((script' n).stir h')

/-- Programs that match are played alike, by scripts that are alike and on hubs that are. -/
theorem Program.Matches.play {L : Likeness} {α β : Type} {R : α → β → Prop} {p : Program α}
    {q : Program β} (hm : p.Matches L R q) {script script' : Script}
    (hs : script.Alike L script') {h h' : Hub} (hh : L.like h h') :
    List.Forall₂ (Turn.Alike L) (p.play script h).turns (q.play script' h').turns ∧
      R (p.play script h).result (q.play script' h').result ∧
      L.like (p.play script h).hub (q.play script' h').hub := by
  induction hm generalizing script script' h h' with
  | done hr => exact ⟨.nil, hr, (hs 0).2 hh⟩
  | @call c next next' rest ih =>
    obtain ⟨same, stirred⟩ := hs 0
    have found := stirred hh
    have made := L.perform c (script 0).outages found
    obtain ⟨turns, result, hub⟩ := ih (script 0).outages _ _ found (fun n => hs (n + 1)) made
    have first := Turn.Alike.mk c (script 0).outages found
    simp only [Program.play]
    rw [← same]
    exact ⟨.cons first turns, result, hub⟩

/-- The same act, whose feeds take turns in the same order, by scripts that are alike. -/
inductive Errand.Alike (L : Likeness) : Errand → Errand → Prop
  | mk (a : Act) (order : List Nat) {script script' : Script} (hs : script.Alike L script') :
      Alike L ⟨a, order, script⟩ ⟨a, order, script'⟩

/-- The same act with the same calls on alike hubs, and with results that agree. -/
inductive Deed.Alike (L : Likeness) (agree : (a : Act) → a.Result → a.Result → Prop) :
    Deed → Deed → Prop
  | mk (a : Act) {ts ts' : List Turn} {r r' : a.Result} (turns : List.Forall₂ (Turn.Alike L) ts ts')
      (results : agree a r r') : Alike L agree ⟨a, ts, r⟩ ⟨a, ts', r'⟩

/-- The turns of deeds that are alike are alike. -/
theorem Deed.alike_turnsOf {L : Likeness} {agree : (a : Act) → a.Result → a.Result → Prop}
    {ds ds' : List Deed} (hds : List.Forall₂ (Deed.Alike L agree) ds ds') :
    List.Forall₂ (Turn.Alike L) (turnsOf ds) (turnsOf ds') := by
  refine List.rel_flatMap hds fun d d' hd => ?_
  obtain ⟨-, turns, -⟩ := hd
  exact turns

/-- What can be read off turns that are alike in the same way is the same for all of them. -/
theorem Turn.filterMap_eq_of_alike {L : Likeness} {ts ts' : List Turn} {β : Type}
    {f : Turn → Option β} (hts : List.Forall₂ (Turn.Alike L) ts ts')
    (hf : ∀ t t', t.Alike L t' → f t = f t') : ts.filterMap f = ts'.filterMap f := by
  induction hts with
  | nil => rfl
  | cons first _ ih => rw [List.filterMap_cons, List.filterMap_cons, hf _ _ first, ih]

/-- **What does not tell hubs apart has no influence.** If the program of every act matches itself,
errands that are alike lead to deeds that are alike. -/
theorem Errand.alike_deeds {L : Likeness} {s : Settings}
    {agree : (a : Act) → a.Result → a.Result → Prop}
    (hm : ∀ order (a : Act), (a.program s order).Matches L (agree a) (a.program s order))
    {es es' : List Errand} (hes : List.Forall₂ (Errand.Alike L) es es') {h h' : Hub}
    (hh : L.like h h') :
    List.Forall₂ (Deed.Alike L agree) (deeds s es h).1 (deeds s es' h').1 ∧
      L.like (deeds s es h).2 (deeds s es' h').2 := by
  induction hes generalizing h h' with
  | nil => exact ⟨.nil, hh⟩
  | @cons e e' es es' first _ ih =>
    obtain ⟨a, order, hs⟩ := first
    obtain ⟨turns, result, hub⟩ := (hm order a).play hs hh
    obtain ⟨deeds, last⟩ := ih hub
    exact ⟨.cons (.mk a turns result) deeds, last⟩

end NotificationRelay
