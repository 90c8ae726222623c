/-
# Rules that look back

Some properties of a call depend on what came before it: whom an event may be offered to is
settled by calls that were made much earlier, perhaps for other acts. A `Discipline` consists
of an invariant of the calls so far together with the hub they have led to, and a rule for the
next call; a call that keeps the rule keeps the invariant.

`Program.Follows` says that a program keeps the rule from a trace on, where other programs may
make calls of their own between its calls, or may not. Like a run it is put together from the
parts of a program, and programs that follow a discipline follow it side by side
(`Program.Weave.follows`). Where all programs of a course do, the rule holds at every call and
the invariant at every hub (`Course.follows`).
-/
import NotificationRelay.Proofs.Run.Course

namespace NotificationRelay

/-- An invariant of the calls so far and the hub, and a rule for the next call that keeps it. -/
structure Discipline where
  inv : List Turn → Hub → Prop
  rule : List Turn → Hub → Call → Prop
  outside : ∀ {past h h'}, h.Outside h' → inv past h → inv past h'
  step : ∀ {past h} (c : Call) (outages : Outages), inv past h → rule past h c →
    inv (past ++ [c.turn outages h]) (c.perform outages h).2

/-- A discipline of which more is known: the same rule keeps a second invariant where it has kept
the first. -/
def Discipline.knowing (D : Discipline) (more : List Turn → Hub → Prop)
    (outside : ∀ {past h h'}, h.Outside h' → more past h → more past h')
    (step : ∀ {past h} (c : Call) (outages : Outages), D.inv past h → D.rule past h c →
      more past h → more (past ++ [c.turn outages h]) (c.perform outages h).2) : Discipline where
  inv past h := D.inv past h ∧ more past h
  rule := D.rule
  outside o hinv := ⟨D.outside o hinv.1, outside o hinv.2⟩
  step c outages hinv rule := ⟨D.step c outages hinv.1 rule, step c outages hinv.1 rule hinv.2⟩

namespace Program

variable {α β : Type} {D : Discipline}

/-- Every call that a program comes to make after a trace keeps the rule of a discipline, and so
do all that follow, until it ends as `post` says. In between `others` may make calls, if there
are any. -/
def Follows (D : Discipline) (others : Prop) {α : Type} :
    Program α → (post : α → List Turn → Prop) → List Turn → Prop
  | .done a, post, past => post a past
  | .call c next, post, past => ∀ us h, (us ≠ [] → others) → D.inv (past ++ us) h →
      D.rule (past ++ us) h c ∧ ∀ outages,
        (next (c.perform outages h).1).Follows D others post (past ++ us ++ [c.turn outages h])

namespace Follows

variable {others : Prop} {p : Program α} {post post' : α → List Turn → Prop} {past : List Turn}

/-- What a program follows, it follows to any weaker end. -/
theorem mono (hp : p.Follows D others post past) (hpost : ∀ a past, post a past → post' a past) :
    p.Follows D others post' past := by
  induction p generalizing past with
  | done a => exact hpost a past hp
  | call c next ih =>
    intro us h ho hinv
    obtain ⟨rule, rest⟩ := hp us h ho hinv
    exact ⟨rule, fun outages => ih _ (rest outages)⟩

/-- A program follows a discipline if its beginning does, and then what follows. -/
theorem bind {k : α → Program β} {post : β → List Turn → Prop}
    (hp : p.Follows D others (fun a past => (k a).Follows D others post past) past) :
    (p.bind k).Follows D others post past := by
  induction p generalizing past with
  | done a => exact hp
  | call c next ih =>
    intro us h ho hinv
    obtain ⟨rule, rest⟩ := hp us h ho hinv
    exact ⟨rule, fun outages => ih _ (rest outages)⟩

/-- A program follows a discipline also where a better founded invariant is known. -/
theorem of_inv {D' : Discipline} (hp : p.Follows D others post past)
    (known : ∀ past h, D'.inv past h → D.inv past h)
    (ruled : ∀ past h c, D.rule past h c → D'.rule past h c) :
    p.Follows D' others post past := by
  induction p generalizing past with
  | done a => exact hp
  | call c next ih =>
    intro us h ho hinv
    obtain ⟨rule, rest⟩ := hp us h ho (known _ _ hinv)
    exact ⟨ruled _ _ _ rule, fun outages => ih _ (rest outages)⟩

/-- A call that nobody comes before. -/
theorem call {c : Call} {next : c.Answer → Program α}
    (hc : ∀ h, D.inv past h → D.rule past h c ∧ ∀ outages,
      (next (c.perform outages h).1).Follows D False post (past ++ [c.turn outages h])) :
    (Program.call c next).Follows D False post past := by
  intro us h ho hinv
  obtain rfl : us = [] := Classical.byContradiction ho
  rw [List.append_nil] at hinv ⊢
  exact hc h hinv

/-- A call and what is done with its answer. -/
theorem perform_bind {c : Call} {k : c.Answer → Program α}
    (hc : ∀ us h, (us ≠ [] → others) → D.inv (past ++ us) h → D.rule (past ++ us) h c ∧
      ∀ outages, (k (c.perform outages h).1).Follows D others post
        (past ++ us ++ [c.turn outages h])) :
    ((perform c).bind k).Follows D others post past :=
  hc

/-- The same where nobody comes before the call. -/
theorem perform_bind_alone {c : Call} {k : c.Answer → Program α}
    (hc : ∀ h, D.inv past h → D.rule past h c ∧ ∀ outages,
      (k (c.perform outages h).1).Follows D False post (past ++ [c.turn outages h])) :
    ((perform c).bind k).Follows D False post past :=
  call hc

/-- A program that follows a discipline whatever others do follows it when there are none. -/
theorem alone (hp : p.Follows D True post past) : p.Follows D False post past := by
  induction p generalizing past with
  | done a => exact hp
  | call c next ih =>
    intro us h _ hinv
    obtain ⟨rule, rest⟩ := hp us h (fun _ => trivial) hinv
    exact ⟨rule, fun outages => ih _ (rest outages)⟩

/-- Calls of others may come before a program that reckons with them. -/
theorem later (hp : p.Follows D True (fun _ _ => True) past) (us : List Turn) :
    p.Follows D True (fun _ _ => True) (past ++ us) := by
  induction p with
  | done a => trivial
  | call c next =>
    intro vs h _ hinv
    rw [List.append_assoc] at hinv ⊢
    exact hp (us ++ vs) h (fun _ => trivial) hinv

/-- A program of calls of which each may be made at any time. -/
theorem of_only {sort : Call → Prop} (hp : p.Only sort)
    (hrule : ∀ past h c, sort c → D.inv past h → D.rule past h c)
    (hpost : ∀ a us, post a (past ++ us)) : p.Follows D others post past := by
  induction p generalizing past with
  | done a =>
    have ended := hpost a []
    rwa [List.append_nil] at ended
  | call c next ih =>
    intro us h _ hinv
    refine ⟨hrule _ h c hp.1 hinv, fun outages => ih _ (hp.2 outages h) fun a vs => ?_⟩
    simpa using hpost a (us ++ c.turn outages h :: vs)

/-- What comes after a program finds a longer trace. -/
theorem lengthens (hp : p.Follows D others post past) :
    p.Follows D others (fun a past' => post a past' ∧ past <+: past') past := by
  induction p generalizing past with
  | done a => exact ⟨hp, List.prefix_refl past⟩
  | call c next ih =>
    intro us h ho hinv
    obtain ⟨rule, rest⟩ := hp us h ho hinv
    refine ⟨rule, fun outages => (ih _ (rest outages)).mono fun a past' ⟨hpost, hpast⟩ => ?_⟩
    rw [List.append_assoc] at hpast
    exact ⟨hpost, (List.prefix_append past _).trans hpast⟩

/-- One program after another, of which the second only needs the trace to be long enough. -/
theorem andThen {k : α → Program β} {post : β → List Turn → Prop}
    (hp : p.Follows D others (fun _ _ => True) past)
    (hk : ∀ a us, (k a).Follows D others post (past ++ us)) :
    (p.bind k).Follows D others post past := by
  refine bind (hp.lengthens.mono fun a past' ⟨_, hpast⟩ => ?_)
  obtain ⟨us, rfl⟩ := hpast
  exact hk a us

/-- Doing something for each item follows a discipline if it does for every item. -/
theorem forEach {items : List β} {body : β → Program α}
    (hb : ∀ b ∈ items, ∀ us, (body b).Follows D others (fun _ _ => True) (past ++ us)) :
    (Program.forEach items body).Follows D others (fun _ _ => True) past := by
  induction items generalizing past with
  | nil => trivial
  | cons b rest ih =>
    have first := hb b List.mem_cons_self []
    rw [List.append_nil] at first
    refine first.andThen fun _ us => andThen (ih fun x hx vs => ?_) fun _ _ => trivial
    rw [List.append_assoc]
    exact hb x (List.mem_cons_of_mem _ hx) (us ++ vs)

end Follows

/-- **Programs that follow a discipline follow it side by side**, in whatever way they take
turns. -/
theorem Weave.follows {limit : Nat} {ps : List (Program α)} {w : Program (List α)}
    {others : Prop} {past : List Turn} (hw : Weave limit ps w)
    (hp : ∀ p ∈ ps, p.Follows D True (fun _ _ => True) past) :
    w.Follows D others (fun _ _ => True) past := by
  induction hw generalizing past with
  | done => trivial
  | @turn ps k c next rest here _ _ ih =>
    intro us h _ hinv
    obtain ⟨rule, follows⟩ := hp _ (List.mem_of_getElem? here) us h (fun _ => trivial) hinv
    refine ⟨rule, fun outages => ih _ fun p hmem => ?_⟩
    rcases List.mem_or_eq_of_mem_set hmem with hmem | rfl
    · rw [List.append_assoc]
      exact (hp p hmem).later _
    · exact follows outages

/-- **A run that follows a discipline** keeps its rule at every call and its invariant at every
hub. -/
theorem Runs.follows {p : Program α} {h h' : Hub} {ts past : List Turn} {a : α}
    {post : α → List Turn → Prop} (r : p.Runs h ts a h') (hp : p.Follows D False post past)
    (hinv : D.inv past h) :
    post a (past ++ ts) ∧ D.inv (past ++ ts) h' ∧
      ∀ us t vs, ts = us ++ t :: vs → D.inv (past ++ us) t.before ∧
        D.rule (past ++ us) t.before t.call := by
  induction r generalizing past with
  | done a h =>
    rw [List.append_nil]
    exact ⟨hp, hinv, fun us t vs hsplit => by simp at hsplit⟩
  | @call outages c next h _ ts a rest ih =>
    obtain ⟨rule, follows⟩ := hp [] h (fun hne => absurd rfl hne) (by rwa [List.append_nil])
    rw [List.append_nil] at rule follows
    obtain ⟨hpost, hlast, hturns⟩ := ih (follows outages) (D.step c outages hinv rule)
    rw [List.append_assoc] at hpost hlast
    refine ⟨hpost, hlast, fun us t vs hsplit => ?_⟩
    rcases List.cons_eq_append_iff.1 hsplit with ⟨rfl, heq⟩ | ⟨us, rfl, heq⟩
    · obtain ⟨rfl, -⟩ := List.cons.inj heq
      rw [List.append_nil]
      exact ⟨hinv, rule⟩
    · have later := hturns us t vs heq
      rwa [List.append_assoc] at later
  | outside o _ ih => exact ih hp (D.outside o hinv)

end Program

/-- **A course whose programs follow a discipline** keeps its rule at every call and its
invariant at every hub, and every deed ends as it is said to. -/
theorem Course.follows {s : Settings} {D : Discipline} {h h' : Hub} {ds : List Deed}
    {past : List Turn} {post : (a : Act) → a.Result → List Turn → Prop} (c : Course s h ds h')
    (hp : ∀ before d after, ds = before ++ d :: after →
      ∀ (p : Program d.act.Result) (h₁ : Hub), d.act.PerformedBy s p →
        D.inv (past ++ Deed.turnsOf before) h₁ →
        p.Follows D False (post d.act) (past ++ Deed.turnsOf before))
    (hinv : D.inv past h) :
    (∀ before d after, ds = before ++ d :: after →
      post d.act d.result (past ++ Deed.turnsOf before ++ d.turns)) ∧
    D.inv (past ++ Deed.turnsOf ds) h' ∧
    ∀ us t vs, Deed.turnsOf ds = us ++ t :: vs →
      D.inv (past ++ us) t.before ∧ D.rule (past ++ us) t.before t.call := by
  induction c generalizing past with
  | stop h =>
    simp only [Deed.turnsOf, List.flatMap_nil, List.append_nil]
    exact ⟨fun _ _ _ hsplit => by simp at hsplit, hinv, fun _ _ _ hsplit => by simp at hsplit⟩
  | outside o _ ih => exact ih hp (D.outside o hinv)
  | @deed a p ts result h h₁ h' ds ha run _ ih =>
    have first : p.Follows D False (post a) past := by
      have := hp [] ⟨a, ts, result⟩ ds rfl p h ha
      simp only [Deed.turnsOf, List.flatMap_nil, List.append_nil] at this
      exact this hinv
    obtain ⟨hpost, hmid, hturns⟩ := run.follows first hinv
    obtain ⟨hposts, hlast, hrest⟩ := ih (fun before d after hsplit => by
      have := hp (⟨a, ts, result⟩ :: before) d after (by rw [hsplit, List.cons_append])
      simpa only [Deed.turnsOf, List.flatMap_cons, List.append_assoc] using this) hmid
    have all : Deed.turnsOf (⟨a, ts, result⟩ :: ds) = ts ++ Deed.turnsOf ds := rfl
    refine ⟨fun before d after hsplit => ?_, ?_, fun us t vs hsplit => ?_⟩
    · rcases List.cons_eq_append_iff.1 hsplit with ⟨rfl, heq⟩ | ⟨before, rfl, heq⟩
      · obtain ⟨rfl, -⟩ := List.cons.inj heq
        simpa [Deed.turnsOf] using hpost
      · simpa [Deed.turnsOf] using hposts before d after heq
    · rw [all, ← List.append_assoc]
      exact hlast
    · rw [all] at hsplit
      rcases List.append_eq_append_iff.1 hsplit with ⟨ws, hus, hvs⟩ | ⟨ws, hts, hvs⟩
      · subst hus
        rw [← List.append_assoc]
        exact hrest ws t vs hvs
      · cases ws with
        | nil =>
          rw [List.append_nil] at hts
          subst hts
          have later := hrest [] t vs hvs.symm
          rwa [List.append_nil] at later
        | cons t' ws =>
          obtain ⟨rfl, -⟩ := List.cons.inj hvs
          exact hturns us t ws hts

end NotificationRelay
