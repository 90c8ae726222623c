/-
# Courses

A `History` tells which calls were made. A `Course` also tells what was asked and what came of
it: it is a list of deeds, each an act with the calls made for it and its result, and the world
outside is at work within and between them. Courses are put together and taken apart like
lists (`Course.append`, `Course.of_append`, `Course.of_cons`). The calls of a course are
those of a history (`Course.history`), and every history comes from a course
(`History.course`).
-/
import NotificationRelay.Proofs.Run.History

namespace NotificationRelay

/-- The type of what comes of an act. -/
@[reducible] def Act.Result : Act → Type
  | .submit _ _ => Except FeedError Inserted
  | .add _ => Except FeedError Inserted
  | .drain => Stored Nat
  | .retry => Stored Retry.Report
  | .process _ => Except FeedError Processing.Report
  | .sweep _ => Stored Nat
  | .connect _ _ => Gateway.Admission
  | .receive _ _ _ => Unit
  | .disconnect _ => Unit
  | .feeds _ _ _ _ => Except FeedError FeedPage
  | .channelFeeds _ _ _ _ => Except FeedError FeedPage
  | .spamSenders _ => Except FeedError (List String)
  | .senderFeeds _ _ _ => Except FeedError FeedPage
  | .history _ _ _ => Except FeedError ExportPage
  | .search _ => Except FeedError FeedPage

/-- An act is performed with its own kind of result. -/
theorem Act.PerformedBy.result_eq {s : Settings} {a : Act} {α : Type} {p : Program α}
    (hp : a.PerformedBy s p) : α = a.Result := by
  cases hp <;> rfl

/-- An act as it was done: the calls made for it, and what came of it. -/
structure Deed where
  act : Act
  turns : List Turn
  result : act.Result

/-- Deeds that lead from one hub to another. -/
inductive Course (s : Settings) : Hub → List Deed → Hub → Prop
  | stop (h : Hub) : Course s h [] h
  | outside {h h₁ h' : Hub} {ds : List Deed} (o : h.Outside h₁) (rest : Course s h₁ ds h') :
      Course s h ds h'
  | deed {a : Act} {p : Program a.Result} {ts : List Turn} {result : a.Result} {h h₁ h' : Hub}
      {ds : List Deed} (hp : a.PerformedBy s p) (run : p.Runs h ts result h₁)
      (rest : Course s h₁ ds h') : Course s h (⟨a, ts, result⟩ :: ds) h'

/-- The calls of deeds, in order. -/
def Deed.turnsOf (ds : List Deed) : List Turn := ds.flatMap (·.turns)

theorem Deed.turnsOf_append (ds es : List Deed) :
    turnsOf (ds ++ es) = turnsOf ds ++ turnsOf es :=
  List.flatMap_append

theorem Deed.turnsOf_snoc (ds : List Deed) (D : Deed) :
    turnsOf (ds ++ [D]) = turnsOf ds ++ D.turns := by
  rw [turnsOf_append]
  exact congrArg _ (List.append_nil _)

namespace Course

variable {s : Settings} {h h₁ h' : Hub} {ds es : List Deed}

/-- A course may begin when something has happened outside. -/
theorem after_outside (o : Relation.ReflTransGen Hub.Outside h h₁) (rest : Course s h₁ ds h') :
    Course s h ds h' := by
  induction o using Relation.ReflTransGen.head_induction_on with
  | refl => exact rest
  | head o _ ih => exact .outside o ih

/-- A deed that is performed alone. -/
theorem alone {a : Act} {p : Program a.Result} (hp : a.PerformedBy s p) (outages : Outages)
    (rest : Course s (p.run outages h).2 ds h') :
    Course s h (⟨a, p.turns outages h, (p.run outages h).1⟩ :: ds) h' :=
  .deed hp (p.runs_run outages h) rest

/-- Courses that meet in a hub make a course. -/
theorem append (first : Course s h ds h₁) (rest : Course s h₁ es h') :
    Course s h (ds ++ es) h' := by
  induction first with
  | stop => exact rest
  | outside o _ ih => exact .outside o (ih rest)
  | deed hp run _ ih => exact .deed hp run (ih rest)

/-- A course begins with its first deed. -/
theorem of_cons {d : Deed} (c : Course s h (d :: ds) h') :
    ∃ (p : Program d.act.Result) (h₁ : Hub), d.act.PerformedBy s p ∧
      p.Runs h d.turns d.result h₁ ∧ Course s h₁ ds h' := by
  generalize hes : d :: ds = es at c
  induction c with
  | stop => cases hes
  | outside o _ ih =>
    obtain ⟨p, h₂, hp, run, rest⟩ := ih hes
    exact ⟨p, h₂, hp, .outside o run, rest⟩
  | deed hp run rest _ =>
    cases hes
    exact ⟨_, _, hp, run, rest⟩

/-- Where nothing has been done, only the world outside has been at work. -/
theorem outside_of_nil (c : Course s h [] h') : Relation.ReflTransGen Hub.Outside h h' := by
  generalize hds : [] = ds at c
  induction c with
  | stop => exact .refl
  | outside o _ ih => exact .head o (ih hds)
  | deed => cases hds

/-- A course can be cut between any two deeds. -/
theorem of_append (c : Course s h (ds ++ es) h') :
    ∃ h₁, Course s h ds h₁ ∧ Course s h₁ es h' := by
  induction ds generalizing h with
  | nil => exact ⟨h, .stop h, c⟩
  | cons d ds ih =>
    obtain ⟨p, h₁, hp, run, rest⟩ := of_cons c
    obtain ⟨h₂, first, last⟩ := ih rest
    exact ⟨h₂, .deed hp run first, last⟩

/-- What holds at first and outlasts the world outside and every deed holds of a course: of the
deeds that were done and the hub that they have led to. -/
theorem keeps (inv : List Deed → Hub → Prop) (c : Course s h ds h')
    (outside : ∀ past g g', g.Outside g' → inv past g → inv past g')
    (deed : ∀ past (d : Deed) (p : Program d.act.Result) g g', d.act.PerformedBy s p →
      p.Runs g d.turns d.result g' → inv past g → inv (past ++ [d]) g')
    (first : inv [] h) : inv ds h' := by
  have joined : ∀ past, inv past h → inv (past ++ ds) h' := by
    clear first
    induction c with
    | stop =>
      intro past hpast
      rwa [List.append_nil]
    | outside o _ ih => exact fun past hpast => ih past (outside _ _ _ o hpast)
    | @deed a p ts result _ _ _ ds hp run _ ih =>
      intro past hpast
      rw [List.append_cons]
      exact ih _ (deed past ⟨a, ts, result⟩ p _ _ hp run hpast)
  exact joined [] first

/-- **The calls of a course are those of a history.** -/
theorem history (c : Course s h ds h') :
    History s (fun _ => True) h (Deed.turnsOf ds) h' := by
  have joined : ∀ {start ts}, History s (fun _ => True) start ts h →
      History s (fun _ => True) start (ts ++ Deed.turnsOf ds) h' := by
    induction c with
    | stop =>
      intro start ts before
      rw [Deed.turnsOf, List.flatMap_nil, List.append_nil]
      exact before
    | outside o _ ih => exact fun before => ih (before.outside o)
    | deed hp run _ ih =>
      intro start ts before
      rw [Deed.turnsOf, List.flatMap_cons, ← List.append_assoc]
      exact ih (before.act trivial hp run)
  exact joined .start

end Course

/-- **Every history is told by a course.** -/
theorem History.course {s : Settings} {allowed : Act → Prop} {start h : Hub} {ts : List Turn}
    (hist : History s allowed start ts h) : ∃ ds, Course s start ds h ∧ Deed.turnsOf ds = ts := by
  induction hist with
  | start => exact ⟨[], .stop start, rfl⟩
  | @act a α p result _ us _ _ _ _ hp run ih =>
    obtain ⟨ds, c, rfl⟩ := ih
    obtain rfl := hp.result_eq
    refine ⟨ds ++ [⟨a, us, result⟩], c.append (.deed hp run (.stop _)), ?_⟩
    simp [Deed.turnsOf]
  | outside _ o ih =>
    obtain ⟨ds, c, rfl⟩ := ih
    refine ⟨ds, ?_, rfl⟩
    simpa using c.append (.outside o (.stop _))

end NotificationRelay
