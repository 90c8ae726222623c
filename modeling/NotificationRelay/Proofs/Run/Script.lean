/-
# Runs by script

A course leaves much open: which calls fail, what the world outside does and when, and in which
order the feeds of a batch take turns. To compare two courses that differ in one respect only, all
of it is settled beforehand here, by numbers and not by answers. A `Moment` is what happens before
a call and which calls fail at it, and a program is played by a moment for each of its calls
(`Program.play`). The feeds of a batch take turns by a list that says whose call is next
(`Program.interleave`). An `Errand` is an act with both, and errands are carried out one after
another (`Errand.deeds`).

Nothing is lost. What is played is a run (`Program.runs_play`) and every run can be played
(`Program.Runs.exists_play`); whatever comes of programs side by side comes of some list of turns
(`Program.Weave.exists_order`); so every course consists of errands
(`Course.exists_errands`).
-/
import NotificationRelay.Proofs.Run.Course

namespace NotificationRelay

/-! ## Playing a program -/

/-- Something that happens to a hub without a call of the relay. -/
inductive Stir where
  /-- A reader takes events from its queue. -/
  | read (id : SessionId) (most : Nat)
  /-- A reader goes away. -/
  | leave (id : SessionId)
  /-- The far end of the topic is reached or lost, and settles its next answers. -/
  | turn (reachable : Bool) (answers : List Nat)
  /-- The queue of a session becomes another one. -/
  | refit (id : SessionId) (queue : EventQueue)

namespace Stir

/-- The hub after something has happened. -/
def perform (h : Hub) : Stir → Hub
  | .read id most => (h.take id most).2
  | .leave id => h.closeQueue id
  | .turn reachable answers => { h with sink := ⟨reachable, answers, h.sink.log⟩ }
  | .refit id queue => h.setQueue id queue

/-- Whether it is something that the world outside can do. A queue is another one only where two
courses are compared that have opened it differently. -/
def isOutside : Stir → Bool
  | .refit _ _ => false
  | _ => true

/-- What happens outside by a script may happen outside. -/
theorem outside {x : Stir} (hx : x.isOutside = true) (h : Hub) : h.Outside (x.perform h) := by
  cases x with
  | read id most => exact .read h id most
  | leave id => exact .leave h id
  | turn reachable answers => exact .turn h reachable answers
  | refit => cases hx

end Stir

/-- Whatever may happen outside can be put into a script. -/
theorem Hub.Outside.exists_stir {h h' : Hub} (o : h.Outside h') :
    ∃ x : Stir, x.isOutside = true ∧ x.perform h = h' := by
  cases o with
  | read id most => exact ⟨.read id most, rfl, rfl⟩
  | leave id => exact ⟨.leave id, rfl, rfl⟩
  | turn reachable answers => exact ⟨.turn reachable answers, rfl, rfl⟩

/-- What happens before a call, and which calls fail at it. -/
structure Moment where
  stirs : List Stir
  outages : Outages

namespace Moment

/-- The hub that a call finds. -/
def stir (m : Moment) (h : Hub) : Hub := m.stirs.foldl Stir.perform h

/-- Nothing happens that the world outside cannot do. -/
def Natural (m : Moment) : Prop := ∀ x ∈ m.stirs, x.isOutside = true

/-- Nothing happens in an empty moment. -/
theorem natural_nil (outages : Outages) : Natural ⟨[], outages⟩ :=
  fun _ hx => absurd hx List.not_mem_nil

/-- What happens in a natural moment happens outside. -/
theorem outside_stir {m : Moment} (hm : m.Natural) (h : Hub) :
    Relation.ReflTransGen Hub.Outside h (m.stir h) := by
  obtain ⟨stirs, outages⟩ := m
  induction stirs generalizing h with
  | nil => exact .refl
  | cons x rest ih =>
    refine .head (x.outside (hm x List.mem_cons_self) h) (ih _ fun y hy => ?_)
    exact hm y (List.mem_cons_of_mem _ hy)

end Moment

/-- A moment for each call that a program makes, and one for its end. -/
abbrev Script := Nat → Moment

namespace Script

/-- Nothing happens, and no call fails. -/
def calm : Script := fun _ => ⟨[], .none⟩

/-- The calm script is natural. -/
theorem natural_calm (n : Nat) : (calm n).Natural := Moment.natural_nil .none

/-- A script after a first moment. -/
def next (first : Moment) (rest : Script) : Script
  | 0 => first
  | n + 1 => rest n

/-- The script after its first moment. -/
def later (script : Script) : Script := fun n => script (n + 1)

/-- A script is natural if its first moment and the rest of it are. -/
theorem natural_next {first : Moment} {rest : Script} (hf : first.Natural)
    (hr : ∀ n, (rest n).Natural) (n : Nat) : (next first rest n).Natural := by
  cases n with
  | zero => exact hf
  | succ n => exact hr n

end Script

/-- What there is of a program that has been played. -/
structure Played (α : Type) where
  turns : List Turn
  result : α
  hub : Hub

namespace Program

variable {α β : Type}

/-- Plays a program by a script. -/
def play : Program α → Script → Hub → Played α
  | .done a, script, h => ⟨[], a, (script 0).stir h⟩
  | .call c next, script, h =>
    let found := (script 0).stir h
    let made := c.perform (script 0).outages found
    let rest := (next made.1).play script.later made.2
    { rest with turns := c.turn (script 0).outages found :: rest.turns }

/-- **What is played is a run.** -/
theorem runs_play (p : Program α) {script : Script} (hs : ∀ n, (script n).Natural) (h : Hub) :
    p.Runs h (p.play script h).turns (p.play script h).result (p.play script h).hub := by
  induction p generalizing script h with
  | done a => exact .after_outside ((script 0).outside_stir (hs 0) h) (.done a _)
  | call c next ih =>
    refine .after_outside ((script 0).outside_stir (hs 0) h) (.call (script 0).outages ?_)
    exact ih _ (fun n => hs (n + 1)) _

/-- **Every run can be played.** -/
theorem Runs.exists_play {p : Program α} {h h' : Hub} {ts : List Turn} {a : α}
    (r : p.Runs h ts a h') :
    ∃ script : Script, (∀ n, (script n).Natural) ∧ p.play script h = ⟨ts, a, h'⟩ := by
  induction r with
  | done a h => exact ⟨fun _ => ⟨[], .none⟩, fun _ => Moment.natural_nil .none, rfl⟩
  | @call outages c next h h' ts a _ ih =>
    obtain ⟨script, natural, played⟩ := ih
    refine ⟨.next ⟨[], outages⟩ script,
      Script.natural_next (Moment.natural_nil outages) natural, ?_⟩
    have first : (Program.call c next).play (.next ⟨[], outages⟩ script) h =
        { (next (c.perform outages h).1).play script (c.perform outages h).2 with
          turns := c.turn outages h ::
            ((next (c.perform outages h).1).play script (c.perform outages h).2).turns } := rfl
    rw [first, played]
  | @outside p h h₁ h' ts a o _ ih =>
    obtain ⟨script, natural, played⟩ := ih
    obtain ⟨x, hx, rfl⟩ := o.exists_stir
    have eventful : Moment.Natural ⟨x :: (script 0).stirs, (script 0).outages⟩ := by
      intro y hy
      rcases List.mem_cons.1 hy with rfl | hy
      · exact hx
      · exact natural 0 y hy
    refine ⟨.next ⟨x :: (script 0).stirs, (script 0).outages⟩ script.later,
      Script.natural_next eventful fun n => natural (n + 1), ?_⟩
    rw [← played]
    cases p <;> rfl

/-! ## Taking turns by a list -/

/-- Programs side by side, at most `limit` of them at a time. The list says whose call is next; a
number that is not under way is passed over, and when the list is at its end what is left is
run one after another. -/
def interleave (limit : Nat) : List Nat → List (Program α) → Program (List α)
  | [], ps => forEach ps id
  | k :: order, ps =>
    match ps[k]? with
    | some (.call c next) =>
      if (ps.take k).countP isUnfinished < limit then
        .call c fun answer => interleave limit order (ps.set k (next answer))
      else interleave limit order ps
    | _ => interleave limit order ps

/-- Programs that take turns in some order are woven. -/
theorem weave_interleave {limit : Nat} (hl : 1 ≤ limit) (order : List Nat)
    (ps : List (Program α)) : Weave limit ps (interleave limit order ps) := by
  induction order generalizing ps with
  | nil =>
    have sequential := weave_forEach hl ps id
    rwa [List.map_id] at sequential
  | cons k order ih =>
    unfold interleave
    split
    · next c next here =>
      split
      · next room => exact .turn here room fun answer => ih _
      · exact ih ps
    · exact ih ps

/-- Doing for each result what is done already is done. -/
theorem forEach_done (results : List α) : forEach (results.map .done) id = .done results := by
  induction results with
  | nil => rfl
  | cons a results ih =>
    rw [List.map_cons, forEach, ih]
    rfl

/-- **Whatever comes of programs side by side comes of some list of turns.** -/
theorem Weave.exists_order {limit : Nat} {ps : List (Program α)} {w : Program (List α)}
    (hw : Weave limit ps w) {h h' : Hub} {ts : List Turn} {results : List α}
    (r : w.Runs h ts results h') :
    ∃ order, (interleave limit order ps).Runs h ts results h' := by
  induction hw generalizing h ts with
  | done results =>
    refine ⟨[], ?_⟩
    rwa [interleave, forEach_done]
  | @turn ps k c next rest here room _ ih =>
    obtain ⟨h₁, outages, us, out, rfl, more⟩ := r.of_call
    obtain ⟨order, runs⟩ := ih _ more
    refine ⟨k :: order, .after_outside out ?_⟩
    simp only [interleave, here, if_pos room]
    exact .call outages runs

/-- The same with something that comes after them. -/
theorem Weave.exists_order_bind {limit : Nat} {ps : List (Program α)} {w : Program (List α)}
    {k : List α → Program β} (hw : Weave limit ps w) {h h' : Hub} {ts : List Turn} {b : β}
    (r : (w.bind k).Runs h ts b h') :
    ∃ order, ((interleave limit order ps).bind k).Runs h ts b h' := by
  obtain ⟨us, vs, results, h₁, rfl, first, rest⟩ := r.of_bind
  obtain ⟨order, runs⟩ := hw.exists_order first
  exact ⟨order, runs.bind rest⟩

end Program

/-! ## Errands -/

/-- The program of an act whose feeds take turns by a list. -/
def Act.program (s : Settings) (order : List Nat) : (a : Act) → Program a.Result
  | .submit x epoch => Intake.submit x epoch
  | .add d => Intake.add d
  | .drain => Outbox.drainBy (fun ids => Program.interleave s.pipeline.concurrency order
      (ids.map (Outbox.relayOne s.topic))) s.pipeline.relayBatchSize
  | .retry => Retry.passBy (fun feeds => Program.interleave s.pipeline.concurrency order
      (feeds.map (Processing.process s.topic))) s.pipeline.maxAttempts s.pipeline.retryBatchSize
  | .process f => Processing.process s.topic f
  | .sweep now => Expiry.sweep now
  | .connect mode address => Gateway.connect s.bounds mode address
  | .receive mode id frame => Gateway.receive s.bounds mode id frame
  | .disconnect id => Program.perform (.unregister id)
  | .feeds raw isSpam includeHidden p =>
    Query.feeds s.query.maxPageSize raw isSpam includeHidden p
  | .channelFeeds raw isSpam channel p =>
    Query.channelFeeds s.query.maxPageSize raw isSpam channel p
  | .spamSenders raw => Query.spamSenders raw
  | .senderFeeds sender kind p => Query.senderFeeds s.query.maxPageSize sender kind p
  | .history start stop p => Query.history s.query.maxPageSize start stop p
  | .search request => Query.search s.query.maxPageSize request

/-- The program of an act performs it, in whatever order its parts take turns. -/
theorem Act.performedBy_program {s : Settings} (hc : 1 ≤ s.pipeline.concurrency)
    (order : List Nat) (a : Act) : a.PerformedBy s (a.program s order) := by
  cases a with
  | drain => exact .drain fun ids => Program.weave_interleave hc order _
  | retry => exact .retry fun feeds => Program.weave_interleave hc order _
  | submit x epoch => exact .submit x epoch
  | add d => exact .add d
  | process f => exact .process f
  | sweep now => exact .sweep now
  | connect mode address => exact .connect mode address
  | receive mode id frame => exact .receive mode id frame
  | disconnect id => exact .disconnect id
  | feeds raw isSpam includeHidden p => exact .feeds raw isSpam includeHidden p
  | channelFeeds raw isSpam channel p => exact .channelFeeds raw isSpam channel p
  | spamSenders raw => exact .spamSenders raw
  | senderFeeds sender kind p => exact .senderFeeds sender kind p
  | history start stop p => exact .history start stop p
  | search request => exact .search request

/-- Whatever comes of an act comes of its program with some list of turns. -/
theorem Act.PerformedBy.exists_order {s : Settings} {a : Act} {p : Program a.Result}
    (hp : a.PerformedBy s p) {h h' : Hub} {ts : List Turn} {result : a.Result}
    (r : p.Runs h ts result h') : ∃ order, (a.program s order).Runs h ts result h' := by
  cases hp with
  | @drain handle sideBySide =>
    obtain ⟨h₁, outages, us, out, rfl, rest⟩ := Program.Runs.of_call r
    cases ha : (Call.perform outages (.pending s.pipeline.relayBatchSize) h₁).1 with
    | error e =>
      rw [ha] at rest
      exact ⟨[], .after_outside out (.call outages (by rw [ha]; exact rest))⟩
    | ok ids =>
      rw [ha] at rest
      replace rest : ((handle ids).bind _).Runs _ us result h' := rest
      obtain ⟨order, runs⟩ := (sideBySide ids).exists_order_bind rest
      exact ⟨order, .after_outside out (.call outages (by rw [ha]; exact runs))⟩
  | @retry handle sideBySide =>
    obtain ⟨h₁, outages, us, out, rfl, rest⟩ := Program.Runs.of_call r
    cases ha : (Call.perform outages
        (.candidates s.pipeline.maxAttempts s.pipeline.retryBatchSize) h₁).1 with
    | error e =>
      rw [ha] at rest
      exact ⟨[], .after_outside out (.call outages (by rw [ha]; exact rest))⟩
    | ok feeds =>
      rw [ha] at rest
      replace rest : ((handle feeds).bind _).Runs _ us result h' := rest
      obtain ⟨order, runs⟩ := (sideBySide feeds).exists_order_bind rest
      exact ⟨order, .after_outside out (.call outages (by rw [ha]; exact runs))⟩
  | _ => exact ⟨[], r⟩

/-- An act to be done, with the order in which its feeds take turns and the script of its
program. -/
structure Errand where
  act : Act
  order : List Nat
  script : Script

namespace Errand

variable (s : Settings)

/-- How the program of an errand is played. -/
def played (e : Errand) (h : Hub) : Played e.act.Result := (e.act.program s e.order).play e.script h

/-- What has been done when an errand is done. -/
def deed (e : Errand) (h : Hub) : Deed := ⟨e.act, (e.played s h).turns, (e.played s h).result⟩

/-- Errands are done one after another: the deeds, and the hub that they leave. -/
def deeds : List Errand → Hub → List Deed × Hub
  | [], h => ([], h)
  | e :: rest, h => (e.deed s h :: (deeds rest (e.played s h).hub).1,
      (deeds rest (e.played s h).hub).2)

/-- Errands are done one after another. -/
theorem deeds_append (es fs : List Errand) (h : Hub) :
    deeds s (es ++ fs) h = ((deeds s es h).1 ++ (deeds s fs (deeds s es h).2).1,
      (deeds s fs (deeds s es h).2).2) := by
  induction es generalizing h with
  | nil => rfl
  | cons e es ih =>
    rw [List.cons_append, deeds, ih]
    rfl

/-- **What is done on errands is a course.** -/
theorem course_deeds (hc : 1 ≤ s.pipeline.concurrency) {es : List Errand}
    (natural : ∀ e ∈ es, ∀ n, (e.script n).Natural) (h : Hub) :
    Course s h (deeds s es h).1 (deeds s es h).2 := by
  induction es generalizing h with
  | nil => exact .stop h
  | cons e rest ih =>
    refine .deed (Act.performedBy_program hc e.order e.act)
      (Program.runs_play _ (natural e List.mem_cons_self) h) ?_
    exact ih (fun e' he' => natural e' (List.mem_cons_of_mem _ he')) _

end Errand

/-- **Every course consists of errands.** What is left at its end is the world outside. -/
theorem Course.exists_errands {s : Settings} {h h' : Hub} {ds : List Deed}
    (c : Course s h ds h') : ∃ es h₁, (∀ e ∈ es, ∀ n, (e.script n).Natural) ∧
      Errand.deeds s es h = (ds, h₁) ∧ Relation.ReflTransGen Hub.Outside h₁ h' := by
  induction ds generalizing h with
  | nil => exact ⟨[], h, fun _ he => absurd he List.not_mem_nil, rfl, c.outside_of_nil⟩
  | cons d ds ih =>
    obtain ⟨p, h₁, hp, run, rest⟩ := c.of_cons
    obtain ⟨order, runs⟩ := hp.exists_order run
    obtain ⟨script, natural, played⟩ := runs.exists_play
    obtain ⟨es, h₂, natural', done, out⟩ := ih rest
    refine ⟨⟨d.act, order, script⟩ :: es, h₂, fun e he => ?_, ?_, out⟩
    · rcases List.mem_cons.1 he with rfl | he
      · exact natural
      · exact natural' e he
    · simp only [Errand.deeds, Errand.deed, Errand.played, played, done]

end NotificationRelay
