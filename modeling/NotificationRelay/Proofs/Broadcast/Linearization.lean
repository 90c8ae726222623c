/-
# The watermark while feeds are processed side by side

The check of an epoch and the advance of the watermark are one call. So however the calls of
feeds that are processed side by side take turns, the watermark is at every point the highest of
its first value and of the epochs let through so far (`Turn.Chain.mark_of_split`), as if each feed
had been broadcast at the moment when it asked.

By its own calls a feed that is processed asks once, is refused or let through, and is handed over
in the latter case only (`Broadcast.Stage`, `Processing.stage_of_goes`). Between the two calls
others may move the watermark; that does not matter to it any more, and to those that ask later it
matters at once. All of this together is `Program.Interleaved.watermark_linearized`.
-/
import NotificationRelay.Proofs.Broadcast.Publishing
import NotificationRelay.Proofs.Feed.Contents
import NotificationRelay.Proofs.Run.Interleaving

namespace NotificationRelay

/-! ## The watermark and the epochs let through -/

/-- The epochs that turns let through, in order. -/
def Turn.accepted (ts : List Turn) : List Int := ts.filterMap fun t => t.passed?.map (·.2)

namespace Turn

theorem accepted_append (ts us : List Turn) : accepted (ts ++ us) = accepted ts ++ accepted us :=
  List.filterMap_append

theorem accepted_singleton (t : Turn) : accepted [t] = (t.passed?.map (·.2)).toList := by
  unfold accepted
  cases ht : t.passed? <;> simp [ht]

/-- A turn moves the watermark if it lets a feed through, and not otherwise. -/
theorem mark_after_accepted {t : Turn} (ht : t.Genuine) :
    t.after.store.mark = highest t.before.store.mark (accepted [t]) := by
  rw [accepted_singleton]
  cases hp : t.passed? with
  | none =>
    rcases mark_after_of_passed ht with same | ⟨i, e, passed, -⟩
    · rw [same]
      exact (highest_nil _).symm
    · rw [hp] at passed
      cases passed
  | some p => rw [mark_after ht, reached?_of_passed? hp, Option.map_some]

/-- A call by which a feed is let through has not failed. -/
theorem not_failed_of_passed? {t : Turn} {p : FeedId × Int} (ht : t.passed? = some p) :
    ¬ t.failed := by
  rintro ⟨reason, hr⟩
  obtain ⟨h, c, a, h'⟩ := t
  cases c with
  | advance i e =>
    cases a with
    | error => cases ht
    | ok => cases hr
  | _ => cases ht

/-- Only a feed whose epoch the watermark admits is let through. -/
theorem admits_of_passed? {t : Turn} (ht : t.Genuine) {i : FeedId} {e : Int}
    (passed : t.passed? = some (i, e)) : t.before.store.Admits e :=
  (passed?_iff ht (call_of_passed? passed) (not_failed_of_passed? passed)).1 passed

namespace Chain

variable {s s' : Store} {ts us vs : List Turn} {t : Turn}

/-- **The watermark is the highest epoch let through.** -/
theorem mark_eq_accepted (c : Chain s ts s') : s'.mark = highest s.mark (accepted ts) := by
  induction c with
  | nil s => exact (highest_nil s.mark).symm
  | @cons t ts s' genuine _ ih =>
    have split : accepted (t :: ts) = accepted [t] ++ accepted ts := accepted_append [t] ts
    rw [ih, mark_after_accepted genuine, split, highest_append]

/-- The watermark before a turn and after it. -/
theorem mark_of_split (c : Chain s ts s') (hts : ts = us ++ t :: vs) :
    t.before.store.mark = highest s.mark (accepted us) ∧
    t.after.store.mark = highest s.mark (accepted (us ++ [t])) ∧
    ∀ w, t.before.store.mark = some w → ∃ w', t.after.store.mark = some w' ∧ w ≤ w' := by
  obtain ⟨s₁, before, after⟩ := Chain.of_append (hts ▸ c)
  cases after with
  | cons genuine _ =>
    have one : Chain t.before.store [t] t.after.store := .cons genuine (.nil _)
    exact ⟨before.mark_eq_accepted, (before.append one).mark_eq_accepted,
      fun w hw => one.mark_le hw⟩

/-- Once a greater epoch has been let through, a feed that asks is refused. -/
theorem refused_of_split (c : Chain s ts s') (hts : ts = us ++ t :: vs) {i : FeedId} {epoch e : Int}
    (asks : t.call = .advance i epoch) (he : e ∈ accepted us) (lower : epoch < e) :
    t.passed? = none := by
  cases passed : t.passed? with
  | none => rfl
  | some p =>
    obtain ⟨j, d⟩ := p
    obtain ⟨-, rfl⟩ : j = i ∧ d = epoch := by
      have call := (call_of_passed? passed).symm.trans asks
      simpa using call
    obtain ⟨s₁, before, after⟩ := Chain.of_append (hts ▸ c)
    cases after with
    | cons genuine _ =>
      obtain ⟨w, hw, above⟩ := le_highest_of_mem (w := s.mark) he
      have admitted := admits_of_passed? genuine passed w (before.mark_eq_accepted.trans hw)
      omega

end Chain
end Turn

/-! ## What one feed does -/

namespace Broadcast

/-- How far the broadcast of a feed has come by its own calls, if it goes on or if it has ended:
it has not asked; it has asked and goes on; it has asked and was not let through; or it was let
through and has been handed over. -/
inductive Stage (t : Topic) (f : Feed) : (goesOn : Bool) → List Turn → Prop
  | silent (goesOn : Bool) : Stage t f goesOn []
  | asked {u : Turn} (hu : u.call = .advance f.id f.epoch) : Stage t f true [u]
  | refused (goesOn : Bool) {u : Turn} (hu : u.call = .advance f.id f.epoch)
      (barred : u.passed? = none) : Stage t f goesOn [u]
  | handed (goesOn : Bool) {u v : Turn} (hu : u.passed? = some (f.id, f.epoch))
      (hv : v.call = .post (t.message f f.enriched)) : Stage t f goesOn [u, v]

variable {t : Topic} {f : Feed} {goesOn : Bool} {us : List Turn}

/-- What has ended or gone past the broadcast may go on with other things. -/
theorem Stage.of_ended (st : Stage t f false us) : Stage t f goesOn us := by
  cases st with
  | silent => exact .silent goesOn
  | refused _ hu barred => exact .refused goesOn hu barred
  | handed _ hu hv => exact .handed goesOn hu hv

/-- The messages that were handed over, if the broadcast has ended. -/
theorem Stage.posted (st : Stage t f false us) :
    (∃ u ∈ us, u.passed? = some (f.id, f.epoch)) ∧
        us.filterMap Turn.posted? = [t.message f f.enriched] ∨
      (∀ u ∈ us, u.passed? = none) ∧ us.filterMap Turn.posted? = [] := by
  cases st with
  | silent => exact .inr ⟨fun u hu => (nomatch hu), rfl⟩
  | @refused _ u hu barred =>
    refine .inr ⟨fun v hv => by rwa [List.mem_singleton.1 hv], ?_⟩
    simp [Turn.posted?, hu]
  | @handed _ u v hu hv =>
    refine .inl ⟨⟨u, List.mem_cons_self, hu⟩, ?_⟩
    simp [Turn.posted?, Turn.call_of_passed? hu, hv]

/-- A feed that asked and was refused is not handed over, whether the broadcast goes on or not. -/
theorem Stage.posted_of_refused (st : Stage t f goesOn us) {u : Turn} (hu : u ∈ us)
    (asks : u.call = .advance f.id f.epoch) (barred : u.passed? = none) :
    us.filterMap Turn.posted? = [] := by
  cases st with
  | silent => rfl
  | asked hv => simp [Turn.posted?, hv]
  | refused _ hv => simp [Turn.posted?, hv]
  | @handed _ v w hv hw =>
    rcases List.mem_cons.1 hu with rfl | hu
    · rw [hv] at barred
      cases barred
    · obtain rfl := List.mem_singleton.1 hu
      rw [hw] at asks
      cases asks

/-- The calls of a broadcast belong to it. -/
theorem Makes.broadcasts {c : Call} (hc : Makes t f c) : c.broadcasts = true := by
  cases hc <;> rfl

/-- A broadcast comes from one stage to the next. -/
theorem stage_of_goes {q : Program Outcome} (g : (publish t f f.enriched).Goes us q) :
    Stage t f q.isUnfinished us := by
  unfold publish at g
  split at g
  · rcases Program.Goes.of_call g with ⟨rfl, rfl⟩ | ⟨outages, h, vs, rfl, rest⟩
    · exact .silent _
    · cases ha : (Call.perform outages (.advance f.id f.epoch) h).1 with
      | error e =>
        rw [ha] at rest
        obtain ⟨rfl, rfl⟩ := Program.Goes.of_done rest
        exact .refused _ rfl (by simp only [Turn.passed?, Call.turn, ha])
      | ok passed =>
        rw [ha] at rest
        cases passed with
        | false =>
          obtain ⟨rfl, rfl⟩ := Program.Goes.of_done rest
          exact .refused _ rfl (by simp only [Turn.passed?, Call.turn, ha])
        | true =>
          rcases Program.Goes.of_call rest with ⟨rfl, rfl⟩ | ⟨outages', h', ws, rfl, last⟩
          · exact .asked rfl
          · have ended : ws = [] := by
              generalize (Call.perform outages' (.post (t.message f f.enriched)) h').1 = took
                at last
              cases took with
              | false => exact (Program.Goes.of_done last).1
              | true => exact (Program.Goes.of_done last).1
            subst ended
            exact .handed _ (by simp only [Turn.passed?, Call.turn, ha]) rfl
  · obtain ⟨rfl, rfl⟩ := Program.Goes.of_done g
    exact .silent _

end Broadcast

namespace Processing

open Program

variable {t : Broadcast.Topic} {f : Feed} {us : List Turn}

/-- The turns that ask for the watermark or hand a message over. -/
def broadcasting (us : List Turn) : List Turn := us.filter fun u => u.call.broadcasts

theorem broadcasting_append (us vs : List Turn) :
    broadcasting (us ++ vs) = broadcasting us ++ broadcasting vs :=
  List.filter_append ..

/-- Calls that do not belong to a broadcast are not among its own. -/
theorem broadcasting_eq_nil (quiet : ∀ u ∈ us, u.call.broadcasts = false) :
    broadcasting us = [] :=
  List.filter_eq_nil_iff.2 fun u hu => by rw [quiet u hu]; exact Bool.false_ne_true

/-- What is handed over is handed over by calls of a broadcast. -/
theorem posted_broadcasting (us : List Turn) :
    (broadcasting us).filterMap Turn.posted? = us.filterMap Turn.posted? := by
  unfold broadcasting
  rw [List.filterMap_filter]
  refine List.filterMap_congr fun u _ => ?_
  obtain ⟨_, c, _, _⟩ := u
  cases c <;> rfl

/-- A program that begins with calls that broadcast nothing is still among them or has gone on. -/
theorem broadcasting_of_bind {α β : Type} {p : Program α} {k : α → Program β} {q : Program β}
    (quiet : p.Only fun c => c.broadcasts = false) (g : (p.bind k).Goes us q) :
    broadcasting us = [] ∨ ∃ a vs, broadcasting us = broadcasting vs ∧ (k a).Goes vs q := by
  rcases Goes.of_bind g with ⟨p', here, -, -⟩ | ⟨ws, vs, a, rfl, first, rest⟩
  · exact .inl (broadcasting_eq_nil (here.only quiet).1)
  · refine .inr ⟨a, vs, ?_, rest⟩
    rw [broadcasting_append, broadcasting_eq_nil (first.only quiet).1, List.nil_append]

/-- What is broadcast while a feed is processed comes from its publication. -/
theorem stage_of_goes {q : Program (Except FeedError Report)} (g : (process t f).Goes us q) :
    Broadcast.Stage t f q.isUnfinished (broadcasting us) := by
  rw [process_eq] at g
  have noting : (perform (.note f.id)).Only fun c => c.broadcasts = false := only_perform rfl
  rcases broadcasting_of_bind noting g with none | ⟨-, us₁, same₁, g⟩
  · exact none ▸ .silent _
  have dispatching := (Dispatch.passive_dispatch f f.enriched).mono fun c hc =>
    Call.not_broadcasts_of_passive hc
  rcases broadcasting_of_bind dispatching g with none | ⟨dispatch, us₂, same₂, g⟩
  · exact (same₁.trans none) ▸ .silent _
  rw [same₁, same₂]
  have publishing {vs : List Turn} {p : Program Broadcast.Outcome}
      (here : (Broadcast.publish t f f.enriched).Goes vs p) : broadcasting vs = vs :=
    List.filter_eq_self.2 fun v hv => ((here.only (Broadcast.only_publish t f)).1 v hv).broadcasts
  rcases Goes.of_bind g with ⟨p, here, unfinished, rfl⟩ | ⟨vs, ws, outcome, rfl, third, g⟩
  · have stage := Broadcast.stage_of_goes here
    rw [publishing here, Goes.isUnfinished_bind _ unfinished, ← unfinished]
    exact stage
  · have settling : (settle f dispatch outcome).Only fun c => c.broadcasts = false := by
      apply only_settle f <;> rfl
    rw [broadcasting_append, publishing third, broadcasting_eq_nil (g.only settling).1,
      List.append_nil]
    exact (Broadcast.stage_of_goes third).of_ended

/-- Only turns that broadcast let a feed through. -/
theorem mem_broadcasting_of_passed? {u : Turn} (hu : u ∈ us) {p : FeedId × Int}
    (passed : u.passed? = some p) : u ∈ broadcasting us := by
  refine List.mem_filter.2 ⟨hu, ?_⟩
  rw [Turn.call_of_passed? passed]
  rfl

end Processing

/-! ## All feeds together -/

namespace Program.Interleaved

variable {t : Broadcast.Topic} {feeds : List Feed} {h h' : Hub} {moves : List (Nat × Turn)}
  {qs : List (Program (Except FeedError Processing.Report))}

/-- How far the broadcast of one of the feeds has come. -/
theorem stage (r : Interleaved (feeds.map (Processing.process t)) h moves qs h') {k : Nat}
    {f : Feed} (hk : feeds[k]? = some f) : ∃ q, qs[k]? = some q ∧
      Broadcast.Stage t f q.isUnfinished (Processing.broadcasting (Turn.share k moves)) := by
  obtain ⟨q, hq, goes⟩ := r.goes (p := Processing.process t f) (by rw [List.getElem?_map, hk]; rfl)
  exact ⟨q, hq, Processing.stage_of_goes goes⟩

/-- What is handed over is the message of a feed by the one that processes it. -/
theorem message_of_post (r : Interleaved (feeds.map (Processing.process t)) h moves qs h')
    {k : Nat} {u : Turn} (hu : (k, u) ∈ moves) {m : Broadcast.Message} (post : u.call = .post m) :
    ∃ f, feeds[k]? = some f ∧ m = t.message f f.enriched := by
  obtain ⟨p, q, hp, -, goes, mine⟩ := r.exists_goes hu
  rw [List.getElem?_map] at hp
  obtain ⟨f, hf, rfl⟩ := Option.map_eq_some_iff.1 hp
  have makes := (goes.only (Processing.only_process t f)).1 u mine
  rw [post] at makes
  cases makes with
  | passive hc => cases hc
  | broadcast hc =>
    cases hc
    exact ⟨f, hf, rfl⟩

/-- A feed that one call of its own hands over, or none, is handed over by no other call. -/
theorem handed_eq_nil (r : Interleaved (feeds.map (Processing.process t)) h moves qs h') {k : Nat}
    {f : Feed} (alone : ∀ j g, feeds[j]? = some g → g.id = f.id → j = k)
    (unsent : (Turn.share k moves).filterMap Turn.posted? = []) :
    handed f.id (moves.map (·.2)) = [] := by
  refine List.eq_nil_iff_forall_not_mem.2 fun m hm => ?_
  obtain ⟨hid, u, hu, post⟩ := call_of_mem_handed hm
  obtain ⟨⟨j, v⟩, hmove, same⟩ := List.mem_map.1 hu
  obtain rfl : v = u := same
  obtain ⟨g, hg, rfl⟩ := r.message_of_post hmove post
  obtain rfl := alone j g hg hid
  have silent := List.filterMap_eq_nil_iff.1 unsent _ (Turn.mem_share.2 hmove)
  simp [Turn.posted?, post] at silent

/-- **The watermark is linear under concurrency.** Feeds are processed side by side, of any
epochs, call by call in any order, and any call may fail. At every turn the watermark is the
highest of its first value and the epochs let through so far, before it and after it, and never
goes down. Whoever has come to an end has handed over one message, which carries its feed, if it
was let through, and nothing if not. A feed that asks after one of greater epoch has been let
through is never handed over. -/
theorem watermark_linearized (r : Interleaved (feeds.map (Processing.process t)) h moves qs h') :
    (∀ us k u vs, moves = us ++ (k, u) :: vs →
      u.before.store.mark = highest h.store.mark (Turn.accepted (us.map (·.2))) ∧
      u.after.store.mark = highest h.store.mark (Turn.accepted ((us ++ [(k, u)]).map (·.2))) ∧
      ∀ w, u.before.store.mark = some w → ∃ w', u.after.store.mark = some w' ∧ w ≤ w') ∧
    h'.store.mark = highest h.store.mark (Turn.accepted (moves.map (·.2))) ∧
    (∀ k f, feeds[k]? = some f → ∀ a, qs[k]? = some (.done a) →
      (∃ u ∈ Turn.share k moves, u.passed? = some (f.id, f.epoch)) ∧
          t.Sends f ((Turn.share k moves).filterMap Turn.posted?) ∨
        (∀ u ∈ Turn.share k moves, u.passed? = none) ∧
          (Turn.share k moves).filterMap Turn.posted? = []) ∧
    (∀ k f, feeds[k]? = some f → ∀ us u vs, moves = us ++ (k, u) :: vs →
      u.call = .advance f.id f.epoch → (∃ e ∈ Turn.accepted (us.map (·.2)), f.epoch < e) →
        (Turn.share k moves).filterMap Turn.posted? = [] ∧
        ((∀ j g, feeds[j]? = some g → g.id = f.id → j = k) →
          handed f.id (moves.map (·.2)) = [])) := by
  have split {us vs : List (Nat × Turn)} {k : Nat} {u : Turn} (hm : moves = us ++ (k, u) :: vs) :
      moves.map (·.2) = us.map (·.2) ++ u :: vs.map (·.2) := by
    rw [hm, List.map_append, List.map_cons]
  refine ⟨fun us k u vs hm => ?_, r.chain.mark_eq_accepted, fun k f hk a ha => ?_,
    fun k f hk us u vs hm asks ⟨e, he, lower⟩ => ?_⟩
  · rw [List.map_append]
    exact r.chain.mark_of_split (split hm)
  · obtain ⟨q, hq, stage⟩ := r.stage hk
    obtain rfl : q = .done a := Option.some.inj (hq.symm.trans ha)
    rw [← Processing.posted_broadcasting]
    rcases stage.posted with ⟨⟨u, hu, passed⟩, posted⟩ | ⟨barred, unsent⟩
    · rw [posted]
      exact .inl ⟨⟨u, List.mem_of_mem_filter hu, passed⟩, t.sends_message f⟩
    · refine .inr ⟨fun u hu => ?_, unsent⟩
      cases passed : u.passed? with
      | none => rfl
      | some p =>
        rw [barred u (Processing.mem_broadcasting_of_passed? hu passed)] at passed
        cases passed
  · obtain ⟨q, -, stage⟩ := r.stage hk
    -- the chain of all calls refuses it, and its own calls then hand nothing over
    have refused := r.chain.refused_of_split (split hm) asks he lower
    have mine : u ∈ Processing.broadcasting (Turn.share k moves) := by
      refine List.mem_filter.2 ⟨Turn.mem_share.2 ?_, by rw [asks]; rfl⟩
      rw [hm]
      exact List.mem_append_right _ List.mem_cons_self
    have unsent := stage.posted_of_refused mine asks refused
    rw [Processing.posted_broadcasting] at unsent
    exact ⟨unsent, fun alone => r.handed_eq_nil alone unsent⟩

/-- Two feeds in the wrong order that are under way together: the older asks, and is let through,
before the newer asks, and hands its message over after that. -/
def overlapping : List (Nat × Turn) × List (Program (Except FeedError Processing.Report)) × Hub :=
  takeTurns .none [1, 0, 0, 1, 1, 0, 0, 1, 0, 1, 0]
    (History.outOfOrder.store.feeds.map (Processing.process Settings.sample.topic))
    History.outOfOrder

/-- The newer feed, whose epoch is lower, is not handed over, and the older is. -/
theorem watermark_linearized_of_overlapping :
    (Turn.share 0 overlapping.1).filterMap Turn.posted? ≠ [] ∧
      (Turn.share 1 overlapping.1).filterMap Turn.posted? = [] ∧
      overlapping.2.2.store.mark = highest none [5] := by
  have run : Interleaved _ _ overlapping.1 overlapping.2.1 overlapping.2.2 :=
    of_takeTurns .none _ _ _
  obtain ⟨-, mark, -, late⟩ := watermark_linearized run
  obtain ⟨older, newer, there, hid, hepoch⟩ : ∃ f g, History.outOfOrder.store.feeds = [f, g] ∧
      g.id = 2 ∧ g.epoch = 3 := ⟨_, _, rfl, rfl, rfl⟩
  obtain ⟨u, hu, asks⟩ : ∃ u, overlapping.1[7]? = some (1, u) ∧ u.call = .advance 2 3 :=
    ⟨_, rfl, rfl⟩
  obtain ⟨inside, hu⟩ := List.getElem?_eq_some_iff.1 hu
  have split : overlapping.1 = overlapping.1.take 7 ++ (1, u) :: overlapping.1.drop 8 := by
    rw [← hu, ← List.drop_eq_getElem_cons inside, List.take_append_drop]
  have before : Turn.accepted ((overlapping.1.take 7).map (·.2)) = [5] := by decide +kernel
  have accepted : Turn.accepted (overlapping.1.map (·.2)) = [5] := by decide +kernel
  refine ⟨by decide +kernel, ?_, ?_⟩
  · refine (late 1 newer (by rw [there]; rfl) _ u _ split (by rw [asks, hid, hepoch])
      ⟨5, ?_, ?_⟩).1
    · rw [before]
      exact List.mem_singleton_self 5
    · rw [hepoch]
      decide
  · rw [mark, accepted]
    rfl

end Program.Interleaved
end NotificationRelay
