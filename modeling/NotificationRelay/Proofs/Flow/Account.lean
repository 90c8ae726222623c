/-
# What processing a feed does, and what it leaves alone

Processing a stored feed is three stages, each of which may fail on its own: sessions are offered
the feed, it is broadcast, and it is marked as processed. `Processing.account` puts together what
comes of them, whatever calls to the store fail and whatever the world outside does meanwhile. The
cases are told apart by which calls were lost (`Turn.lost`): the watermark was not reached, or the
mark could not be written, or neither. How a broadcast ends whose watermark answers is
`Broadcast.Ends`; a feed whose processing fails is as it was but for an attempt
(`Processing.Attempted`). Each stage is looked at alone, for its calls are none of the others'
(`Processing.staged_of_process`, `Processing.Staged`).

What is left alone is said once for all cases, call by call: the calls made while a feed is
processed (`Call.tends`) keep everything but that feed, the watermark of the broadcast, queues and
the sink (`Hub.KeptBut`).
-/
import NotificationRelay.Proofs.Broadcast.Publishing
import NotificationRelay.Proofs.Session.Offering

namespace NotificationRelay

/-! ## What is left alone -/

/-- Two stores that differ in one feed, though not in its identifier, and in the watermark of the
broadcast, if in anything. -/
structure Store.KeptBut (i : FeedId) (s s' : Store) : Prop where
  ids : s'.ids = s.ids
  others : ∀ j, j ≠ i → s'.feed? j = s.feed? j
  watermarks : ∀ key, key ≠ Broadcast.watermarkKey → s'.watermark? key = s.watermark? key
  rest : s' = { s with feeds := s'.feeds, watermarks := s'.watermarks }

/-- Two hubs that differ in one feed, the watermark of the broadcast, queues and the sink, if in
anything. -/
structure Hub.KeptBut (i : FeedId) (h h' : Hub) : Prop where
  store : h.store.KeptBut i h'.store
  cache : h'.cache = h.cache
  registry : h'.registry = h.registry
  called : h'.called = h.called

/-- A call that is made while a feed is processed. -/
def Call.tends (i : FeedId) : Call → Bool
  | .complete j _ => decide (j = i)
  | .bump j => decide (j = i)
  | .advance _ _ => true
  | .clientsFor _ => true
  | .nodes => true
  | .offer _ _ => true
  | .post _ => true
  | .note _ => true
  | _ => false

namespace Store.KeptBut

variable {i : FeedId} {s s' s'' : Store}

theorem refl (i : FeedId) (s : Store) : s.KeptBut i s := ⟨rfl, fun _ _ => rfl, fun _ _ => rfl, rfl⟩

theorem trans (first : s.KeptBut i s') (second : s'.KeptBut i s'') : s.KeptBut i s'' where
  ids := second.ids.trans first.ids
  others j hj := (second.others j hj).trans (first.others j hj)
  watermarks key hkey := (second.watermarks key hkey).trans (first.watermarks key hkey)
  rest := by rw [second.rest, first.rest]

/-- A change of a feed leaves other feeds alone. -/
theorem update (i : FeedId) (s : Store) {change : Feed → Feed} (same : ∀ f, (change f).id = f.id) :
    s.KeptBut i (s.update i change).2 := by
  rw [update_snd]
  refine ⟨map_modify s i same, fun j hj => ?_, fun _ _ => rfl, rfl⟩
  rw [feed?_modify s i j same, if_neg hj]

/-- Moving the watermark of the broadcast leaves the feeds and other watermarks alone. -/
theorem advance (i : FeedId) (s : Store) (epoch : Int) :
    s.KeptBut i (s.advance Broadcast.watermarkKey epoch).2 := by
  have moved : s.KeptBut i (s.setWatermark Broadcast.watermarkKey epoch) := by
    refine ⟨rfl, fun _ _ => rfl, fun key hkey => ?_, rfl⟩
    simp [setWatermark, watermark?, Table.get?_put, Ne.symm hkey]
  unfold Store.advance
  split
  · split
    · exact .refl i s
    · exact moved
  · exact moved

end Store.KeptBut

namespace Hub.KeptBut

variable {i : FeedId} {h h' h'' : Hub}

theorem trans (first : h.KeptBut i h') (second : h'.KeptBut i h'') : h.KeptBut i h'' where
  store := first.store.trans second.store
  cache := second.cache.trans first.cache
  registry := second.registry.trans first.registry
  called := second.called.trans first.called

/-- A hub of which only the store has changed is kept as the store is. -/
theorem of_store (kept : h.store.KeptBut i h'.store)
    (rest : h' = { h with store := h'.store }) : h.KeptBut i h' := by
  rw [rest]
  exact ⟨kept, rfl, rfl, rfl⟩

/-- A hub of which only the queues have changed is kept. -/
theorem of_queues (rest : h' = { h with queues := h'.queues }) : h.KeptBut i h' := by
  rw [rest]
  exact ⟨.refl i h.store, rfl, rfl, rfl⟩

/-- A hub of which only the sink has changed is kept. -/
theorem of_sink (rest : h' = { h with sink := h'.sink }) : h.KeptBut i h' := by
  rw [rest]
  exact ⟨.refl i h.store, rfl, rfl, rfl⟩

/-- An offer changes queues only. -/
theorem offer (h : Hub) (k : SessionId) (e : Event) : h.KeptBut i (h.offer k e).2 := by
  refine of_queues ?_
  unfold Hub.offer
  split <;> rfl

/-- What happens outside changes queues and the sink only. -/
theorem outside (o : h.Outside h') : h.KeptBut i h' := by
  cases o with
  | read k most =>
    refine of_queues ?_
    unfold Hub.take
    split <;> rfl
  | leave k =>
    refine of_queues ?_
    unfold Hub.closeQueue
    split <;> rfl
  | turn => exact of_sink rfl

end Hub.KeptBut

/-- A call that is made while a feed is processed leaves everything else alone. -/
theorem Call.keptBut_perform {i : FeedId} {c : Call} (tends : c.tends i = true) (outages : Outages)
    (h : Hub) : h.KeptBut i (c.perform outages h).2 := by
  have guarded : ∀ {α : Type} (operation : Stored α × Store), h.store.KeptBut i operation.2 →
      h.KeptBut i (outages.guard c h operation).2 := fun operation kept => by
    unfold Outages.guard
    split
    · exact .of_store (.refl i h.store) rfl
    · exact .of_store kept rfl
  cases c with
  | complete j p =>
    obtain rfl : j = i := of_decide_eq_true tends
    exact guarded _ (.update j h.store fun _ => rfl)
  | bump j =>
    obtain rfl : j = i := of_decide_eq_true tends
    exact guarded _ (.update j h.store fun _ => rfl)
  | advance j epoch => exact guarded _ (.advance i h.store epoch)
  | offer k e => exact .offer h k e
  | post m => exact .of_sink rfl
  | clientsFor | nodes | note => exact .of_store (.refl i h.store) rfl
  | _ => cases tends

/-! ## What comes of each stage -/

/-- A call was made in turns, and was lost. -/
def Turn.lost (c : Call) (ts : List Turn) : Prop := ∃ u ∈ ts, u.call = c ∧ u.failed

/-- A feed was let through: its epoch is on the watermark, and one message that carries it, and no
other, has been handed over, once. -/
structure Broadcast.LetThrough (t : Topic) (f : Feed) (m : Message) (before after : Store)
    (ts : List Turn) : Prop where
  on : t.enabled = true
  admitted : before.Admits f.epoch
  moved : after.mark = some f.epoch
  carries : m.Carries t f.id f.toDraft
  once : ts.filterMap Turn.posted? = [m]

/-- How the broadcast of a feed ends if the watermark can be consulted: without a topic nothing
is asked or sent; a feed below the watermark is stale, and nothing is sent; any other is let
through, and it is up to the sink whether it is published. -/
inductive Broadcast.Ends (t : Topic) (f : Feed) (before after : Store) (ts : List Turn) :
    Outcome → Prop
  | disabled (off : t.enabled = false) (unasked : ∀ u ∈ ts, ∀ i e, u.call ≠ .advance i e)
      (still : after.mark = before.mark) (silent : ts.filterMap Turn.posted? = []) :
      Ends t f before after ts .disabled
  | stale (on : t.enabled = true) (below : ¬ before.Admits f.epoch)
      (still : after.mark = before.mark) (silent : ts.filterMap Turn.posted? = []) :
      Ends t f before after ts .stale
  | published {m : Message} (through : LetThrough t f m before after ts)
      (accepted : ts.filterMap Turn.published? = [m]) : Ends t f before after ts .published
  | failed {m : Message} (through : LetThrough t f m before after ts)
      (refused : ts.filterMap Turn.published? = []) : Ends t f before after ts .failed

/-- A feed that was found as `g` has been attempted: it has one attempt more, up to the greatest
number of 32 bits, unless the call by which that is counted was lost, and it is the same
otherwise. -/
structure Processing.Attempted (g : Feed) (ts : List Turn) (after : Store) : Prop where
  counted : ¬ Turn.lost (.bump g.id) ts →
    after.feed? g.id = some { g with attempts := min (g.attempts + 1) 4294967295 }
  uncounted : Turn.lost (.bump g.id) ts → after.feed? g.id = some g

/-- All that comes of processing a feed that is stored as `g`, with the payload that is sent. -/
structure Processing.Account (t : Broadcast.Topic) (f g : Feed) (payload : Payload) (h : Hub)
    (ts : List Turn) (result : Except FeedError Report) (h' : Hub) : Prop where
  /-- The payload is that of the feed, stamped. -/
  stamped : f.payload.Stamped f.id f.epoch payload
  /-- Everybody whom the registry finds is offered the feed first, with this payload, and that is
  everybody to whom it is due where the registry is right about who is connected. What the watermark
  is asked comes after that, and nobody is offered anything any more. -/
  told : ∃ us vs toClient toNode, ts = us ++ vs ∧
    toClient.TellsClient f.id f.toDraft ∧ toNode.TellsNode f.id f.toDraft ∧
    us.map (·.call) = .note f.id :: .clientsFor f.recipients :: .nodes ::
      ((h.registry.clientsFor f.recipients).map (.offer · toClient) ++
        h.registry.nodes.map (.offer · toNode)) ∧
    (∀ seat, h.registry.Seats seat → ∀ k, f.toDraft.Due f.id (seat k) (Turn.offersTo k us)) ∧
    ∀ v ∈ vs, ∀ k e, v.call ≠ .offer k e
  /-- The watermark was not reached. -/
  unavailable : Turn.lost (.advance f.id f.epoch) ts →
    ts.filterMap Turn.posted? = [] ∧ h'.store.mark = h.store.mark ∧
      Attempted g ts h'.store ∧ result = .error (.watermarkUnavailable f.id)
  /-- It answered, or nobody asked it, and the feed was marked as processed or that was lost. -/
  settled : ¬ Turn.lost (.advance f.id f.epoch) ts →
    ∃ outcome, Broadcast.Ends t f h.store h'.store ts outcome ∧
      (¬ Turn.lost (.complete f.id payload) ts →
        h'.store.feed? f.id = some { g with processed := true, payload := payload } ∧
          ∃ report, result = .ok ⟨report, outcome⟩) ∧
      (Turn.lost (.complete f.id payload) ts →
        Attempted g ts h'.store ∧ ∃ e, result = .error (.completion f.id e))
  /-- Nothing else has changed. -/
  frame : h.KeptBut f.id h'

variable {t : Broadcast.Topic} {f g : Feed} {h h' : Hub} {ts us vs : List Turn} {c : Call}

/-- The stages of processing a feed. -/
inductive Processing.Stage where
  | telling
  | broadcast
  | settling

/-- The stage at which a call is made. -/
def Call.stage? : Call → Option Processing.Stage
  | .note _ => some .telling
  | .clientsFor _ => some .telling
  | .nodes => some .telling
  | .offer _ _ => some .telling
  | .advance _ _ => some .broadcast
  | .post _ => some .broadcast
  | .complete _ _ => some .settling
  | .bump _ => some .settling
  | _ => none

namespace Turn

/-- A call is lost in one of two parts if it is lost in the whole. -/
theorem lost_append : lost c (ts ++ us) ↔ lost c ts ∨ lost c us := by
  simp only [lost, List.mem_append, or_and_right, exists_or]

/-- A call that is not made is not lost. -/
theorem not_lost_of_other (other : ∀ u ∈ ts, u.call ≠ c) : ¬ lost c ts :=
  fun ⟨u, hu, made, _⟩ => other u hu made

/-- A call is lost in the first turn or in a later one. -/
theorem lost_cons {u : Turn} : lost c (u :: ts) ↔ u.call = c ∧ u.failed ∨ lost c ts := by
  simp only [lost, List.mem_cons, or_and_right, exists_or, exists_eq_left]

/-- In a single turn a call is lost if it is the one that was made, and it fails. -/
theorem lost_singleton {u : Turn} : lost c [u] ↔ u.call = c ∧ u.failed := by
  simp [lost]

/-- A call of one stage is not made at another. -/
theorem call_ne_of_stage {stage stage' : Processing.Stage}
    (within : ∀ u ∈ ts, u.call.stage? = some stage) (own : c.stage? = some stage')
    (other : stage' ≠ stage) : ∀ u ∈ ts, u.call ≠ c := fun u hu made =>
  other (Option.some.inj (own.symm.trans (made ▸ within u hu)))

/-- Nothing is handed over at another stage than the broadcast. -/
theorem unposted_of_stage {u : Turn} (other : u.call.stage? ≠ some .broadcast) :
    u.posted? = none ∧ u.published? = none := by
  obtain ⟨_, c, _, _⟩ := u
  cases c with
  | post => exact absurd rfl other
  | _ => exact ⟨rfl, rfl⟩

end Turn

/-- An answer that reports a failure is one. -/
theorem Call.error_of_failureOf {α : Type} {answer : Stored α} {e : StoreError}
    (failure : failureOf answer = some e) : answer = .error e := by
  cases answer with
  | ok a => cases failure
  | error e' => exact congrArg Except.error (Option.some.inj failure)

/-- A message that is handed over is published if the sink accepts it. -/
theorem Turn.published?_post (m : Broadcast.Message) (outages : Outages) (h : Hub) :
    ((Call.post m).turn outages h).published? =
      if (Call.perform outages (.post m) h).1 then some m else none := by
  unfold Call.turn
  generalize (Call.perform outages (.post m) h).1 = accepted
  cases accepted <;> rfl

namespace Broadcast

/-- The calls of a broadcast belong to its stage. -/
theorem Makes.stage?_eq (made : Makes t f c) : c.stage? = some .broadcast := by
  cases made <;> rfl

/-- A message is handed over by one call, whatever the sink answers. -/
theorem ends_of_post {m : Message} {outcome : Outcome}
    (r : (Program.bind (Program.perform (.post m)) fun accepted =>
      if accepted then .done .published else .done .failed).Runs h ts outcome h') :
    h'.store = h.store ∧ ts.map (·.call) = [.post m] ∧ ts.filterMap Turn.posted? = [m] ∧
      (outcome = .published ∧ ts.filterMap Turn.published? = [m] ∨
        outcome = .failed ∧ ts.filterMap Turn.published? = []) := by
  obtain ⟨h₁, outages, us, out, rfl, rest⟩ := Program.Runs.of_call r
  have answered := Turn.published?_post m outages h₁
  replace rest : (if (Call.perform outages (.post m) h₁).1 then .done .published
      else .done .failed : Program Outcome).Runs (Call.perform outages (.post m) h₁).2 us outcome
        h' := rest
  have still : h'.store = h.store := by
    have passive : (if (Call.perform outages (.post m) h₁).1 then .done .published
        else .done .failed : Program Outcome).Passive := by split <;> trivial
    have after : h'.store = h₁.store := rest.store_of_passive passive
    rw [after, Hub.store_eq_of_outside out]
  split at rest
  · next accepted =>
    obtain ⟨rfl, rfl, -⟩ := Program.Runs.of_done rest
    rw [if_pos accepted] at answered
    exact ⟨still, rfl, rfl, .inl ⟨rfl, by simp [answered]⟩⟩
  · next refused =>
    obtain ⟨rfl, rfl, -⟩ := Program.Runs.of_done rest
    rw [if_neg refused] at answered
    exact ⟨still, rfl, rfl, .inr ⟨rfl, by simp [answered]⟩⟩

/-- **A feed that passes the watermark is let through.** The message is handed over, and whether it
is published is up to the sink. -/
theorem ends_of_passed {h₁ h₂ : Hub} {outages : Outages} {outcome : Outcome}
    (on : t.enabled = true) (reached : ¬ ((Call.advance f.id f.epoch).turn outages h₁).failed)
    (passed : (h.store.advance watermarkKey f.epoch).1 = true)
    (moved : h₂.store = (h.store.advance watermarkKey f.epoch).2)
    (rest : (Program.bind (Program.perform (.post (t.message f f.enriched))) fun accepted =>
      if accepted then .done .published else .done .failed).Runs h₂ us outcome h') :
    h'.store.feeds = h.store.feeds ∧ outcome ≠ .watermarkUnavailable ∧
      ¬ Turn.lost (.advance f.id f.epoch) ((Call.advance f.id f.epoch).turn outages h₁ :: us) ∧
      Ends t f h.store h'.store ((Call.advance f.id f.epoch).turn outages h₁ :: us) outcome := by
  obtain ⟨store, posts, once, answered⟩ := ends_of_post rest
  obtain ⟨_, advanced⟩ := h.store.advance_snd watermarkKey f.epoch
  have left : h'.store = (h.store.advance watermarkKey f.epoch).2 := store.trans moved
  have other : ∀ u ∈ us, u.call ≠ .advance f.id f.epoch := fun u hu made => by
    have posted := List.mem_map_of_mem (f := fun u : Turn => u.call) hu
    rw [posts, made] at posted
    cases List.mem_singleton.1 posted
  have notLost : ¬ Turn.lost (.advance f.id f.epoch)
      ((Call.advance f.id f.epoch).turn outages h₁ :: us) := fun loses =>
    (Turn.lost_cons.1 loses).elim (fun failed => reached failed.2) (Turn.not_lost_of_other other)
  have through : LetThrough t f (t.message f f.enriched) h.store h'.store
      ((Call.advance f.id f.epoch).turn outages h₁ :: us) :=
    ⟨on, (h.store.advance_fst_iff f.epoch).1 passed,
      (congrArg Store.mark left).trans (h.store.mark_advance_of_passed f.epoch passed),
      t.carries_message f, once⟩
  have feeds : h'.store.feeds = h.store.feeds := by rw [left, advanced]
  rcases answered with ⟨rfl, accepted⟩ | ⟨rfl, refused⟩
  · exact ⟨feeds, nofun, notLost, .published through accepted⟩
  · exact ⟨feeds, nofun, notLost, .failed through refused⟩

/-- **A broadcast is lost, or ends as it should.** No feed is touched by it. -/
theorem ends_of_publish {outcome : Outcome} (r : (publish t f f.enriched).Runs h ts outcome h') :
    h'.store.feeds = h.store.feeds ∧
      (Turn.lost (.advance f.id f.epoch) ts ∧ outcome = .watermarkUnavailable ∧
          ts.filterMap Turn.posted? = [] ∧ h'.store.mark = h.store.mark ∨
        ¬ Turn.lost (.advance f.id f.epoch) ts ∧ outcome ≠ .watermarkUnavailable ∧
          Ends t f h.store h'.store ts outcome) := by
  unfold publish at r
  split at r
  · next on =>
    obtain ⟨h₁, outages, us, out, rfl, rest⟩ := Program.Runs.of_call r
    have same := Hub.store_eq_of_outside out
    by_cases lost : ((Call.advance f.id f.epoch).turn outages h₁).failed
    · have unchanged := Call.perform_of_failed _ outages h₁ lost
      have loses : Turn.lost (.advance f.id f.epoch)
          ((Call.advance f.id f.epoch).turn outages h₁ :: us) :=
        Turn.lost_cons.2 (.inl ⟨rfl, lost⟩)
      obtain ⟨reason, failure⟩ := lost
      have answer : (Call.perform outages (.advance f.id f.epoch) h₁).1 =
          .error (.unavailable reason) := Call.error_of_failureOf failure
      rw [answer, unchanged] at rest
      obtain ⟨rfl, rfl, out'⟩ := Program.Runs.of_done rest
      have still : h'.store = h.store := (Hub.store_eq_of_outside out').trans same
      exact ⟨congrArg Store.feeds still, .inl ⟨loses, rfl, rfl, congrArg Store.mark still⟩⟩
    · have answer := Call.answer_advance lost
      have moved := Call.store_perform_of_not_failed _ outages h₁ lost
      rw [answer, same] at rest
      rw [same] at moved
      cases passed : (h.store.advance watermarkKey f.epoch).1 with
      | false =>
        rw [passed] at rest
        obtain ⟨rfl, rfl, out'⟩ := Program.Runs.of_done rest
        have still : h'.store = h.store := by
          rw [Hub.store_eq_of_outside out', moved]
          exact h.store.advance_snd_of_refused f.epoch passed
        have below : ¬ h.store.Admits f.epoch := fun admitted => by
          rw [(h.store.advance_fst_iff f.epoch).2 admitted] at passed
          cases passed
        have reached : ¬ Turn.lost (.advance f.id f.epoch)
            [(Call.advance f.id f.epoch).turn outages h₁] := fun loses =>
          lost (Turn.lost_singleton.1 loses).2
        exact ⟨congrArg Store.feeds still,
          .inr ⟨reached, nofun, .stale on below (congrArg Store.mark still) rfl⟩⟩
      | true =>
        rw [passed] at rest
        obtain ⟨feeds, available, reached, ends⟩ := ends_of_passed on lost passed moved rest
        exact ⟨feeds, .inr ⟨reached, available, ends⟩⟩
  · next off =>
    obtain ⟨rfl, rfl, out⟩ := Program.Runs.of_done r
    have same := Hub.store_eq_of_outside out
    refine ⟨congrArg Store.feeds same, .inr ⟨?_, nofun, ?_⟩⟩
    · exact Turn.not_lost_of_other fun u hu => absurd hu List.not_mem_nil
    · exact .disabled (Bool.eq_false_iff.2 off) (fun u hu => absurd hu List.not_mem_nil)
        (congrArg Store.mark same) rfl

end Broadcast

/-- A feed that is there is changed as it should be. -/
theorem Store.feed?_update {s : Store} {i : FeedId} (stored : s.feed? i = some g)
    {change : Feed → Feed} (same : ∀ f, (change f).id = f.id) :
    (s.update i change).2.feed? i = some (change g) := by
  rw [update_snd, feed?_modify s i i same, if_pos rfl, stored]
  rfl

namespace Processing

/-- What is counted is counted by the calls that are made for it. -/
theorem Attempted.append {s : Store} (attempted : Attempted g vs s)
    (other : ∀ u ∈ us, u.call ≠ .bump g.id) : Attempted g (us ++ vs) s where
  counted reached := attempted.counted (mt (fun loses => Turn.lost_append.2 (.inr loses)) reached)
  uncounted loses := attempted.uncounted
    ((Turn.lost_append.1 loses).resolve_left (Turn.not_lost_of_other other))

/-- An attempt is counted by one call, and nothing comes of it if that is lost. -/
theorem attempted_of_bump {α : Type} {a b : α} (stored : h.store.feed? f.id = some g)
    (r : (Program.bind (Program.perform (.bump f.id)) fun _ => .done a).Runs h ts b h') :
    b = a ∧ Attempted g ts h'.store := by
  obtain ⟨h₁, outages, us, out, rfl, rest⟩ := Program.Runs.of_call r
  obtain ⟨rfl, rfl, out'⟩ := Program.Runs.of_done rest
  have same := Hub.store_eq_of_outside out
  have after := Hub.store_eq_of_outside out'
  have id : g.id = f.id := Store.id_of_feed? stored
  refine ⟨rfl, fun reached => ?_, fun loses => ?_⟩
  · have reached : ¬ ((Call.bump f.id).turn outages h₁).failed := fun lost =>
      reached (Turn.lost_singleton.2 ⟨congrArg Call.bump id.symm, lost⟩)
    have bumped : (h.store.update f.id Feed.bumped).2.feed? g.id = some g.bumped := by
      rw [id]
      exact Store.feed?_update stored fun _ => rfl
    rw [after, Call.store_perform_of_not_failed _ outages h₁ reached, same]
    exact bumped
  · have lost := (Turn.lost_singleton.1 loses).2
    rw [after, Call.perform_of_failed _ outages h₁ lost, same, id, stored]

/-- **A feed whose broadcast has ended is marked as processed**, unless that is lost. -/
theorem marked_of_settle {dispatch : Dispatch.Report} {outcome : Broadcast.Outcome}
    {result : Except FeedError Report} (available : outcome ≠ .watermarkUnavailable)
    (stored : h.store.feed? f.id = some g)
    (r : (settle f dispatch outcome).Runs h ts result h') :
    (¬ Turn.lost (.complete f.id f.enriched) ts →
      h'.store.feed? f.id = some (g.completed f.enriched) ∧ result = .ok ⟨dispatch, outcome⟩) ∧
    (Turn.lost (.complete f.id f.enriched) ts →
      Attempted g ts h'.store ∧ ∃ e, result = .error (.completion f.id e)) := by
  unfold settle at r
  rw [if_neg available] at r
  obtain ⟨h₁, outages, us, out, rfl, rest⟩ := Program.Runs.of_call r
  have same := Hub.store_eq_of_outside out
  have storedThen : h₁.store.feed? f.id = some g := by rw [same, stored]
  by_cases lost : ((Call.complete f.id f.enriched).turn outages h₁).failed
  · have loses : Turn.lost (.complete f.id f.enriched)
        ((Call.complete f.id f.enriched).turn outages h₁ :: us) :=
      Turn.lost_cons.2 (.inl ⟨rfl, lost⟩)
    refine ⟨fun reached => absurd loses reached, fun _ => ?_⟩
    have unchanged := Call.perform_of_failed _ outages h₁ lost
    obtain ⟨reason, failure⟩ := lost
    have answer : (Call.perform outages (.complete f.id f.enriched) h₁).1 =
        .error (.unavailable reason) := Call.error_of_failureOf failure
    rw [answer, unchanged] at rest
    obtain ⟨rfl, attempted⟩ := attempted_of_bump storedThen rest
    rw [← List.singleton_append]
    refine ⟨attempted.append fun u hu => ?_, _, rfl⟩
    obtain rfl := List.mem_singleton.1 hu
    exact nofun
  · have answer := Call.answer_complete (by rw [storedThen]; rfl) lost
    rw [answer] at rest
    obtain ⟨rfl, rfl, out'⟩ := Program.Runs.of_done rest
    refine ⟨fun _ => ⟨?_, rfl⟩, fun loses => ?_⟩
    · rw [Hub.store_eq_of_outside out', Call.store_perform_of_not_failed _ outages h₁ lost]
      exact Store.feed?_update storedThen fun _ => rfl
    · exact absurd (Turn.lost_singleton.1 loses).2 lost

/-- Where the watermark was not reached an attempt is counted. -/
theorem attempted_of_settle {dispatch : Dispatch.Report} {result : Except FeedError Report}
    (stored : h.store.feed? f.id = some g)
    (r : (settle f dispatch .watermarkUnavailable).Runs h ts result h') :
    result = .error (.watermarkUnavailable f.id) ∧ Attempted g ts h'.store := by
  unfold settle at r
  rw [if_pos rfl] at r
  exact attempted_of_bump stored r

/-- The watermark stays where the broadcast has left it. -/
theorem mark_of_settle {dispatch : Dispatch.Report} {outcome : Broadcast.Outcome}
    {result : Except FeedError Report} (r : (settle f dispatch outcome).Runs h ts result h') :
    h'.store.mark = h.store.mark := by
  have only : (settle f dispatch outcome).Only fun c => ∀ i e, c ≠ .advance i e :=
    only_settle f (fun _ _ => nofun) (fun _ _ => nofun) dispatch outcome
  exact (r.keeps (fun g => g.store.mark = h.store.mark) only
    (fun _ _ o hg => (congrArg Store.mark o.store_eq).trans hg)
    (fun _ outages g hc hg => (Call.mark_perform_of_other hc outages g).trans hg) rfl).1

/-! ## The stages put together -/

/-- Turns of the three stages, one after another. -/
structure Staged (ts us vs ws : List Turn) : Prop where
  whole : ts = us ++ (vs ++ ws)
  telling : ∀ u ∈ us, u.call.stage? = some .telling
  broadcast : ∀ v ∈ vs, v.call.stage? = some .broadcast
  settling : ∀ w ∈ ws, w.call.stage? = some .settling

namespace Staged

variable {ws : List Turn}

/-- A call is lost at its own stage, if at all. -/
theorem lost_broadcast (staged : Staged ts us vs ws) (hc : c.stage? = some .broadcast) :
    Turn.lost c ts ↔ Turn.lost c vs := by
  have before := Turn.not_lost_of_other (Turn.call_ne_of_stage staged.telling hc (by simp))
  have after := Turn.not_lost_of_other (Turn.call_ne_of_stage staged.settling hc (by simp))
  rw [staged.whole, Turn.lost_append, Turn.lost_append]
  exact ⟨fun lost => (lost.resolve_left before).resolve_right after, fun lost => .inr (.inl lost)⟩

/-- A call that settles what becomes of a feed is lost at the last stage, if at all. -/
theorem lost_settling (staged : Staged ts us vs ws) (hc : c.stage? = some .settling) :
    Turn.lost c ts ↔ Turn.lost c ws := by
  have before := Turn.not_lost_of_other (Turn.call_ne_of_stage staged.telling hc (by simp))
  have during := Turn.not_lost_of_other (Turn.call_ne_of_stage staged.broadcast hc (by simp))
  rw [staged.whole, Turn.lost_append, Turn.lost_append]
  exact ⟨fun lost => (lost.resolve_left before).resolve_left during, fun lost => .inr (.inr lost)⟩

/-- Only calls of the last stage count an attempt. -/
theorem attempted (staged : Staged ts us vs ws) {s : Store} (attempted : Attempted g ws s) :
    Attempted g ts s := by
  rw [staged.whole, ← List.append_assoc]
  refine attempted.append fun u hu => ?_
  rcases List.mem_append.1 hu with hu | hu
  · exact Turn.call_ne_of_stage staged.telling rfl (by simp) u hu
  · exact Turn.call_ne_of_stage staged.broadcast rfl (by simp) u hu

/-- Nothing is offered any more when the first stage is over. -/
theorem not_offer (staged : Staged ts us vs ws) {u : Turn} (hu : u ∈ vs ++ ws) (k : SessionId)
    (e : Event) : u.call ≠ .offer k e := by
  rcases List.mem_append.1 hu with hu | hu
  · exact Turn.call_ne_of_stage staged.broadcast rfl (by simp) u hu
  · exact Turn.call_ne_of_stage staged.settling rfl (by simp) u hu

/-- What is read off turns of the broadcast only is read off its stage. -/
theorem filterMap_eq {β : Type} {read : Turn → Option β} (staged : Staged ts us vs ws)
    (silent : ∀ u : Turn, u.call.stage? ≠ some .broadcast → read u = none) :
    ts.filterMap read = vs.filterMap read := by
  have before : us.filterMap read = [] := List.filterMap_eq_nil_iff.2 fun u hu =>
    silent u (by simp [staged.telling u hu])
  have after : ws.filterMap read = [] := List.filterMap_eq_nil_iff.2 fun u hu =>
    silent u (by simp [staged.settling u hu])
  rw [staged.whole, List.filterMap_append, List.filterMap_append, before, after, List.nil_append,
    List.append_nil]

/-- Messages are handed over at the stage of the broadcast only. -/
theorem posted (staged : Staged ts us vs ws) :
    ts.filterMap Turn.posted? = vs.filterMap Turn.posted? :=
  staged.filterMap_eq fun _ other => (Turn.unposted_of_stage other).1

/-- Messages are published at the stage of the broadcast only. -/
theorem published (staged : Staged ts us vs ws) :
    ts.filterMap Turn.published? = vs.filterMap Turn.published? :=
  staged.filterMap_eq fun _ other => (Turn.unposted_of_stage other).2

/-- How a broadcast ends is seen from its own stage. -/
theorem ends {before after after' : Store} {outcome : Broadcast.Outcome}
    (staged : Staged ts us vs ws) (ends : Broadcast.Ends t f before after vs outcome)
    (mark : after'.mark = after.mark) : Broadcast.Ends t f before after' ts outcome := by
  have through : ∀ {m}, Broadcast.LetThrough t f m before after vs →
      Broadcast.LetThrough t f m before after' ts := fun through =>
    ⟨through.on, through.admitted, mark.trans through.moved, through.carries,
      staged.posted.trans through.once⟩
  cases ends with
  | disabled off unasked still silent =>
    refine .disabled off (fun u hu i e => ?_) (mark.trans still) (staged.posted.trans silent)
    rw [staged.whole, List.mem_append, List.mem_append] at hu
    rcases hu with hu | hu | hu
    · exact Turn.call_ne_of_stage staged.telling rfl (by simp) u hu
    · exact unasked u hu i e
    · exact Turn.call_ne_of_stage staged.settling rfl (by simp) u hu
  | stale on below still silent =>
    exact .stale on below (mark.trans still) (staged.posted.trans silent)
  | published passed accepted =>
    exact .published (through passed) (staged.published.trans accepted)
  | failed passed refused => exact .failed (through passed) (staged.published.trans refused)

end Staged

/-- A feed is processed in three stages: sessions are told as the registry has them, the feed is
broadcast, and it is settled what becomes of it. -/
theorem staged_of_process {result : Except FeedError Report}
    (r : (process t f).Runs h ts result h') :
    ∃ us vs ws report outcome h₁ h₂, Staged ts us vs ws ∧
      us.map (·.call) = .note f.id :: Dispatch.calls h.registry f f.enriched ∧
      h₁.store = h.store ∧ (Broadcast.publish t f f.enriched).Runs h₁ vs outcome h₂ ∧
      (settle f report outcome).Runs h₂ ws result h' := by
  rw [process_eq] at r
  obtain ⟨h₀, outages, us, out, rfl, rest⟩ := Program.Runs.of_call r
  replace rest : ((Dispatch.dispatch f f.enriched).bind _).Runs h₀ us result h' := rest
  obtain ⟨us₁, us, report, h₁, rfl, dispatched, rest⟩ := rest.of_bind
  obtain ⟨us₂, us₃, outcome, h₂, rfl, published, settled⟩ := rest.of_bind
  have same : h₁.store = h.store :=
    (dispatched.store_of_passive (Dispatch.passive_dispatch f f.enriched)).trans
      (Hub.store_eq_of_outside out)
  have told := Dispatch.calls_of_dispatch dispatched
  rw [Hub.registry_eq_of_outside out] at told
  have offered : (Dispatch.dispatch f f.enriched).Only fun c => c.stage? = some .telling :=
    Dispatch.only_dispatch rfl rfl (fun _ => rfl) fun _ => rfl
  have settles : (settle f report outcome).Only fun c => c.stage? = some .settling := by
    refine only_settle f ?_ ?_ report outcome <;> rfl
  refine ⟨_ :: us₁, us₂, us₃, report, outcome, h₁, h₂, ⟨rfl, ?_, ?_, settled.only settles⟩,
    congrArg (_ :: ·) told, same, published, settled⟩
  · exact List.forall_mem_cons.2 ⟨rfl, dispatched.only offered⟩
  · exact published.only ((Broadcast.only_publish t f).mono fun _ hc => hc.stage?_eq)

/-- All calls that are made while a feed is processed tend to this feed. -/
theorem only_tends (t : Broadcast.Topic) (f : Feed) :
    (process t f).Only fun c => c.tends f.id = true := by
  have own : decide (f.id = f.id) = true := decide_eq_true rfl
  rw [process_eq]
  have offered : (Dispatch.dispatch f f.enriched).Only fun c => c.tends f.id = true :=
    Dispatch.only_dispatch rfl rfl (fun _ => rfl) fun _ => rfl
  refine Program.Only.bind (Program.only_perform rfl) fun _ => offered.bind fun dispatch => ?_
  refine ((Broadcast.only_publish t f).mono fun c hc => ?_).bind fun outcome => ?_
  · cases hc <;> rfl
  · exact only_settle f own own dispatch outcome

/-- Whatever becomes of a feed, everything else is left alone. -/
theorem keptBut_of_process {result : Except FeedError Report}
    (r : (process t f).Runs h ts result h') : h.KeptBut f.id h' :=
  (r.keeps (fun g => h.KeptBut f.id g) (only_tends t f) (fun _ _ o kept => kept.trans (.outside o))
    (fun _ outages g tends kept => kept.trans (Call.keptBut_perform tends outages g))
    (.of_queues rfl)).1

/-- **The account of processing a feed.** Whatever registry, watermark and sink it meets, whatever
calls to the store fail and whatever readers and the far end of the topic do meanwhile: a feed that
is stored under its identifier is offered, with its payload stamped, to everybody whom the registry
finds for it before the watermark is consulted. If that is lost, nothing is handed over, an attempt
is counted and the failure is the result. Otherwise the broadcast ends as it should, and then either
the feed is marked as processed with the stamped payload, its attempts as they were, and the result
is a report, even if the sink refused the message; or that is lost too, an attempt is counted, and
this failure is the result, while the watermark stays where the broadcast left it. Nothing else
changes in any case. -/
theorem account {result : Except FeedError Report} (stored : h.store.feed? f.id = some g)
    (r : (process t f).Runs h ts result h') : ∃ payload, Account t f g payload h ts result h' := by
  obtain ⟨us, vs, ws, report, outcome, h₁, h₂, staged, told, same, published, settled⟩ :=
    staged_of_process r
  obtain ⟨feeds, ends⟩ := Broadcast.ends_of_publish published
  have storedThen : h₂.store.feed? f.id = some g := by
    rw [Store.feed?, feeds, same]
    exact stored
  have mark := mark_of_settle settled
  have lostAdvance := staged.lost_broadcast (c := .advance f.id f.epoch) rfl
  have lostComplete := staged.lost_settling (c := .complete f.id f.enriched) rfl
  refine ⟨f.enriched, f.payload.stamped_enrich f.id f.epoch, ⟨us, vs ++ ws, _, _, staged.whole,
    Event.tellsClient_forClient f, Event.tellsNode_forNode f, told, fun seat right k => ?_,
    fun v hv => staged.not_offer hv⟩, fun lost => ?_, fun reached => ?_, keptBut_of_process r⟩
  · have due : Turn.offersTo k us = f.due (seat k) := by
      rw [← right.sent_eq, ← Dispatch.offeredTo?_calls, Turn.offersTo_eq, told]
      rfl
    rw [due]
    exact f.due_of_draft (seat k)
  · obtain ⟨-, rfl, silent, still⟩ := ends.resolve_right fun ends => ends.1 (lostAdvance.1 lost)
    obtain ⟨failure, attempted⟩ := attempted_of_settle storedThen settled
    have unmoved : h'.store.mark = h.store.mark := by rw [mark, still, same]
    exact ⟨staged.posted.trans silent, unmoved, staged.attempted attempted, failure⟩
  · obtain ⟨-, available, ends⟩ := ends.resolve_left fun ends => reached (lostAdvance.2 ends.1)
    obtain ⟨marked, unmarked⟩ := marked_of_settle available storedThen settled
    rw [same] at ends
    refine ⟨outcome, staged.ends ends mark, fun completes => ?_, fun lost => ?_⟩
    · obtain ⟨record, done⟩ := marked (mt lostComplete.2 completes)
      exact ⟨record, report, done⟩
    · obtain ⟨attempted, failure⟩ := unmarked (lostComplete.1 lost)
      exact ⟨staged.attempted attempted, failure⟩

/-- A feed whose mark as processed is lost. -/
theorem account_of_lostMark :
    let f := Feed.ofDraft 1 (.sample "p" ["solana:alice"] 5)
    Hub.oneFiled.store.feed? f.id = some f ∧
      ∃ payload, Account Settings.sample.topic f f payload Hub.oneFiled
        ((process Settings.sample.topic f).turns .ofCompletion Hub.oneFiled)
        ((process Settings.sample.topic f).run .ofCompletion Hub.oneFiled).1
        ((process Settings.sample.topic f).run .ofCompletion Hub.oneFiled).2 := by
  intro f
  have stored : Hub.oneFiled.store.feed? f.id = some f := by rfl
  exact ⟨stored, account stored (Program.runs_run .ofCompletion _ _)⟩

end Processing

end NotificationRelay
