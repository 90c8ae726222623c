/-
# The size of a batch cannot be observed

What waits in the store to be processed stands in a line: the outbox in ascending order, and the
feeds that may be tried again with the fewest attempts first. A pass takes a first part of its line
and handles one after another. Where nothing fails, whatever is handled leaves the line and the rest
stays as it stands (`Backlog.next`). So it makes no difference where the line is cut. Any number of
passes does what one pass over so many more does (`Backlog.forEach_of_course`), apart from the calls
by which passes select.

What is done with a line depends on the store and the registry alone, and so passes that are
repeated until nothing is left do the same, however many they handle at a time
(`Course.batches_unobservable`).
-/
import NotificationRelay.Proofs.Flow.Indifference
import NotificationRelay.Proofs.Flow.Settling
import NotificationRelay.Proofs.Flow.Telling
import NotificationRelay.Proofs.Session.Waiting
import NotificationRelay.Proofs.Store.Reachability

namespace NotificationRelay

/-- A call by which a pass selects what it handles. -/
def Call.selects : Call → Bool
  | .pending _ => true
  | .candidates _ _ => true
  | _ => false

/-- A selection changes nothing. -/
theorem Call.still_of_selects {c : Call} (hc : c.selects = true) (outages : Outages) (h : Hub) :
    (c.perform outages h).2 = h := by
  cases c with
  | pending | candidates =>
    simp only [perform, Outages.guard]
    split <;> rfl
  | _ => cases hc

/-- A pass would find nothing to do. -/
inductive Act.OutOfWork (s : Settings) (store : Store) : Act → Prop
  | drain (empty : store.outbox = []) : OutOfWork s store .drain
  | retry (empty : Retry.selection s store = []) : OutOfWork s store .retry

/-- A pass is repeated, and no call fails, until it would find nothing to do. -/
structure Course.Exhausts (s : Settings) (a : Act) (h : Hub) (ds : List Deed) (h' : Hub) :
    Prop where
  course : Course s h ds h'
  passes : ∀ D ∈ ds, D.act = a
  reached : ∀ D ∈ ds, ∀ t ∈ D.turns, ¬ t.failed
  ended : a.OutOfWork s h'.store

/-! ## Runs that begin with a selection -/

namespace Program

variable {α β : Type} {h h' h'' : Hub} {ts : List Turn}

/-- What happens outside after a run belongs to it. -/
theorem Runs.before_outside {p : Program α} {a : α} (r : p.Runs h ts a h')
    (out : Relation.ReflTransGen Hub.Outside h' h'') : p.Runs h ts a h'' := by
  induction r with
  | done a h => exact .after_outside out (.done a h'')
  | call outages _ ih => exact .call outages (ih out)
  | outside o _ ih => exact .outside o (ih out)

/-- A run whose last step only reports on what has been done. -/
theorem Runs.of_bind_done {p : Program α} {finish : α → β} {b : β}
    (r : (p.bind fun x => .done (finish x)).Runs h ts b h') : ∃ x, p.Runs h ts x h' := by
  obtain ⟨us, vs, x, h₁, rfl, first, last⟩ := r.of_bind
  obtain ⟨rfl, -, out⟩ := last.of_done
  rw [List.append_nil]
  exact ⟨x, first.before_outside out⟩

/-- A program that begins by selecting something goes on with it on the hub as it was, if the call
does not fail. -/
theorem Runs.of_select {c : Call} {next : c.Answer → Program α} {a : α} {answer : c.Answer}
    (r : (Program.call c next).Runs h ts a h') (reached : ∀ t ∈ ts, ¬ t.failed)
    (still : ∀ outages g, (c.perform outages g).2 = g)
    (answered : ∀ outages g, ¬ (c.turn outages g).failed → g.store = h.store →
      (c.perform outages g).1 = answer) :
    ∃ t us, ts = t :: us ∧ t.call = c ∧ (next answer).Runs h us a h' := by
  obtain ⟨h₁, outages, us, out, rfl, rest⟩ := r.of_call
  rw [answered outages h₁ (reached _ List.mem_cons_self) (Hub.store_eq_of_outside out), still]
    at rest
  exact ⟨_, us, rfl, rfl, .after_outside out rest⟩

end Program

/-! ## Lines -/

/-- The calls of deeds, but for the first call of each, by which a pass selects what it handles. -/
def handlings (ds : List Deed) : List Turn := ds.flatMap (·.turns.tail)

/-- Where no call of the deeds fails, none of their handling does. -/
theorem not_failed_of_handlings {ds : List Deed} (reached : ∀ D ∈ ds, ∀ t ∈ D.turns, ¬ t.failed) :
    ∀ t ∈ handlings ds, ¬ t.failed := fun t ht => by
  obtain ⟨D, hD, ht⟩ := List.mem_flatMap.1 ht
  exact reached D hD t (List.mem_of_mem_tail ht)

/-- What is read off the calls of deeds is read off these, if nothing is read off selections. -/
theorem filterMap_handlings {β : Type} {f : Call → Option β}
    (unread : ∀ c, c.selects = true → f c = none) {ds : List Deed}
    (selects : ∀ D ∈ ds, ∃ t us, D.turns = t :: us ∧ t.call.selects = true) :
    ((Deed.turnsOf ds).map (·.call)).filterMap f = ((handlings ds).map (·.call)).filterMap f := by
  induction ds with
  | nil => rfl
  | cons D ds ih =>
    obtain ⟨⟨t, us, hts, here⟩, later⟩ := List.forall_mem_cons.1 selects
    unfold Deed.turnsOf handlings at ih ⊢
    rw [List.flatMap_cons, List.flatMap_cons, hts, List.cons_append, List.map_cons,
      List.filterMap_cons_none (unread _ here), List.map_append, List.filterMap_append, ih later,
      List.tail_cons, List.map_append, List.filterMap_append]

/-- What waits in a line in the store, and how it is handled where nothing fails. Handling what
comes first leaves the rest. -/
structure Backlog (β α : Type) where
  line : Store → List β
  handle : β → Program α
  alike : ∀ x, (handle x).Matches .records (fun _ _ => True) (handle x)
  next : ∀ {x : β} {rest : List β} {h h' : Hub} {ts : List Turn} {a : α}, h.store.Coherent →
    line h.store = x :: rest → (handle x).Runs h ts a h' → (∀ t ∈ ts, ¬ t.failed) →
    line h'.store = rest

namespace Backlog

variable {β α : Type} (B : Backlog β α) {h h' : Hub}

/-- Handling a first part of a line leaves the rest. -/
theorem line_of_forEach {xs rest : List β} {ts : List Turn} {results : List α}
    (coherent : h.store.Coherent) (hline : B.line h.store = xs ++ rest)
    (run : (Program.forEach xs B.handle).Runs h ts results h') (reached : ∀ t ∈ ts, ¬ t.failed) :
    B.line h'.store = rest := by
  induction xs generalizing h ts results with
  | nil =>
    obtain ⟨rfl, -, out⟩ := run.of_done
    rw [Hub.store_eq_of_outside out]
    exact hline
  | cons x xs ih =>
    obtain ⟨us, vs, a, h₁, rfl, first, more⟩ := run.of_bind
    obtain ⟨ws, zs, as, h₂, rfl, others, last⟩ := more.of_bind
    obtain ⟨rfl, -, out⟩ := last.of_done
    have one := B.next coherent hline first fun t ht => reached t (by simp [ht])
    exact ih (first.coherent coherent) one (others.before_outside out) fun t ht =>
      reached t (by simp [ht])

/-- A pass: what comes first in the line, up to a number, is handled after it has been selected. -/
def Pass (batch : Nat) (h : Hub) (ts : List Turn) (h' : Hub) : Prop :=
  ∃ t us results, ts = t :: us ∧ t.call.selects = true ∧
    (Program.forEach ((B.line h.store).take batch) B.handle).Runs h us results h'

/-- Wherever nothing fails, an act is such a pass, and it has nothing to do if nothing waits. -/
structure WorkedOffBy (s : Settings) (a : Act) (batch : Nat) : Prop where
  one : 1 ≤ batch
  pass : ∀ (D : Deed) (p : Program D.act.Result) (h h' : Hub), D.act = a → D.act.PerformedBy s p →
    p.Runs h D.turns D.result h' → (∀ t ∈ D.turns, ¬ t.failed) → B.Pass batch h D.turns h'
  ended : ∀ store, a.OutOfWork s store ↔ B.line store = []

variable {B} {s : Settings} {a : Act} {batch : Nat} {ds : List Deed}

/-- Each deed of a course of passes begins with a selection. -/
theorem selects_of_course (off : B.WorkedOffBy s a batch) (c : Course s h ds h')
    (passes : ∀ D ∈ ds, D.act = a) (reached : ∀ D ∈ ds, ∀ t ∈ D.turns, ¬ t.failed) :
    ∀ D ∈ ds, ∃ t us, D.turns = t :: us ∧ t.call.selects = true := by
  induction ds generalizing h with
  | nil => exact fun _ hD => nomatch hD
  | cons D ds ih =>
    obtain ⟨p, h₁, hp, run, rest⟩ := c.of_cons
    obtain ⟨act, acts⟩ := List.forall_mem_cons.1 passes
    obtain ⟨here, later⟩ := List.forall_mem_cons.1 reached
    obtain ⟨t, us, _, hts, selects, -⟩ := off.pass D p h h₁ act hp run here
    exact List.forall_mem_cons.2 ⟨⟨t, us, hts, selects⟩, ih rest acts later⟩

/-- **Passes add up.** Where nothing fails, passes handle what comes first in the line, up to as
many as they may take together, one after another, and leave the rest. -/
theorem forEach_of_course (off : B.WorkedOffBy s a batch) (c : Course s h ds h')
    (passes : ∀ D ∈ ds, D.act = a) (reached : ∀ D ∈ ds, ∀ t ∈ D.turns, ¬ t.failed)
    (coherent : h.store.Coherent) :
    (∃ results, (Program.forEach ((B.line h.store).take (ds.length * batch)) B.handle).Runs h
      (handlings ds) results h') ∧
    B.line h'.store = (B.line h.store).drop (ds.length * batch) := by
  induction ds generalizing h with
  | nil =>
    have out := c.outside_of_nil
    rw [List.length_nil, Nat.zero_mul, List.take_zero, List.drop_zero]
    exact ⟨⟨[], .after_outside out (.done [] h')⟩, by rw [Hub.store_eq_of_outside out]⟩
  | cons D ds ih =>
    obtain ⟨p, h₁, hp, run, rest⟩ := c.of_cons
    obtain ⟨act, acts⟩ := List.forall_mem_cons.1 passes
    obtain ⟨here, later⟩ := List.forall_mem_cons.1 reached
    obtain ⟨t, us, results, hts, -, handled⟩ := off.pass D p h h₁ act hp run here
    have first := B.line_of_forEach coherent (List.take_append_drop batch _).symm handled
      fun u hu => here u (hts ▸ List.mem_cons_of_mem t hu)
    obtain ⟨⟨more, others⟩, left⟩ := ih rest acts later (run.coherent coherent)
    rw [first] at others left
    have split : (D :: ds).length * batch = batch + ds.length * batch := by
      rw [List.length_cons, Nat.succ_mul, Nat.add_comm]
    have turns : handlings (D :: ds) = us ++ (handlings ds ++ []) := by
      rw [List.append_nil, handlings, List.flatMap_cons, hts, List.tail_cons]
      rfl
    rw [split]
    refine ⟨⟨results ++ more, ?_⟩, by rw [left, List.drop_drop]⟩
    rw [List.take_add, Program.forEach_append, turns]
    exact handled.bind (others.bind (.done _ h'))

/-- As many passes as stand in the line leave nothing to do. -/
theorem outOfWork_of_course (off : B.WorkedOffBy s a batch) (c : Course s h ds h')
    (passes : ∀ D ∈ ds, D.act = a) (reached : ∀ D ∈ ds, ∀ t ∈ D.turns, ¬ t.failed)
    (coherent : h.store.Coherent) (enough : (B.line h.store).length ≤ ds.length) :
    a.OutOfWork s h'.store := by
  rw [off.ended, (forEach_of_course off c passes reached coherent).2, List.drop_eq_nil_iff]
  exact Nat.le_trans enough (Nat.le_mul_of_pos_right _ off.one)

/-- Passes that leave nothing to do handle the whole line, one after another. -/
theorem forEach_of_exhausts (off : B.WorkedOffBy s a batch) (e : Course.Exhausts s a h ds h')
    (coherent : h.store.Coherent) :
    ∃ results, (Program.forEach (B.line h.store) B.handle).Runs h (handlings ds) results h' := by
  obtain ⟨⟨results, run⟩, rest⟩ := forEach_of_course off e.course e.passes e.reached coherent
  rw [(off.ended _).1 e.ended, eq_comm, List.drop_eq_nil_iff] at rest
  rw [List.take_of_length_le rest] at run
  exact ⟨results, run⟩

/-- **It makes no difference where a line is cut.** Passes that leave nothing to do make the same
calls, but for those by which they select, and leave the same records, however many they handle at
a time. -/
theorem same_of_exhausts {s' : Settings} {batch' : Nat} {ds' : List Deed} {h₁ h₂ : Hub}
    (off : B.WorkedOffBy s a batch) (off' : B.WorkedOffBy s' a batch')
    (coherent : h.store.Coherent) (e : Course.Exhausts s a h ds h₁)
    (e' : Course.Exhausts s' a h ds' h₂) :
    (handlings ds).map (·.call) = (handlings ds').map (·.call) ∧ h₁.SameRecords h₂ := by
  obtain ⟨_, run⟩ := forEach_of_exhausts off e coherent
  obtain ⟨_, run'⟩ := forEach_of_exhausts off' e' coherent
  have alike : (Program.forEach (B.line h.store) B.handle).Matches .records _
      (Program.forEach (B.line h.store) B.handle) := .forEach fun x _ => B.alike x
  obtain ⟨calls, -, same⟩ := alike.healthy (.refl h) run run'
    (not_failed_of_handlings e.reached) (not_failed_of_handlings e'.reached)
  exact ⟨calls, same⟩

/-- So nothing that is read off the calls tells the sizes of the batches, unless it is read off
selections. -/
theorem filterMap_of_exhausts {s' : Settings} {batch' : Nat} {ds' : List Deed} {h₁ h₂ : Hub}
    (off : B.WorkedOffBy s a batch) (off' : B.WorkedOffBy s' a batch')
    (coherent : h.store.Coherent) (e : Course.Exhausts s a h ds h₁)
    (e' : Course.Exhausts s' a h ds' h₂) {γ : Type} {f : Call → Option γ}
    (unread : ∀ c, c.selects = true → f c = none) :
    ((Deed.turnsOf ds).map (·.call)).filterMap f =
      ((Deed.turnsOf ds').map (·.call)).filterMap f := by
  rw [filterMap_handlings unread (selects_of_course off e.course e.passes e.reached),
    filterMap_handlings unread (selects_of_course off' e'.course e'.passes e'.reached),
    (same_of_exhausts off off' coherent e e').1]

end Backlog

/-! ## What becomes of the store where nothing fails -/

/-- A broadcast moves no more than watermarks, and is not held back unless a call fails. -/
theorem Broadcast.store_of_publish {t : Topic} {f : Feed} {payload : Payload} {outcome : Outcome}
    {h h' : Hub} {ts : List Turn} (r : (publish t f payload).Runs h ts outcome h')
    (reached : ∀ u ∈ ts, ¬ u.failed) : outcome ≠ .watermarkUnavailable ∧
      ∃ watermarks, h'.store = { h.store with watermarks := watermarks } := by
  unfold publish at r
  split at r
  · obtain ⟨h₁, outages₁, us, out₁, rfl, rest⟩ := Program.Runs.of_call r
    have asked := reached _ List.mem_cons_self
    rw [Call.answer_advance asked] at rest
    have moved := Call.store_perform_of_not_failed _ outages₁ h₁ asked
    obtain ⟨watermarks, advanced⟩ := h₁.store.advance_snd watermarkKey f.epoch
    have store : (Call.perform outages₁ (.advance f.id f.epoch) h₁).2.store =
        { h.store with watermarks := watermarks } := by
      rw [moved, ← Hub.store_eq_of_outside out₁]
      exact advanced
    cases passed : (h₁.store.advance watermarkKey f.epoch).1 with
    | false =>
      rw [passed] at rest
      obtain ⟨-, rfl, out₂⟩ := Program.Runs.of_done rest
      exact ⟨nofun, watermarks, (Hub.store_eq_of_outside out₂).trans store⟩
    | true =>
      rw [passed] at rest
      obtain ⟨h₂, outages₂, vs, out₂, rfl, more⟩ := Program.Runs.of_call rest
      cases accepted : (Call.perform outages₂ (.post (t.message f payload)) h₂).1 with
      | _ =>
        rw [accepted] at more
        obtain ⟨-, rfl, out₃⟩ := Program.Runs.of_done more
        refine ⟨nofun, watermarks, (Hub.store_eq_of_outside out₃).trans ?_⟩
        exact (Hub.store_eq_of_outside out₂).trans store
  · obtain ⟨-, rfl, out⟩ := r.of_done
    exact ⟨nofun, h.store.watermarks, Hub.store_eq_of_outside out⟩

/-- A stored feed that is processed is marked, and no more than watermarks move besides. -/
theorem Processing.store_of_process {t : Broadcast.Topic} {f : Feed} {h h' : Hub} {ts : List Turn}
    {result : Except FeedError Report} (r : (process t f).Runs h ts result h')
    (reached : ∀ u ∈ ts, ¬ u.failed) (there : (h.store.feed? f.id).isSome) :
    ∃ watermarks, h'.store =
      ({ h.store with watermarks := watermarks }.complete f.id f.enriched).2 := by
  obtain ⟨h₀, outages₀, us, out₀, rfl, rest⟩ := Program.Runs.of_call r
  replace rest : ((Dispatch.dispatch f f.enriched).bind _).Runs h₀ us result h' := rest
  obtain ⟨us₁, us, _, h₁, rfl, dispatched, rest⟩ := rest.of_bind
  replace rest : ((Broadcast.publish t f f.enriched).bind _).Runs h₁ us result h' := rest
  obtain ⟨us₂, us, outcome, h₂, rfl, published, rest⟩ := rest.of_bind
  have same : h₁.store = h.store :=
    (dispatched.store_of_passive (Dispatch.passive_dispatch f f.enriched)).trans
      (Hub.store_eq_of_outside out₀)
  obtain ⟨available, watermarks, moved⟩ := Broadcast.store_of_publish published fun u hu =>
    reached u (by simp [hu])
  rw [same] at moved
  replace rest : (if outcome = .watermarkUnavailable then _ else _ :
      Program (Except FeedError Report)).Runs h₂ us result h' := rest
  rw [if_neg available] at rest
  obtain ⟨h₃, outages₃, us, out₃, rfl, last⟩ := Program.Runs.of_call rest
  have found := (Hub.store_eq_of_outside out₃).trans moved
  have marked := reached ((Call.complete f.id f.enriched).turn outages₃ h₃) (by simp)
  have answer : (Call.perform outages₃ (.complete f.id f.enriched) h₃).1 = .ok () := by
    refine Call.answer_complete ?_ marked
    rw [found]
    exact there
  have left := Call.store_perform_of_not_failed _ outages₃ h₃ marked
  rw [answer] at last
  obtain ⟨-, -, out₄⟩ := Program.Runs.of_done last
  refine ⟨watermarks, ?_⟩
  rw [Hub.store_eq_of_outside out₄, left, found]
  rfl

namespace Outbox

variable {t : Broadcast.Topic} {i : FeedId} {h h' : Hub} {ts : List Turn} {b : Bool}

/-- An entry that is taken out without a failure is out. -/
theorem store_of_acknowledge (r : (acknowledge i).Runs h ts b h') (reached : ∀ u ∈ ts, ¬ u.failed) :
    h'.store = h.store.acknowledge i := by
  obtain ⟨h₁, outages, us, out, rfl, rest⟩ := Program.Runs.of_call r
  have taken := reached _ List.mem_cons_self
  have removed := Call.store_perform_of_not_failed _ outages h₁ taken
  rw [Hub.store_eq_of_outside out] at removed
  cases answer : (Call.perform outages (.acknowledge i) h₁).1 with
  | _ =>
    rw [answer] at rest
    obtain ⟨-, -, out₁⟩ := Program.Runs.of_done rest
    exact (Hub.store_eq_of_outside out₁).trans removed

/-- An entry that is handled leaves the outbox, whatever becomes of its feed. -/
theorem outbox_of_relayOne (r : (relayOne t i).Runs h ts b h') (reached : ∀ u ∈ ts, ¬ u.failed) :
    h'.store.outbox = h.store.outbox.filter fun n => decide (n ≠ i) := by
  obtain ⟨h₀, outages₀, us, out₀, rfl, rest⟩ := Program.Runs.of_call r
  have store := Hub.store_eq_of_outside out₀
  have loaded := reached _ List.mem_cons_self
  have later : ∀ u ∈ us, ¬ u.failed := fun u hu => reached u (List.mem_cons_of_mem _ hu)
  have answer : (Call.perform outages₀ (.load i) h₀).1 = .ok (h.store.feed? i) := by
    simp only [Call.perform, Outages.guard, Call.no_outage _ _ _ rfl loaded, readFrom, store]
  have still : (Call.perform outages₀ (.load i) h₀).2 = h₀ := by
    simp only [Call.perform, Outages.guard, Call.no_outage _ _ _ rfl loaded, readFrom]
  rw [answer, still] at rest
  have dropped : (acknowledge i).Runs h₀ us b h' →
      h'.store.outbox = h.store.outbox.filter fun n => decide (n ≠ i) := fun rest => by
    rw [store_of_acknowledge rest later, store]
    rfl
  cases hf : h.store.feed? i with
  | none =>
    rw [hf] at rest
    exact dropped rest
  | some f =>
    rw [hf] at rest
    replace rest : (if f.processed then acknowledge i else _ : Program Bool).Runs h₀ us b h' := rest
    split at rest
    · exact dropped rest
    · obtain ⟨vs, ws, _, h₁, rfl, processed, rest⟩ := Program.Runs.of_bind rest
      obtain rfl := Store.id_of_feed? hf
      obtain ⟨_, marked⟩ := Processing.store_of_process processed
        (fun u hu => later u (List.mem_append_left _ hu)) (by rw [store, hf]; rfl)
      rw [store_of_acknowledge rest fun u hu => later u (List.mem_append_right _ hu), marked,
        Store.complete, Store.update_snd, store]
      rfl

/-- The entries that wait for their first processing. -/
def backlog (t : Broadcast.Topic) : Backlog FeedId Bool where
  line := Store.outbox
  handle := relayOne t
  alike i := (matches_relayOne Likeness.sparesRecords_records t i).mono fun _ _ _ => trivial
  next {i rest _ _ _ _} coherent hline run reached := by
    have once := coherent.queued
    rw [hline, List.pairwise_cons] at once
    rw [outbox_of_relayOne run reached, hline, List.filter_cons_of_neg (by simp),
      List.filter_eq_self]
    exact fun j hj => decide_eq_true (Int.ne_of_gt (once.1 j hj))

/-- A pass over the outbox works it off. -/
theorem workedOff (s : Settings) (alone : s.pipeline.concurrency = 1)
    (one : 1 ≤ s.pipeline.relayBatchSize) :
    (backlog s.topic).WorkedOffBy s .drain s.pipeline.relayBatchSize := by
  refine ⟨one, ?_, fun store => ⟨fun | .drain empty => empty, .drain⟩⟩
  rintro ⟨a, ts, result⟩ p h h' rfl hp run reached
  obtain rfl := hp.eq_drain alone
  obtain ⟨t, us, hts, hcall, rest⟩ := Program.Runs.of_select run reached
    (Call.still_of_selects rfl) fun _ _ selected same => same ▸ Call.answer_pending selected
  replace rest : ((Program.forEach (h.store.pending s.pipeline.relayBatchSize)
    (relayOne s.topic)).bind fun acknowledged => .done (.ok (acknowledged.countP id))).Runs h us
      result h' := rest
  obtain ⟨results, handled⟩ := rest.of_bind_done
  exact ⟨t, us, results, hts, hcall ▸ rfl, handled⟩

end Outbox

/-! ## Feeds that may be tried again -/

namespace Retry

variable {t : Broadcast.Topic} {f : Feed} {h h' : Hub} {ts : List Turn}

/-- A feed that is marked as processed may not be tried again, and nothing else changes for the
others. -/
theorem retryable_complete (s : Store) (cap : Nat) (i : FeedId) (payload : Payload) :
    (s.complete i payload).2.retryable cap =
      (s.retryable cap).filter fun g => decide (g.id ≠ i) := by
  rw [Store.complete, Store.update_snd]
  show (s.feeds.map fun g => if g.id = i then g.completed payload else g).filter
    (s.isRetryable cap) = _
  have sorts : (s.isRetryable cap ∘ fun g => if g.id = i then g.completed payload else g) =
      fun g => decide (g.id ≠ i) && s.isRetryable cap g := funext fun g => by
    by_cases hg : g.id = i
    · simp [hg, Store.isRetryable, Feed.completed]
    · simp [hg]
  rw [List.filter_map, Store.retryable, List.filter_filter, sorts]
  refine (List.map_congr_left fun g hg => if_neg ?_).trans (List.map_id' _)
  simpa using (Bool.and_eq_true_iff.1 (List.mem_filter.1 hg).2).1

/-- Of the feeds that may be tried again the one that is processed leaves. -/
theorem retryable_of_process {cap : Nat} {result : Except FeedError Processing.Report}
    (there : f ∈ h.store.retryable cap) (r : (Processing.process t f).Runs h ts result h')
    (coherent : h.store.Coherent) (reached : ∀ u ∈ ts, ¬ u.failed) :
    h'.store.retryable cap = (h.store.retryable cap).filter fun g => decide (g.id ≠ f.id) := by
  have stored : h.store.feed? f.id = some f :=
    coherent.feed?_eq_some_iff.2 ⟨(List.mem_filter.1 there).1, rfl⟩
  obtain ⟨watermarks, marked⟩ := Processing.store_of_process r reached (by rw [stored]; rfl)
  rw [marked]
  exact retryable_complete { h.store with watermarks := watermarks } cap f.id f.enriched

/-- The feeds that may be tried again, in the order in which they are selected. -/
def backlog (t : Broadcast.Topic) (cap : Nat) :
    Backlog Feed (Except FeedError Processing.Report) where
  line s := (s.retryable cap).mergeSort Store.retriesBefore
  handle := Processing.process t
  alike f := (Processing.matches_process Likeness.sparesRecords_records t f).mono fun _ _ _ =>
    trivial
  next {f rest h h' _ _} coherent hline run reached := by
    have sorted := Store.pairwise_retries h.store cap
    have all : (f :: rest).Perm (h.store.retryable cap) := hline ▸ List.mergeSort_perm _ _
    rw [hline, List.pairwise_cons] at sorted
    have left := retryable_of_process (all.mem_iff.1 List.mem_cons_self) run coherent reached
    refine (run.coherent coherent).retries_eq ?_ sorted.2
    have apart : ((f :: rest).map (·.id)).Nodup :=
      (all.map (·.id)).nodup_iff.2 (nodup_retryable coherent cap)
    have others : (f :: rest).filter (fun g => decide (g.id ≠ f.id)) = rest := by
      rw [List.filter_cons_of_neg (by simp), List.filter_eq_self]
      intro g hg
      rw [List.map_cons, List.nodup_cons] at apart
      exact decide_eq_true fun same => apart.1 (same ▸ List.mem_map_of_mem hg)
    rw [left, ← others]
    exact all.filter _

/-- A retry pass works them off. -/
theorem workedOff (s : Settings) (alone : s.pipeline.concurrency = 1)
    (one : 1 ≤ s.pipeline.retryBatchSize) :
    (backlog s.topic s.pipeline.maxAttempts).WorkedOffBy s .retry s.pipeline.retryBatchSize := by
  refine ⟨one, ?_, fun store => ?_⟩
  · rintro ⟨a, ts, result⟩ p h h' rfl hp run reached
    obtain rfl := hp.eq_retry alone
    obtain ⟨t, us, hts, hcall, rest⟩ := Program.Runs.of_select run reached
      (Call.still_of_selects rfl) fun _ _ selected same => same ▸ Call.answer_candidates selected
    obtain ⟨results, handled⟩ := Program.Runs.of_bind_done rest
    exact ⟨t, us, results, hts, hcall ▸ rfl, handled⟩
  · have first : selection s store =
        ((backlog s.topic s.pipeline.maxAttempts).line store).take s.pipeline.retryBatchSize := rfl
    refine ⟨fun ended => ?_, fun none => .retry (by rw [first, none, List.take_nil])⟩
    cases ended with
    | retry empty =>
      rw [first, List.take_eq_nil_iff] at empty
      exact empty.resolve_left (Nat.ne_of_gt one)

end Retry

/-! ## The size of a batch -/

/-- The settings with another size of the batches of one kind of pass. -/
def Settings.withBatch (s : Settings) (a : Act) (batch : Nat) : Settings :=
  match a with
  | .drain => { s with pipeline := { s.pipeline with relayBatchSize := batch } }
  | .retry => { s with pipeline := { s.pipeline with retryBatchSize := batch } }
  | _ => s

/-- An act can be repeated any number of times without a failure. -/
theorem Course.exists_repeated {s : Settings} {a : Act} {p : Program a.Result}
    (hp : a.PerformedBy s p) (n : Nat) (h : Hub) :
    ∃ ds h', Course s h ds h' ∧ ds.length = n ∧ (∀ D ∈ ds, D.act = a) ∧
      ∀ D ∈ ds, ∀ t ∈ D.turns, ¬ t.failed := by
  induction n generalizing h with
  | zero => exact ⟨[], h, .stop h, rfl, List.forall_mem_nil _, List.forall_mem_nil _⟩
  | succ n ih =>
    obtain ⟨ds, h', c, length, acts, reached⟩ := ih (p.run .none h).2
    exact ⟨_, h', .alone hp .none c, congrArg (· + 1) length, List.forall_mem_cons.2 ⟨rfl, acts⟩,
      List.forall_mem_cons.2 ⟨fun _ => Program.not_failed_of_mem_turns, reached⟩⟩

/-- **The size of a batch cannot be observed** where feeds are handled one after another and no call
to the store fails. From any store that can come about, a pass over the outbox, and likewise a retry
pass, can be repeated until it finds nothing to do, and finds nothing to do if it is repeated often
enough. Whatever sizes batches have, the store is the same in the end, the same messages have been
handed over in the same order, and every session has been offered the same events in the same
order. -/
theorem Course.batches_unobservable {s : Settings} (alone : s.pipeline.concurrency = 1) {h : Hub}
    (reachable : h.store.Reachable) {a : Act} (repeated : a = .drain ∨ a = .retry) {b b' : Nat}
    (hb : 1 ≤ b) (hb' : 1 ≤ b') :
    (∃ ds h', Exhausts (s.withBatch a b) a h ds h') ∧
    (∃ n, ∀ ds h', Course (s.withBatch a b) h ds h' → (∀ D ∈ ds, D.act = a) →
      (∀ D ∈ ds, ∀ t ∈ D.turns, ¬ t.failed) → n ≤ ds.length →
        a.OutOfWork (s.withBatch a b) h'.store) ∧
    ∀ ds ds' h₁ h₂, Exhausts (s.withBatch a b) a h ds h₁ →
      Exhausts (s.withBatch a b') a h ds' h₂ →
        h₁.store = h₂.store ∧
        (Deed.turnsOf ds).filterMap Turn.posted? = (Deed.turnsOf ds').filterMap Turn.posted? ∧
        ∀ k, Turn.offersTo k (Deed.turnsOf ds) = Turn.offersTo k (Deed.turnsOf ds') := by
  have coherent := reachable.coherent
  obtain ⟨β, α, B, p, hp, off, off'⟩ : ∃ (β α : Type) (B : Backlog β α) (p : Program a.Result),
      a.PerformedBy (s.withBatch a b) p ∧ B.WorkedOffBy (s.withBatch a b) a b ∧
        B.WorkedOffBy (s.withBatch a b') a b' := by
    have hc : 1 ≤ s.pipeline.concurrency := Nat.le_of_eq alone.symm
    rcases repeated with rfl | rfl
    · exact ⟨_, _, Outbox.backlog s.topic, _, Act.performedBy_drain hc,
        Outbox.workedOff (s.withBatch .drain b) alone hb,
        Outbox.workedOff (s.withBatch .drain b') alone hb'⟩
    · exact ⟨_, _, Retry.backlog s.topic s.pipeline.maxAttempts, _, Act.performedBy_retry hc,
        Retry.workedOff (s.withBatch .retry b) alone hb,
        Retry.workedOff (s.withBatch .retry b') alone hb'⟩
  have enough : ∀ ds h', Course (s.withBatch a b) h ds h' → (∀ D ∈ ds, D.act = a) →
      (∀ D ∈ ds, ∀ t ∈ D.turns, ¬ t.failed) → (B.line h.store).length ≤ ds.length →
        a.OutOfWork (s.withBatch a b) h'.store := fun ds h' c passes reached =>
    Backlog.outOfWork_of_course off c passes reached coherent
  refine ⟨?_, ⟨_, enough⟩, fun ds ds' h₁ h₂ e e' => ⟨?_, ?_, fun k => ?_⟩⟩
  · obtain ⟨ds, h', c, length, passes, reached⟩ := exists_repeated hp (B.line h.store).length h
    exact ⟨ds, h', c, passes, reached, enough ds h' c passes reached (Nat.le_of_eq length.symm)⟩
  · exact (Backlog.same_of_exhausts off off' coherent e e').2.store
  · rw [Turn.posted_eq, Turn.posted_eq]
    refine Backlog.filterMap_of_exhausts off off' coherent e e' fun c hc => ?_
    cases c <;> first | rfl | cases hc
  · have offers : ∀ ts, Turn.offersTo k ts = (ts.map (·.call)).filterMap (Call.offeredTo? k) :=
      fun ts => by
        rw [List.filterMap_map]
        rfl
    rw [offers, offers]
    refine Backlog.filterMap_of_exhausts off off' coherent e e' fun c hc => ?_
    cases c <;> first | rfl | cases hc

namespace Course.Exhausts

variable {s : Settings} {a : Act} {h h' : Hub} {ds : List Deed}

/-- An act with nothing left to do is exhausted. -/
theorem stop (ended : a.OutOfWork s h.store) : Exhausts s a h [] h :=
  ⟨.stop h, List.forall_mem_nil _, List.forall_mem_nil _, ended⟩

/-- One more pass at the front, without outages. -/
theorem pass {p : Program a.Result} (hp : a.PerformedBy s p)
    (e : Exhausts s a (p.run .none h).2 ds h') :
    Exhausts s a h (⟨a, p.turns .none h, (p.run .none h).1⟩ :: ds) h' :=
  ⟨.alone hp .none e.course, List.forall_mem_cons.2 ⟨rfl, e.passes⟩,
    List.forall_mem_cons.2 ⟨fun _ => Program.not_failed_of_mem_turns, e.reached⟩, e.ended⟩

end Course.Exhausts

/-- Settings under which feeds are handled one after another. -/
def Settings.oneByOne : Settings := { Settings.sample with pipeline := { concurrency := 1 } }

/-- A client is connected, and three feeds for it wait. The second has the greatest epoch. -/
def Hub.threeWaiting : Hub :=
  ((Intake.add (.sample "r" ["solana:alice"] 6)).run .none
    ((Intake.add (.sample "q" ["solana:alice"] 7)).run .none
      ((Intake.add (.sample "p" ["solana:alice"] 5)).run .none
        ((Gateway.connect Settings.oneByOne.bounds .client (some "solana:alice")).run .none
          .sample).2).2).2).2

/-- The hub with three feeds that wait has come about. -/
theorem Hub.reachable_threeWaiting : Hub.threeWaiting.store.Reachable := by
  have before : Course .oneByOne .sample _ .threeWaiting :=
    .alone (.connect .client (some "solana:alice")) .none
      (.alone (.add (.sample "p" ["solana:alice"] 5)) .none
        (.alone (.add (.sample "q" ["solana:alice"] 7)) .none
          (.alone (.add (.sample "r" ["solana:alice"] 6)) .none (.stop _))))
  exact before.history.reachable Store.reachable_empty

/-- Three passes that handle one feed each, and two passes that handle up to two, come to the same
in the end: two messages are handed over, and the third feed is too old. -/
theorem Course.batches_unobservable_of_threeWaiting :
    ∃ ds ds' h₁ h₂, Exhausts (Settings.oneByOne.withBatch .drain 1) .drain .threeWaiting ds h₁ ∧
      Exhausts (Settings.oneByOne.withBatch .drain 2) .drain .threeWaiting ds' h₂ ∧
      ds.length = 3 ∧ ds'.length = 2 ∧ h₁.store = h₂.store ∧
      (Deed.turnsOf ds).filterMap Turn.posted? = (Deed.turnsOf ds').filterMap Turn.posted? ∧
      ((Deed.turnsOf ds).filterMap Turn.posted?).map (·.id) = [1, 2] ∧
      Turn.offersTo 0 (Deed.turnsOf ds) = Turn.offersTo 0 (Deed.turnsOf ds') ∧
      (Turn.offersTo 0 (Deed.turnsOf ds)).length = 3 := by
  have handles : ∀ b, Act.PerformedBy (Settings.oneByOne.withBatch .drain b) .drain
      (Outbox.drain Settings.sample.topic b) := fun _ => Act.performedBy_drain (Nat.le_refl 1)
  have e : Exhausts (Settings.oneByOne.withBatch .drain 1) .drain .threeWaiting _ _ :=
    .pass (handles 1) (.pass (handles 1) (.pass (handles 1) (.stop (.drain (by decide +kernel)))))
  have e' : Exhausts (Settings.oneByOne.withBatch .drain 2) .drain .threeWaiting _ _ :=
    .pass (handles 2) (.pass (handles 2) (.stop (.drain (by decide +kernel))))
  obtain ⟨-, -, same⟩ := batches_unobservable (s := .oneByOne) rfl Hub.reachable_threeWaiting
    (.inl rfl) (Nat.le_refl 1) (Nat.le_succ 1)
  obtain ⟨store, messages, offers⟩ := same _ _ _ _ e e'
  exact ⟨_, _, _, _, e, e', rfl, rfl, store, messages, by decide +kernel, offers 0,
    by decide +kernel⟩

end NotificationRelay
