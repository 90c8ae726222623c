/-
# Retrying comes to an end

A feed that may be tried again has some tries left: as many as its attempts fall short of the cap
(`Store.triesLeft`). As long as attempts are counted, a retry pass uses up one try at least of each
feed that it selects, be it that the feed is processed or that an attempt is counted, and gives none
back to any other (`Retry.triesLeft_of_runs`). The order of the selection and the size of the batch
do not matter for that.

So there are not more passes that select something than there were tries left
(`Retry.triesLeft_of_passes`), and where a pass selects nothing, nothing will ever be selected again
(`Retry.AtRest`).
-/
import Mathlib.Algebra.Order.BigOperators.Group.List
import Mathlib.Algebra.Order.Ring.Nat
import NotificationRelay.Proofs.Flow.Retrying

namespace NotificationRelay

/-! ## The tries that are left -/

namespace Standing

/-- How many more attempts a feed can cost under a cap. -/
def triesLeft (cap : Nat) (x : Standing) : Nat :=
  match x.feed with
  | some f => if f.processed || f.isSpam || x.waiting then 0 else cap - f.attempts
  | none => 0

/-- A feed that is tried uses up a try. -/
theorem triesLeft_of_tried {cap : Nat} {x : Standing} {f g : Feed} (bound : cap ≤ Feed.maxAttempts)
    (hf : x.feed = some f) (todo : f.processed = false) (genuine : f.isSpam = false)
    (below : f.attempts < cap) (out : x.waiting = false) (tried : Tried f g) :
    ({ x with feed := some g } : Standing).triesLeft cap < x.triesLeft cap := by
  have before : x.triesLeft cap = cap - f.attempts := by
    simp [triesLeft, hf, todo, genuine, out]
  rw [before]
  cases tried with
  | bumped =>
    have after : ({ x with feed := some f.bumped } : Standing).triesLeft cap =
        cap - min (f.attempts + 1) Feed.maxAttempts := by
      simp [triesLeft, Feed.bumped, todo, genuine, out]
    omega
  | completed =>
    have after : ({ x with feed := some (f.completed f.enriched) } : Standing).triesLeft cap = 0 :=
      rfl
    omega

end Standing

/-- If no item of a list has more than before, and each of some has less, then together they have so
much less. -/
theorem sum_map_add_length_le {ι : Type} [DecidableEq ι] {items chosen : List ι} {f g : ι → Nat}
    (apart : chosen.Nodup) (among : chosen ⊆ items) (le : ∀ i ∈ items, f i ≤ g i)
    (lt : ∀ i ∈ chosen, f i < g i) :
    (items.map f).sum + chosen.length ≤ (items.map g).sum := by
  have each : ∀ i ∈ items, f i + (if i ∈ chosen then 1 else 0) ≤ g i := fun i hi => by
    split
    · next hc => exact lt i hc
    · exact le i hi
  have ones : (items.map fun i => if i ∈ chosen then 1 else 0).sum =
      items.countP fun i => decide (i ∈ chosen) := by
    simp [List.sum_map_ite, List.countP_eq_length_filter]
  have enough : chosen.length ≤ items.countP fun i => decide (i ∈ chosen) := by
    have all : chosen.countP (fun i => decide (i ∈ chosen)) = chosen.length :=
      List.countP_eq_length.2 fun i hi => decide_eq_true hi
    rw [← all]
    exact (apart.subperm among).countP_le _
  have sums := List.sum_le_sum each
  rw [List.sum_map_add, ones] at sums
  omega

namespace Store

/-- The tries that are left under a cap: by how much the attempts of all feeds that may be tried
again fall short of it. -/
def triesLeft (s : Store) (cap : Nat) : Nat := ((s.retryable cap).map fun f => cap - f.attempts).sum

/-- No try is left: every feed that is neither spam nor waiting in the outbox has been processed, or
has reached the cap. -/
def Exhausted (s : Store) (cap : Nat) : Prop :=
  ∀ f ∈ s.feeds, f.isSpam = false → f.id ∉ s.outbox → f.processed = true ∨ cap ≤ f.attempts

variable {s s' : Store} {cap : Nat}

/-- A store is exhausted if nothing in it is to be tried again. -/
theorem exhausted_iff : s.Exhausted cap ↔ s.retryable cap = [] := by
  unfold retryable
  rw [List.filter_eq_nil_iff]
  refine forall₂_congr fun f _ => ?_
  rw [isRetryable_iff]
  by_cases below : f.attempts < cap
  · cases f.processed <;> simp [below, Nat.not_le.2 below]
  · simp [below, Nat.not_lt.1 below]

/-- Where no try is left nothing may be tried again. -/
theorem retryable_of_triesLeft (spent : s.triesLeft cap = 0) : s.retryable cap = [] := by
  refine List.eq_nil_iff_forall_not_mem.2 fun f hf => ?_
  have none : cap - f.attempts ≤ s.triesLeft cap := List.le_sum_of_mem (List.mem_map.2 ⟨f, hf, rfl⟩)
  have below := (isRetryable_iff.1 (List.mem_filter.1 hf).2).2.2.1
  omega

/-- The tries that are left, feed by feed. -/
theorem Coherent.triesLeft_eq (coherent : s.Coherent) (cap : Nat) :
    s.triesLeft cap = (s.ids.map fun i => (s.standing i).triesLeft cap).sum := by
  have each : ∀ f ∈ s.feeds, (s.standing f.id).triesLeft cap =
      if s.isRetryable cap f then cap - f.attempts else 0 := by
    intro f hf
    have there : (s.standing f.id).feed = some f := coherent.feed?_eq_some_iff.2 ⟨hf, rfl⟩
    have waiting : (s.standing f.id).waiting = s.outbox.contains f.id := rfl
    rw [Standing.triesLeft, there, waiting, isRetryable]
    show (if f.processed || f.isSpam || s.outbox.contains f.id then 0 else cap - f.attempts) = _
    by_cases below : f.attempts < cap
    · cases f.processed <;> cases f.isSpam <;> cases s.outbox.contains f.id <;> simp [below]
    · have none : cap - f.attempts = 0 := by omega
      simp [below, none]
  have sums : (s.feeds.map fun f => (s.standing f.id).triesLeft cap).sum = s.triesLeft cap := by
    rw [List.map_congr_left each, List.sum_map_ite]
    simp [triesLeft, retryable]
  rw [← sums, ids, List.map_map]
  rfl

end Store

/-! ## What a pass uses up -/

namespace Processing

variable {t : Broadcast.Topic} {f : Feed} {limit : Nat} {feeds : List Feed} {h h' : Hub}
  {us : List Turn} {results : List (Except FeedError Report)}
  {w : Program (List (Except FeedError Report))}

/-- Each feed is tried, and nothing else of its standing changes, as long as no attempt is lost. -/
theorem tried_of_weave (hw : Program.Weave limit (feeds.map (process t)) w)
    (run : w.Runs h us results h') (apart : (feeds.map (·.id)).Nodup)
    (coherent : h.store.Coherent) (counted : ∀ i, ¬ Turn.lost (.bump i) us) (hf : f ∈ feeds)
    (stored : h.store.feed? f.id = some f) :
    ∃ g, Standing.Tried f g ∧
      h'.store.standing f.id = { h.store.standing f.id with feed := some g } := by
  have leads : w.Leads (Standing.tally f.id) (Standing.Fair True) (fun _ y _ =>
      ∃ g, Standing.Tried f g ∧ y = { h.store.standing f.id with feed := some g })
      (h.store.standing f.id) 0 := by
    refine hw.leads_of_key (·.id) f.id apart (fun g _ other => ?_) (fun g hg same => ?_)
      fun absent => absurd rfl (absent f hf)
    · refine (only_process t g).mono fun c hc => Standing.spares ?_ ?_
      · exact Bool.eq_false_iff.2 fun begins =>
          Standing.not_regards_of_processing other hc (Standing.regards_of_begins begins)
      · exact Standing.unmoved_processing other hc
    · obtain rfl : g = f := List.inj_on_of_nodup_map apart hg hf same
      exact Standing.leads_process stored rfl fun g' tried => ⟨g', tried, rfl⟩
  refine leads.of_runs run fun u hu => ⟨run.coherent_before coherent hu, ?_, fun _ _ _ => trivial⟩
  exact fun i made _ failed => counted i ⟨u, hu, made, failed⟩

end Processing

/-- What is spared stands where it stood. -/
theorem Store.Spared.standing_eq {s s' : Store} {ids : List FeedId} {i : FeedId}
    (spared : s.Spared ids s') (hi : i ∉ ids) : s'.standing i = s.standing i := by
  unfold Store.standing
  rw [spared.others i hi, spared.rest]

namespace Retry

/-- Retrying has come to an end: whatever passes follow, nothing is written any more, no try is left
in the store that they find, and a pass reports that it has selected nothing, unless it cannot
select. -/
structure AtRest (s : Settings) (h : Hub) : Prop where
  still : ∀ {n ts h'}, Passes s h n ts h' → h'.store = h.store
  exhausted : h.store.Exhausted s.pipeline.maxAttempts
  idle : ∀ {n ts h'}, Passes s h n ts h' → ∀ (p : Program (Stored Report)) us result h'',
    Act.PerformedBy s .retry p → p.Runs h' us result h'' →
      Turn.noted us = [] ∧ (¬ Turn.lost (selecting s) us → result = .ok ⟨0, 0, 0⟩)

variable {s : Settings} {start h h' : Hub} {n : Nat} {ts : List Turn} {f : Feed}
  {p : Program (Stored Report)} {result : Stored Report}

/-- A pass tries every feed that it selects, as long as no attempt is lost. -/
theorem tried_of_runs (coherent : h.store.Coherent) (performs : Act.PerformedBy s .retry p)
    (run : p.Runs h ts result h') (counted : ∀ i, ¬ Turn.lost (.bump i) ts)
    (reached : ¬ Turn.lost (selecting s) ts) (hf : f ∈ selection s h.store) :
    ∃ g, Standing.Tried f g ∧
      h'.store.standing f.id = { h.store.standing f.id with feed := some g } := by
  cases performs with
  | retry sideBySide =>
    cases passedBy_of_runs run with
    | blind call lost _ => exact absurd (Turn.lost_singleton.2 ⟨call, lost⟩) reached
    | seen call _ same after handled =>
      rw [after, ← same]
      rw [← same] at coherent handled hf
      refine Processing.tried_of_weave (sideBySide _) handled (coherent.nodup_candidates _ _)
        coherent (fun i lost => counted i (Turn.lost_cons.2 (.inr lost))) hf ?_
      exact coherent.feed?_eq_some_iff.2 ⟨(Store.mem_candidates hf).1, rfl⟩

/-- **A pass uses up a try of every feed that it processes**, and gives none back. -/
theorem triesLeft_of_runs (bound : s.pipeline.maxAttempts ≤ Feed.maxAttempts)
    (coherent : h.store.Coherent) (performs : Act.PerformedBy s .retry p)
    (run : p.Runs h ts result h') (counted : ∀ i, ¬ Turn.lost (.bump i) ts) :
    h'.store.triesLeft s.pipeline.maxAttempts + (Turn.noted ts).length ≤
      h.store.triesLeft s.pipeline.maxAttempts := by
  have retried := retried_of_runs coherent performs run
  by_cases lost : Turn.lost (selecting s) ts
  · obtain ⟨-, unnoted, same⟩ := retried.blind lost
    rw [unnoted, same]
    exact Nat.le_refl _
  · have less : ∀ i ∈ (selection s h.store).map (·.id),
        (h'.store.standing i).triesLeft s.pipeline.maxAttempts <
          (h.store.standing i).triesLeft s.pipeline.maxAttempts := by
      intro i hi
      obtain ⟨f, hf, rfl⟩ := List.mem_map.1 hi
      obtain ⟨g, tried, same⟩ := tried_of_runs coherent performs run counted lost hf
      obtain ⟨there, retryable⟩ := Store.mem_candidates hf
      obtain ⟨todo, genuine, below, out⟩ := Store.isRetryable_iff.1 retryable
      rw [same]
      exact Standing.triesLeft_of_tried bound (coherent.feed?_eq_some_iff.2 ⟨there, rfl⟩) todo
        genuine below (Bool.eq_false_iff.2 fun waits => out (List.contains_iff_mem.1 waits)) tried
    -- Summed over all identifiers, which a pass keeps, not over the feeds that may be tried again.
    rw [(retried.tries lost).length_eq, coherent.triesLeft_eq,
      (run.coherent coherent).triesLeft_eq, retried.spared.known]
    refine sum_map_add_length_le (coherent.nodup_candidates _ _) (fun i hi => ?_) (fun i _ => ?_)
      less
    · obtain ⟨f, hf, rfl⟩ := List.mem_map.1 hi
      exact List.mem_map_of_mem (Store.mem_candidates hf).1
    · by_cases hi : i ∈ (selection s h.store).map (·.id)
      · exact Nat.le_of_lt (less i hi)
      · rw [retried.spared.standing_eq hi]

/-- A pass that finds nothing to try again does nothing. -/
theorem idle_of_runs (coherent : h.store.Coherent) (none : selection s h.store = [])
    (performs : Act.PerformedBy s .retry p) (run : p.Runs h ts result h') :
    h'.store = h.store ∧ Turn.noted ts = [] ∧
      (¬ Turn.lost (selecting s) ts → result = .ok ⟨0, 0, 0⟩) := by
  have retried := retried_of_runs coherent performs run
  refine ⟨?_, ?_, fun reached => ?_⟩
  · cases performs with
    | @retry handle sideBySide =>
      cases passedBy_of_runs run with
      | blind _ _ still => exact still
      | seen _ _ same after handled =>
        have nothing : handle [] = .done [] := (sideBySide []).of_nil
        rw [show h.store.candidates _ _ = [] from none, nothing] at handled
        rw [after, Hub.store_eq_of_outside handled.of_done.2.2, same]
  · by_cases lost : Turn.lost (selecting s) ts
    · exact (retried.blind lost).2.1
    · have same := retried.tries lost
      rw [none] at same
      exact same.eq_nil
  · obtain ⟨⟨selected, completed, failed⟩, rfl, size, parts, -⟩ := retried.reports reached
    rw [none] at size
    obtain rfl : selected = 0 := size
    obtain ⟨rfl, rfl⟩ : completed = 0 ∧ failed = 0 := Nat.add_eq_zero_iff.1 parts.symm
    rfl

/-- Where a pass selects nothing, retrying has come to an end. -/
theorem atRest_of_selection (batch : 1 ≤ s.pipeline.retryBatchSize) (coherent : h.store.Coherent)
    (none : selection s h.store = []) : AtRest s h := by
  have still : ∀ {n ts h'}, Passes s h n ts h' → h'.store = h.store := by
    intro n ts h' passes
    induction passes with
    | start => rfl
    | pass before performs run same =>
      rw [← same] at coherent none
      exact (idle_of_runs coherent none performs run).1.trans same
  refine ⟨still, Store.exhausted_iff.2 ((Store.candidates_eq_nil_iff _ _ batch).1 none), ?_⟩
  intro n ts h' passes p us result h'' performs run
  rw [← still passes] at coherent none
  exact (idle_of_runs coherent none performs run).2

/-- **Each of the passes that have selected something has used up a try.** -/
theorem triesLeft_of_passes (bound : s.pipeline.maxAttempts ≤ Feed.maxAttempts)
    (coherent : start.store.Coherent) (passes : Passes s start n ts h)
    (counted : ∀ i, ¬ Turn.lost (.bump i) ts) (reached : ¬ Turn.lost (selecting s) ts) :
    selection s h.store = [] ∨
      h.store.triesLeft s.pipeline.maxAttempts + n ≤
        start.store.triesLeft s.pipeline.maxAttempts := by
  induction passes with
  | start => exact .inr (Nat.le_refl _)
  | @pass n p result ts us h h' before performs run ih =>
    have here : h.store.Coherent := coherent_of_passes before coherent
    obtain ⟨asked, asked'⟩ := not_or.1 (mt Turn.lost_append.2 reached)
    have counts : ∀ i, ¬ Turn.lost (.bump i) us := fun i lost =>
      counted i (Turn.lost_append.2 (.inr lost))
    by_cases none : selection s h.store = []
    · rw [(idle_of_runs here none performs run).1]
      exact .inl none
    -- This pass selects something, so each pass before it did as well and used up a try.
    · have fewer := triesLeft_of_runs bound here performs run counts
      have some : 1 ≤ (Turn.noted us).length := by
        rw [((retried_of_runs here performs run).tries asked').length_eq, List.length_map]
        exact List.length_pos_iff.2 none
      rcases ih (fun i lost => counted i (Turn.lost_append.2 (.inl lost))) asked with
        absent | before
      · exact absurd absent none
      · exact .inr (by omega)

/-- **Retrying comes to an end.** Start from any store that can come about, and let nothing but retry
passes follow, with room for one feed at least, whatever fails but the counting of attempts. Each
pass that can select takes away from the tries that are left as many at least as it has selected
feeds, and if it has selected none retrying had come to an end already. So it has come to an end
after as many passes as there were tries left. From then on nothing is selected, and every stored
feed that is neither spam nor waiting in the outbox has been processed or has reached the cap of
attempts. -/
theorem retrying_rests (bound : s.pipeline.maxAttempts ≤ Feed.maxAttempts)
    (batch : 1 ≤ s.pipeline.retryBatchSize) (reachable : start.store.Reachable)
    (passes : Passes s start n ts h) :
    (∀ (p : Program (Stored Report)) us result h', Act.PerformedBy s .retry p →
      p.Runs h us result h' → (∀ i, ¬ Turn.lost (.bump i) us) → ¬ Turn.lost (selecting s) us →
        ∃ r : Report, result = .ok r ∧
          h'.store.triesLeft s.pipeline.maxAttempts + r.selected ≤
            h.store.triesLeft s.pipeline.maxAttempts ∧
          (r.selected = 0 → AtRest s h)) ∧
    ((∀ i, ¬ Turn.lost (.bump i) ts) → ¬ Turn.lost (selecting s) ts →
      start.store.triesLeft s.pipeline.maxAttempts ≤ n → AtRest s h) := by
  have here : h.store.Coherent := coherent_of_passes passes reachable.coherent
  refine ⟨fun p us result h' performs run counted reached => ?_, fun counted reached enough => ?_⟩
  · have retried := retried_of_runs here performs run
    obtain ⟨r, answer, size, -⟩ := retried.reports reached
    have fewer := triesLeft_of_runs bound here performs run counted
    rw [(retried.tries reached).length_eq, List.length_map, ← size] at fewer
    refine ⟨r, answer, fewer, fun nothing => atRest_of_selection batch here ?_⟩
    exact List.length_eq_zero_iff.1 (size.symm.trans nothing)
  · refine atRest_of_selection batch here ?_
    rcases triesLeft_of_passes bound reachable.coherent passes counted reached with none | fewer
    · exact none
    · have spent : h.store.triesLeft s.pipeline.maxAttempts = 0 := by omega
      exact (Store.candidates_eq_nil_iff _ _ batch).2 (Store.retryable_of_triesLeft spent)

end Retry

/-- All feeds are tried again, the newest first, while none can be marked as processed. -/
def Hub.triedInVain (h : Hub) : Hub :=
  ((Program.forEach h.store.feeds.reverse (Processing.process Settings.sample.topic)).run
    .ofCompletion h).2

/-- The hub with one feed that was tried once has come about. -/
theorem Hub.reachable_onceTried : Hub.onceTried.store.Reachable := by
  have stored : History .sample (fun _ => True) .sample _ .onceTried :=
    (History.start.andThen trivial (.add (.sample "p" ["solana:alice"] 5)) .none).andThen trivial
      (Act.performedBy_drain (by decide)) .ofCompletion
  exact stored.reachable Store.reachable_empty

/-- If all feeds may be tried again a pass may try them in vain, without losing an attempt. -/
theorem Retry.runs_triedInVain {h : Hub} (coherent : h.store.Coherent)
    (all : h.store.feeds.all (h.store.isRetryable 3) = true)
    (sorted : h.store.feeds.reverse.Pairwise fun f g => Store.retriesBefore f g = true)
    (room : h.store.feeds.length ≤ 50) :
    ∃ ts result, (pass Settings.sample.topic 3 50).Runs h ts result h.triedInVain ∧
      (∀ i, ¬ Turn.lost (.bump i) ts) ∧ ¬ Turn.lost (selecting .sample) ts := by
  have selects := coherent.candidates_eq_reverse all sorted room
  let again := Program.forEach h.store.feeds.reverse (Processing.process Settings.sample.topic)
  have heard : ∀ c, Outages.ofCompletion c = none →
      ¬ Turn.lost c ((Call.candidates 3 50).turn .none h :: again.turns .ofCompletion h) := by
    rintro c healthy ⟨u, hu, rfl, failed⟩
    rcases List.mem_cons.1 hu with rfl | hu
    · obtain ⟨reason, outage⟩ := Call.outage_of_failed _ _ _ failed
      cases outage
    · obtain ⟨reason, outage⟩ := Program.outage_of_mem_turns hu failed
      cases healthy.symm.trans outage
  exact ⟨_, _, runs_passBy selects (again.runs_run .ofCompletion h), fun i => heard _ rfl,
    heard _ rfl⟩

/-- A feed that has been tried once is tried twice more in vain. That leaves no try. -/
theorem Retry.retrying_rests_of_onceTried :
    Hub.onceTried.store.triesLeft 3 = 2 ∧
      (∃ ts, Passes .sample .onceTried 2 ts Hub.onceTried.triedInVain.triedInVain) ∧
      AtRest .sample Hub.onceTried.triedInVain.triedInVain ∧
      Hub.onceTried.triedInVain.triedInVain.store.feeds.map
        (fun f => (f.processed, f.attempts)) = [(false, 3)] := by
  have tries : Hub.onceTried.store.triesLeft 3 = 2 := by decide +kernel
  have performs : Act.PerformedBy .sample .retry (pass Settings.sample.topic 3 50) :=
    Act.performedBy_retry (by decide)
  obtain ⟨ts, _, first, counted, reached⟩ := runs_triedInVain Hub.reachable_onceTried.coherent
    (by decide +kernel) (by decide +kernel) (by decide +kernel)
  obtain ⟨us, _, second, counted', reached'⟩ := runs_triedInVain
    (first.coherent Hub.reachable_onceTried.coherent)
    (by decide +kernel) (by decide +kernel) (by decide +kernel)
  have passes : Passes .sample .onceTried 2 _ Hub.onceTried.triedInVain.triedInVain :=
    (Passes.start.pass performs first).pass performs second
  refine ⟨tries, ⟨_, passes⟩, ?_, by decide +kernel⟩
  refine (retrying_rests (by decide) (by decide) Hub.reachable_onceTried passes).2
    (fun i => ?_) ?_ (Nat.le_of_eq tries)
  · simp only [List.nil_append, Turn.lost_append, not_or]
    exact ⟨counted i, counted' i⟩
  · simp only [List.nil_append, Turn.lost_append, not_or]
    exact ⟨reached, reached'⟩

end NotificationRelay
