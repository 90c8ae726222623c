/-
# What a pass over the outbox takes out

A pass considers the oldest entries of the outbox, and every entry that it could look up it takes
out, whatever becomes of the feed, unless the acknowledgement is lost. `Outbox.Drained` is what
comes of a pass, as it is read off its calls.

An entry that cannot be looked up stays at the head of the outbox and takes a place in every batch
that follows. As long as such entries are fewer than a batch has places, every pass over anything
else takes something out, and nothing is processed twice (`Outbox.Drains.advances`). So in the end
they are all that is left (`Outbox.drained_past_unreadable`).
-/
import Mathlib.Data.List.Perm.Subperm
import NotificationRelay.Proofs.Flow.Batching
import NotificationRelay.Proofs.Flow.Entries

namespace NotificationRelay
namespace Outbox

variable {t : Broadcast.Topic} {i j : FeedId} {us : List Turn}

/-! ## What comes of a pass -/

/-- The calls of a pass and its result: it cannot ask for the outbox, or it handles the entries that
it is given. -/
inductive Passed (t : Broadcast.Topic) (batch : Nat) : List Turn → Stored Nat → Prop
  | blind {u : Turn} {e : StoreError} (call : u.call = .pending batch) (lost : u.failed) :
      Passed t batch [u] (.error e)
  | seen {u : Turn} {moves : List (Nat × Turn)} {results : List Bool}
      (call : u.call = .pending batch) (reached : ¬ u.failed)
      (handling : Handling t (u.before.store.pending batch) moves results) :
      Passed t batch (u :: moves.map (·.2)) (.ok (results.countP id))

/-- A pass over the outbox that has come to an end has passed over its batch. -/
theorem passed_of_goes {limit batch : Nat} {handle : List FeedId → Program (List Bool)}
    (sideBySide : ∀ ids, Program.Weave limit (ids.map (relayOne t)) (handle ids))
    {result : Stored Nat} (g : (drainBy handle batch).Goes us (.done result)) :
    Passed t batch us result := by
  rcases Program.Goes.of_call g with ⟨-, ended⟩ | ⟨outages, h, us, rfl, rest⟩
  · cases ended
  by_cases hf : ((Call.pending batch).turn outages h).failed
  · obtain ⟨reason, ho⟩ := Call.outage_of_failed _ outages h hf
    simp only [Call.perform, Outages.guard, ho] at rest
    obtain ⟨rfl, ended⟩ := Program.Goes.of_done rest
    obtain rfl := Program.done.inj ended
    exact .blind rfl hf
  · rw [Call.answer_pending hf] at rest
    replace rest : ((handle (h.store.pending batch)).bind fun acknowledged =>
      .done (.ok (acknowledged.countP id))).Goes us (.done result) := rest
    obtain ⟨vs, ws, results, rfl, goes, last⟩ := Program.Goes.of_bind_done rest
    obtain ⟨rfl, ended⟩ := last.of_done
    obtain rfl := Program.done.inj ended
    obtain ⟨moves, rfl, handling⟩ := handling_of_goes (sideBySide _) goes
    rw [List.append_nil]
    exact .seen rfl hf handling

/-- What a pass with so many places does to a store, by its calls, and what it reports. -/
structure Drained (batch : Nat) (s : Store) (ts : List Turn) (result : Stored Nat) (s' : Store) :
    Prop where
  /-- A pass that could not ask for the outbox fails and does nothing. -/
  blind : Turn.lost (.pending batch) ts →
    (∃ e, result = .error e) ∧ Turn.considered ts = [] ∧ s' = s
  /-- Any other considers the smallest entries, each once, as many as there are places. -/
  considers : ¬ Turn.lost (.pending batch) ts → (Turn.considered ts).Nodup ∧
    (Turn.considered ts).length = min batch s.outbox.length ∧
    ∀ i ∈ Turn.considered ts, i ∈ s.outbox ∧ ∀ j ∈ s.outbox, j ∉ Turn.considered ts → i < j
  /-- It reports how many it has taken out. -/
  reports : ¬ Turn.lost (.pending batch) ts → result = .ok (Turn.acknowledged ts).length
  /-- These leave the outbox, and that is all that becomes of the outbox. -/
  outbox : s'.outbox = Ascending.diff s.outbox (Turn.acknowledged ts)
  once : (Turn.acknowledged ts).Nodup
  /-- They are the entries of which neither call was lost. -/
  takes : ∀ i, i ∈ Turn.acknowledged ts ↔ i ∈ Turn.considered ts ∧
    ¬ Turn.lost (.load i) ts ∧ ¬ Turn.lost (.acknowledge i) ts
  /-- An entry that could be looked up is processed once if that has not been done before. -/
  processes : ∀ i ∈ Turn.considered ts, ¬ Turn.lost (.load i) ts →
    processings i ts = (s.isUnprocessed i).toNat
  /-- One that could not be looked up stays, as does its feed, which is offered to nobody. -/
  unread : ∀ i, Turn.lost (.load i) ts → i ∈ s'.outbox ∧ s'.feed? i = s.feed? i ∧
    ∀ u ∈ ts, u.call.announces i = false
  /-- The same goes for all feeds that are not considered. -/
  others : ∀ i, i ∉ Turn.considered ts → s'.standing i = s.standing i ∧
    ∀ u ∈ ts, u.call.announces i = false

variable {batch : Nat} {s s' : Store} {ts : List Turn} {result : Stored Nat}

/-- The first members of an ascending list are its smallest. -/
theorem lt_of_mem_take {ns : List FeedId} (ascending : ns.Pairwise (· < ·))
    (hi : i ∈ ns.take batch) (hj : j ∈ ns) (later : j ∉ ns.take batch) : i < j := by
  rw [← List.take_append_drop batch ns] at ascending hj
  exact (List.pairwise_append.1 ascending).2.2 i hi j ((List.mem_append.1 hj).resolve_left later)

/-- A call that asks for the outbox does nothing else. -/
theorem of_pending {u : Turn} (call : u.call = .pending batch) (ts : List Turn) :
    Turn.considered (u :: ts) = Turn.considered ts ∧
      Turn.acknowledged (u :: ts) = Turn.acknowledged ts ∧
      (∀ i, processings i (u :: ts) = processings i ts) ∧
      (∀ i, Turn.lost (.load i) (u :: ts) ↔ Turn.lost (.load i) ts) ∧
      (∀ i, Turn.lost (.acknowledge i) (u :: ts) ↔ Turn.lost (.acknowledge i) ts) ∧
      ∀ i, u.call.announces i = false := by
  obtain ⟨_, c, _, _⟩ := u
  obtain rfl : c = .pending batch := call
  refine ⟨rfl, rfl, fun i => ?_, fun i => ?_, fun i => ?_, fun i => rfl⟩
  · simp [processings, Call.begins]
  · simp [Turn.lost_cons]
  · simp [Turn.lost_cons]

/-- A pass that cannot ask for the outbox does nothing. -/
theorem drained_of_blind {u : Turn} {e : StoreError} (call : u.call = .pending batch)
    (lost : u.failed) : Drained batch s [u] (.error e) s := by
  obtain ⟨considered, acknowledged, -, loads, -, silent⟩ := of_pending call []
  have loses : Turn.lost (.pending batch) [u] := Turn.lost_singleton.2 ⟨call, lost⟩
  have unread : ∀ i, ¬ Turn.lost (.load i) [u] := fun i lost => by
    obtain ⟨v, hv, -⟩ := (loads i).1 lost
    cases hv
  refine ⟨fun _ => ⟨⟨e, rfl⟩, considered, rfl⟩, absurd loses, absurd loses, ?_, ?_, fun i => ?_,
    fun i hi => ?_, fun i lost => absurd lost (unread i),
    fun i _ => ⟨rfl, List.forall_mem_singleton.2 (silent i)⟩⟩
  · rw [acknowledged]
    simp [Turn.acknowledged, Ascending.diff]
  · rw [acknowledged]
    exact .nil
  · rw [acknowledged, considered]
    simp [Turn.acknowledged, Turn.considered]
  · rw [considered] at hi
    cases hi

/-- A pass that can ask for the outbox takes out what it can look up and acknowledge. -/
theorem Handling.drained {u : Turn} {moves : List (Nat × Turn)} {results : List Bool}
    (hd : Handling t (s.pending batch) moves results) (call : u.call = .pending batch)
    (reached : ¬ u.failed) (chain : Turn.Chain s (moves.map (·.2)) s')
    (ascending : s.outbox.Pairwise (· < ·)) :
    Drained batch s (u :: moves.map (·.2)) (.ok (results.countP id)) s' := by
  obtain ⟨considered, acknowledged, processed, loads, acks, silent⟩ :=
    of_pending call (moves.map (·.2))
  have once : (s.pending batch).Nodup :=
    (ascending.imp Int.ne_of_lt).sublist (List.take_sublist ..)
  have among : ∀ i, i ∈ Turn.considered (moves.map (·.2)) ↔ i ∈ s.outbox.take batch := fun i =>
    hd.considered_perm.mem_iff
  have asked : ¬ Turn.lost (.pending batch) (u :: moves.map (·.2)) := fun lost => by
    rcases Turn.lost_cons.1 lost with ⟨-, failed⟩ | ⟨v, hv, made, -⟩
    · exact reached failed
    · exact hd.not_pending v hv made
  refine ⟨fun loses => absurd loses asked, fun _ => ⟨?_, ?_, fun i hi => ?_⟩, fun _ => ?_, ?_,
    ?_, fun i => ?_, fun i hi read => ?_, fun i loses => ?_, fun i hi => ?_⟩
  · rw [considered]
    exact hd.considered_perm.nodup_iff.2 once
  · rw [considered, hd.considered_perm.length_eq]
    exact List.length_take
  · rw [considered, among] at hi
    refine ⟨List.mem_of_mem_take hi, fun j hj later => lt_of_mem_take ascending hi hj ?_⟩
    rwa [considered, among] at later
  · rw [acknowledged, hd.length_acknowledged]
  · rw [acknowledged]
    exact chain.outbox_eq hd.keeps
  · rw [acknowledged]
    exact hd.nodup_acknowledged once
  · rw [acknowledged, considered, among, loads, acks]
    exact hd.mem_acknowledged once
  · rw [considered, among] at hi
    obtain ⟨k, hk⟩ := List.mem_iff_getElem?.1 hi
    rw [processed]
    exact hd.processings_of_read once chain hk (mt (loads i).2 read)
  · obtain ⟨v, hv, made, failed⟩ := (loads i).1 loses
    have waits := (among i).1 (Turn.mem_considered.2 ⟨v, hv, made⟩)
    obtain ⟨k, hk⟩ := List.mem_iff_getElem?.1 waits
    obtain ⟨still, unannounced⟩ := hd.unread once chain hk ⟨v, hv, made, failed⟩
    have waiting : s'.outbox.contains i = s.outbox.contains i := congrArg Standing.waiting still
    rw [List.contains_iff_mem.2 (List.mem_of_mem_take waits)] at waiting
    exact ⟨List.contains_iff_mem.1 waiting, congrArg Standing.feed still,
      List.forall_mem_cons.2 ⟨silent i, unannounced⟩⟩
  · rw [considered, among] at hi
    obtain ⟨still, unannounced⟩ := hd.absent chain hi
    exact ⟨still, List.forall_mem_cons.2 ⟨silent i, unannounced⟩⟩

/-- **What a pass does.** -/
theorem Passed.drained (passed : Passed t batch ts result) (chain : Turn.Chain s ts s')
    (ascending : s.outbox.Pairwise (· < ·)) : Drained batch s ts result s' := by
  have asked : ∀ {u : Turn}, u ∈ ts → u.call = .pending batch →
      u.after.store = u.before.store := fun hu call =>
    (chain.genuine _ hu).store_of_passive (by rw [call]; rfl)
  cases passed with
  | blind call lost =>
    obtain ⟨rfl, rest⟩ := chain.of_cons
    rw [asked List.mem_cons_self call] at rest
    rw [rest.end_unique (.nil _)]
    exact drained_of_blind call lost
  | seen call reached handling =>
    obtain ⟨rfl, rest⟩ := chain.of_cons
    rw [asked List.mem_cons_self call] at rest
    exact handling.drained call reached rest ascending

/-! ## Past entries that cannot be looked up -/

/-- What passes do to an outbox in which certain entries can never be looked up: these stay, at
least so many of the others leave, and each that leaves has been processed once if that had not
been done before, and no other has been processed. -/
structure Advances (unreadable : FeedId → Bool) (n : Nat) (s : Store) (ts : List Turn)
    (s' : Store) : Prop where
  stuck : s'.outbox.filter unreadable = s.outbox.filter unreadable
  shrinks : s'.outbox.Sublist s.outbox
  fewer : s'.outbox.countP (!unreadable ·) ≤ s.outbox.countP (!unreadable ·) - n
  processed : ∀ i, processings i ts =
    if i ∈ s.outbox ∧ i ∉ s'.outbox then (s.isUnprocessed i).toNat else 0
  unchanged : ∀ i ∈ s'.outbox, s'.isUnprocessed i = s.isUnprocessed i

namespace Advances

variable {unreadable : FeedId → Bool} {n m : Nat} {s'' : Store}

theorem refl (unreadable : FeedId → Bool) (s : Store) : Advances unreadable 0 s [] s where
  stuck := rfl
  shrinks := .refl _
  fewer := Nat.le_refl _
  processed i := by
    rw [if_neg fun both => both.2 both.1]
    rfl
  unchanged _ _ := rfl

theorem trans (first : Advances unreadable n s us s') (rest : Advances unreadable m s' ts s'') :
    Advances unreadable (n + m) s (us ++ ts) s'' where
  stuck := rest.stuck.trans first.stuck
  shrinks := rest.shrinks.trans first.shrinks
  fewer := by
    have fewer := first.fewer
    have fewer' := rest.fewer
    omega
  processed i := by
    have total : processings i (us ++ ts) = processings i us + processings i ts :=
      List.countP_append
    rw [total, first.processed, rest.processed]
    by_cases hend : i ∈ s''.outbox
    · have hmid := rest.shrinks.subset hend
      simp [hend, hmid]
    · by_cases hmid : i ∈ s'.outbox
      · have hstart := first.shrinks.subset hmid
        simp [hend, hmid, hstart, first.unchanged i hmid]
      · simp [hend, hmid]
  unchanged i hi := (rest.unchanged i hi).trans (first.unchanged i (rest.shrinks.subset hi))

end Advances

/-- A feed that is not announced is not processed. -/
theorem processings_eq_zero (silent : ∀ u ∈ ts, u.call.announces i = false) :
    processings i ts = 0 := by
  refine List.countP_eq_zero.2 fun u hu begins => ?_
  have unannounced := silent u hu
  generalize u.call = c at begins unannounced
  cases c with
  | note j => exact absurd (begins.symm.trans unannounced) nofun
  | _ => cases begins

/-- Where fewer entries than a batch has places cannot be looked up, a batch holds one that can,
unless there is none. -/
theorem exists_readable {unreadable : FeedId → Bool} {ns looked : List FeedId}
    (once : looked.Nodup) (among : looked ⊆ ns) (length : looked.length = min batch ns.length)
    (few : ns.countP unreadable < batch) (some : 0 < ns.countP (!unreadable ·)) :
    ∃ i ∈ looked, unreadable i = false := by
  by_contra none
  have all : ∀ i ∈ looked, unreadable i = true := fun i hi => by
    by_contra readable
    exact none ⟨i, hi, Bool.eq_false_iff.2 readable⟩
  have within : looked.Subperm ns := once.subperm among
  -- all that is looked up takes up fewer places than there are, so that nothing is left over
  have short : looked.length ≤ ns.countP unreadable := by
    rw [← List.countP_eq_length.2 all]
    exact within.countP_le unreadable
  have whole : looked.Perm ns := within.perm_of_length_le (by omega)
  obtain ⟨i, hi, readable⟩ := List.countP_pos_iff.1 some
  rw [all i (whole.mem_iff.2 hi)] at readable
  cases readable

namespace Drained

variable {unreadable : FeedId → Bool}

/-- What is considered was looked up. -/
theorem readable_iff (fails : ∀ u ∈ ts, ∀ i, u.call = .load i → (u.failed ↔ unreadable i = true))
    (looked : i ∈ Turn.considered ts) : ¬ Turn.lost (.load i) ts ↔ unreadable i = false := by
  obtain ⟨u, hu, made⟩ := Turn.mem_considered.1 looked
  rw [← Bool.not_eq_true, not_iff_not]
  constructor
  · rintro ⟨v, hv, made, failed⟩
    exact (fails v hv i made).1 failed
  · exact fun stuck => ⟨u, hu, made, (fails u hu i made).2 stuck⟩

/-- A pass in which no acknowledgement is lost takes out what it considers and can look up. -/
theorem takes_iff (drained : Drained batch s ts result s')
    (fails : ∀ u ∈ ts, ∀ i, u.call = .load i → (u.failed ↔ unreadable i = true))
    (acknowledged : ∀ u ∈ ts, ∀ i, u.call = .acknowledge i → ¬ u.failed) :
    i ∈ Turn.acknowledged ts ↔ i ∈ Turn.considered ts ∧ unreadable i = false := by
  rw [drained.takes]
  refine and_congr_right fun looked => ?_
  rw [readable_iff fails looked]
  refine and_iff_left ?_
  rintro ⟨u, hu, made, failed⟩
  exact acknowledged u hu i made failed

/-- Whether a pass advances by one entry at least depends on whether one can be looked up. -/
theorem advances (drained : Drained batch s ts result s') {n : Nat}
    (fails : ∀ u ∈ ts, ∀ i, u.call = .load i → (u.failed ↔ unreadable i = true))
    (acknowledged : ∀ u ∈ ts, ∀ i, u.call = .acknowledge i → ¬ u.failed)
    (waiting : ∀ i ∈ Turn.considered ts, i ∈ s.outbox)
    (fewer : s'.outbox.countP (!unreadable ·) ≤ s.outbox.countP (!unreadable ·) - n) :
    Advances unreadable n s ts s' := by
  have takes : ∀ i, i ∈ Turn.acknowledged ts ↔ i ∈ Turn.considered ts ∧ unreadable i = false :=
    fun i => drained.takes_iff fails acknowledged
  have left : ∀ i, i ∈ s'.outbox ↔ i ∈ s.outbox ∧ i ∉ Turn.acknowledged ts := fun i => by
    rw [drained.outbox]
    exact Ascending.mem_diff
  refine ⟨?_, ?_, fewer, fun i => ?_, fun i hi => ?_⟩
  · rw [drained.outbox, Ascending.diff, List.filter_filter]
    refine List.filter_congr fun i _ => ?_
    cases stuck : unreadable i with
    | false => rfl
    | true =>
      have stays : i ∉ Turn.acknowledged ts := fun taken => by
        rw [((takes i).1 taken).2] at stuck
        cases stuck
      simp [stays]
  · rw [drained.outbox]
    exact List.filter_sublist
  · by_cases taken : i ∈ Turn.acknowledged ts
    · obtain ⟨looked, readable⟩ := (takes i).1 taken
      have gone : i ∈ s.outbox ∧ i ∉ s'.outbox :=
        ⟨waiting i looked, fun stays => ((left i).1 stays).2 taken⟩
      rw [if_pos gone]
      exact drained.processes i looked ((readable_iff fails looked).2 readable)
    · rw [if_neg fun both => both.2 ((left i).2 ⟨both.1, taken⟩)]
      by_cases looked : i ∈ Turn.considered ts
      · have stuck : Turn.lost (.load i) ts := by
          by_contra read
          exact taken ((takes i).2 ⟨looked, (readable_iff fails looked).1 read⟩)
        exact processings_eq_zero (drained.unread i stuck).2.2
      · exact processings_eq_zero (drained.others i looked).2
  · have stays := ((left i).1 hi).2
    have same : s'.feed? i = s.feed? i := by
      by_cases looked : i ∈ Turn.considered ts
      · refine (drained.unread i ?_).2.1
        by_contra read
        exact stays ((takes i).2 ⟨looked, (readable_iff fails looked).1 read⟩)
      · exact congrArg Standing.feed (drained.others i looked).1
    rw [Store.isUnprocessed, same]
    rfl

/-- A pass that reports takes something out, unless nothing can be looked up. -/
theorem fewer (drained : Drained batch s ts result s')
    (reached : ¬ Turn.lost (.pending batch) ts)
    (fails : ∀ u ∈ ts, ∀ i, u.call = .load i → (u.failed ↔ unreadable i = true))
    (acknowledged : ∀ u ∈ ts, ∀ i, u.call = .acknowledge i → ¬ u.failed)
    (few : s.outbox.countP unreadable < batch) :
    s'.outbox.countP (!unreadable ·) ≤ s.outbox.countP (!unreadable ·) - 1 := by
  obtain ⟨once, length, oldest⟩ := drained.considers reached
  rw [drained.outbox]
  rcases Nat.eq_zero_or_pos (s.outbox.countP (!unreadable ·)) with none | some
  · rw [none, Nat.le_zero, ← Nat.le_zero, ← none]
    exact List.filter_sublist.countP_le
  · obtain ⟨i, looked, readable⟩ :=
      exists_readable once (fun i hi => (oldest i hi).1) length few some
    have taken := (drained.takes_iff fails acknowledged).2 ⟨looked, readable⟩
    refine Nat.le_sub_one_of_lt ?_
    rw [Ascending.diff, List.countP_eq_length_filter, List.countP_eq_length_filter,
      List.filter_comm]
    refine List.length_filter_lt_length_iff_exists.2 ⟨i, ?_, by simp [taken]⟩
    exact List.mem_filter.2 ⟨(oldest i looked).1, by simp [readable]⟩

end Drained

section Passes

variable {s : Settings} {h h' : Hub} {n : Nat} {unreadable : FeedId → Bool}

/-- Passes over the outbox one after another, and how many of them report what they have taken
out. -/
inductive Drains (s : Settings) : Hub → Nat → List Turn → Hub → Prop
  | stop (h : Hub) : Drains s h 0 [] h
  | reported {p : Program (Stored Nat)} {h h₁ h' : Hub} {us ts : List Turn} {m n : Nat}
      (performs : Act.PerformedBy s .drain p) (run : p.Runs h us (.ok m) h₁)
      (rest : Drains s h₁ n ts h') : Drains s h (n + 1) (us ++ ts) h'
  | failed {p : Program (Stored Nat)} {h h₁ h' : Hub} {us ts : List Turn} {e : StoreError} {n : Nat}
      (performs : Act.PerformedBy s .drain p) (run : p.Runs h us (.error e) h₁)
      (rest : Drains s h₁ n ts h') : Drains s h n (us ++ ts) h'

/-- However the entries of a batch take turns, a pass is one of these. -/
theorem passed_of_performed {p : Program (Stored Nat)} (performs : Act.PerformedBy s .drain p)
    (g : p.Goes us (.done result)) : Passed s.topic s.pipeline.relayBatchSize us result := by
  cases performs with
  | drain sideBySide => exact passed_of_goes sideBySide g

/-- A pass over the outbox drains it. -/
theorem drained_of_runs {p : Program (Stored Nat)} (performs : Act.PerformedBy s .drain p)
    (run : p.Runs h ts result h') (ascending : h.store.outbox.Pairwise (· < ·)) :
    Drained s.pipeline.relayBatchSize h.store ts result h'.store :=
  (passed_of_performed performs run.goes).drained run.chain ascending

/-- Several passes over the outbox advance it. -/
theorem Drains.advances (drains : Drains s h n ts h') (ascending : h.store.outbox.Pairwise (· < ·))
    (fails : ∀ u ∈ ts, ∀ i, u.call = .load i → (u.failed ↔ unreadable i = true))
    (acknowledged : ∀ u ∈ ts, ∀ i, u.call = .acknowledge i → ¬ u.failed)
    (few : h.store.outbox.countP unreadable < s.pipeline.relayBatchSize) :
    Advances unreadable n h.store ts h'.store := by
  induction drains with
  | stop h => exact .refl unreadable h.store
  | @reported p h h₁ h' us ts m n performs run rest ih =>
    have drained := drained_of_runs performs run ascending
    have reached : ¬ Turn.lost (.pending s.pipeline.relayBatchSize) us := fun lost => by
      obtain ⟨e, failed⟩ := (drained.blind lost).1
      cases failed
    have fails₁ := fun u hu => fails u (List.mem_append_left ts hu)
    have acknowledged₁ := fun u hu => acknowledged u (List.mem_append_left ts hu)
    have first := drained.advances fails₁ acknowledged₁
      (fun i hi => ((drained.considers reached).2.2 i hi).1)
      (drained.fewer reached fails₁ acknowledged₁ few)
    rw [Nat.add_comm]
    refine first.trans (ih (ascending.sublist first.shrinks)
      (fun u hu => fails u (List.mem_append_right us hu))
      (fun u hu => acknowledged u (List.mem_append_right us hu)) ?_)
    rwa [List.countP_eq_length_filter, first.stuck, ← List.countP_eq_length_filter]
  | @failed p h h₁ h' us ts e n performs run rest ih =>
    have drained := drained_of_runs performs run ascending
    have lost : Turn.lost (.pending s.pipeline.relayBatchSize) us := by
      by_contra reached
      cases drained.reports reached
    obtain ⟨-, considered, still⟩ := drained.blind lost
    have first := drained.advances (fun u hu => fails u (List.mem_append_left ts hu))
      (fun u hu => acknowledged u (List.mem_append_left ts hu)) (n := 0)
      (fun i hi => by rw [considered] at hi; cases hi) (by rw [still]; exact Nat.le_refl _)
    rw [← Nat.zero_add n]
    rw [still] at ih
    exact first.trans (still.symm ▸ ih ascending
      (fun u hu => fails u (List.mem_append_right us hu))
      (fun u hu => acknowledged u (List.mem_append_right us hu)) few)

/-- **The outbox is drained past entries that cannot be looked up.** Whatever waits, whatever calls
to the store fail and however the entries of a batch take turns, a pass that can ask for the outbox
considers its smallest entries, as many as there are places; it takes out those that it can look up
and acknowledge, and reports their number; an entry that it cannot look up stays, its feed is left
as it is, and nobody is offered it. So if certain entries can never be looked up, fewer than there
are places, if nothing comes in and no acknowledgement is lost, then after as many passes that
report as there are other entries these are all that is left, and each of the others has been
processed once, or not at all if it had been processed before. -/
theorem drained_past_unreadable (ascending : h.store.outbox.Pairwise (· < ·)) :
    (∀ (p : Program (Stored Nat)) ts result h', Act.PerformedBy s .drain p →
      p.Runs h ts result h' →
        Drained s.pipeline.relayBatchSize h.store ts result h'.store) ∧
    ∀ (unreadable : FeedId → Bool) n ts h', Drains s h n ts h' →
      (∀ u ∈ ts, ∀ i, u.call = .load i → (u.failed ↔ unreadable i = true)) →
      (∀ u ∈ ts, ∀ i, u.call = .acknowledge i → ¬ u.failed) →
      h.store.outbox.countP unreadable < s.pipeline.relayBatchSize →
      h.store.outbox.countP (!unreadable ·) ≤ n →
        h'.store.outbox = h.store.outbox.filter unreadable ∧
          ∀ i ∈ h.store.outbox, processings i ts =
            if unreadable i then 0 else (h.store.isUnprocessed i).toNat := by
  refine ⟨fun p ts result h' performs run => drained_of_runs performs run ascending,
    fun unreadable n ts h' drains fails acknowledged few enough => ?_⟩
  have advances := drains.advances ascending fails acknowledged few
  have none : h'.store.outbox.countP (!unreadable ·) = 0 := by
    have fewer := advances.fewer
    omega
  have all : ∀ i ∈ h'.store.outbox, unreadable i = true := fun i hi => by
    simpa using List.countP_eq_zero.1 none i hi
  have left : h'.store.outbox = h.store.outbox.filter unreadable := by
    rw [← advances.stuck, List.filter_eq_self.2 all]
  refine ⟨left, fun i hi => ?_⟩
  rw [advances.processed]
  cases stuck : unreadable i <;> simp [left, hi, stuck]

end Passes

end Outbox

/-- One entry of the outbox cannot be looked up. -/
def Outages.ofEntry (i : FeedId) : Outages
  | .load j => if j = i then some "unreachable" else Option.none
  | _ => Option.none

namespace Outbox

/-- The first of three feeds cannot be looked up. Two passes with two places each take out the
other two, and each of these is processed once. -/
theorem drained_past_unreadable_of_firstStuck :
    ∃ ts h', Drains (Settings.oneByOne.withBatch .drain 2) .threeWaiting 2 ts h' ∧
      Hub.threeWaiting.store.outbox = [1, 2, 3] ∧ h'.store.outbox = [1] ∧
      processings 1 ts = 0 ∧ processings 2 ts = 1 ∧ processings 3 ts = 1 := by
  let p := drain Settings.sample.topic 2
  let h₁ := (p.run (.ofEntry 1) .threeWaiting).2
  let ts := p.turns (.ofEntry 1) .threeWaiting ++ (p.turns (.ofEntry 1) h₁ ++ [])
  have performs : Act.PerformedBy (Settings.oneByOne.withBatch .drain 2) .drain p :=
    Act.performedBy_drain (Nat.le_refl 1)
  have first := Program.runs_run (.ofEntry 1) p .threeWaiting
  rw [show (p.run (.ofEntry 1) .threeWaiting).1 = .ok 1 by decide +kernel] at first
  have second := Program.runs_run (.ofEntry 1) p h₁
  rw [show (p.run (.ofEntry 1) h₁).1 = .ok 1 by decide +kernel] at second
  have drains : Drains (Settings.oneByOne.withBatch .drain 2) .threeWaiting 2 ts _ :=
    .reported performs first (.reported performs second (.stop _))
  have made : ∀ u ∈ ts, u = u.call.turn (.ofEntry 1) u.before := fun u hu => by
    rcases List.mem_append.1 hu with hu | hu
    · exact Program.turn_of_mem_turns hu
    · rw [List.append_nil] at hu
      exact Program.turn_of_mem_turns hu
  have waiting : Hub.threeWaiting.store.outbox = [1, 2, 3] := by decide +kernel
  have fails : ∀ u ∈ ts, ∀ i, u.call = .load i → (u.failed ↔ decide (i = 1) = true) := by
    intro u hu i load
    rw [decide_eq_true_iff]
    have same := made u hu
    rw [load] at same
    constructor
    · intro failed
      rw [same] at failed
      obtain ⟨reason, outage⟩ := Call.outage_of_failed _ _ _ failed
      by_contra other
      simp [Outages.ofEntry, other] at outage
    · rintro rfl
      rw [same]
      exact Call.failed_of_outage (.load 1) _ _ rfl rfl
  have acknowledged : ∀ u ∈ ts, ∀ i, u.call = .acknowledge i → ¬ u.failed := by
    intro u hu i ack failed
    rw [made u hu, ack] at failed
    obtain ⟨reason, outage⟩ := Call.outage_of_failed _ _ _ failed
    cases outage
  obtain ⟨left, once⟩ := (drained_past_unreadable (s := Settings.oneByOne.withBatch .drain 2)
    (h := .threeWaiting) (by decide +kernel)).2 _ 2 _ _ drains fails acknowledged
    (by decide +kernel) (by decide +kernel)
  refine ⟨ts, _, drains, waiting, left.trans (by rw [waiting]; rfl), ?_, ?_, ?_⟩
  · exact once 1 (by simp [waiting])
  · exact (once 2 (by simp [waiting])).trans (by decide +kernel)
  · exact (once 3 (by simp [waiting])).trans (by decide +kernel)

end Outbox
end NotificationRelay
