/-
# What a sweep takes away

A sweep in which no call fails deletes the feeds that are overdue, and with each of them its entries
in the index and in the outbox and the hold on its payload identifier (`Store.Swept`). It leaves one
store (`Expiry.swept_of_runs`), and where nothing is overdue that is the store that it found
(`Store.Coherent.swept_of_none`).

What is overdue stays so. Therefore nothing is left to sweep for an earlier moment
(`Store.Coherent.overdue_swept_of_le`), and of two sweeps for a moment and a later one the second
takes away what the first has left of its own (`Store.Coherent.swept_swept`).
-/
import NotificationRelay.Proofs.Flow.Entries

namespace NotificationRelay

/-! ## Feeds that are overdue -/

/-- The expiry of a feed lies before a moment. -/
def Feed.Overdue (f : Feed) (now : Int) : Prop := ∃ expiry, f.expiry = some expiry ∧ expiry < now

/-- A feed has expired at a moment if its expiry lies before it. -/
theorem Feed.isExpired_iff {f : Feed} {now : Int} : f.isExpired now = true ↔ f.Overdue now := by
  unfold isExpired Overdue
  cases f.expiry <;> simp

instance (f : Feed) (now : Int) : Decidable (f.Overdue now) :=
  decidable_of_iff (f.isExpired now = true) Feed.isExpired_iff

/-- What is overdue stays so. -/
theorem Feed.Overdue.mono {f : Feed} {now later : Int} (overdue : f.Overdue now)
    (le : now ≤ later) : f.Overdue later := by
  obtain ⟨expiry, expires, past⟩ := overdue
  exact ⟨expiry, expires, Int.lt_of_lt_of_le past le⟩

/-- What is taken out depends only on which numbers are listed. -/
theorem Ascending.diff_congr {ns ids more : List Int} (same : ∀ n, n ∈ ids ↔ n ∈ more) :
    diff ns ids = diff ns more := by
  unfold diff
  exact List.filter_congr fun n _ => by simp [same]

/-- Nothing is taken out if nothing is listed. -/
theorem Ascending.diff_nil (ns : List Int) : diff ns [] = ns :=
  List.filter_eq_self.2 fun _ _ => rfl

/-- Partitions stay as they are if nothing is dropped. -/
theorem Partitions.drop_nil (p : Partitions) : p.drop [] = p := by
  simp only [drop, Ascending.diff_nil]

namespace Store

/-- Taking nothing out of the index leaves the store as it is. -/
theorem unindex_nil (s : Store) : (s.unindex []).2 = s := by
  simp [unindex, Partitions.drop_nil]

/-- The feeds that are overdue. -/
def overdue (s : Store) (now : Int) : List Feed := s.feeds.filter fun f => f.Overdue now

/-- The identifiers of the feeds that are overdue. -/
def due (s : Store) (now : Int) : List FeedId := (s.overdue now).map (·.id)

/-- What one store is after a sweep over another. -/
structure Swept (s : Store) (now : Int) (s' : Store) : Prop where
  /-- The feeds that are overdue are deleted, and no others. -/
  feeds : s'.feeds = s.feeds.filter fun f => ¬ f.Overdue now
  /-- Their identifiers, and no others, are gone from the lists of every recipient. -/
  indexed : ∀ r b, s'.indexed r b = (s.indexed r b).filter fun i => i ∉ s.due now
  outbox : s'.outbox = s.outbox.filter fun i => i ∉ s.due now
  /-- Their payload identifiers, and no others, are free. -/
  freed : ∀ p, Table.get? p s'.payloadIds =
    if p ∈ (s.overdue now).map (·.payloadId) then none else Table.get? p s.payloadIds
  /-- Nothing else changes. -/
  rest : s' = { s with
    feeds := s'.feeds, payloadIds := s'.payloadIds, index := s'.index, outbox := s'.outbox }

/-- A store after a sweep. -/
def swept (s : Store) (now : Int) : Store :=
  ((s.deleteExpired now).2.unindex (s.deleteExpired now).1).2

variable {s : Store} {now later earlier : Int}

/-- The feeds that have expired are the overdue ones. -/
theorem filter_isExpired : s.feeds.filter (·.isExpired now) = s.overdue now :=
  List.filter_congr fun _ _ => Bool.eq_iff_iff.2 (by simp [Feed.isExpired_iff])

/-- A deletion tells the identifiers of the feeds that are due. -/
theorem deleteExpired_fst : (s.deleteExpired now).1 = s.due now := by
  show (s.feeds.filter (·.isExpired now)).map (·.id) = _
  rw [filter_isExpired]
  rfl

/-- In a coherent store no other feed bears the identifier of one that is overdue. -/
theorem Coherent.mem_due_iff (coherent : s.Coherent) {f : Feed} (hf : f ∈ s.feeds) :
    f.id ∈ s.due now ↔ f.Overdue now := by
  refine ⟨fun hi => ?_, fun overdue => ?_⟩
  · obtain ⟨g, hg, same⟩ := List.mem_map.1 hi
    obtain ⟨there, overdue⟩ := List.mem_filter.1 hg
    rw [← List.inj_on_of_nodup_map coherent.nodup_ids there hf same]
    exact of_decide_eq_true overdue
  · exact List.mem_map_of_mem (List.mem_filter.2 ⟨hf, decide_eq_true overdue⟩)

/-- The feeds that are left after a sweep are those that are not overdue. -/
theorem Coherent.feeds_swept (coherent : s.Coherent) (now : Int) :
    (s.swept now).feeds = s.feeds.filter fun f => ¬ f.Overdue now := by
  show s.feeds.filter (fun f => !(s.deleteExpired now).1.contains f.id) = _
  rw [deleteExpired_fst]
  exact List.filter_congr fun f hf => by simp [coherent.mem_due_iff hf]

/-- The payload keys that are left after a sweep are not those of overdue feeds. -/
theorem payloadIds_swept (s : Store) (now : Int) : (s.swept now).payloadIds =
    s.payloadIds.filter fun r => !((s.overdue now).map (·.payloadId)).contains r.1 := by
  rw [← filter_isExpired]
  rfl

/-- What is left in the outbox after a sweep is not due. -/
theorem outbox_swept (s : Store) (now : Int) :
    (s.swept now).outbox = Ascending.diff s.outbox (s.due now) := by
  rw [← deleteExpired_fst]
  rfl

/-- What is left in the index after a sweep is not due. -/
theorem index_swept (s : Store) (now : Int) :
    (s.swept now).index = s.index.map fun r => (r.1, r.2.drop (s.due now)) := by
  rw [← deleteExpired_fst]
  rfl

/-- **A sweep takes away what is overdue, and nothing else.** -/
theorem Coherent.swept (coherent : s.Coherent) (now : Int) : s.Swept now (s.swept now) where
  feeds := coherent.feeds_swept now
  indexed r b := by
    rw [Store.swept, indexed_unindex, deleteExpired_fst]
    exact List.filter_congr fun i _ => by simp
  outbox := by
    rw [outbox_swept]
    exact List.filter_congr fun i _ => by simp
  freed p := by
    rw [payloadIds_swept,
      Table.get?_filter p fun key => !((s.overdue now).map (·.payloadId)).contains key]
    by_cases hp : p ∈ (s.overdue now).map (·.payloadId) <;> simp [hp]
  rest := rfl

/-- A sweep keeps the store coherent. -/
theorem Coherent.coherent_swept (coherent : s.Coherent) (now : Int) : (s.swept now).Coherent :=
  { coherent.deleteExpired now with }

/-! ## Several sweeps -/

/-- A sweep, written out: it drops overdue feeds, and what belongs to them. -/
theorem Coherent.swept_eq (coherent : s.Coherent) (now : Int) : s.swept now = { s with
    feeds := s.feeds.filter fun f => ¬ f.Overdue now
    payloadIds := s.payloadIds.filter fun r =>
      !((s.overdue now).map (·.payloadId)).contains r.1
    index := s.index.map fun r => (r.1, r.2.drop (s.due now))
    outbox := Ascending.diff s.outbox (s.due now) } :=
  (coherent.swept now).rest.trans (by
    rw [coherent.feeds_swept, payloadIds_swept, index_swept, outbox_swept])

/-- Where nothing is overdue a sweep takes nothing away. -/
theorem Coherent.swept_of_none (coherent : s.Coherent) (none : s.overdue now = []) :
    s.swept now = s := by
  have ids : s.due now = [] := congrArg (List.map _) none
  have feeds : (s.feeds.filter fun f => ¬ f.Overdue now) = s.feeds :=
    List.filter_eq_self.2 fun f hf => by simpa using List.filter_eq_nil_iff.1 none f hf
  rw [coherent.swept_eq, feeds, none, ids, Ascending.diff_nil]
  simp [Partitions.drop_nil]

/-- What is overdue later, after a sweep, was not overdue at the sweep. -/
theorem Coherent.overdue_swept (coherent : s.Coherent) (now later : Int) :
    (s.swept now).overdue later = (s.overdue later).filter fun f => ¬ f.Overdue now := by
  unfold overdue
  rw [coherent.feeds_swept, List.filter_filter, List.filter_filter]
  exact List.filter_congr fun f _ => Bool.and_comm ..

/-- Nothing is left to sweep for an earlier moment. -/
theorem Coherent.overdue_swept_of_le (coherent : s.Coherent) (le : earlier ≤ now) :
    (s.swept now).overdue earlier = [] := by
  rw [coherent.overdue_swept, List.filter_eq_nil_iff]
  intro f hf
  have overdue : f.Overdue earlier := of_decide_eq_true (List.mem_filter.1 hf).2
  simpa using overdue.mono le

/-- What is overdue later was overdue before, or is overdue still after a sweep. -/
theorem Coherent.mem_map_overdue {α : Type} (coherent : s.Coherent) (le : now ≤ later)
    (g : Feed → α) (a : α) :
    a ∈ (s.overdue now).map g ++ ((s.swept now).overdue later).map g ↔
      a ∈ (s.overdue later).map g := by
  rw [coherent.overdue_swept, ← List.map_append, List.mem_map, List.mem_map]
  refine exists_congr fun f => and_congr_left fun _ => ?_
  simp only [overdue, List.mem_append, List.mem_filter, decide_eq_true_eq]
  have late : f.Overdue now → f.Overdue later := fun overdue => overdue.mono le
  tauto

/-- **A sweep for an earlier moment comes to nothing beside a later one.** -/
theorem Coherent.swept_swept (coherent : s.Coherent) (le : now ≤ later) :
    (s.swept now).swept later = s.swept later := by
  -- Table by table: what the first sweep takes away the second would have taken away as well.
  have feeds : (s.swept now).feeds.filter (fun f => ¬ f.Overdue later) =
      s.feeds.filter fun f => ¬ f.Overdue later := by
    rw [coherent.feeds_swept, List.filter_filter]
    refine List.filter_congr fun f _ => Bool.eq_iff_iff.2 ?_
    simpa using fun rest overdue => rest (Feed.Overdue.mono overdue le)
  have names : (s.swept now).payloadIds.filter (fun r =>
        !(((s.swept now).overdue later).map (·.payloadId)).contains r.1) =
      s.payloadIds.filter fun r => !((s.overdue later).map (·.payloadId)).contains r.1 := by
    rw [payloadIds_swept, List.filter_filter]
    refine List.filter_congr fun r _ => ?_
    have held := coherent.mem_map_overdue le (·.payloadId) r.1
    rw [List.mem_append, ← List.contains_iff_mem, ← List.contains_iff_mem, ← List.contains_iff_mem,
      ← Bool.or_eq_true, ← Bool.eq_iff_iff] at held
    rw [← held, Bool.not_or, Bool.and_comm]
  have ids : ∀ ns, Ascending.diff (Ascending.diff ns (s.due now)) ((s.swept now).due later) =
      Ascending.diff ns (s.due later) := fun ns => by
    rw [Ascending.diff_diff]
    exact Ascending.diff_congr (coherent.mem_map_overdue le (·.id))
  have index : (s.swept now).index.map (fun r => (r.1, r.2.drop ((s.swept now).due later))) =
      s.index.map fun r => (r.1, r.2.drop (s.due later)) := by
    rw [index_swept, List.map_map]
    refine List.map_congr_left fun r _ => ?_
    simp only [Function.comp_apply, Partitions.drop, ids]
  rw [(coherent.coherent_swept now).swept_eq, coherent.swept_eq later, feeds, names, index,
    outbox_swept, ids]
  rfl

/-- The numbers of feeds taken away add up. -/
theorem Coherent.length_overdue (coherent : s.Coherent) (le : now ≤ later) :
    (s.overdue now).length + ((s.swept now).overdue later).length =
      (s.overdue later).length := by
  have early : (s.overdue later).filter (fun f => f.Overdue now) = s.overdue now := by
    unfold overdue
    rw [List.filter_filter]
    refine List.filter_congr fun f _ => Bool.eq_iff_iff.2 ?_
    simpa using fun overdue => Feed.Overdue.mono overdue le
  have parts := List.length_eq_length_filter_add (l := s.overdue later) fun f => f.Overdue now
  rw [coherent.overdue_swept, parts, early]
  simp only [decide_not]

end Store

/-! ## Sweeping -/

/-- **A sweep in which no call fails leaves the swept store**, and reports how many feeds were
overdue. -/
theorem Expiry.swept_of_runs {now : Int} {h h' : Hub} {ts : List Turn} {result : Stored Nat}
    (run : (sweep now).Runs h ts result h') (healthy : ∀ t ∈ ts, ¬ t.failed) :
    result = .ok (h.store.overdue now).length ∧ h'.store = h.store.swept now := by
  obtain ⟨h₁, outages, us, o, rfl, rest⟩ := run.of_call
  have reached := healthy _ List.mem_cons_self
  simp only [Call.perform, Outages.guard, Call.no_outage _ outages h₁ rfl reached,
    Hub.store_eq_of_outside o] at rest
  replace rest : (if (h.store.deleteExpired now).1.isEmpty then _ else _ :
      Program (Stored Nat)).Runs _ us result h' := rest
  have count : (h.store.deleteExpired now).1.length = (h.store.overdue now).length := by
    rw [Store.deleteExpired_fst, Store.due, List.length_map]
  unfold Store.swept
  split at rest
  · next none =>
    obtain ⟨-, rfl, o'⟩ := rest.of_done
    rw [Hub.store_eq_of_outside o', ← count, List.isEmpty_iff.1 none, Store.unindex_nil]
    exact ⟨rfl, rfl⟩
  · obtain ⟨h₂, outages', vs, o₂, rfl, last⟩ := rest.of_call
    have taken := healthy _ (List.mem_cons_of_mem _ List.mem_cons_self)
    simp only [Call.perform, Outages.guard, Call.no_outage _ outages' h₂ rfl taken,
      Hub.store_eq_of_outside o₂] at last
    obtain ⟨-, rfl, o'⟩ := Program.Runs.of_done last
    rw [Hub.store_eq_of_outside o', ← count]
    exact ⟨rfl, rfl⟩

/-- **Sweeping is exact.** Over a store whose tables agree, let a sweep run in which no call fails.
It deletes exactly the feeds whose expiry lies before the moment, takes exactly their identifiers
out of the lists of every recipient and out of the outbox, frees exactly their payload identifiers,
changes nothing else, and answers with their number. Sweeping once more for the same moment or an
earlier one deletes nothing and changes nothing. Sweeping once more for a later moment instead
leaves the store that one sweep for that moment leaves, and the two numbers add up to its own. -/
theorem Expiry.sweep_exact {now : Int} {h h' : Hub} {ts : List Turn} {result : Stored Nat}
    (coherent : h.store.Coherent) (run : (sweep now).Runs h ts result h')
    (healthy : ∀ t ∈ ts, ¬ t.failed) :
    result = .ok (h.store.overdue now).length ∧ h.store.Swept now h'.store ∧
      (∀ earlier ≤ now, ∀ us again h'', (sweep earlier).Runs h' us again h'' →
        (∀ u ∈ us, ¬ u.failed) → again = .ok 0 ∧ h''.store = h'.store) ∧
      ∀ later, now ≤ later → ∀ us second h₂ vs whole h₃, (sweep later).Runs h' us second h₂ →
        (∀ u ∈ us, ¬ u.failed) → (sweep later).Runs h vs whole h₃ → (∀ v ∈ vs, ¬ v.failed) →
          h₂.store = h₃.store ∧ ∃ n, second = .ok n ∧
            whole = .ok ((h.store.overdue now).length + n) := by
  obtain ⟨answer, swept⟩ := swept_of_runs run healthy
  have coherent' : h'.store.Coherent := run.coherent coherent
  refine ⟨answer, swept ▸ coherent.swept now, ?_, ?_⟩
  · intro earlier le us again h'' run' healthy'
    obtain ⟨answer', swept'⟩ := swept_of_runs run' healthy'
    have none : h'.store.overdue earlier = [] := by
      rw [swept]
      exact coherent.overdue_swept_of_le le
    rw [answer', swept', none, coherent'.swept_of_none none]
    exact ⟨rfl, rfl⟩
  · intro later le us second h₂ vs whole h₃ run₂ healthy₂ run₃ healthy₃
    obtain ⟨answer₂, swept₂⟩ := swept_of_runs run₂ healthy₂
    obtain ⟨answer₃, swept₃⟩ := swept_of_runs run₃ healthy₃
    rw [swept₂, swept₃, swept, answer₃, ← coherent.length_overdue le, ← swept]
    exact ⟨swept ▸ coherent.swept_swept le, _, answer₂, rfl⟩

/-- Three feeds: one that expires early, one that expires late, and one that does not expire. -/
def Hub.threeExpiring : Hub :=
  ((Program.forEach [("p", some 5), ("q", some 15), ("r", none)] fun (payloadId, expiry) =>
    Intake.add { Draft.sample payloadId ["solana:alice"] 1 with expiry := expiry }).run .none
      .sample).2

/-- Of three feeds one is swept away, then another; a late sweep takes both. -/
theorem Expiry.sweep_exact_of_threeExpiring :
    ∃ once twice : Hub, ∃ ts us vs, ∃ whole : Hub,
      (sweep 10).Runs .threeExpiring ts (.ok 1) once ∧ Hub.threeExpiring.store.Swept 10 once.store ∧
      once.store.ids = [2, 3] ∧ (sweep 20).Runs once us (.ok 1) twice ∧
      (sweep 20).Runs .threeExpiring vs (.ok 2) whole ∧ twice.store = whole.store := by
  have coherent : Hub.threeExpiring.store.Coherent :=
    (Program.runs_run .none _ Hub.sample).coherent Store.coherent_empty
  have healthy : ∀ {n : Int} {g : Hub}, ∀ t ∈ (sweep n).turns .none g, ¬ t.failed := fun _ ht =>
    Program.not_failed_of_mem_turns ht
  have runs := fun n g => Program.runs_run .none (sweep n) g
  obtain ⟨answer, swept, -, later⟩ := sweep_exact coherent (runs 10 .threeExpiring) healthy
  obtain ⟨same, n, second, whole⟩ :=
    later 20 (by decide) _ _ _ _ _ _ (runs 20 _) healthy (runs 20 _) healthy
  have early : (Hub.threeExpiring.store.overdue 10).length = 1 := by decide +kernel
  have all : ((sweep 20).run .none .threeExpiring).1 = .ok 2 := by decide +kernel
  rw [early] at answer
  rw [early, all] at whole
  obtain rfl : n = 1 := by
    have sum := Except.ok.inj whole
    omega
  exact ⟨_, _, _, _, _, _, answer ▸ runs 10 _, swept, by decide +kernel, second ▸ runs 20 _,
    all ▸ runs 20 _, same⟩

end NotificationRelay
