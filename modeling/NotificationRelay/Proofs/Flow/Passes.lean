/-
# Retry passes

A retry pass selects from the feeds that may be tried again (`Store.retryable`) and handles
what it has selected (`Retry.passBy_runs`). Of equally many attempts the newest feed is
selected first, so a feed that comes before all others of a sort is met before them
(`Store.find?_candidates`). `Retry.Passes` lines up passes one after another.
-/
import NotificationRelay.Proofs.Store.Coherence

namespace NotificationRelay
namespace Store

variable (s : Store) (cap : Nat)

/-- The feeds that may be tried again under a cap of attempts. -/
def retryable : List Feed := s.feeds.filter (s.isRetryable cap)

/-- What a pass selects is to be tried again. -/
theorem mem_retryable_of_mem_candidates {s : Store} {cap limit : Nat} {f : Feed}
    (hf : f ∈ s.candidates cap limit) : f ∈ s.retryable cap :=
  List.mem_mergeSort.1 (List.mem_of_mem_take hf)

/-- A pass selects nothing if there is nothing to be tried again. -/
theorem candidates_eq_nil_iff {limit : Nat} (hl : 1 ≤ limit) :
    s.candidates cap limit = [] ↔ s.retryable cap = [] := by
  show ((s.retryable cap).mergeSort retriesBefore).take limit = [] ↔ _
  rw [List.take_eq_nil_iff, ← List.length_eq_zero_iff, List.length_mergeSort,
    List.length_eq_zero_iff]
  constructor
  · rintro (hzero | hnil)
    · omega
    · exact hnil
  · exact .inr

/-- What is tried before something is tried before whatever comes after that. -/
theorem retriesBefore_trans (f g k : Feed) (hfg : retriesBefore f g = true)
    (hgk : retriesBefore g k = true) : retriesBefore f k = true := by
  simp only [retriesBefore, Bool.or_eq_true, Bool.and_eq_true, decide_eq_true_eq] at *
  lia

/-- Of any two feeds one is tried before the other. -/
theorem retriesBefore_total (f g : Feed) : (retriesBefore f g || retriesBefore g f) = true := by
  simp only [retriesBefore, Bool.or_eq_true, Bool.and_eq_true, decide_eq_true_eq]
  lia

/-- Feeds that are to be tried again are put in order. -/
theorem pairwise_retries :
    ((s.retryable cap).mergeSort retriesBefore).Pairwise fun f g => retriesBefore f g = true :=
  List.pairwise_mergeSort retriesBefore_trans retriesBefore_total _

/-- The feeds that may be tried again stand in one order only. -/
theorem Coherent.retries_eq {s : Store} (hs : s.Coherent) {cap : Nat} {feeds : List Feed}
    (same : feeds.Perm (s.retryable cap))
    (sorted : feeds.Pairwise fun f g => retriesBefore f g = true) :
    (s.retryable cap).mergeSort retriesBefore = feeds := by
  refine List.Perm.eq_of_pairwise (fun f g hf hg hfg hgf => ?_) (pairwise_retries s cap) sorted
    ((List.mergeSort_perm _ _).trans same.symm)
  have hid : f.id = g.id := by
    simp only [retriesBefore, Bool.or_eq_true, Bool.and_eq_true, decide_eq_true_eq] at hfg hgf
    lia
  have hf' := (List.mem_filter.1 (List.mem_mergeSort.1 hf)).1
  have hg' := (List.mem_filter.1 (same.mem_iff.1 hg)).1
  exact List.inj_on_of_nodup_map hs.nodup_ids hf' hg' hid

/-- A selection is a first part of the feeds that may be tried again. -/
theorem Coherent.candidates_eq {s : Store} (hs : s.Coherent) {cap limit : Nat}
    {feeds : List Feed} (same : feeds.Perm (s.retryable cap))
    (sorted : feeds.Pairwise fun f g => retriesBefore f g = true) :
    s.candidates cap limit = feeds.take limit := by
  show ((s.retryable cap).mergeSort retriesBefore).take limit = _
  rw [hs.retries_eq same sorted]

/-- Where all feeds may be tried again, the newest first, and there is room for all, they are selected
in this order. -/
theorem Coherent.candidates_eq_reverse {s : Store} (hs : s.Coherent) {cap limit : Nat}
    (all : s.feeds.all (s.isRetryable cap) = true)
    (sorted : s.feeds.reverse.Pairwise fun f g => retriesBefore f g = true)
    (room : s.feeds.length ≤ limit) : s.candidates cap limit = s.feeds.reverse := by
  have whole : s.retryable cap = s.feeds := List.filter_eq_self.2 (List.all_eq_true.1 all)
  have same : s.feeds.reverse.Perm (s.retryable cap) := by
    rw [whole]
    exact List.reverse_perm _
  rw [hs.candidates_eq same sorted]
  exact List.take_of_length_le (by rwa [List.length_reverse])

/-- **What comes first is met first.** If no other retryable feed of a sort comes before one
of them, then none is met before it among the feeds selected. -/
theorem find?_candidates {s : Store} {cap limit : Nat} {sort : Feed → Bool} {first f : Feed}
    (there : first ∈ s.retryable cap) (hfirst : sort first = true)
    (before : ∀ g ∈ s.retryable cap, sort g = true → retriesBefore g first = true → g = first)
    (hf : (s.candidates cap limit).find? sort = some f) : f = first := by
  have sorted := pairwise_retries s cap
  have hfind : ((s.retryable cap).mergeSort retriesBefore).find? sort = some f := by
    rw [← List.take_append_drop limit ((s.retryable cap).mergeSort _), List.find?_append]
    exact (congrArg (Option.or · _) hf).trans rfl
  obtain ⟨hsort, earlier, later, hsplit, others⟩ := List.find?_eq_some_iff_append.1 hfind
  have hmem : first ∈ earlier ++ f :: later := hsplit ▸ List.mem_mergeSort.2 there
  have hf' : f ∈ s.retryable cap := List.mem_mergeSort.1 (List.mem_of_find?_eq_some hfind)
  rw [hsplit, List.pairwise_append, List.pairwise_cons] at sorted
  rcases List.mem_append.1 hmem with hmem | hmem
  · have := others first hmem
    rw [hfirst] at this
    cases this
  · rcases List.mem_cons.1 hmem with rfl | hmem
    · rfl
    · exact before f hf' hsort (sorted.2.1.1 first hmem)

end Store

/-- A selection succeeds, unless the call fails. -/
theorem Call.answer_candidates {outages : Outages} {h : Hub} {cap limit : Nat}
    (hf : ¬ (Call.turn (.candidates cap limit) outages h).failed) :
    (Call.perform outages (.candidates cap limit) h).1 = .ok (h.store.candidates cap limit) := by
  simp only [perform, Outages.guard, no_outage _ outages h rfl hf, readFrom]

namespace Retry

/-- What a retry pass selects. -/
def selection (s : Settings) (store : Store) : List Feed :=
  store.candidates s.pipeline.maxAttempts s.pipeline.retryBatchSize

/-- A number of retry passes, one after another. -/
inductive Passes (s : Settings) (start : Hub) : Nat → List Turn → Hub → Prop
  | start : Passes s start 0 [] start
  | pass {n : Nat} {p : Program (Stored Report)} {result : Stored Report} {ts us : List Turn}
      {h h' : Hub} (before : Passes s start n ts h) (hp : Act.PerformedBy s .retry p)
      (run : p.Runs h us result h') : Passes s start (n + 1) (ts ++ us) h'

/-- Retry passes make a history. -/
theorem Passes.history {s : Settings} {start h : Hub} {n : Nat} {ts : List Turn}
    (passes : Passes s start n ts h) : History s (fun a => a = .retry) start ts h := by
  induction passes with
  | start => exact .start
  | pass _ hp run ih => exact .act ih rfl hp run

/-- How a pass goes, by its calls: it cannot select and does nothing, or it handles what may be tried
again in the store that it found, and reports on it. -/
inductive PassedBy (handle : List Feed → Program (List (Except FeedError Processing.Report)))
    (cap batch : Nat) (h : Hub) : List Turn → Stored Report → Hub → Prop
  | blind {u : Turn} {e : StoreError} {h' : Hub} (call : u.call = .candidates cap batch)
      (lost : u.failed) (still : h'.store = h.store) : PassedBy handle cap batch h [u] (.error e) h'
  | seen {u : Turn} {us : List Turn} {results : List (Except FeedError Processing.Report)}
      {h₁ h₂ h' : Hub} (call : u.call = .candidates cap batch) (reached : ¬ u.failed)
      (same : h₁.store = h.store) (after : h'.store = h₂.store)
      (run : (handle (h.store.candidates cap batch)).Runs h₁ us results h₂) :
      PassedBy handle cap batch h (u :: us) (.ok ⟨(h.store.candidates cap batch).length,
        (h.store.candidates cap batch).length - results.countP Processing.failed,
        results.countP Processing.failed⟩) h'

/-- A retry pass that has run has selected feeds and handled them, unless it could not select. -/
theorem passedBy_of_runs {cap batch : Nat} {h h' : Hub} {ts : List Turn} {result : Stored Report}
    {handle : List Feed → Program (List (Except FeedError Processing.Report))}
    (run : (passBy handle cap batch).Runs h ts result h') :
    PassedBy handle cap batch h ts result h' := by
  obtain ⟨h₁, outages, us, out, rfl, rest⟩ := run.of_call
  have same := Hub.store_eq_of_outside out
  by_cases hf : ((Call.candidates cap batch).turn outages h₁).failed
  · obtain ⟨reason, ho⟩ := Call.outage_of_failed _ outages h₁ hf
    simp only [Call.perform, Outages.guard, ho] at rest
    obtain ⟨rfl, rfl, out'⟩ := Program.Runs.of_done rest
    exact .blind rfl hf ((Hub.store_eq_of_outside out').trans same)
  · have after := Call.store_perform_of_not_failed _ outages h₁ hf
    rw [Call.answer_candidates hf, same] at rest
    replace rest : ((handle (h.store.candidates cap batch)).bind _).Runs _ us result h' := rest
    obtain ⟨vs, ws, results, h₂, rfl, hvs, hws⟩ := rest.of_bind
    obtain ⟨rfl, rfl, out'⟩ := hws.of_done
    rw [List.append_nil]
    exact .seen rfl hf (after.trans same) (Hub.store_eq_of_outside out') hvs

/-- A pass that does not fail handles what may be tried again in the store that it found, and
reports on it. -/
theorem passBy_runs {cap batch : Nat} {h h' : Hub} {ts : List Turn} {result : Stored Report}
    {handle : List Feed → Program (List (Except FeedError Processing.Report))}
    (run : (passBy handle cap batch).Runs h ts result h') (healthy : ∀ t ∈ ts, ¬ t.failed) :
    ∃ t us results h₁ h₂, ts = t :: us ∧ t.call = .candidates cap batch ∧
      h₁.store = h.store ∧ h'.store = h₂.store ∧
      result = .ok ⟨(h.store.candidates cap batch).length,
        (h.store.candidates cap batch).length - results.countP Processing.failed,
        results.countP Processing.failed⟩ ∧
      (handle (h.store.candidates cap batch)).Runs h₁ us results h₂ := by
  cases passedBy_of_runs run with
  | blind _ lost _ => exact absurd lost (healthy _ List.mem_cons_self)
  | seen call _ same after handled =>
    exact ⟨_, _, _, _, _, rfl, call, same, after, rfl, handled⟩

/-- A pass that is not disturbed selects, handles, and reports what has failed. -/
theorem runs_passBy {cap batch : Nat} {h h' : Hub} {ts : List Turn}
    {handle : List Feed → Program (List (Except FeedError Processing.Report))}
    {results : List (Except FeedError Processing.Report)} {feeds : List Feed}
    (hfeeds : h.store.candidates cap batch = feeds) (run : (handle feeds).Runs h ts results h') :
    (passBy handle cap batch).Runs h ((Call.candidates cap batch).turn .none h :: ts)
      (.ok ⟨feeds.length, feeds.length - results.countP Processing.failed,
        results.countP Processing.failed⟩) h' := by
  subst hfeeds
  refine .call .none ?_
  show ((handle (h.store.candidates cap batch)).bind _).Runs h ts _ h'
  rw [← List.append_nil ts]
  exact run.bind (.done _ h')

end Retry
end NotificationRelay
