/-
# What sweeping leaves in the index

Storing a feed and filing it are separate calls, and so are deleting feeds and taking them out of
the index. When adds and sweeps take turns call by call, an entry of the index may outlast its
feed (`Store.Residue`).

What the index lists at the end is decided by what was done to it last
(`Turn.Chain.mem_indexed_iff_last`). A feed is deleted once
(`Program.Interleaved.eq_of_deleted`), by a sweep that asks right after it for its entries to be
taken out (`Program.Interleaved.share_of_deleted`), and nobody else asks for that
(`Program.Interleaved.share_of_unindex`). So an entry outlasts its feed in two ways: the call that
was to take it out has failed, or the entry was written after it. A later sweep mends neither,
since it looks at the feeds that it deletes itself (`Expiry.residue_of_sweep`). Together this is
`Program.Interleaved.residue_exact`.
-/
import NotificationRelay.Proofs.Flow.Adding
import NotificationRelay.Proofs.Flow.Lifetime

namespace NotificationRelay

/-- An entry of the index without a feed. -/
def Store.Residue (s : Store) (r : String) (b : Bool) (i : FeedId) : Prop :=
  i ∈ s.indexed r b ∧ i ∉ s.ids

/-- A turn that has taken a feed out of the index. -/
def Turn.TakesOut (t : Turn) (i : FeedId) : Prop :=
  ∃ ids, t.call = .unindex ids ∧ i ∈ ids ∧ ¬ t.failed

/-! ## What was done to the index last -/

section Listed

variable {r : String} {b : Bool} {i : FeedId}

/-- After a call a feed is listed if it was before and is not taken out, or if it is filed. -/
theorem Turn.Genuine.mem_indexed_iff {t : Turn} (ht : t.Genuine) :
    i ∈ t.after.store.indexed r b ↔
      i ∈ t.before.store.indexed r b ∧ ¬ t.TakesOut i ∨ t.Filed r i b := by
  obtain ⟨outages, ht⟩ := ht
  obtain ⟨h, c, a, h'⟩ := t
  rw [ht]
  show i ∈ (c.perform outages h).2.store.indexed r b ↔
    i ∈ h.store.indexed r b ∧ ¬ (c.turn outages h).TakesOut i ∨ (c.turn outages h).Filed r i b
  by_cases taking : ∃ ids, c = .unindex ids
  · obtain ⟨ids, rfl⟩ := taking
    have unfiled : ¬ ((Call.unindex ids).turn outages h).Filed r i b := by
      rintro ⟨⟨⟩, -⟩
    by_cases hf : ((Call.unindex ids).turn outages h).failed
    · have kept : ¬ ((Call.unindex ids).turn outages h).TakesOut i := by
        rintro ⟨_, _, _, done⟩
        exact done hf
      simp only [Call.perform_of_failed _ outages h hf, kept, unfiled, not_false_eq_true, and_true,
        or_false]
    · have taken : ((Call.unindex ids).turn outages h).TakesOut i ↔ i ∈ ids := by
        refine ⟨?_, fun hi => ⟨ids, rfl, hi, hf⟩⟩
        rintro ⟨ids', same, hi, -⟩
        obtain rfl : ids = ids' := Call.unindex.inj same
        exact hi
      rw [Call.store_perform_of_not_failed _ outages h hf, Call.effect, Store.indexed_unindex,
        Ascending.mem_diff, taken, or_iff_left unfiled]
  · have kept : ¬ (c.turn outages h).TakesOut i := by
      rintro ⟨ids, same, -⟩
      exact taking ⟨ids, same⟩
    simp only [c.mem_indexed_perform outages h fun ids same => taking ⟨ids, same⟩, kept,
      not_false_eq_true, and_true]

/-- **What was done last decides.** After turns a feed is listed if it was listed before them and
never taken out, or if it was filed and not taken out after that. -/
theorem Turn.Chain.mem_indexed_iff_last {s s' : Store} {ts : List Turn} (c : Turn.Chain s ts s') :
    i ∈ s'.indexed r b ↔ (i ∈ s.indexed r b ∧ ∀ t ∈ ts, ¬ t.TakesOut i) ∨
      ∃ xs t ys, ts = xs ++ t :: ys ∧ t.Filed r i b ∧ ∀ u ∈ ys, ¬ u.TakesOut i := by
  induction c with
  | nil => simp
  | @cons t ts s' genuine _ ih =>
    rw [ih]
    constructor
    · rintro (⟨hi, kept⟩ | ⟨xs, u, ys, rfl, filed, kept⟩)
      · rcases genuine.mem_indexed_iff.1 hi with ⟨hi, first⟩ | filed
        · exact .inl ⟨hi, List.forall_mem_cons.2 ⟨first, kept⟩⟩
        · exact .inr ⟨[], t, ts, rfl, filed, kept⟩
      · exact .inr ⟨t :: xs, u, ys, rfl, filed, kept⟩
    · rintro (⟨hi, kept⟩ | ⟨xs, u, ys, split, filed, kept⟩)
      · obtain ⟨first, kept⟩ := List.forall_mem_cons.1 kept
        exact .inl ⟨genuine.mem_indexed_iff.2 (.inl ⟨hi, first⟩), kept⟩
      · rcases List.cons_eq_append_iff.1 split with ⟨rfl, heq⟩ | ⟨xs, rfl, rfl⟩
        · obtain ⟨rfl, rfl⟩ := List.cons.inj heq
          exact .inl ⟨genuine.mem_indexed_iff.2 (.inr filed), kept⟩
        · exact .inr ⟨xs, u, ys, rfl, filed, kept⟩

end Listed

/-! ## Adds and sweeps -/

/-- An add or a sweep. -/
inductive Program.Caretaker : Program Unit → Prop
  | add {d : Draft} {p : Program (Except FeedError Inserted)} (hp : Intake.AddedBy d p) :
      Caretaker p.discard
  | sweep (now : Int) : Caretaker (Expiry.sweep now).discard

/-- A sweep deletes, and if it has deleted something asks next that it be taken out of the
index. -/
theorem Expiry.goes_sweep {now : Int} {us : List Turn} {q : Program (Stored Nat)}
    (g : (sweep now).Goes us q) : us = [] ∨ ∃ t, t.call = .deleteExpired now ∧
      (us = [t] ∧ ((∃ a, q = .done a) → t.deleted = []) ∨
        ∃ u, us = [t, u] ∧ u.call = .unindex t.deleted) := by
  rcases Program.Goes.of_call g with ⟨rfl, -⟩ | ⟨outages, h, us, rfl, rest⟩
  · exact .inl rfl
  refine .inr ⟨(Call.deleteExpired now).turn outages h, rfl, ?_⟩
  have deleting : ((Call.deleteExpired now).turn outages h).deleted =
      Call.deleted (.deleteExpired now) (Call.perform outages (.deleteExpired now) h).1 := rfl
  rw [deleting]
  generalize (Call.perform outages (.deleteExpired now) h).1 = answer at rest ⊢
  match answer with
  | .error e =>
    obtain ⟨rfl, -⟩ := Program.Goes.of_done rest
    exact .inl ⟨rfl, fun _ => rfl⟩
  | .ok ids =>
    replace rest : (if ids.isEmpty then _ else _ : Program (Stored Nat)).Goes us q := rest
    split at rest
    · next none =>
      obtain ⟨rfl, -⟩ := Program.Goes.of_done rest
      exact .inl ⟨rfl, fun _ => List.isEmpty_iff.1 none⟩
    · rcases Program.Goes.of_call rest with ⟨rfl, rfl⟩ | ⟨outages', h', vs, rfl, last⟩
      · exact .inl ⟨rfl, fun ⟨_, ended⟩ => nomatch ended⟩
      · refine .inr ⟨(Call.unindex ids).turn outages' h', ?_, rfl⟩
        generalize (Call.perform outages' (.unindex ids) h').1 = answer' at last
        match answer' with
        | .error _ | .ok _ =>
          obtain ⟨rfl, -⟩ := Program.Goes.of_done last
          rfl

namespace Program.Interleaved

variable {start h' : Hub} {ps qs : List (Program Unit)} {moves : List (Nat × Turn)} {i : FeedId}
  {k : Nat} {t u : Turn}

/-- What is filed was created. -/
theorem created_of_filed (run : Interleaved ps start moves qs h')
    (caretakers : ∀ p ∈ ps, p.Caretaker) (hu : (k, u) ∈ moves) {r : String} {b : Bool}
    (filed : u.Filed r i b) : ∃ v d, (k, v) ∈ moves ∧ v.created? = some (i, d) := by
  obtain ⟨p, q, hp, -, goes, mine⟩ := run.exists_goes hu
  cases caretakers p (List.mem_of_getElem? hp) with
  | add add =>
    obtain ⟨p', goes, -⟩ := goes.of_discard
    obtain ⟨v, hv, created⟩ := add.created_of_append goes mine filed.1
    exact ⟨v, _, Turn.mem_share.1 hv, created⟩
  | sweep now =>
    obtain ⟨p', goes, -⟩ := goes.of_discard
    rcases Expiry.goes_sweep goes with none | ⟨t, ht, ⟨one, -⟩ | ⟨v, both, hv⟩⟩
    · rw [none] at mine
      cases mine
    · rw [one, List.mem_singleton] at mine
      rw [← mine, filed.1] at ht
      cases ht
    · rw [both, List.mem_cons, List.mem_singleton] at mine
      rcases mine with rfl | rfl
      · rw [filed.1] at ht
        cases ht
      · rw [filed.1] at hv
        cases hv

/-- Whoever asks that feeds be taken out of the index has deleted these feeds just before. -/
theorem share_of_unindex (run : Interleaved ps start moves qs h')
    (caretakers : ∀ p ∈ ps, p.Caretaker) (hu : (k, u) ∈ moves) {ids : List FeedId}
    (asked : u.call = .unindex ids) :
    ∃ t, Turn.share k moves = [t, u] ∧ t.deleted = ids ∧ ∃ now, t.call = .deleteExpired now := by
  obtain ⟨p, q, hp, -, goes, mine⟩ := run.exists_goes hu
  cases caretakers p (List.mem_of_getElem? hp) with
  | add add =>
    obtain ⟨p', goes, -⟩ := goes.of_discard
    have made := (goes.only add.only).1 u mine
    rw [asked] at made
    cases made with
    | index hc => cases hc
  | sweep now =>
    obtain ⟨p', goes, -⟩ := goes.of_discard
    rcases Expiry.goes_sweep goes with none | ⟨t, ht, ⟨one, -⟩ | ⟨v, both, hv⟩⟩
    · rw [none] at mine
      cases mine
    · rw [one, List.mem_singleton] at mine
      rw [← mine, asked] at ht
      cases ht
    · have position := mine
      rw [both, List.mem_cons, List.mem_singleton] at position
      rcases position with rfl | rfl
      · rw [asked] at ht
        cases ht
      · rw [asked] at hv
        exact ⟨t, both, (Call.unindex.inj hv).symm, now, ht⟩

/-- After that it does nothing more. -/
theorem not_mem_of_unindex {xs ys : List (Nat × Turn)}
    (run : Interleaved ps start (xs ++ (k, u) :: ys) qs h') (caretakers : ∀ p ∈ ps, p.Caretaker)
    {ids : List FeedId} (asked : u.call = .unindex ids) {w : Turn} : (k, w) ∉ ys := by
  intro later
  have hu : (k, u) ∈ xs ++ (k, u) :: ys := List.mem_append_right _ List.mem_cons_self
  obtain ⟨t, both, -, now, deleting⟩ := run.share_of_unindex caretakers hu asked
  rw [Turn.share_append, Turn.share_cons_self] at both
  replace later : 1 ≤ (Turn.share k ys).length := List.length_pos_of_mem (Turn.mem_share.2 later)
  cases first : Turn.share k xs with
  | nil =>
    rw [first] at both
    rw [(List.cons.inj both).1, deleting] at asked
    cases asked
  | cons v vs =>
    have length := congrArg List.length both
    rw [first] at length
    simp only [List.length_append, List.length_cons, List.length_nil] at length
    lia

/-- Whoever has deleted a feed and has come to its end has asked that it be taken out of the
index. -/
theorem share_of_deleted (run : Interleaved ps start moves qs h')
    (caretakers : ∀ p ∈ ps, p.Caretaker) (ended : ∀ q ∈ qs, q = .done ()) (ht : (k, t) ∈ moves)
    (deleted : i ∈ t.deleted) : ∃ u, (k, u) ∈ moves ∧ u.call = .unindex t.deleted := by
  obtain ⟨p, q, hp, hq, goes, mine⟩ := run.exists_goes ht
  have last := ended q (List.mem_of_getElem? hq)
  cases caretakers p (List.mem_of_getElem? hp) with
  | add add =>
    obtain ⟨p', goes, -⟩ := goes.of_discard
    have made := (goes.only add.only).1 t mine
    obtain ⟨_, c, _, _⟩ := t
    cases made with
    | insert => cases deleted
    | index hc => cases hc <;> cases deleted
  | sweep now =>
    obtain ⟨p', goes, done⟩ := goes.of_discard
    rcases Expiry.goes_sweep goes with none | ⟨v, hv, ⟨one, nothing⟩ | ⟨u, both, hu⟩⟩
    · rw [none] at mine
      cases mine
    · rw [one, List.mem_singleton] at mine
      rw [mine, nothing (done last)] at deleted
      cases deleted
    · have position := mine
      rw [both, List.mem_cons, List.mem_singleton] at position
      rcases position with rfl | rfl
      · refine ⟨u, Turn.mem_share.1 ?_, hu⟩
        rw [both]
        exact List.mem_cons_of_mem _ List.mem_cons_self
      · obtain ⟨_, c, _, _⟩ := t
        cases hu
        cases deleted

/-- A feed is deleted once. -/
theorem eq_of_deleted (run : Interleaved ps start moves qs h') (hs : start.store.Coherent)
    {m m' : Nat × Turn} (hm : m ∈ moves) (hm' : m' ∈ moves) (deleted : i ∈ m.2.deleted)
    (deleted' : i ∈ m'.2.deleted) : m = m' := by
  have apart : ∀ {m m' : Nat × Turn} {xs ys : List (Nat × Turn)}, moves = xs ++ m :: ys →
      i ∈ m.2.deleted → i ∈ m'.2.deleted → m' ∉ ys := by
    rintro m m' xs ys rfl deleted deleted' later
    have chain := run.chain
    rw [List.map_append, List.map_cons] at chain
    exact (chain.gone_of_deleted hs deleted).2 _ (List.mem_map_of_mem later) deleted'
  obtain ⟨xs, ys, split⟩ := List.append_of_mem hm
  rw [split, List.mem_append, List.mem_cons] at hm'
  rcases hm' with before | rfl | later
  · obtain ⟨vs, ws, rfl⟩ := List.append_of_mem before
    rw [List.append_assoc, List.cons_append] at split
    exact absurd (List.mem_append_right _ List.mem_cons_self) (apart split deleted' deleted)
  · rfl
  · exact absurd later (apart split deleted deleted')

/-- A feed that has been deleted is not stored any more. -/
theorem not_mem_ids_of_deleted (run : Interleaved ps start moves qs h')
    (hs : start.store.Coherent) (ht : (k, t) ∈ moves) (deleted : i ∈ t.deleted) :
    i ∉ h'.store.ids := by
  intro there
  obtain ⟨f, hf⟩ := Store.mem_ids_iff.1 there
  obtain ⟨xs, ys, split⟩ := List.append_of_mem (List.mem_map_of_mem (f := (·.2)) ht)
  have chain := run.chain
  rw [split] at chain
  have none : h'.store.feed? i = none :=
    congrArg Standing.feed (chain.gone_of_deleted hs deleted).1
  rw [none] at hf
  cases hf

/-- Nobody but the sweep that has deleted a feed takes it out of the index, and it does so once. -/
theorem eq_of_takesOut (run : Interleaved ps start moves qs h')
    (caretakers : ∀ p ∈ ps, p.Caretaker) (hs : start.store.Coherent) (ht : (k, t) ∈ moves)
    (deleted : i ∈ t.deleted) (hu : (k, u) ∈ moves) (asked : u.call = .unindex t.deleted)
    {j : Nat} {w : Turn} (hw : (j, w) ∈ moves) (taken : w.TakesOut i) : j = k ∧ w = u := by
  obtain ⟨ids, asked', hi, -⟩ := taken
  obtain ⟨t', both', rfl, -⟩ := share_of_unindex run caretakers hw asked'
  have ht' : (j, t') ∈ moves := Turn.mem_share.1 (both' ▸ List.mem_cons_self)
  obtain ⟨rfl, rfl⟩ := Prod.mk.inj (eq_of_deleted run hs ht' ht hi deleted)
  obtain ⟨t'', both, -, -⟩ := share_of_unindex run caretakers hu asked
  rw [both] at both'
  simp only [List.cons.injEq, and_true] at both'
  exact ⟨rfl, both'.2.symm⟩

/-- If an entry is left without its feed, but there was none at first, the feed has been deleted. -/
theorem exists_deleted_of_residue (run : Interleaved ps start moves qs h')
    (caretakers : ∀ p ∈ ps, p.Caretaker) {r : String} {b : Bool}
    (clean : ¬ start.store.Residue r b i) (left : h'.store.Residue r b i) :
    ∃ m ∈ moves, i ∈ m.2.deleted := by
  obtain ⟨listed, lost⟩ := left
  have of_chain : ∀ {s ts}, Turn.Chain s ts h'.store → ts ⊆ moves.map (·.2) → i ∈ s.ids →
      ∃ m ∈ moves, i ∈ m.2.deleted := fun chain sub there => by
    obtain ⟨t, ht, deleted⟩ := chain.deleted_of_lost there lost
    obtain ⟨m, hm, rfl⟩ := List.mem_map.1 (sub ht)
    exact ⟨m, hm, deleted⟩
  -- the feed was there at first, or it was created for the call that filed it
  rcases run.chain.mem_indexed_iff_last.1 listed with ⟨old, -⟩ | ⟨xs, t, ys, split, filed, -⟩
  · exact of_chain run.chain (List.Subset.refl _) (not_not.1 fun out => clean ⟨old, out⟩)
  · have ht : t ∈ moves.map (·.2) := by
      rw [split]
      exact List.mem_append_right _ List.mem_cons_self
    obtain ⟨⟨k, t⟩, hm, rfl⟩ := List.mem_map.1 ht
    obtain ⟨v, d, hv, created⟩ := created_of_filed run caretakers hm filed
    have chain := run.chain
    obtain ⟨vs, ws, split⟩ := List.append_of_mem (List.mem_map_of_mem (f := (·.2)) hv)
    rw [split] at chain
    obtain ⟨s₁, -, chain⟩ := chain.of_append
    have genuine := chain.genuine v List.mem_cons_self
    refine of_chain chain.of_cons.2 (fun u hu => ?_) (genuine.mem_ids_of_created created)
    rw [split]
    exact List.mem_append_right _ (List.mem_cons_of_mem _ hu)

end Program.Interleaved

/-- A sweep that succeeds takes what it deletes out of the index. -/
theorem Expiry.diff_of_sweep {now : Int} {h h' : Hub} {us : List Turn} {n : Nat}
    (run : (sweep now).Runs h us (.ok n) h') :
    h'.store.ids = Ascending.diff h.store.ids (h.store.deleteExpired now).1 ∧
      ∀ r b, h'.store.indexed r b =
        Ascending.diff (h.store.indexed r b) (h.store.deleteExpired now).1 := by
  obtain ⟨h₁, outages, vs, o, -, rest⟩ := Program.Runs.of_call run
  rw [← Hub.store_eq_of_outside o]
  simp only [Call.perform, Outages.guard] at rest
  cases ho : outages (.deleteExpired now) with
  | some reason =>
    rw [ho] at rest
    cases rest.of_done.2.1
  | none =>
    rw [ho] at rest
    replace rest : (if (h₁.store.deleteExpired now).1.isEmpty then _ else _ :
      Program (Stored Nat)).Runs _ vs (.ok n) h' := rest
    split at rest
    · next none =>
      obtain ⟨-, -, o'⟩ := rest.of_done
      rw [Hub.store_eq_of_outside o']
      refine ⟨Store.ids_deleteExpired _ _, fun r b => ?_⟩
      rw [List.isEmpty_iff.1 none]
      exact (List.filter_eq_self.2 fun _ _ => rfl).symm
    · obtain ⟨h₂, outages', ws, o₂, -, last⟩ := rest.of_call
      have taken : h'.store = (h₂.store.unindex (h₁.store.deleteExpired now).1).2 := by
        simp only [Call.perform, Outages.guard] at last
        cases ho' : outages' (.unindex (h₁.store.deleteExpired now).1) with
        | some reason =>
          rw [ho'] at last
          cases (Program.Runs.of_done last).2.1
        | none =>
          rw [ho'] at last
          exact Hub.store_eq_of_outside (Program.Runs.of_done last).2.2
      rw [taken, Hub.store_eq_of_outside o₂]
      exact ⟨Store.ids_deleteExpired h₁.store now,
        Store.indexed_unindex (h₁.store.deleteExpired now).2 _⟩

/-- **A sweep that succeeds neither leaves an entry without a feed nor takes one away.** -/
theorem Expiry.residue_of_sweep {now : Int} {h h' : Hub} {us : List Turn} {n : Nat}
    (run : (sweep now).Runs h us (.ok n) h') (r : String) (b : Bool) (i : FeedId) :
    h'.store.Residue r b i ↔ h.store.Residue r b i := by
  obtain ⟨ids, index⟩ := diff_of_sweep run
  have stored : i ∈ (h.store.deleteExpired now).1 → i ∈ h.store.ids := fun hi => by
    obtain ⟨f, hf, rfl⟩ := List.mem_map.1 hi
    exact List.mem_map_of_mem (List.mem_filter.1 hf).1
  unfold Store.Residue
  rw [ids, index, Ascending.mem_diff, Ascending.mem_diff]
  constructor
  · rintro ⟨⟨hi, kept⟩, lost⟩
    exact ⟨hi, fun there => lost ⟨there, kept⟩⟩
  · rintro ⟨hi, lost⟩
    exact ⟨⟨hi, fun deleted => lost (stored deleted)⟩, fun there => lost there.1⟩

namespace Program.Interleaved

variable {start h' h'' : Hub} {ps qs : List (Program Unit)} {moves : List (Nat × Turn)}

/-- **What sweeping leaves in the index.** Let adds and sweeps take turns call by call, any of
which may fail, over a store that can come about and whose index lists stored feeds only; let all
of them come to their ends, and then let one more sweep succeed. An entry without a feed is left
exactly if some sweep has deleted the feed and asked that it be taken out of the index, and that
call has failed though the feed is filed there at some time, or it has not failed and the feed was
filed there after it. -/
theorem residue_exact (reachable : start.store.Reachable)
    (clean : ∀ r b i, ¬ start.store.Residue r b i) (caretakers : ∀ p ∈ ps, p.Caretaker)
    (run : Interleaved ps start moves qs h') (ended : ∀ q ∈ qs, q = .done ()) {now : Int}
    {us : List Turn} {n : Nat} (last : (Expiry.sweep now).Runs h' us (.ok n) h'') (r : String)
    (b : Bool) (i : FeedId) :
    h''.store.Residue r b i ↔ ∃ k t u, (k, t) ∈ moves ∧ (k, u) ∈ moves ∧ i ∈ t.deleted ∧
      u.call = .unindex t.deleted ∧
        (u.failed ∧ (i ∈ start.store.indexed r b ∨ ∃ m ∈ moves, m.2.Filed r i b) ∨
          ¬ u.failed ∧ ∃ xs ys, moves = xs ++ (k, u) :: ys ∧ ∃ m ∈ ys, m.2.Filed r i b) := by
  rw [Expiry.residue_of_sweep last]
  have coherent := reachable.coherent
  constructor
  · intro left
    obtain ⟨⟨k, t⟩, ht, deleted⟩ := exists_deleted_of_residue run caretakers (clean r b i) left
    obtain ⟨u, hu, asked⟩ := share_of_deleted run caretakers ended ht deleted
    refine ⟨k, t, u, ht, hu, deleted, asked, ?_⟩
    by_cases hf : u.failed
    · refine .inl ⟨hf, (run.chain.mem_indexed_iff_last.1 left.1).imp And.left ?_⟩
      rintro ⟨xs, t, ys, split, filed, -⟩
      have ht : t ∈ moves.map (·.2) := by
        rw [split]
        exact List.mem_append_right _ List.mem_cons_self
      obtain ⟨m, hm, rfl⟩ := List.mem_map.1 ht
      exact ⟨m, hm, filed⟩
    · -- the feed was taken out, so it was filed after that
      have taken : u.TakesOut i := ⟨_, asked, deleted, hf⟩
      refine .inr ⟨hf, ?_⟩
      rcases run.chain.mem_indexed_iff_last.1 left.1 with ⟨-, kept⟩ | ⟨xs, t, ys, split, filed, kept⟩
      · exact absurd taken (kept u (List.mem_map_of_mem hu))
      · obtain ⟨vs, ws, rfl, rfl, htail⟩ := List.map_eq_append_iff.1 split
        obtain ⟨m, ws, rfl, rfl, rfl⟩ := List.map_eq_cons_iff.1 htail
        rw [List.mem_append, List.mem_cons] at hu
        rcases hu with hu | heq | hu
        · obtain ⟨xs, ys, rfl⟩ := List.append_of_mem hu
          refine ⟨xs, ys ++ m :: ws, by rw [List.append_assoc, List.cons_append], m, ?_, filed⟩
          exact List.mem_append_right _ List.mem_cons_self
        · rw [← heq] at filed
          rw [filed.1] at asked
          cases asked
        · exact absurd taken (kept u (List.mem_map_of_mem hu))
  · rintro ⟨k, t, u, ht, hu, deleted, asked, ways⟩
    have alone : ∀ {j w}, (j, w) ∈ moves → w.TakesOut i → j = k ∧ w = u :=
      eq_of_takesOut run caretakers coherent ht deleted hu asked
    refine ⟨run.chain.mem_indexed_iff_last.2 ?_, not_mem_ids_of_deleted run coherent ht deleted⟩
    rcases ways with ⟨hf, filed⟩ | ⟨-, xs, ys, rfl, m, hm, filed⟩
    · have kept : ∀ w ∈ moves.map (·.2), ¬ w.TakesOut i := fun w hw taken => by
        obtain ⟨⟨j, w⟩, inside, rfl⟩ := List.mem_map.1 hw
        obtain ⟨-, rfl⟩ := alone inside taken
        obtain ⟨-, -, -, done⟩ := taken
        exact done hf
      refine filed.imp (fun old => ⟨old, kept⟩) ?_
      rintro ⟨m, hm, filed⟩
      obtain ⟨xs, ys, split⟩ := List.append_of_mem (List.mem_map_of_mem (f := (·.2)) hm)
      refine ⟨xs, m.2, ys, split, filed, fun w hw => kept w ?_⟩
      rw [split]
      exact List.mem_append_right _ (List.mem_cons_of_mem _ hw)
    · refine .inr ?_
      obtain ⟨vs, ws, rfl⟩ := List.append_of_mem hm
      refine ⟨(xs ++ (k, u) :: vs).map (·.2), m.2, ws.map (·.2), ?_, filed, fun w hw taken => ?_⟩
      · simp only [List.map_append, List.map_cons, List.append_assoc, List.cons_append]
      · obtain ⟨⟨j, w⟩, later, rfl⟩ := List.mem_map.1 hw
        replace later : (j, w) ∈ vs ++ m :: ws :=
          List.mem_append_right _ (List.mem_cons_of_mem _ later)
        obtain ⟨rfl, -⟩ := alone (List.mem_append_right _ (List.mem_cons_of_mem _ later)) taken
        exact not_mem_of_unindex run caretakers asked later

/-- A feed that expires, and a sweep that finds it expired. -/
def passing : List (Program Unit) :=
  [(Intake.add (.expiring "p" 10)).discard, (Expiry.sweep 15).discard]

/-- All who take part in what follows are caretakers of the index. -/
theorem caretaker_of_passing : ∀ p ∈ passing, p.Caretaker :=
  List.forall_mem_cons.2 ⟨.add (Intake.addedBy_add _), List.forall_mem_singleton.2 (.sweep 15)⟩

/-- The sweep is through before the feed is filed. -/
def overtaken : List (Nat × Turn) × List (Program Unit) × Hub :=
  takeTurns .none [0, 1, 1, 0, 0, 0] passing .sample

/-- The entries that are written after the sweep stay, although no call has failed. -/
theorem residue_exact_of_overtaken : overtaken.2.1 = [.done (), .done ()] ∧
    (∀ m ∈ overtaken.1, ¬ m.2.failed) ∧
      ((Expiry.sweep 20).run .none overtaken.2.2).2.store.Residue "solana:alice" false 1 := by
  have ended : overtaken.2.1 = [.done (), .done ()] := rfl
  have run : Interleaved passing .sample overtaken.1 overtaken.2.1 overtaken.2.2 :=
    of_takeTurns .none _ _ _
  have healthy : ∀ m ∈ overtaken.1, ¬ m.2.failed := fun m hm => not_failed_of_takeTurns hm
  have last : (Expiry.sweep 20).Runs overtaken.2.2 _ (.ok 0) _ :=
    runs_run .none (Expiry.sweep 20) overtaken.2.2
  have clean : ∀ r b i, ¬ Hub.sample.store.Residue r b i := fun r b i left => by
    cases b <;> cases left.1
  rw [ended] at run
  refine ⟨ended, healthy, ?_⟩
  refine (residue_exact Store.reachable_empty clean caretaker_of_passing run (by simp) last
    "solana:alice" false 1).2 ?_
  have swept : (1, overtaken.1[2].2) ∈ overtaken.1 := List.mem_of_getElem? (i := 2) rfl
  refine ⟨1, overtaken.1[1].2, overtaken.1[2].2, List.mem_of_getElem? (i := 1) rfl, swept,
    by decide +kernel, rfl, .inr ⟨healthy _ swept, [_, _], [_, _, _], rfl, _, List.mem_cons_self,
      rfl, healthy (0, overtaken.1[3].2) (List.mem_of_getElem? (i := 3) rfl)⟩⟩

/-- Nor does the sweep mend what a failed one has left: it is not so that entries without a feed
are taken out in the end if no other call fails. -/
theorem residue_left_of_lostUnindexing :
    ¬ ∀ (ps qs : List (Program Unit)) (moves : List (Nat × Turn)) (h' h'' : Hub) (now : Int)
      (us : List Turn) (n : Nat), (∀ p ∈ ps, p.Caretaker) → Interleaved ps .sample moves qs h' →
        (∀ q ∈ qs, q = .done ()) → (∀ m ∈ moves, m.2.failed → ∃ ids, m.2.call = .unindex ids) →
          (Expiry.sweep now).Runs h' us (.ok n) h'' → ∀ r b i, ¬ h''.store.Residue r b i := by
  intro claim
  let lost := takeTurns .ofUnindexing [0, 0, 0, 0, 1, 1] passing .sample
  have run : Interleaved passing .sample lost.1 [.done (), .done ()] lost.2.2 :=
    of_takeTurns .ofUnindexing _ _ _
  have only : ∀ m ∈ lost.1, m.2.failed → ∃ ids, m.2.call = .unindex ids := fun m hm hf => by
    obtain ⟨reason, ho⟩ := outage_of_takeTurns hm hf
    cases hc : m.2.call with
    | unindex ids => exact ⟨ids, rfl⟩
    | _ =>
      rw [hc] at ho
      cases ho
  have last : (Expiry.sweep 20).Runs lost.2.2 _ (.ok 0) _ :=
    runs_run .none (Expiry.sweep 20) lost.2.2
  exact claim _ _ _ _ _ _ _ _ caretaker_of_passing run (by simp) only last "solana:alice" false 1
    ⟨by decide +kernel, by decide +kernel⟩

end Program.Interleaved
end NotificationRelay
