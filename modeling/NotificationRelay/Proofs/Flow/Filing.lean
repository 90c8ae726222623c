/-
# What the index lists when filing fails

The index is written recipient by recipient, and any of these calls may fail; so may the call
that takes deleted feeds out again. `History.indexed` says what the index is if none does. Here
it is followed through every failure.

A feed is created by one act, which asks once for each of its recipients that the feed be filed
under it (`Intake.calls_of_index`). No other act files that feed, and none takes it out as long
as it is stored, so that it is listed where that act has filed it and nowhere else. A feed that
is gone was deleted by a sweep, which asked at once for its entries to be taken out; they
outlast it only if that call failed. Both are kept by every deed (`Filing.idle`, `Filing.add`,
`Filing.sweep`), together with what keeps feeds apart: no identifier is given twice. At the end
of a course this is `Course.index_exact`.
-/
import NotificationRelay.Proofs.Run.Course
import NotificationRelay.Proofs.Store.Origin

namespace NotificationRelay

/-! ## What a call does to the index -/

/-- A turn that has filed a feed under a recipient. -/
def Turn.Filed (t : Turn) (r : String) (i : FeedId) (b : Bool) : Prop :=
  t.call = .append r i b ∧ ¬ t.failed

/-- The feeds that a call has deleted. -/
def Call.deleted : (c : Call) → c.Answer → List FeedId
  | .deleteExpired _, .ok ids => ids
  | _, _ => []

/-- The feeds that were deleted in a turn. -/
def Turn.deleted (t : Turn) : List FeedId := t.call.deleted t.answer

/-- The feeds that a call has listed for a recipient. -/
def Call.listed? : (c : Call) → c.Answer → Option (List FeedId)
  | .indexed _ _, .ok ids => some ids
  | _, _ => none

/-- The feeds that were listed in a turn. -/
def Turn.listed? (t : Turn) : Option (List FeedId) := t.call.listed? t.answer

namespace Call

variable (c : Call) (outages : Outages) (h : Hub)

/-- Whatever is done short of taking feeds out of the index, a feed is listed where it was
before, and where it is filed. -/
theorem mem_indexed_perform (kept : ∀ ids, c ≠ .unindex ids) {r : String} {b : Bool} {i : FeedId} :
    i ∈ (c.perform outages h).2.store.indexed r b ↔
      i ∈ h.store.indexed r b ∨ (c.turn outages h).Filed r i b := by
  by_cases hf : (c.turn outages h).failed
  · rw [c.perform_of_failed outages h hf]
    exact ⟨.inl, fun hi => hi.resolve_right fun filed => filed.2 hf⟩
  · rw [c.store_perform_of_not_failed outages h hf]
    have other : (∀ r i b, c ≠ .append r i b) → (c.effect h.store).index = h.store.index →
        (i ∈ (c.effect h.store).indexed r b ↔
          i ∈ h.store.indexed r b ∨ (c.turn outages h).Filed r i b) := by
      intro hc same
      have unfiled : ¬ (c.turn outages h).Filed r i b := fun filed => hc r i b filed.1
      unfold Store.indexed Store.partitions
      rw [same]
      simp only [unfiled, or_false]
    cases c with
    | append r' j b' =>
      have filed : ((append r' j b').turn outages h).Filed r i b ↔ r' = r ∧ j = i ∧ b' = b := by
        refine ⟨fun filed => by simpa [turn] using filed.1, ?_⟩
        rintro ⟨rfl, rfl, rfl⟩
        exact ⟨rfl, hf⟩
      rw [filed, effect, Store.indexed_append]
      split
      · next here =>
        obtain ⟨rfl, rfl⟩ := here
        simp [Ascending.mem_insert, or_comm, eq_comm]
      · next there =>
        refine ⟨.inl, fun hi => hi.resolve_right ?_⟩
        rintro ⟨hr, -, hb⟩
        exact there ⟨hr.symm, hb.symm⟩
    | unindex ids => exact absurd rfl (kept ids)
    | insert d =>
      refine other (by rintro _ _ _ ⟨⟩) ?_
      simp only [effect, Store.insert]
      split <;> rfl
    | deleteExpired => exact other (by rintro _ _ _ ⟨⟩) rfl
    | _ => exact other (by rintro _ _ _ ⟨⟩) (sparesIndex rfl h.store).1

/-- Every call leaves the lists of the index ascending. -/
theorem ascending_perform (hh : ∀ r b, (h.store.indexed r b).Pairwise (· < ·)) (r : String)
    (b : Bool) : ((c.perform outages h).2.store.indexed r b).Pairwise (· < ·) := by
  by_cases hf : (c.turn outages h).failed
  · rw [c.perform_of_failed outages h hf]
    exact hh r b
  · rw [c.store_perform_of_not_failed outages h hf]
    have same : (c.effect h.store).index = h.store.index →
        ((c.effect h.store).indexed r b).Pairwise (· < ·) := by
      intro same
      unfold Store.indexed Store.partitions
      rw [same]
      exact hh r b
    cases c with
    | append r' j b' =>
      rw [effect, Store.indexed_append]
      split
      · exact Ascending.pairwise_insert (hh r' b') j
      · exact hh r b
    | unindex ids =>
      rw [effect, Store.indexed_unindex]
      exact Ascending.pairwise_diff (hh r b) ids
    | insert d =>
      refine same ?_
      simp only [effect, Store.insert]
      split <;> rfl
    | deleteExpired => exact same rfl
    | _ => exact same (sparesIndex rfl h.store).1

end Call

/-- What is listed in a turn is what the index lists before it. -/
theorem Turn.listed?_eq {t : Turn} (ht : t.Genuine) {ids : List FeedId}
    (listed : t.listed? = some ids) : ∃ r b, ids = t.before.store.indexed r b := by
  obtain ⟨outages, ht⟩ := ht
  have answered := congrArg Turn.listed? ht
  rw [listed] at answered
  change _ = t.call.listed? (t.call.perform outages t.before).1 at answered
  generalize t.call = c at answered
  cases c with
  | indexed r b =>
    refine ⟨r, b, ?_⟩
    simp only [Call.perform, Outages.guard] at answered
    split at answered
    · cases answered
    · exact Option.some.inj answered
  | _ => cases answered

namespace Turn.Chain

variable {s s' : Store} {ts : List Turn}

/-- Over turns none of which takes feeds out of the index, feeds are listed where they were
before, and where they have been filed. -/
theorem mem_indexed_iff (c : Chain s ts s') (kept : ∀ t ∈ ts, ∀ ids, t.call ≠ .unindex ids)
    {r : String} {b : Bool} {i : FeedId} :
    i ∈ s'.indexed r b ↔ i ∈ s.indexed r b ∨ ∃ t ∈ ts, t.Filed r i b := by
  induction c with
  | nil => simp
  | @cons t ts s' genuine rest ih =>
    obtain ⟨outages, ht⟩ := genuine
    have first := t.call.mem_indexed_perform outages t.before (kept t List.mem_cons_self)
      (r := r) (b := b) (i := i)
    rw [← ht] at first
    rw [ih fun u hu => kept u (List.mem_cons_of_mem _ hu)]
    have after : t.after = (t.call.perform outages t.before).2 := congrArg Turn.after ht
    rw [after, first, List.exists_mem_cons_iff, or_assoc]

end Turn.Chain

/-! ## What is filed for a new feed -/

namespace Intake

variable {d : Draft} {i : FeedId} {h h' : Hub} {ts : List Turn} {a : Unit}

/-- Each recipient of a new feed is asked for once, whatever becomes of the others. -/
theorem calls_of_index (r : (index d i).Runs h ts a h') :
    ts.map (·.call) = (d.recipients.map fun r => .append r i d.isSpam) ++ [.wake] := by
  obtain ⟨us, vs, as, h₁, rfl, hall, hwake⟩ := Program.Runs.of_bind r
  obtain ⟨h₀, outages, -, rfl, -, -⟩ := hwake.of_perform
  rw [List.map_append]
  congr 1
  refine hall.calls_of_forEach fun r g us a g' one => ?_
  obtain ⟨g₀, outages, -, rfl, -, -⟩ := one.of_perform
  rfl

/-- Filing a feed adds none and changes none. -/
theorem entries_of_index (r : (index d i).Runs h ts a h') :
    h'.store.entries = h.store.entries ∧ h'.store.lastId = h.store.lastId := by
  refine (r.keeps (fun g => g.store.entries = h.store.entries ∧ g.store.lastId = h.store.lastId)
    (only_index d i) (fun _ _ o hg => by rwa [o.store_eq]) (fun c outages g hc hg => ?_)
    ⟨rfl, rfl⟩).1
  by_cases hf : (c.turn outages g).failed
  · rwa [c.perform_of_failed outages g hf]
  · rw [c.store_perform_of_not_failed outages g hf]
    cases hc <;> exact hg

end Intake

/-- A deed that has created a feed from a draft and asked that it be filed under each of its
recipients. -/
structure Deed.Creates (D : Deed) (i : FeedId) (d : Draft) : Prop where
  created : (i, d) ∈ Turn.created D.turns
  calls : D.turns.map (·.call) =
    .insert d :: (d.recipients.map fun r => .append r i d.isSpam) ++ [.wake]

/-- A sweep that has deleted a feed and could not take it out of the index. -/
structure Deed.LeavesBehind (D : Deed) (i : FeedId) : Prop where
  sweep : ∃ now, D.act = .sweep now
  deleted : ∃ t ∈ D.turns, i ∈ t.deleted ∧ ∃ u ∈ D.turns, u.call = .unindex t.deleted ∧ u.failed

/-- A new feed is filed under recipients of its draft only. -/
theorem Deed.Creates.of_filed {D : Deed} {i j : FeedId} {d : Draft} {r : String} {b : Bool}
    (hD : D.Creates i d) {t : Turn} (ht : t ∈ D.turns) (filed : t.Filed r j b) :
    j = i ∧ r ∈ d.recipients ∧ b = d.isSpam := by
  have call : t.call ∈ D.turns.map (·.call) := List.mem_map_of_mem ht
  rw [hD.calls, filed.1] at call
  simp only [List.cons_append, List.mem_cons, List.mem_append, List.mem_map, reduceCtorEq,
    false_or, Call.append.injEq, List.not_mem_nil, or_false] at call
  obtain ⟨_, hr, rfl, rfl, rfl⟩ := call
  exact ⟨rfl, hr, rfl⟩

/-- What deeds have left in the index: a feed that is stored is listed where the deed that has
created it has filed it, and a feed that is gone is listed only if the sweep that has deleted
it has left it behind. -/
structure Filing (ds : List Deed) (s : Store) : Prop where
  coherent : s.Coherent
  numbered : ((Turn.created (Deed.turnsOf ds)).map (·.1)).Pairwise (· < ·)
  issued : ∀ e ∈ Turn.created (Deed.turnsOf ds), e.1 ≤ s.lastId
  given : ∀ r b, ∀ i ∈ s.indexed r b, i ≤ s.lastId
  stored : ∀ i rs b, (i, rs, b) ∈ s.entries → ∃ D ∈ ds, ∃ d, D.Creates i d ∧
    d.recipients = rs ∧ d.isSpam = b ∧
      ∀ r c, i ∈ s.indexed r c ↔ ∃ t ∈ D.turns, t.Filed r i c
  gone : ∀ r b, ∀ i ∈ s.indexed r b, i ∉ s.ids → ∃ D ∈ ds, D.LeavesBehind i

namespace Filing

variable {ds : List Deed} {s s' : Store} {D : Deed} {h h' : Hub}

/-- Nothing has been filed in an empty store. -/
theorem empty : Filing [] Store.empty where
  coherent := Store.coherent_empty
  numbered := .nil
  issued _ he := by cases he
  given _ b i hi := by cases b <;> cases hi
  stored _ _ _ he := by cases he
  gone _ b i hi := by cases b <;> cases hi

theorem created_snoc : Turn.created (Deed.turnsOf (ds ++ [D])) =
    Turn.created (Deed.turnsOf ds) ++ Turn.created D.turns := by
  rw [Deed.turnsOf_snoc, Turn.created_append]

/-- What a deed has created was created in the course. -/
theorem mem_created (hD : D ∈ ds) {e : FeedId × Draft} (he : e ∈ Turn.created D.turns) :
    e ∈ Turn.created (Deed.turnsOf ds) := by
  obtain ⟨t, ht, created⟩ := List.mem_filterMap.1 he
  exact List.mem_filterMap.2 ⟨t, List.mem_flatMap.2 ⟨D, hD, ht⟩, created⟩

/-- A deed that creates no feed, files none and deletes none. -/
theorem idle (hf : Filing ds s) (silent : Turn.created D.turns = []) (coherent : s'.Coherent)
    (index : s'.index = s.index) (entries : s'.entries = s.entries)
    (lastId : s'.lastId = s.lastId) : Filing (ds ++ [D]) s' := by
  have same : ∀ r b, s'.indexed r b = s.indexed r b := fun r b => by
    unfold Store.indexed Store.partitions
    rw [index]
  refine ⟨coherent, ?_, ?_, fun r b i hi => ?_, fun i rs b he => ?_, fun r b i hi out => ?_⟩
  · rw [created_snoc, silent, List.append_nil]
    exact hf.numbered
  · rw [created_snoc, silent, List.append_nil, lastId]
    exact hf.issued
  · rw [same] at hi
    rw [lastId]
    exact hf.given r b i hi
  · rw [entries] at he
    obtain ⟨D', hD', d, creates, hrs, hb, filed⟩ := hf.stored i rs b he
    refine ⟨D', List.mem_append_left _ hD', d, creates, hrs, hb, fun r c => ?_⟩
    rw [same]
    exact filed r c
  · rw [same] at hi
    rw [Store.ids_eq_map_entries, entries, ← Store.ids_eq_map_entries] at out
    obtain ⟨D', hD', left⟩ := hf.gone r b i hi out
    exact ⟨D', List.mem_append_left _ hD', left⟩

/-- A deed that creates a feed and files it, in part or in full. -/
theorem add (hf : Filing ds s) {d : Draft} (creates : D.Creates (s.lastId + 1) d)
    (created : Turn.created D.turns = [(s.lastId + 1, d)]) (coherent : s'.Coherent)
    (lastId : s'.lastId = s.lastId + 1)
    (entries : s'.entries = s.entries ++ [(s.lastId + 1, d.recipients, d.isSpam)])
    (listed : ∀ r b i, i ∈ s'.indexed r b ↔
      i ∈ s.indexed r b ∨ ∃ t ∈ D.turns, t.Filed r i b) : Filing (ds ++ [D]) s' := by
  -- what the deed files is its own feed, whose identifier was not listed before
  have own : ∀ {r b i}, (∃ t ∈ D.turns, t.Filed r i b) → i = s.lastId + 1 := by
    rintro r b i ⟨t, ht, filed⟩
    exact (creates.of_filed ht filed).1
  have old : ∀ {r b i}, i ≤ s.lastId → (i ∈ s'.indexed r b ↔ i ∈ s.indexed r b) := by
    intro r b i hi
    have other : ¬ ∃ t ∈ D.turns, t.Filed r i b := fun filed => by
      have := own filed
      lia
    rw [listed, or_iff_left other]
  refine ⟨coherent, ?_, fun e he => ?_, fun r b i hi => ?_, fun i rs b he => ?_,
    fun r b i hi out => ?_⟩
  · rw [created_snoc, created]
    exact Turn.ascending_snoc hf.numbered fun e he => Int.lt_add_one_of_le (hf.issued e he)
  · rw [lastId]
    rw [created_snoc, created, List.mem_append, List.mem_singleton] at he
    rcases he with he | rfl
    · exact Int.le_add_one (hf.issued e he)
    · exact Int.le_refl _
  · rw [lastId]
    rcases (listed r b i).1 hi with hi | filed
    · exact Int.le_add_one (hf.given r b i hi)
    · exact Int.le_of_eq (own filed)
  · rw [entries, List.mem_append, List.mem_singleton] at he
    rcases he with he | he
    · obtain ⟨D', hD', d', creates', hrs, hb, filed⟩ := hf.stored i rs b he
      have below : i ≤ s.lastId := hf.issued _ (Filing.mem_created hD' creates'.created)
      refine ⟨D', List.mem_append_left _ hD', d', creates', hrs, hb, fun r c => ?_⟩
      rw [old below]
      exact filed r c
    · obtain ⟨rfl, rfl, rfl⟩ : i = s.lastId + 1 ∧ rs = d.recipients ∧ b = d.isSpam := by
        simpa using he
      have new : ∀ {r c}, s.lastId + 1 ∉ s.indexed r c := fun {r c} hi => by
        have := hf.given r c _ hi
        lia
      refine ⟨D, List.mem_append_right _ (List.mem_singleton_self D), d, creates, rfl, rfl,
        fun r c => ?_⟩
      rw [listed, or_iff_right new]
  · have there : ∀ {j}, j ∈ s'.ids ↔ j ∈ s.ids ∨ j = s.lastId + 1 := by
      intro j
      rw [Store.ids_eq_map_entries, entries, List.map_append, ← Store.ids_eq_map_entries]
      simp
    obtain ⟨old, new⟩ := not_or.1 (mt there.2 out)
    rcases (listed r b i).1 hi with hi | filed
    · obtain ⟨D', hD', left⟩ := hf.gone r b i hi old
      exact ⟨D', List.mem_append_left _ hD', left⟩
    · exact absurd (own filed) new

/-- A deed that deletes feeds, and takes them out of the index unless it leaves them behind. -/
theorem sweep (hf : Filing ds s) {now : Int} (silent : Turn.created D.turns = [])
    (coherent : s'.Coherent) (lastId : s'.lastId = s.lastId)
    (entries : s'.entries = (s.deleteExpired now).2.entries)
    (listed : (∀ r b, s'.indexed r b = Ascending.diff (s.indexed r b) (s.deleteExpired now).1) ∨
      (∀ r b, s'.indexed r b = s.indexed r b) ∧
        ∀ i ∈ (s.deleteExpired now).1, D.LeavesBehind i) : Filing (ds ++ [D]) s' := by
  have sub : ∀ {r b i}, i ∈ s'.indexed r b → i ∈ s.indexed r b := by
    intro r b i hi
    rcases listed with cleared | ⟨same, -⟩
    · rw [cleared] at hi
      exact (Ascending.mem_diff.1 hi).1
    · rwa [same] at hi
  refine ⟨coherent, ?_, ?_, fun r b i hi => ?_, fun i rs b he => ?_, fun r b i hi out => ?_⟩
  · rw [created_snoc, silent, List.append_nil]
    exact hf.numbered
  · rw [created_snoc, silent, List.append_nil, lastId]
    exact hf.issued
  · rw [lastId]
    exact hf.given r b i (sub hi)
  · rw [entries] at he
    obtain ⟨he, spared⟩ := Store.mem_entries_deleteExpired.1 he
    obtain ⟨D', hD', d, creates, hrs, hb, filed⟩ := hf.stored i rs b he
    refine ⟨D', List.mem_append_left _ hD', d, creates, hrs, hb, fun r c => ?_⟩
    rw [← filed]
    refine ⟨sub, fun hi => ?_⟩
    rcases listed with cleared | ⟨same, -⟩
    · rw [cleared]
      exact Ascending.mem_diff.2 ⟨hi, spared⟩
    · rwa [same]
  · rw [Store.ids_eq_map_entries, entries, ← Store.ids_eq_map_entries, Store.ids_deleteExpired,
      Ascending.mem_diff] at out
    by_cases there : i ∈ s.ids
    · have deleted : i ∈ (s.deleteExpired now).1 := by
        by_contra spared
        exact out ⟨there, spared⟩
      rcases listed with cleared | ⟨-, left⟩
      · rw [cleared] at hi
        exact absurd deleted (Ascending.mem_diff.1 hi).2
      · exact ⟨D, List.mem_append_right _ (List.mem_singleton_self D), left i deleted⟩
    · obtain ⟨D', hD', left⟩ := hf.gone r b i (sub hi) there
      exact ⟨D', List.mem_append_left _ hD', left⟩

/-- Storing a draft comes to nothing, or creates a feed. -/
theorem of_add (hf : Filing ds h.store) {d : Draft} {a : Except FeedError Inserted}
    (run : (Intake.add d).Runs h D.turns a h') : Filing (ds ++ [D]) h'.store := by
  have coherent := run.coherent hf.coherent
  obtain ⟨outages, h₀, us, hts, found, idle | added⟩ := Intake.runs_add run
  · obtain ⟨rfl, same, cause⟩ := idle
    have silent : Turn.created D.turns = [] := by
      rw [hts, Turn.created_singleton, Option.toList_eq_nil_iff]
      by_cases failed : ((Call.insert d).turn outages h₀).failed
      · exact Call.created?_of_failed outages h₀ failed
      · obtain ⟨j, taken⟩ := cause.resolve_left failed
        rw [Call.created?_insert outages h₀ failed, found]
        simp only [Store.insert, taken, Bool.false_eq_true, if_false]
    exact hf.idle silent coherent (by rw [same]) (by rw [same]) (by rw [same])
  · obtain ⟨reached, free, -, h₁, h₂, stored, hindex, last⟩ := added
    have makes := hindex.only (Intake.only_index d _)
    have answer : (h.store.insert d).1 = ⟨h.store.lastId + 1, true⟩ := by
      simp only [Store.insert, free]
    have created : Turn.created D.turns = [(h.store.lastId + 1, d)] := by
      have later : Turn.created us = [] :=
        hindex.created_eq_nil (Intake.only_index d _) fun _ creates => by cases creates
      rw [hts, ← List.singleton_append, Turn.created_append, Turn.created_singleton,
        Call.created?_insert outages h₀ reached, found, answer, later]
      rfl
    have creates : D.Creates (h.store.lastId + 1) d := by
      refine ⟨by rw [created]; exact List.mem_singleton_self _, ?_⟩
      rw [hts, List.map_cons, Intake.calls_of_index hindex]
      rfl
    obtain ⟨entries, lastId⟩ := Intake.entries_of_index hindex
    refine hf.add creates created coherent ?_ ?_ fun r b i => ?_
    · rw [last, lastId, stored, Store.lastId_insert free]
    · rw [last, entries, stored, Store.entries_insert free]
    · have kept : ∀ t ∈ us, ∀ ids, t.call ≠ .unindex ids := fun t ht ids hids => by
        have made := makes t ht
        rw [hids] at made
        cases made
      have unfiled : ¬ ((Call.insert d).turn outages h₀).Filed r i b := by
        rintro ⟨filed, -⟩
        cases filed
      rw [last, hindex.chain.mem_indexed_iff kept, stored, Store.indexed_insert, hts,
        List.exists_mem_cons_iff, or_iff_right unfiled]

/-- A sweep comes to nothing, or deletes feeds. -/
theorem of_sweep (hf : Filing ds h.store) {now : Int} (act : D.act = .sweep now)
    {a : Stored Nat} (run : (Expiry.sweep now).Runs h D.turns a h') :
    Filing (ds ++ [D]) h'.store := by
  have coherent := run.coherent hf.coherent
  have silent : Turn.created D.turns = [] :=
    run.created_eq_nil (Expiry.only_sweep now) fun _ => nofun
  obtain ⟨outages, h₀, us, hts, found, ⟨-, -, same⟩ | ⟨reached, swept⟩⟩ := Expiry.runs_sweep run
  · exact hf.idle silent coherent (by rw [same]) (by rw [same]) (by rw [same])
  · have deleted : ((Call.deleteExpired now).turn outages h₀).deleted =
        (h.store.deleteExpired now).1 := by
      simp only [Turn.deleted, Call.turn, Call.perform, Outages.guard, reached, found]
      rfl
    rcases swept with ⟨none, -, last⟩ | ⟨outages', h₁, rfl, found', last⟩
    · rw [last] at coherent ⊢
      refine hf.sweep silent coherent rfl rfl (.inr ⟨fun _ _ => rfl, fun i hi => ?_⟩)
      rw [none] at hi
      cases hi
    · by_cases hrefused : ((Call.unindex (h.store.deleteExpired now).1).turn outages' h₁).failed
      · rw [Call.perform_of_failed _ _ _ hrefused, found'] at last
        rw [last] at coherent ⊢
        refine hf.sweep silent coherent rfl rfl
          (.inr ⟨fun _ _ => rfl, fun i hi => ⟨⟨now, act⟩, ?_⟩⟩)
        rw [hts]
        refine ⟨_, List.mem_cons_self, deleted ▸ hi, _, List.mem_cons_of_mem _
          (List.mem_singleton_self _), ?_, hrefused⟩
        rw [deleted]
        rfl
      · rw [Call.store_perform_of_not_failed _ _ _ hrefused, found', Call.effect] at last
        rw [last] at coherent ⊢
        refine hf.sweep silent coherent rfl rfl (.inl fun r b => ?_)
        exact Store.indexed_unindex (h.store.deleteExpired now).2 _ r b

/-- **One deed** leaves every feed listed where it was filed when it was created. -/
theorem deed {s : Settings} {p : Program D.act.Result} (hf : Filing ds h.store)
    (hp : D.act.PerformedBy s p) (run : p.Runs h D.turns D.result h') :
    Filing (ds ++ [D]) h'.store := by
  obtain ⟨a, ts, result⟩ := D
  cases moves : a.movesFeeds with
  | false =>
    have still := hp.movesFeeds moves
    have silent : Turn.created ts = [] := run.created_eq_nil still fun _ => nofun
    obtain ⟨index, entries, lastId⟩ := run.sparesIndex still
    exact hf.idle silent (run.coherent hf.coherent) index entries lastId
  | true =>
    cases hp with
    | submit x epoch =>
      unfold Intake.submit at run
      split at run
      · obtain ⟨rfl, -, out⟩ := run.of_done
        have same := Hub.store_eq_of_outside out
        rw [same]
        exact hf.idle rfl hf.coherent rfl rfl rfl
      · exact hf.of_add run
    | add d => exact hf.of_add run
    | sweep now => exact hf.of_sweep rfl run
    | _ => cases moves

end Filing

/-- Over a history the lists of the index are ascending throughout. -/
theorem History.ascending_indexed {s : Settings} {allowed : Act → Prop} {start h : Hub}
    {ts : List Turn} (hist : History s allowed start ts h)
    (hs : ∀ r b, (start.store.indexed r b).Pairwise (· < ·)) :
    (∀ r b, (h.store.indexed r b).Pairwise (· < ·)) ∧
      ∀ t ∈ ts, ∀ r b, (t.before.store.indexed r b).Pairwise (· < ·) := by
  obtain ⟨last, turns⟩ := hist.keeps
    (fun g => ∀ r b, (g.store.indexed r b).Pairwise (· < ·))
    (fun _ _ o hg => by rwa [o.store_eq])
    (fun _ c outages g _ _ hg => c.ascending_perform outages g hg) hs
  exact ⟨last, fun t ht => (turns t ht).1⟩

/-- **The index is exact whatever fails.** A feed is created by one deed, which asks once for each
of its recipients that it be filed. As long as the feed is stored it is listed under a
recipient, in a partition, exactly if it has that recipient and belongs to that partition
and its deed has filed it there. A feed that is not stored is listed only if the sweep that has
deleted it could not take it out of the index. And whatever is listed is strictly ascending. -/
theorem Course.index_exact {s : Settings} {start h : Hub} {ds : List Deed}
    (c : Course s start ds h) (empty : start.store = Store.empty) :
    ((Turn.created (Deed.turnsOf ds)).map (·.1)).Pairwise (· < ·) ∧
    (∀ f ∈ h.store.feeds, ∃ D ∈ ds, ∃ d, D.Creates f.id d ∧ d.recipients = f.recipients ∧
      d.isSpam = f.isSpam ∧ ∀ r b, f.id ∈ h.store.indexed r b ↔
        r ∈ f.recipients ∧ f.isSpam = b ∧ ∃ t ∈ D.turns, t.Filed r f.id b) ∧
    (∀ i, h.store.feed? i = none → ∀ r b, i ∈ h.store.indexed r b →
      ∃ D ∈ ds, D.LeavesBehind i) ∧
    (∀ r b, (h.store.indexed r b).Pairwise (· < ·)) ∧
    ∀ t ∈ Deed.turnsOf ds, ∀ ids, t.listed? = some ids → ids.Pairwise (· < ·) := by
  have filing : Filing ds h.store := by
    refine c.keeps (fun ds h => Filing ds h.store) (fun _ _ _ o hf => ?_)
      (fun _ _ _ _ _ hp run hf => hf.deed hp run) ?_
    · rwa [o.store_eq]
    · rw [empty]
      exact Filing.empty
  obtain ⟨ascending, turns⟩ := c.history.ascending_indexed (by
    rw [empty]
    exact fun _ b => by cases b <;> exact .nil)
  refine ⟨filing.numbered, fun f hf => ?_, fun i gone r b hi => ?_, ascending,
    fun t ht ids listed => ?_⟩
  · obtain ⟨D, hD, d, creates, hrs, hb, filed⟩ :=
      filing.stored f.id f.recipients f.isSpam (List.mem_map_of_mem hf)
    refine ⟨D, hD, d, creates, hrs, hb, fun r b => ?_⟩
    rw [filed]
    refine ⟨fun ⟨t, ht, here⟩ => ?_, fun here => here.2.2⟩
    obtain ⟨-, hr, spam⟩ := creates.of_filed ht here
    exact ⟨hrs ▸ hr, hb ▸ spam.symm, t, ht, here⟩
  · refine filing.gone r b i hi fun there => ?_
    obtain ⟨f, hf⟩ := Store.mem_ids_iff.1 there
    rw [gone] at hf
    cases hf
  · obtain ⟨r, b, rfl⟩ := Turn.listed?_eq (c.history.chain.genuine t ht) listed
    exact turns t ht r b

/-- The index cannot be written for bob, and nothing can be taken out of it. -/
def Outages.ofFiling : Outages
  | .append recipient _ _ => if recipient = "solana:bob" then some "unreachable" else Option.none
  | .unindex _ => some "unreachable"
  | _ => Option.none

/-- A notification to alice and bob that expires at a given second. -/
def Draft.expiring (payloadId : String) (expiry : Int) : Draft :=
  { Draft.sample payloadId ["solana:alice", "solana:bob"] 1 with expiry := some expiry }

/-- A store with two feeds, each of which was filed for alice only. -/
def Hub.partlyFiled : Hub :=
  ((Intake.add (Draft.expiring "q" 20)).run .ofFiling
    ((Intake.add (Draft.expiring "p" 10)).run .ofFiling .sample).2).2

/-- When the first of the two is deleted, the entry of alice is left behind. -/
theorem Course.index_exact_of_partlyFiled :
    ∃ ds h, Course .sample .sample ds h ∧
      h.store.entries = [(2, ["solana:alice", "solana:bob"], false)] ∧
      h.store.indexed "solana:alice" false = [1, 2] ∧ h.store.indexed "solana:bob" false = [] ∧
      (∃ D ∈ ds, D.LeavesBehind 1) ∧
      ∃ D ∈ ds, (∃ t ∈ D.turns, t.Filed "solana:alice" 2 false) ∧
        ¬ ∃ t ∈ D.turns, t.Filed "solana:bob" 2 false := by
  have c : Course .sample .sample _ ((Expiry.sweep 15).run .ofFiling .partlyFiled).2 :=
    .alone (.add (.expiring "p" 10)) .ofFiling (.alone (.add (.expiring "q" 20)) .ofFiling
      (.alone (.sweep 15) .ofFiling (.stop _)))
  have entries : ((Expiry.sweep 15).run .ofFiling .partlyFiled).2.store.entries =
      [(2, ["solana:alice", "solana:bob"], false)] := by decide +kernel
  have alice : ((Expiry.sweep 15).run .ofFiling .partlyFiled).2.store.indexed
      "solana:alice" false = [1, 2] := by decide +kernel
  have bob : ((Expiry.sweep 15).run .ofFiling .partlyFiled).2.store.indexed
      "solana:bob" false = [] := by decide +kernel
  obtain ⟨-, stored, gone, -, -⟩ := index_exact c rfl
  refine ⟨_, _, c, entries, alice, bob, ?_, ?_⟩
  · refine gone 1 (by decide +kernel) "solana:alice" false ?_
    rw [alice]
    exact List.mem_cons_self
  · obtain ⟨f, hf, same⟩ := List.mem_map.1 (entries ▸ List.mem_singleton_self _)
    simp only [Prod.mk.injEq] at same
    obtain ⟨hid, hrs, hspam⟩ := same
    obtain ⟨D, hD, -, -, -, -, filed⟩ := stored f hf
    rw [hid, hrs, hspam] at filed
    refine ⟨D, hD, ?_, fun there => ?_⟩
    · have listed : (2 : FeedId) ∈ [1, 2] := by decide
      rw [← alice] at listed
      exact ((filed _ _).1 listed).2.2
    · have listed := (filed "solana:bob" false).2 ⟨by decide, rfl, there⟩
      rw [bob] at listed
      cases listed

end NotificationRelay
