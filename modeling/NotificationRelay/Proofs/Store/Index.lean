/-
# The recipient index

The index repeats what the feeds themselves say: a feed is listed under each of its
recipients, in the partition of its spam flag (`Store.Indexed`). What the index lists of
feeds that are gone does not matter, since identifiers are not given twice; for a feed
that is there, being listed under a recipient and having it are the same
(`Store.Indexed.mem_indexed_iff`).

Storing a draft and filing it under all its recipients keeps this (`Store.Indexed.add`),
and so does deleting feeds, whether or not their entries are taken out
(`Store.Indexed.deleteExpired`, `Store.Indexed.unindex`).
-/
import NotificationRelay.Proofs.Store.Coherence

namespace NotificationRelay
namespace Store

/-- What the index should say of each feed: its recipients, and whether it is spam. -/
def entries (s : Store) : List (FeedId × List String × Bool) :=
  s.feeds.map fun f => (f.id, f.recipients, f.isSpam)

theorem ids_eq_map_entries (s : Store) : s.ids = s.entries.map (·.1) := by
  unfold ids entries
  rw [List.map_map]
  rfl

/-- The index of a coherent store says of the feeds what they say themselves. -/
structure Indexed (s : Store) : Prop where
  coherent : s.Coherent
  ascending : ∀ r b, (s.indexed r b).Pairwise (· < ·)
  given : ∀ r b, ∀ i ∈ s.indexed r b, i ≤ s.lastId
  sound : ∀ r b, ∀ i ∈ s.indexed r b, ∀ rs c, (i, rs, c) ∈ s.entries → r ∈ rs ∧ c = b
  complete : ∀ i rs c, (i, rs, c) ∈ s.entries → ∀ r ∈ rs, i ∈ s.indexed r c

variable {s : Store}

/-- The index of an empty store is right. -/
theorem indexed_empty : Store.empty.Indexed where
  coherent := coherent_empty
  ascending _ b := by cases b <;> exact .nil
  given _ b i hi := by cases b <;> cases hi
  sound _ b i hi := by cases b <;> cases hi
  complete i rs c hi := by cases hi

/-- **A feed is listed under exactly its recipients**, in the partition of its flag. -/
theorem Indexed.mem_indexed_iff (h : s.Indexed) {f : Feed} (hf : f ∈ s.feeds) {r : String}
    {b : Bool} : f.id ∈ s.indexed r b ↔ r ∈ f.recipients ∧ f.isSpam = b := by
  have entry : (f.id, f.recipients, f.isSpam) ∈ s.entries := List.mem_map_of_mem hf
  refine ⟨fun hi => h.sound r b f.id hi _ _ entry, fun ⟨hr, hb⟩ => ?_⟩
  subst hb
  exact h.complete _ _ _ entry r hr

/-- The index is right about any coherent store in which feeds may differ only in what the
index does not repeat. -/
theorem Indexed.of_same (h : s.Indexed) {s' : Store} (coherent : s'.Coherent)
    (index : s'.index = s.index) (entries : s'.entries = s.entries)
    (lastId : s'.lastId = s.lastId) : s'.Indexed := by
  have same : ∀ r b, s'.indexed r b = s.indexed r b := fun r b => by
    unfold indexed partitions
    rw [index]
  refine ⟨coherent, fun r b => ?_, fun r b => ?_, fun r b => ?_, ?_⟩
  · rw [same]
    exact h.ascending r b
  · rw [same, lastId]
    exact h.given r b
  · rw [same, entries]
    exact h.sound r b
  · simp only [same, entries]
    exact h.complete

/-! ## Filing a feed -/

/-- Listing a feed under a recipient changes what is listed there, and nothing else. -/
theorem indexed_append (s : Store) (r r' : String) (i : FeedId) (b b' : Bool) :
    (s.append r i b).indexed r' b' =
      if r' = r ∧ b' = b then Ascending.insert i (s.indexed r b) else s.indexed r' b' := by
  unfold indexed append
  simp only [partitions, Table.get?_put]
  by_cases hr : r = r'
  · subst hr
    cases b <;> cases b' <;> simp [Partitions.add, Partitions.side]
  · simp [hr, Ne.symm hr]

/-- A store with a feed filed under some recipients. -/
def file (s : Store) (recipients : List String) (i : FeedId) (b : Bool) : Store :=
  recipients.foldl (fun s r => s.append r i b) s

/-- A feed that is filed is listed under its recipients, and nothing else is. -/
theorem mem_indexed_file {rs : List String} {i j : FeedId} {b b' : Bool} {r : String} :
    j ∈ (s.file rs i b).indexed r b' ↔ j ∈ s.indexed r b' ∨ j = i ∧ b' = b ∧ r ∈ rs := by
  induction rs generalizing s with
  | nil => simp [file]
  | cons r₀ rs ih =>
    show j ∈ ((s.append r₀ i b).file rs i b).indexed r b' ↔ _
    rw [ih, indexed_append]
    by_cases hr : r = r₀ ∧ b' = b
    · obtain ⟨rfl, rfl⟩ := hr
      simp only [and_self, if_true, Ascending.mem_insert, List.mem_cons, true_or, and_true,
        true_and]
      tauto
    · rw [if_neg hr, List.mem_cons]
      tauto

/-- Filing a feed keeps the lists of the index ascending. -/
theorem pairwise_file (h : ∀ r b, (s.indexed r b).Pairwise (· < ·)) (rs : List String)
    (i : FeedId) (b : Bool) (r : String) (b' : Bool) :
    ((s.file rs i b).indexed r b').Pairwise (· < ·) := by
  induction rs generalizing s with
  | nil => exact h r b'
  | cons r₀ rs ih =>
    refine ih fun r' c => ?_
    rw [indexed_append]
    split
    · exact Ascending.pairwise_insert (h r₀ b) i
    · exact h r' c

/-- Filing touches nothing but the index. -/
theorem file_eq (s : Store) (rs : List String) (i : FeedId) (b : Bool) :
    s.file rs i b = { s with index := (s.file rs i b).index } := by
  induction rs generalizing s with
  | nil => rfl
  | cons r rs ih => exact ih (s.append r i b)

/-- An insertion lists nothing. -/
theorem indexed_insert (s : Store) (d : Draft) (r : String) (b : Bool) :
    (s.insert d).2.indexed r b = s.indexed r b := by
  unfold insert
  split <;> rfl

/-- A new feed takes up the next identifier. -/
theorem lastId_insert {d : Draft} (hd : Table.get? d.payloadId s.payloadIds = none) :
    (s.insert d).2.lastId = s.lastId + 1 := by
  simp only [insert, hd]

/-- A new feed brings its entry along. -/
theorem entries_insert {d : Draft} (hd : Table.get? d.payloadId s.payloadIds = none) :
    (s.insert d).2.entries = s.entries ++ [(s.lastId + 1, d.recipients, d.isSpam)] := by
  unfold entries
  rw [feeds_insert hd, List.map_append]
  rfl

/-- The index stays right when a new feed is filed. -/
theorem Indexed.add (h : s.Indexed) {d : Draft}
    (hd : Table.get? d.payloadId s.payloadIds = none) :
    ((s.insert d).2.file d.recipients (s.lastId + 1) d.isSpam).Indexed := by
  have stored := h.coherent.insert d
  have same := s.indexed_insert d
  have lastId : ((s.insert d).2.file d.recipients (s.lastId + 1) d.isSpam).lastId =
      s.lastId + 1 := by
    rw [file_eq]
    exact lastId_insert hd
  have entries : ((s.insert d).2.file d.recipients (s.lastId + 1) d.isSpam).entries =
      s.entries ++ [(s.lastId + 1, d.recipients, d.isSpam)] := by
    rw [file_eq]
    exact entries_insert hd
  have fresh : ∀ rs c, (s.lastId + 1, rs, c) ∉ s.entries := fun rs c hmem => by
    obtain ⟨f, hf, heq⟩ := List.mem_map.1 hmem
    have := (h.coherent.numbered f.id (List.mem_map_of_mem hf)).2
    simp only [Prod.mk.injEq] at heq
    lia
  refine ⟨?_, fun r b => ?_, fun r b j hj => ?_, fun r b j hj rs c hmem => ?_,
    fun j rs c hmem r hr => ?_⟩
  · rw [file_eq]
    exact { stored with }
  · refine pairwise_file (fun r b => ?_) _ _ _ r b
    rw [same]
    exact h.ascending r b
  · rw [lastId]
    rcases mem_indexed_file.1 hj with hj | ⟨rfl, -⟩
    · have := h.given r b j (same r b ▸ hj)
      lia
    · exact Int.le_refl _
  · rw [entries, List.mem_append, List.mem_singleton, Prod.mk.injEq, Prod.mk.injEq] at hmem
    rcases mem_indexed_file.1 hj with hj | ⟨rfl, rfl, hr⟩
    · have old := same r b ▸ hj
      rcases hmem with hmem | ⟨rfl, -⟩
      · exact h.sound r b j old rs c hmem
      · have := h.given r b _ old
        lia
    · rcases hmem with hmem | ⟨-, rfl, rfl⟩
      · exact absurd hmem (fresh rs c)
      · exact ⟨hr, rfl⟩
  · rw [entries, List.mem_append, List.mem_singleton, Prod.mk.injEq, Prod.mk.injEq] at hmem
    rw [mem_indexed_file, same]
    rcases hmem with hmem | ⟨rfl, rfl, rfl⟩
    · exact .inl (h.complete j rs c hmem r hr)
    · exact .inr ⟨rfl, rfl, hr⟩

/-! ## Deleting feeds -/

/-- The entries that are left are those of feeds that were not deleted. -/
theorem mem_entries_deleteExpired {now : Int} {i : FeedId} {rs : List String} {b : Bool} :
    (i, rs, b) ∈ (s.deleteExpired now).2.entries ↔
      (i, rs, b) ∈ s.entries ∧ i ∉ (s.deleteExpired now).1 := by
  have hentries : (s.deleteExpired now).2.entries =
      s.entries.filter fun e => !(s.deleteExpired now).1.contains e.1 := by
    unfold entries
    rw [List.filter_map]
    rfl
  rw [hentries, List.mem_filter]
  simp

/-- The index stays right when feeds are deleted that were taken out of it. -/
theorem Indexed.deleteExpired (h : s.Indexed) (now : Int) : (s.deleteExpired now).2.Indexed where
  coherent := h.coherent.deleteExpired now
  ascending := h.ascending
  given := h.given
  sound r b i hi rs c hmem := h.sound r b i hi rs c (mem_entries_deleteExpired.1 hmem).1
  complete i rs c hmem := h.complete i rs c (mem_entries_deleteExpired.1 hmem).1

/-- What is taken out of the index is taken out of each list. -/
theorem indexed_unindex (s : Store) (ids : List FeedId) (r : String) (b : Bool) :
    (s.unindex ids).2.indexed r b = Ascending.diff (s.indexed r b) ids := by
  have lookup : ∀ rows : List (String × Partitions),
      Table.get? r (rows.map fun e => (e.1, e.2.drop ids)) =
        (Table.get? r rows).map (·.drop ids) := fun rows => by
    induction rows with
    | nil => rfl
    | cons e rest ih =>
      simp only [List.map_cons, Table.get?, ih]
      split <;> rfl
  unfold indexed partitions
  simp only [unindex, lookup]
  cases Table.get? r s.index <;> cases b <;> rfl

/-- Entries of feeds that are gone may be taken out of the index. -/
theorem Indexed.unindex (h : s.Indexed) {ids : List FeedId} (gone : ∀ i ∈ ids, i ∉ s.ids) :
    (s.unindex ids).2.Indexed where
  coherent := { h.coherent with }
  ascending r b := by
    rw [indexed_unindex]
    exact Ascending.pairwise_diff (h.ascending r b) ids
  given r b i hi := by
    rw [indexed_unindex] at hi
    exact h.given r b i (Ascending.mem_diff.1 hi).1
  sound r b i hi := by
    rw [indexed_unindex] at hi
    exact h.sound r b i (Ascending.mem_diff.1 hi).1
  complete i rs c hmem r hr := by
    obtain ⟨f, hf, heq⟩ := List.mem_map.1 (show (i, rs, c) ∈ s.entries from hmem)
    have there : i ∈ s.ids := by
      simp only [Prod.mk.injEq] at heq
      exact heq.1 ▸ List.mem_map_of_mem hf
    rw [indexed_unindex, Ascending.mem_diff]
    exact ⟨h.complete i rs c hmem r hr, fun hi => gone i hi there⟩

end Store
end NotificationRelay
