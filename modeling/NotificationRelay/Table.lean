/-
# Tables and lists without repetition

The store keeps its maps as lists of rows, at most one row a key, and its sets of
identifiers as ascending lists without repetition, so that the order in which they
are read is part of the value. Where the order of arrival counts, a list keeps each
member at its first mention.
-/

namespace NotificationRelay

namespace Table

variable {κ α : Type} [DecidableEq κ]

/-- The value of a key. -/
def get? (key : κ) : List (κ × α) → Option α
  | [] => none
  | (k, v) :: rest => if k = key then some v else get? key rest

/-- The table with a value under a key: in the place of the old one, or at the end. -/
def put (key : κ) (value : α) : List (κ × α) → List (κ × α)
  | [] => [(key, value)]
  | (k, v) :: rest => if k = key then (key, value) :: rest else (k, v) :: put key value rest

/-- The table without a key. -/
def erase (key : κ) (rows : List (κ × α)) : List (κ × α) := rows.filter fun r => decide (r.1 ≠ key)

/-- What was put under a key is found there, and the rest as before. -/
theorem get?_put (key other : κ) (value : α) (rows : List (κ × α)) :
    get? other (put key value rows) = if key = other then some value else get? other rows := by
  induction rows with
  | nil => rfl
  | cons r rest ih =>
    obtain ⟨k, v⟩ := r
    by_cases hk : k = key
    · subst hk
      by_cases ho : k = other <;> simp [put, get?, ho]
    · by_cases ho : k = other
      · subst ho
        simp [put, get?, hk, Ne.symm hk]
      · simp [put, get?, hk, ho, ih]

/-- Rows that are kept or dropped by their key answer as before, or not at all. -/
theorem get?_filter (key : κ) (keep : κ → Bool) (rows : List (κ × α)) :
    get? key (rows.filter fun r => keep r.1) = if keep key then get? key rows else none := by
  induction rows with
  | nil => simp [get?]
  | cons r rest ih =>
    obtain ⟨k, v⟩ := r
    by_cases hk : k = key
    · subst hk
      cases hkeep : keep k with
      | true => simp [get?, hkeep]
      | false => simpa [hkeep] using ih
    · cases hkeep : keep k with
      | true => simpa [get?, hkeep, hk] using ih
      | false => simpa [get?, hkeep, hk] using ih

end Table

namespace Ascending

/-- The ascending list with one more member; a member already there is not repeated. -/
def insert (n : Int) : List Int → List Int
  | [] => [n]
  | m :: rest => if n < m then n :: m :: rest else if n = m then m :: rest else m :: insert n rest

/-- The members of a list that are not among the given ones. -/
def diff (ns ids : List Int) : List Int := ns.filter fun n => !ids.contains n

/-- What is left is what was there and was not taken out. -/
theorem mem_diff {n : Int} {ns ids : List Int} : n ∈ diff ns ids ↔ n ∈ ns ∧ n ∉ ids := by
  simp [diff]

/-- What is there after an insertion is the new number and the old ones. -/
theorem mem_insert {n k : Int} {ns : List Int} : k ∈ insert n ns ↔ k = n ∨ k ∈ ns := by
  induction ns with
  | nil => simp [insert]
  | cons m rest ih =>
    unfold insert
    split
    · simp
    · split
      · next h => subst h; simp
      · simp only [List.mem_cons, ih]
        exact or_left_comm

/-- Ascending numbers of which some are taken out are ascending. -/
theorem pairwise_diff {ns : List Int} (h : ns.Pairwise (· < ·)) (ids : List Int) :
    (diff ns ids).Pairwise (· < ·) :=
  h.filter _

/-- A number is put at its place among ascending ones. -/
theorem pairwise_insert {ns : List Int} (h : ns.Pairwise (· < ·)) (n : Int) :
    (insert n ns).Pairwise (· < ·) := by
  induction ns with
  | nil => simp [insert]
  | cons m rest ih =>
    obtain ⟨hm, hrest⟩ := List.pairwise_cons.1 h
    unfold insert
    split
    · next hlt =>
      refine List.pairwise_cons.2 ⟨fun k hk => ?_, h⟩
      rcases List.mem_cons.1 hk with rfl | hk
      · exact hlt
      · exact Int.lt_trans hlt (hm k hk)
    · split
      · exact h
      · refine List.pairwise_cons.2 ⟨fun k hk => ?_, ih hrest⟩
        rcases mem_insert.1 hk with rfl | hk
        · omega
        · exact hm k hk

end Ascending

/-- The members of a list that are not in `seen`, each at its first mention. -/
def firstMentionsAfter {α : Type} [DecidableEq α] (seen : List α) : List α → List α
  | [] => []
  | a :: rest =>
    if a ∈ seen then firstMentionsAfter seen rest else a :: firstMentionsAfter (a :: seen) rest

/-- The members of a list, each at its first mention. -/
def firstMentions {α : Type} [DecidableEq α] (l : List α) : List α := firstMentionsAfter [] l

/-- What is mentioned for the first time, after some that were seen, is what was not seen. -/
theorem mem_firstMentionsAfter {α : Type} [DecidableEq α] {a : α} {l seen : List α} :
    a ∈ firstMentionsAfter seen l ↔ a ∈ l ∧ a ∉ seen := by
  induction l generalizing seen with
  | nil => simp [firstMentionsAfter]
  | cons b rest ih =>
    by_cases hb : b ∈ seen
    · by_cases hab : a = b
      · subst hab
        simp [firstMentionsAfter, hb, ih]
      · simp [firstMentionsAfter, hb, ih, hab]
    · by_cases hab : a = b
      · subst hab
        simp [firstMentionsAfter, hb]
      · simp [firstMentionsAfter, hb, ih, hab]

/-- A list and its first mentions have the same members. -/
theorem mem_firstMentions {α : Type} [DecidableEq α] {a : α} {l : List α} :
    a ∈ firstMentions l ↔ a ∈ l := by
  simp [firstMentions, mem_firstMentionsAfter]

/-- Nothing is mentioned for the first time twice. -/
theorem nodup_firstMentionsAfter {α : Type} [DecidableEq α] (l seen : List α) :
    (firstMentionsAfter seen l).Nodup := by
  induction l generalizing seen with
  | nil => exact .nil
  | cons b rest ih =>
    unfold firstMentionsAfter
    split
    · exact ih seen
    · refine List.nodup_cons.2 ⟨fun hb => ?_, ih _⟩
      exact (mem_firstMentionsAfter.1 hb).2 List.mem_cons_self

/-- First mentions are mentions that differ. -/
theorem nodup_firstMentions {α : Type} [DecidableEq α] (l : List α) : (firstMentions l).Nodup :=
  nodup_firstMentionsAfter l []

/-- One more item is mentioned for the first time if it was neither seen nor mentioned. -/
theorem firstMentionsAfter_snoc {α : Type} [DecidableEq α] (l seen : List α) (a : α) :
    firstMentionsAfter seen (l ++ [a]) =
      firstMentionsAfter seen l ++ if a ∈ seen ∨ a ∈ l then [] else [a] := by
  induction l generalizing seen with
  | nil => by_cases ha : a ∈ seen <;> simp [firstMentionsAfter, ha]
  | cons b rest ih =>
    rw [List.cons_append]
    by_cases hb : b ∈ seen
    · -- what was seen before is not mentioned again
      have same : (a ∈ seen ∨ a ∈ rest) ↔ (a ∈ seen ∨ a ∈ b :: rest) := by
        refine ⟨.imp_right (List.mem_cons_of_mem b), ?_⟩
        rintro (h | h)
        · exact .inl h
        · rcases List.mem_cons.1 h with rfl | h
          · exact .inl hb
          · exact .inr h
      simp only [firstMentionsAfter, if_pos hb, ih, same]
    · have same : (a ∈ b :: seen ∨ a ∈ rest) ↔ (a ∈ seen ∨ a ∈ b :: rest) := by
        simp only [List.mem_cons]
        exact or_assoc.trans or_left_comm
      simp only [firstMentionsAfter, if_neg hb, ih, same, List.cons_append]

/-- One more member is mentioned if it has not been mentioned before. -/
theorem firstMentions_snoc {α : Type} [DecidableEq α] (l : List α) (a : α) :
    firstMentions (l ++ [a]) = if a ∈ l then firstMentions l else firstMentions l ++ [a] := by
  rw [firstMentions, firstMentionsAfter_snoc]
  by_cases ha : a ∈ l <;> simp [firstMentions, ha]

/-- Of two names one comes first if it has a bearer that stands before all bearers of the
other. -/
theorem pairwise_firstMentionsAfter {α β : Type} [DecidableEq α] {name : β → α}
    {before : β → β → Prop} {l : List β} (h : l.Pairwise before) (seen : List α) :
    (firstMentionsAfter seen (l.map name)).Pairwise fun x y =>
      ∃ b ∈ l, name b = x ∧ ∀ c ∈ l, name c = y → before b c := by
  induction l generalizing seen with
  | nil => exact .nil
  | cons b rest ih =>
    obtain ⟨hb, hrest⟩ := List.pairwise_cons.1 h
    -- a name that is still to be mentioned is not that of the first bearer
    have later : ∀ seen', name b ∈ seen' → (firstMentionsAfter seen' (rest.map name)).Pairwise
        fun x y => ∃ d ∈ b :: rest, name d = x ∧ ∀ c ∈ b :: rest, name c = y → before d c := by
      intro seen' hseen
      refine (ih hrest seen').imp_of_mem ?_
      rintro x y - hy ⟨d, hd, hdx, hall⟩
      refine ⟨d, List.mem_cons_of_mem _ hd, hdx, fun c hc hcy => ?_⟩
      rcases List.mem_cons.1 hc with rfl | hc
      · exact absurd (hcy ▸ hseen) (mem_firstMentionsAfter.1 hy).2
      · exact hall c hc hcy
    rw [List.map_cons]
    unfold firstMentionsAfter
    split
    · next hseen => exact later seen hseen
    · refine List.pairwise_cons.2 ⟨fun y hy => ?_, later _ List.mem_cons_self⟩
      refine ⟨b, List.mem_cons_self, rfl, fun c hc hcy => ?_⟩
      rcases List.mem_cons.1 hc with rfl | hc
      · exact absurd (hcy ▸ List.mem_cons_self) (mem_firstMentionsAfter.1 hy).2
      · exact hb c hc

end NotificationRelay
