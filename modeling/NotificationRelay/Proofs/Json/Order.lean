/-
# The order of fields

A value is held with the fields of every object in the order of their keys, each key once
(`Json.Arranged`). Whatever is read from a text is held so (`Json.arranged_ofText?`). A record is
written with its fields in the order of declaration; held as a value it is `Json.arranged`.

What depends on a value of a key only, or on all fields at once, does not see the order:
`Json.find?_eq_of_perm` and `Json.checkAll_eq_ok_iff` say so. A list of fields that is in order
already is determined by its members (`Json.eq_of_perm`), and sorting one that has no key twice only
permutes it (`Json.sortFields_perm`).
-/
import Mathlib.Data.List.Nodup
import NotificationRelay.Json.Document
import NotificationRelay.Json.Record

namespace NotificationRelay

/-- Of two checks in a row that succeed, each succeeds. -/
theorem ok_of_bind {ε α β : Type} {x : Except ε α} {k : α → Except ε β} {b : β}
    (h : x >>= k = .ok b) : ∃ a, x = .ok a ∧ k a = .ok b := by
  cases x with
  | error e => cases h
  | ok a => exact ⟨a, rfl, h⟩

/-- If two checks in a row fail, either the first fails or the second does. -/
theorem error_of_bind {ε α β : Type} {x : Except ε α} {k : α → Except ε β} {e : ε}
    (h : x >>= k = .error e) : x = .error e ∨ ∃ a, x = .ok a ∧ k a = .error e := by
  cases x with
  | error e' => cases h; exact .inl rfl
  | ok a => exact .inr ⟨a, rfl, h⟩

namespace Json

variable {α : Type} {key name : String} {value v : Json} {fields others : List (String × Json)}

/-- The keys of fields, in order. -/
def keys (fields : List (String × Json)) : List String := fields.map Prod.fst

@[simp]
theorem keys_cons : keys ((key, value) :: fields) = key :: keys fields := rfl

@[simp]
theorem keys_append : keys (fields ++ others) = keys fields ++ keys others := List.map_append

/-! ## The value of a key -/

/-- A value that is found under a key is a field. -/
theorem mem_of_find? (found : find? key fields = some value) : (key, value) ∈ fields := by
  induction fields with
  | nil => cases found
  | cons f rest ih =>
    obtain ⟨k, v⟩ := f
    by_cases same : k = key
    · subst same
      rw [find?, if_pos rfl, Option.some.injEq] at found
      exact found ▸ .head _
    · rw [find?, if_neg same] at found
      exact .tail _ (ih found)

/-- Nothing is found under a key that does not occur. -/
theorem find?_eq_none_iff : find? key fields = none ↔ key ∉ keys fields := by
  induction fields with
  | nil => exact ⟨fun _ => List.not_mem_nil, fun _ => rfl⟩
  | cons f rest ih =>
    obtain ⟨k, v⟩ := f
    by_cases same : k = key
    · simp [find?, same]
    · simp [find?, same, ih, Ne.symm same]

/-- A key is looked for in the first fields, and then in the others. -/
theorem find?_append : find? key (fields ++ others) = (find? key fields).or (find? key others) := by
  induction fields with
  | nil => rfl
  | cons f rest ih =>
    obtain ⟨k, v⟩ := f
    by_cases same : k = key <;> simp [find?, same, ih]

/-- Fields that are dropped because of their key do not matter for the others. -/
theorem find?_filter (keep : String → Bool) (kept : keep key = true) :
    find? key (fields.filter fun f => keep f.1) = find? key fields := by
  induction fields with
  | nil => rfl
  | cons f rest ih =>
    obtain ⟨k, v⟩ := f
    rw [List.filter_cons, find?, ← ih]
    by_cases same : k = key
    · subst same
      rw [if_pos kept, find?, if_pos rfl]
    · rw [if_neg same]
      split
      · rw [find?, if_neg same]
      · rfl

/-- Where no key stands twice, a key has the value that is listed with it. -/
theorem find?_eq_some_iff (once : (keys fields).Nodup) :
    find? key fields = some value ↔ (key, value) ∈ fields := by
  refine ⟨mem_of_find?, fun listed => ?_⟩
  induction fields with
  | nil => cases listed
  | cons f rest ih =>
    obtain ⟨k, v⟩ := f
    obtain ⟨unlisted, once⟩ := List.nodup_cons.1 once
    cases listed with
    | head => rw [find?, if_pos rfl]
    | tail _ listed =>
      have elsewhere : key ∈ keys rest := List.mem_map.2 ⟨_, listed, rfl⟩
      have other : k ≠ key := by
        rintro rfl
        exact unlisted elsewhere
      rw [find?, if_neg other]
      exact ih once listed

/-- The values of keys do not depend on the order of the fields. -/
theorem find?_eq_of_perm (once : (keys fields).Nodup) (perm : others.Perm fields) :
    find? key others = find? key fields := by
  have onceToo : (keys others).Nodup := (perm.map Prod.fst).nodup_iff.2 once
  refine Option.ext fun value => ?_
  rw [find?_eq_some_iff onceToo, find?_eq_some_iff once, perm.mem_iff]

/-- Fields pass their checks together if each passes its own. -/
theorem checkAll_eq_ok_iff {check : String → Decoder Unit} :
    checkAll check fields = .ok () ↔ ∀ f ∈ fields, check f.1 f.2 = .ok () := by
  induction fields with
  | nil => exact ⟨fun _ f hf => absurd hf List.not_mem_nil, fun _ => rfl⟩
  | cons f rest ih =>
    obtain ⟨k, v⟩ := f
    rw [List.forall_mem_cons, checkAll]
    cases h : check k v with
    | error e => simp
    | ok u => simpa using ih

/-- A field without a default that was read was there, with a value that can be read. -/
theorem Record.find?_of_required {record : Record} {read : Decoder α} {a : α}
    (found : record.required name read = .ok a) :
    ∃ w, find? name record.fields = some w ∧ read w = .ok a := by
  rw [Record.required] at found
  split at found
  · exact ⟨_, ‹_›, found⟩
  · cases found

/-! ## Sorting -/

/-- Fields in the order of their keys, each key once. -/
def Ascending (fields : List (String × Json)) : Prop := (keys fields).Pairwise (· < ·)

/-- No key occurs twice in ascending fields. -/
theorem Ascending.nodup (ascending : Ascending fields) : (keys fields).Nodup :=
  List.Pairwise.imp (fun {a b} (less : a < b) (same : a = b) => String.lt_irrefl b (same ▸ less))
    ascending

/-- Ascending fields of which some are left out are ascending. -/
theorem Ascending.filter (ascending : Ascending fields) (keep : String × Json → Bool) :
    Ascending (fields.filter keep) :=
  ascending.sublist (List.filter_sublist.map Prod.fst)

/-- A field that has been inserted is the new one, or was there before. -/
theorem mem_insertField {f : String × Json} (listed : f ∈ insertField key value fields) :
    f = (key, value) ∨ f ∈ fields := by
  induction fields with
  | nil => exact .inl (List.mem_singleton.1 listed)
  | cons g rest ih =>
    obtain ⟨k, v⟩ := g
    rw [insertField] at listed
    split at listed
    · exact List.mem_cons.1 listed
    split at listed
    · exact (List.mem_cons.1 listed).imp_right (.tail _)
    · obtain rfl | listed := List.mem_cons.1 listed
      · exact .inr (.head _)
      · exact (ih listed).imp_right (.tail _)

/-- Inserting a field by its key keeps fields ascending. -/
theorem Ascending.insertField (ascending : Ascending fields) (key : String) (value : Json) :
    Ascending (insertField key value fields) := by
  induction fields with
  | nil => exact List.pairwise_singleton _ _
  | cons f rest ih =>
    obtain ⟨k, v⟩ := f
    obtain ⟨below, tail⟩ := List.pairwise_cons.1 ascending
    rw [Json.insertField]
    split
    · rename_i less
      refine List.pairwise_cons.2 ⟨fun j hj => ?_, ascending⟩
      obtain rfl | hj := List.mem_cons.1 hj
      · exact less
      · exact String.lt_trans less (below j hj)
    split
    · rename_i same
      exact same ▸ ascending
    · rename_i notLess other
      refine List.pairwise_cons.2 ⟨fun j hj => ?_, ih tail⟩
      obtain ⟨f, hf, rfl⟩ := List.mem_map.1 hj
      obtain rfl | hf := mem_insertField hf
      · exact Std.not_le.1 fun le => other (String.le_antisymm le (String.not_lt.1 notLess))
      · exact below _ (List.mem_map_of_mem hf)

/-- A field with a new key is put in among the others. -/
theorem insertField_perm (fresh : key ∉ keys fields) :
    (insertField key value fields).Perm ((key, value) :: fields) := by
  induction fields with
  | nil => exact .refl _
  | cons f rest ih =>
    obtain ⟨k, v⟩ := f
    obtain ⟨other, fresh⟩ : key ≠ k ∧ key ∉ keys rest := not_or.1 (mt List.mem_cons.2 fresh)
    rw [insertField]
    split
    · exact .refl _
    · exact ((ih fresh).cons _).trans (.swap _ _ _)

/-- Fields are ascending once they are sorted. -/
theorem ascending_sortFields (fields : List (String × Json)) : Ascending (sortFields fields) := by
  suffices sorted : ∀ acc, Ascending acc →
      Ascending (fields.foldl (fun sorted f => insertField f.1 f.2 sorted) acc) from
    sorted [] .nil
  induction fields with
  | nil => exact fun _ ascending => ascending
  | cons f rest ih => exact fun acc ascending => ih _ (ascending.insertField f.1 f.2)

/-- Sorting brings no new fields. -/
theorem mem_sortFields {f : String × Json} (listed : f ∈ sortFields fields) : f ∈ fields := by
  suffices taken : ∀ acc, f ∈ fields.foldl (fun sorted f => insertField f.1 f.2 sorted) acc →
      f ∈ acc ∨ f ∈ fields from (taken [] listed).resolve_left List.not_mem_nil
  clear listed
  induction fields with
  | nil => exact fun _ => .inl
  | cons g rest ih =>
    intro acc listed
    obtain inserted | listed := ih _ listed
    · obtain rfl | old := mem_insertField inserted
      · exact .inr (.head _)
      · exact .inl old
    · exact .inr (.tail _ listed)

/-- **Sorting fields that have no key twice loses none of them.** -/
theorem sortFields_perm (once : (keys fields).Nodup) : (sortFields fields).Perm fields := by
  suffices all : ∀ acc, (keys (fields ++ acc)).Nodup →
      (fields.foldl (fun sorted f => insertField f.1 f.2 sorted) acc).Perm (fields ++ acc) by
    have := all [] (by rwa [List.append_nil])
    rwa [List.append_nil] at this
  clear once
  induction fields with
  | nil => exact fun acc _ => .refl acc
  | cons f rest ih =>
    intro acc once
    obtain ⟨unlisted, once⟩ := List.nodup_cons.1 once
    have fresh : f.1 ∉ keys acc := fun listed =>
      unlisted (List.map_append ▸ List.mem_append_right (keys rest) listed)
    have moved : (rest ++ insertField f.1 f.2 acc).Perm (f :: rest ++ acc) :=
      ((insertField_perm fresh).append_left rest).trans List.perm_middle
    refine (ih _ ((moved.map Prod.fst).nodup_iff.2 ?_)).trans moved
    exact List.nodup_cons.2 ⟨unlisted, once⟩

/-- Fields in order are determined by which they are. -/
theorem eq_of_perm (ascending : Ascending fields) (ascendingToo : Ascending others)
    (perm : fields.Perm others) : fields = others := by
  have below : ∀ {l : List (String × Json)}, Ascending l → l.Pairwise (·.1 < ·.1) :=
    fun h => List.pairwise_map.1 h
  refine List.Perm.eq_of_pairwise (fun a b _ _ less more => ?_) (below ascending)
    (below ascendingToo) perm
  exact absurd (String.lt_trans less more) (String.lt_irrefl _)

/-- Fields that are ascending already are left as they are by sorting. -/
theorem Ascending.sortFields_eq (ascending : Ascending fields) : sortFields fields = fields :=
  eq_of_perm (ascending_sortFields fields) ascending (sortFields_perm ascending.nodup)

/-! ## Values as they are held -/

/-- The fields of every object of a value are in order. -/
inductive Arranged : Json → Prop where
  | null : Arranged .null
  | bool (b : Bool) : Arranged (.bool b)
  | number (n : Number) : Arranged (.number n)
  | string (s : String) : Arranged (.string s)
  | array {items : List Json} : (∀ v ∈ items, Arranged v) → Arranged (.array items)
  | object {fields : List (String × Json)} :
      (∀ f ∈ fields, Arranged f.2) → Ascending fields → Arranged (.object fields)

mutual

/-- A value with the fields of every object put in order. -/
def arranged : Json → Json
  | .array items => .array (arrangedItems items)
  | .object fields => .object (sortFields (arrangedFields fields))
  | v => v

/-- The items of an array, each arranged. -/
def arrangedItems : List Json → List Json
  | [] => []
  | v :: rest => v.arranged :: arrangedItems rest

/-- The fields of an object as they stand, the value of each arranged. -/
def arrangedFields : List (String × Json) → List (String × Json)
  | [] => []
  | (key, v) :: rest => (key, v.arranged) :: arrangedFields rest

end

/-- Items that are arranged already are left as they are. -/
theorem arrangedItems_eq {items : List Json} (each : ∀ v ∈ items, v.arranged = v) :
    arrangedItems items = items := by
  induction items with
  | nil => rfl
  | cons v rest ih =>
    rw [List.forall_mem_cons] at each
    rw [arrangedItems, each.1, ih each.2]

/-- Fields whose values are arranged already are left as they are. -/
theorem arrangedFields_eq (each : ∀ f ∈ fields, f.2.arranged = f.2) :
    arrangedFields fields = fields := by
  induction fields with
  | nil => rfl
  | cons f rest ih =>
    obtain ⟨k, v⟩ := f
    rw [List.forall_mem_cons] at each
    rw [arrangedFields, each.1, ih each.2]

/-- What is arranged already stays as it is. -/
theorem Arranged.arranged_eq (held : v.Arranged) : v.arranged = v := by
  induction held with
  | null | bool | number | string => rfl
  | array _ ih => rw [arranged, arrangedItems_eq ih]
  | object _ ascending ih => rw [arranged, arrangedFields_eq ih, ascending.sortFields_eq]

mutual

/-- **A value is arranged by putting its fields in order.** -/
theorem arranged_arranged : ∀ v : Json, v.arranged.Arranged
  | .null => .null
  | .bool b => .bool b
  | .number n => .number n
  | .string s => .string s
  | .array items => .array (arranged_of_mem_items items)
  | .object fields =>
    .object (fun _ hf => arranged_of_mem_fields fields _ (mem_sortFields hf))
      (ascending_sortFields _)

/-- The items of an arranged list are arranged. -/
theorem arranged_of_mem_items : ∀ items : List Json, ∀ v ∈ arrangedItems items, v.Arranged
  | v :: rest, w, hw => by
    obtain rfl | hw := List.mem_cons.1 hw
    · exact arranged_arranged v
    · exact arranged_of_mem_items rest w hw

/-- The fields of an arranged object are arranged. -/
theorem arranged_of_mem_fields :
    ∀ fields : List (String × Json), ∀ f ∈ arrangedFields fields, f.2.Arranged
  | (_, v) :: rest, f, hf => by
    obtain rfl | hf := List.mem_cons.1 hf
    · exact arranged_arranged v
    · exact arranged_of_mem_fields rest f hf

end

namespace Document

mutual

/-- A value that is read from a document is arranged. -/
theorem arranged_valueWithin : ∀ (d : Document) {depth : Nat} {v : Json},
    d.valueWithin depth = some v → v.Arranged
  | .null, _, _, h => by cases h; exact .null
  | .bool b, _, _, h => by cases h; exact .bool b
  | .number n, _, _, h => by
    obtain ⟨m, -, rfl⟩ := Option.map_eq_some_iff.1 h
    exact .number m
  | .string s, _, _, h => by
    obtain ⟨s, -, rfl⟩ := Option.map_eq_some_iff.1 h
    exact .string s
  | .array items, depth, _, h => by
    rw [valueWithin] at h
    split at h
    · cases h
    · obtain ⟨vs, read, rfl⟩ := Option.map_eq_some_iff.1 h
      exact .array (arranged_itemsWithin items read)
  | .object fields, depth, _, h => by
    rw [valueWithin] at h
    split at h
    · cases h
    · obtain ⟨fs, read, rfl⟩ := Option.map_eq_some_iff.1 h
      exact .object (fun f hf => arranged_fieldsWithin fields read f (mem_sortFields hf))
        (ascending_sortFields fs)

/-- The items that are read from documents are arranged. -/
theorem arranged_itemsWithin : ∀ (items : List Document) {depth : Nat} {vs : List Json},
    itemsWithin depth items = some vs → ∀ v ∈ vs, v.Arranged
  | [], _, _, h, v, hv => by cases h; cases hv
  | d :: rest, depth, _, h, v, hv => by
    rw [itemsWithin] at h
    split at h
    · rename_i w ws readHead readRest
      cases h
      obtain rfl | hv := List.mem_cons.1 hv
      · exact arranged_valueWithin d readHead
      · exact arranged_itemsWithin rest readRest v hv
    · cases h

/-- The fields that are read from documents are arranged. -/
theorem arranged_fieldsWithin : ∀ (fields : List (Option String × Document)) {depth : Nat}
    {fs : List (String × Json)}, fieldsWithin depth fields = some fs → ∀ f ∈ fs, f.2.Arranged
  | [], _, _, h, f, hf => by cases h; cases hf
  | (key, d) :: rest, depth, _, h, f, hf => by
    unfold fieldsWithin at h
    split at h
    · rename_i k w ws _ readHead readRest
      cases h
      obtain rfl | hf := List.mem_cons.1 hf
      · exact arranged_valueWithin d readHead
      · exact arranged_fieldsWithin rest readRest f hf
    · cases h

end

end Document

/-- **Every value that is read from a text is arranged.** -/
theorem arranged_ofText? {text : String} (read : ofText? text = some v) : v.Arranged := by
  obtain ⟨d, -, value⟩ := Option.bind_eq_some_iff.1 read
  exact d.arranged_valueWithin value

end Json
end NotificationRelay
