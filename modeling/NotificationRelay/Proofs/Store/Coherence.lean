/-
# The tables of the store agree

The tables of a store describe the same feeds (`Store.Coherent`): the feeds stand in the
order of their identifiers, none of which is above the greatest given so far; a payload
identifier is taken exactly by the feed that has it; and only feeds that are there wait
for dispatch. The empty store is coherent (`Store.coherent_empty`), and every operation
leaves a coherent store coherent, so every call does (`Call.coherent_perform`).

Each operation also comes with what it does to `Store.feed?`, the feed under an
identifier.
-/
import Mathlib.Data.List.Nodup
import NotificationRelay.Proofs.Run.History

namespace NotificationRelay
namespace Store

/-- The identifiers of the feeds. -/
def ids (s : Store) : List FeedId := s.feeds.map (·.id)

/-- The payload identifiers of the feeds with their identifiers. -/
def names (s : Store) : List (String × FeedId) := s.feeds.map fun f => (f.payloadId, f.id)

/-- The tables of a store describe the same feeds. -/
structure Coherent (s : Store) : Prop where
  ascending : s.ids.Pairwise (· < ·)
  numbered : ∀ i ∈ s.ids, 1 ≤ i ∧ i ≤ s.lastId
  counted : 0 ≤ s.lastId
  named : ∀ p i, Table.get? p s.payloadIds = some i ↔ (p, i) ∈ s.names
  queued : s.outbox.Pairwise (· < ·)
  stored : ∀ i ∈ s.outbox, i ∈ s.ids

variable {s : Store}

/-! ## The feed under an identifier -/

/-- A feed is found under its own identifier. -/
theorem id_of_feed? {i : FeedId} {f : Feed} (hf : s.feed? i = some f) : f.id = i := by
  simpa using List.find?_some hf

/-- A feed that is found is stored. -/
theorem mem_of_feed? {i : FeedId} {f : Feed} (hf : s.feed? i = some f) : f ∈ s.feeds :=
  List.mem_of_find?_eq_some hf

/-- The identifiers of a store are those under which a feed is found. -/
theorem mem_ids_iff {i : FeedId} : i ∈ s.ids ↔ ∃ f, s.feed? i = some f := by
  unfold ids feed?
  rw [← Option.isSome_iff_exists, List.find?_isSome]
  simp

/-- No identifier occurs twice. -/
theorem Coherent.nodup_ids (h : s.Coherent) : s.ids.Nodup :=
  h.ascending.imp Int.ne_of_lt

/-- In a coherent store a feed is found under its identifier. -/
theorem Coherent.feed?_eq_some_iff (h : s.Coherent) {i : FeedId} {f : Feed} :
    s.feed? i = some f ↔ f ∈ s.feeds ∧ f.id = i := by
  refine ⟨fun hf => ⟨mem_of_feed? hf, id_of_feed? hf⟩, fun ⟨hf, hi⟩ => ?_⟩
  obtain ⟨g, hg⟩ := mem_ids_iff.1 (hi ▸ List.mem_map_of_mem hf : i ∈ s.ids)
  have same := (id_of_feed? hg).trans hi.symm
  rwa [← List.inj_on_of_nodup_map h.nodup_ids (mem_of_feed? hg) hf same]

/-- A change is made to the feed that has the identifier. -/
theorem update_snd (s : Store) (i : FeedId) (change : Feed → Feed) :
    (s.update i change).2 = s.modify i change := by
  unfold update
  split
  · rfl
  · next hnone =>
    have unchanged : ∀ f ∈ s.feeds, (if f.id = i then change f else f) = f := fun f hf => by
      have := List.find?_eq_none.1 hnone f hf
      simp_all
    unfold modify
    rw [List.map_congr_left unchanged, List.map_id']

/-- A change succeeds if the feed is there. -/
theorem update_fst (s : Store) (i : FeedId) (change : Feed → Feed) :
    (s.update i change).1 = if (s.feed? i).isSome then .ok () else .error (.notFound i) := by
  unfold update
  split <;> simp [*]

/-- A change is seen under the identifier of the feed that was changed, and nowhere else. -/
theorem feed?_modify (s : Store) (i j : FeedId) {change : Feed → Feed}
    (hid : ∀ f, (change f).id = f.id) :
    (s.modify i change).feed? j = if j = i then (s.feed? j).map change else s.feed? j := by
  have same : ∀ f : Feed, (if f.id = i then change f else f).id = f.id := fun f => by
    split
    · exact hid f
    · rfl
  unfold feed? modify
  simp only [List.find?_map, Function.comp_def, same]
  cases hf : s.feeds.find? fun f => decide (f.id = j) with
  | none => simp
  | some f =>
    obtain rfl : f.id = j := by simpa using List.find?_some hf
    by_cases hi : f.id = i <;> simp [hi]

/-- A new feed is found under the next identifier, and the others as before. -/
theorem feed?_insert (s : Store) (d : Draft) (i : FeedId)
    (hd : Table.get? d.payloadId s.payloadIds = none) :
    (s.insert d).2.feed? i =
      (s.feed? i).or (if i = s.lastId + 1 then some (Feed.ofDraft i d) else none) := by
  simp only [insert, hd, feed?, List.find?_append]
  congr 1
  by_cases hi : i = s.lastId + 1
  · subst hi
    simp [Feed.ofDraft]
  · simp [Feed.ofDraft, hi, Ne.symm hi]

/-- What has expired is gone, and everything else is as it was. -/
theorem feed?_deleteExpired (s : Store) (now : Int) (i : FeedId) :
    (s.deleteExpired now).2.feed? i =
      if i ∈ (s.deleteExpired now).1 then none else s.feed? i := by
  show (s.feeds.filter fun f => !(s.deleteExpired now).1.contains f.id).find? _ = _
  rw [List.find?_filter]
  by_cases hi : i ∈ (s.deleteExpired now).1
  · rw [if_pos hi]
    refine List.find?_eq_none.2 fun f _ => ?_
    by_cases hf : f.id = i <;> simp [hf, hi]
  · rw [if_neg hi]
    unfold feed?
    congr 1
    funext f
    by_cases hf : f.id = i <;> simp [hf, hi]

/-! ## Every operation leaves a coherent store coherent -/

/-- The empty store is coherent. -/
theorem coherent_empty : Store.empty.Coherent where
  ascending := .nil
  numbered := by simp [ids, empty]
  counted := Int.le_refl 0
  named := by simp [names, empty, Table.get?]
  queued := .nil
  stored := by simp [empty]

/-- What tells feeds apart is not touched when one of them is changed. -/
theorem map_modify {κ : Type} (s : Store) (i : FeedId) {change : Feed → Feed} {g : Feed → κ}
    (hg : ∀ f, g (change f) = g f) : (s.modify i change).feeds.map g = s.feeds.map g := by
  unfold modify
  rw [List.map_map]
  refine List.map_congr_left fun f _ => ?_
  by_cases hf : f.id = i <;> simp [hf, hg]

/-- A change that leaves the names of a feed as they are keeps the store coherent. -/
theorem Coherent.modify (h : s.Coherent) (i : FeedId) {change : Feed → Feed}
    (hid : ∀ f, (change f).id = f.id) (hname : ∀ f, (change f).payloadId = f.payloadId) :
    (s.modify i change).Coherent := by
  have hids : (s.modify i change).ids = s.ids := map_modify s i hid
  have hnames : (s.modify i change).names = s.names :=
    map_modify s i fun f => by rw [hid, hname]
  exact {
    ascending := by rw [hids]; exact h.ascending
    numbered := by rw [hids]; exact h.numbered
    counted := h.counted
    named := by rw [hnames]; exact h.named
    queued := h.queued
    stored := by rw [hids]; exact h.stored }

/-- Marking a feed as processed keeps the store coherent. -/
theorem Coherent.complete (h : s.Coherent) (i : FeedId) (p : Payload) :
    (s.complete i p).2.Coherent := by
  rw [Store.complete, update_snd]
  exact h.modify i (fun _ => rfl) fun _ => rfl

/-- Counting an attempt keeps the store coherent. -/
theorem Coherent.bump (h : s.Coherent) (i : FeedId) : (s.bump i).2.Coherent := by
  rw [Store.bump, update_snd]
  exact h.modify i (fun _ => rfl) fun _ => rfl

/-- Setting the attempts of a feed keeps the store coherent. -/
theorem Coherent.setAttempts (h : s.Coherent) (i : FeedId) (n : Nat) :
    (s.setAttempts i n).2.Coherent := by
  rw [Store.setAttempts, update_snd]
  exact h.modify i (fun _ => rfl) fun _ => rfl

/-- A new feed is put behind the others. -/
theorem feeds_insert {d : Draft} (hd : Table.get? d.payloadId s.payloadIds = none) :
    (s.insert d).2.feeds = s.feeds ++ [Feed.ofDraft (s.lastId + 1) d] := by
  simp only [insert, hd]

/-- A new feed takes the next identifier. -/
theorem ids_insert {d : Draft} (hd : Table.get? d.payloadId s.payloadIds = none) :
    (s.insert d).2.ids = s.ids ++ [s.lastId + 1] := by
  unfold ids
  rw [feeds_insert hd, List.map_append]
  rfl

/-- A new feed brings its payload key along. -/
theorem names_insert {d : Draft} (hd : Table.get? d.payloadId s.payloadIds = none) :
    (s.insert d).2.names = s.names ++ [(d.payloadId, s.lastId + 1)] := by
  unfold names
  rw [feeds_insert hd, List.map_append]
  rfl

/-- Inserting a draft keeps the store coherent. -/
theorem Coherent.insert (h : s.Coherent) (d : Draft) : (s.insert d).2.Coherent := by
  cases hd : Table.get? d.payloadId s.payloadIds with
  | some i => simpa only [Store.insert, hd] using h
  | none =>
    have counted := h.counted
    have free : ∀ i, (d.payloadId, i) ∉ s.names := fun i hi => by
      rw [(h.named _ i).2 hi] at hd
      cases hd
    have hlast : (s.insert d).2.lastId = s.lastId + 1 := by simp only [Store.insert, hd]
    have hbox : (s.insert d).2.outbox = Ascending.insert (s.lastId + 1) s.outbox := by
      simp only [Store.insert, hd]
    have hkeys : (s.insert d).2.payloadIds = Table.put d.payloadId (s.lastId + 1) s.payloadIds := by
      simp only [Store.insert, hd]
    refine ⟨?_, fun i hi => ?_, by lia, fun p i => ?_, ?_, fun i hi => ?_⟩
    · rw [ids_insert hd, List.pairwise_append]
      refine ⟨h.ascending, List.pairwise_singleton _ _, fun i hi j hj => ?_⟩
      rw [List.mem_singleton.1 hj]
      exact Int.lt_add_one_of_le (h.numbered i hi).2
    · rw [hlast]
      rw [ids_insert hd, List.mem_append, List.mem_singleton] at hi
      rcases hi with hi | rfl
      · have := h.numbered i hi
        lia
      · lia
    · rw [hkeys, Table.get?_put, names_insert hd, List.mem_append, List.mem_singleton,
        Prod.mk.injEq]
      split
      · next hp =>
        subst hp
        simp [free, eq_comm]
      · next hp =>
        rw [h.named]
        simp [Ne.symm hp]
    · rw [hbox]
      exact Ascending.pairwise_insert h.queued _
    · rw [ids_insert hd, List.mem_append, List.mem_singleton]
      rw [hbox] at hi
      rcases Ascending.mem_insert.1 hi with rfl | hi
      · exact .inr rfl
      · exact .inl (h.stored i hi)

/-- Taking an entry out of the outbox keeps the store coherent. -/
theorem Coherent.acknowledge (h : s.Coherent) (i : FeedId) : (s.acknowledge i).Coherent :=
  { h with
    queued := h.queued.filter _
    stored := fun j hj => h.stored j (List.mem_filter.1 hj).1 }

/-- Two feeds of a coherent store with one payload identifier are the same. -/
theorem Coherent.names_inj (h : s.Coherent) {p q : String} {i j : FeedId}
    (hi : (p, i) ∈ s.names) (hj : (q, j) ∈ s.names) : p = q ↔ i = j := by
  refine ⟨fun hpq => ?_, fun hij => ?_⟩
  · subst hpq
    exact Option.some.inj (((h.named p i).2 hi).symm.trans ((h.named p j).2 hj))
  · obtain ⟨f, hf, hfe⟩ := List.mem_map.1 hi
    obtain ⟨g, hg, hge⟩ := List.mem_map.1 hj
    simp only [Prod.mk.injEq] at hfe hge
    have same : f = g := List.inj_on_of_nodup_map h.nodup_ids hf hg
      (hfe.2.trans (hij.trans hge.2.symm))
    rw [← hfe.1, ← hge.1, same]

/-- The identifiers that are left are those that were not deleted. -/
theorem ids_deleteExpired (s : Store) (now : Int) :
    (s.deleteExpired now).2.ids = Ascending.diff s.ids (s.deleteExpired now).1 := by
  unfold ids Ascending.diff
  rw [List.filter_map]
  rfl

/-- The payload keys that are left are those of feeds that were not deleted. -/
theorem mem_names_deleteExpired {now : Int} {p : String} {i : FeedId} :
    (p, i) ∈ (s.deleteExpired now).2.names ↔
      (p, i) ∈ s.names ∧ i ∉ (s.deleteExpired now).1 := by
  have hnames : (s.deleteExpired now).2.names =
      s.names.filter fun r => !(s.deleteExpired now).1.contains r.2 := by
    unfold names
    rw [List.filter_map]
    rfl
  rw [hnames, List.mem_filter]
  simp

/-- Deleting what has expired keeps the store coherent. -/
theorem Coherent.deleteExpired (h : s.Coherent) (now : Int) :
    (s.deleteExpired now).2.Coherent where
  ascending := by
    rw [ids_deleteExpired]
    exact Ascending.pairwise_diff h.ascending _
  numbered i hi := by
    rw [ids_deleteExpired, Ascending.mem_diff] at hi
    exact h.numbered i hi.1
  counted := h.counted
  named p i := by
    have gone : (p, i) ∈ s.names → (p ∈ (s.feeds.filter (·.isExpired now)).map (·.payloadId) ↔
        i ∈ (s.deleteExpired now).1) := fun hi => by
      simp only [Store.deleteExpired, List.mem_map]
      refine exists_congr fun f => and_congr_right fun hf => ?_
      exact h.names_inj (List.mem_map_of_mem (List.mem_filter.1 hf).1) hi
    rw [mem_names_deleteExpired, ← h.named]
    rw [← h.named] at gone
    show Table.get? p (s.payloadIds.filter fun r => !((s.feeds.filter _).map _).contains r.1) =
      some i ↔ _
    generalize (s.feeds.filter (·.isExpired now)).map (·.payloadId) = keys at gone ⊢
    rw [Table.get?_filter p fun key => !keys.contains key]
    by_cases hp : p ∈ keys <;> simp_all
  queued := Ascending.pairwise_diff h.queued _
  stored i hi := by
    obtain ⟨hi, hgone⟩ := Ascending.mem_diff.1 hi
    rw [ids_deleteExpired, Ascending.mem_diff]
    exact ⟨h.stored i hi, hgone⟩

/-- Moving a watermark keeps the store coherent. -/
theorem Coherent.advance (h : s.Coherent) (key : String) (value : Int) :
    (s.advance key value).2.Coherent := by
  unfold Store.advance
  split
  · split
    · exact h
    · exact { h with }
  · exact { h with }

/-! ## Selections -/

/-- What is selected to be tried again is stored and fit for it. -/
theorem mem_candidates {cap limit : Nat} {f : Feed} (hf : f ∈ s.candidates cap limit) :
    f ∈ s.feeds ∧ s.isRetryable cap f = true :=
  List.mem_filter.1 (List.mem_mergeSort.1 (List.mem_of_mem_take hf))

/-- A retry pass selects no feed twice. -/
theorem Coherent.nodup_candidates (h : s.Coherent) (cap limit : Nat) :
    ((s.candidates cap limit).map (·.id)).Nodup := by
  have picked : ((s.feeds.filter (s.isRetryable cap)).map (·.id)).Nodup :=
    h.nodup_ids.sublist (List.filter_sublist.map _)
  have sorted := ((List.mergeSort_perm _ retriesBefore).map (·.id)).nodup_iff.2 picked
  exact sorted.sublist ((List.take_sublist _ _).map _)

/-- No entry is handed out twice. -/
theorem Coherent.nodup_pending (h : s.Coherent) (limit : Nat) : (s.pending limit).Nodup :=
  (h.queued.imp Int.ne_of_lt).sublist (List.take_sublist _ _)

end Store

/-- A feed that is there is marked as processed, unless the call fails. -/
theorem Call.answer_complete {outages : Outages} {h : Hub} {i : FeedId} {p : Payload}
    (there : (h.store.feed? i).isSome) (hf : ¬ (Call.turn (.complete i p) outages h).failed) :
    (Call.perform outages (.complete i p) h).1 = .ok () := by
  simp only [perform, Outages.guard, no_outage _ outages h rfl hf]
  rw [Store.complete, Store.update_fst, if_pos there]

/-- **Every call leaves a coherent store coherent**, whether it fails or not. -/
theorem Call.coherent_perform (c : Call) (outages : Outages) {h : Hub} (hh : h.store.Coherent) :
    (c.perform outages h).2.store.Coherent := by
  by_cases hf : (c.turn outages h).failed
  · rwa [c.perform_of_failed outages h hf]
  · rw [c.store_perform_of_not_failed outages h hf]
    cases c with
    | insert d => exact hh.insert d
    | complete id p => exact hh.complete id p
    | bump id => exact hh.bump id
    | acknowledge id => exact hh.acknowledge id
    | append => exact { hh with }
    | unindex => exact { hh with }
    | advance id epoch => exact hh.advance Broadcast.watermarkKey epoch
    | deleteExpired now => exact hh.deleteExpired now
    | _ => exact hh

/-- Every turn keeps the store coherent. -/
theorem Turn.Genuine.coherent {t : Turn} (ht : t.Genuine) (hs : t.before.store.Coherent) :
    t.after.store.Coherent := by
  obtain ⟨outages, ht⟩ := ht
  rw [ht]
  exact t.call.coherent_perform outages hs

/-- A program that starts with a coherent store has one at every turn and leaves one. -/
theorem Program.Runs.coherent_turns {α : Type} {p : Program α} {h h' : Hub} {ts : List Turn} {a : α}
    (r : p.Runs h ts a h') (hs : h.store.Coherent) :
    h'.store.Coherent ∧ ∀ t ∈ ts, t.before.store.Coherent ∧ t.after.store.Coherent :=
  r.keeps (fun h => h.store.Coherent) p.only_any (fun _ _ o hg => by rwa [o.store_eq])
    (fun c outages _ _ hg => c.coherent_perform outages hg) hs

/-- Every run keeps the store coherent. -/
theorem Program.Runs.coherent {α : Type} {p : Program α} {h h' : Hub} {ts : List Turn} {a : α}
    (r : p.Runs h ts a h') (hs : h.store.Coherent) : h'.store.Coherent :=
  (r.coherent_turns hs).1

/-- A run finds the store coherent before each of its turns. -/
theorem Program.Runs.coherent_before {α : Type} {p : Program α} {h h' : Hub} {ts : List Turn}
    {a : α} (r : p.Runs h ts a h') (hs : h.store.Coherent) {t : Turn} (ht : t ∈ ts) :
    t.before.store.Coherent :=
  ((r.coherent_turns hs).2 t ht).1

/-- A history that starts with a coherent store has one at every turn and at its end. -/
theorem History.coherent {s : Settings} {allowed : Act → Prop} {start h : Hub} {ts : List Turn}
    (hist : History s allowed start ts h) (hs : start.store.Coherent) :
    h.store.Coherent ∧ ∀ t ∈ ts, t.before.store.Coherent ∧ t.after.store.Coherent :=
  hist.keeps (fun h => h.store.Coherent) (fun _ _ o hg => by rwa [o.store_eq])
    (fun _ c outages _ _ _ hg => c.coherent_perform outages hg) hs

end NotificationRelay
