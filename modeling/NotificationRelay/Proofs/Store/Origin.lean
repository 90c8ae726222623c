/-
# Where feeds and entries come from

The turns of a run tell which feeds were created and from which drafts (`Turn.created?`,
`Turn.created`). Whatever else is done, what a store says of a feed is what its draft said:
`Store.Traced` holds of the feeds that are there and of every entry of the index, including
those of feeds that are gone or were filed in part only. A call keeps this if what it files was
created before, under one of its recipients and the flag of its draft (`Call.traced_perform`).
-/
import NotificationRelay.Proofs.Flow.Indexing

namespace NotificationRelay

/-- The feed that a call has created: its identifier, and the draft it was made from. -/
def Call.created? : (c : Call) → c.Answer → Option (FeedId × Draft)
  | .insert d, .ok r => if r.created then some (r.id, d) else none
  | _, _ => none

/-- The feed that was created in a turn. -/
def Turn.created? (t : Turn) : Option (FeedId × Draft) := t.call.created? t.answer

/-- The feeds created in turns, in order. -/
def Turn.created (ts : List Turn) : List (FeedId × Draft) := ts.filterMap Turn.created?

theorem Turn.created_append (ts us : List Turn) : created (ts ++ us) = created ts ++ created us :=
  List.filterMap_append

theorem Turn.created_singleton (t : Turn) : created [t] = t.created?.toList := by
  unfold created
  cases ht : t.created? <;> simp [ht]

/-- Feeds in the order of their identifiers, and one more behind them. -/
theorem Turn.ascending_snoc {created : List (FeedId × Draft)} {e : FeedId × Draft}
    (ascending : (created.map (·.1)).Pairwise (· < ·)) (behind : ∀ c ∈ created, c.1 < e.1) :
    ((created ++ [e]).map (·.1)).Pairwise (· < ·) := by
  rw [List.map_append, List.pairwise_append]
  refine ⟨ascending, List.pairwise_singleton _ _, fun i hi j hj => ?_⟩
  obtain ⟨c, hc, rfl⟩ := List.mem_map.1 hi
  rw [List.mem_singleton.1 hj]
  exact behind c hc

/-- Only an insertion creates a feed. -/
theorem Turn.created_eq_nil {ts : List Turn} (silent : ∀ t ∈ ts, ∀ d, t.call ≠ .insert d) :
    created ts = [] := by
  refine List.filterMap_eq_nil_iff.2 fun t ht => ?_
  have other := silent t ht
  obtain ⟨before, call, answer, after⟩ := t
  cases call with
  | insert d => exact absurd rfl (other d)
  | _ => rfl

/-- A program that inserts nothing creates no feed. -/
theorem Program.Runs.created_eq_nil {α : Type} {p : Program α} {h h' : Hub} {ts : List Turn}
    {a : α} {sort : Call → Prop} (r : p.Runs h ts a h') (hp : p.Only sort)
    (silent : ∀ d, ¬ sort (.insert d)) : Turn.created ts = [] :=
  Turn.created_eq_nil fun t ht d hd => silent d (hd ▸ r.only hp t ht)

namespace Call

variable (outages : Outages) (h : Hub)

/-- What an insertion that reaches the store creates. -/
theorem created?_insert {d : Draft} (hf : ¬ (turn (.insert d) outages h).failed) :
    (turn (.insert d) outages h).created? =
      if (h.store.insert d).1.created then some ((h.store.insert d).1.id, d) else none := by
  have reached := no_outage _ outages h rfl hf
  simp only [Turn.created?, turn, perform, Outages.guard, reached]
  rfl

/-- Nothing is created by a call that fails. -/
theorem created?_of_failed {c : Call} (hf : (c.turn outages h).failed) :
    (c.turn outages h).created? = none := by
  obtain ⟨reason, hr⟩ := hf
  cases c with
  | insert d =>
    unfold Turn.created?
    generalize (turn (.insert d) outages h).answer = answer at hr ⊢
    cases answer with
    | error => rfl
    | ok => cases hr
  | _ => rfl

end Call

namespace Store

/-- What a store says of feeds is what the drafts said that they were created from. -/
structure Traced (created : List (FeedId × Draft)) (s : Store) : Prop where
  given : ∀ e ∈ created, e.1 ≤ s.lastId
  alone : ∀ i d d', (i, d) ∈ created → (i, d') ∈ created → d = d'
  stored : ∀ i rs b, (i, rs, b) ∈ s.entries →
    ∃ d, (i, d) ∈ created ∧ d.recipients = rs ∧ d.isSpam = b
  listed : ∀ r b, ∀ i ∈ s.indexed r b, ∃ d, (i, d) ∈ created ∧ r ∈ d.recipients ∧ d.isSpam = b

namespace Traced

variable {created : List (FeedId × Draft)} {s : Store}

/-- An empty store lists nothing that was not created. -/
theorem empty : Traced [] Store.empty where
  given _ he := by cases he
  alone _ _ _ hd := by cases hd
  stored _ _ _ he := by cases he
  listed _ b _ hi := by cases b <;> cases hi

/-- A feed of the store has the recipients and the flag of its draft. -/
theorem of_mem (ht : Traced created s) {f : Feed} (hf : f ∈ s.feeds) :
    ∃ d, (f.id, d) ∈ created ∧ d.recipients = f.recipients ∧ d.isSpam = f.isSpam :=
  ht.stored _ _ _ (List.mem_map_of_mem hf)

/-- A feed of the store that is listed under a recipient has it, and is of that partition. -/
theorem of_mem_indexed (ht : Traced created s) {f : Feed} (hf : f ∈ s.feeds) {r : String}
    {b : Bool} (hi : f.id ∈ s.indexed r b) : r ∈ f.recipients ∧ f.isSpam = b := by
  obtain ⟨d, hd, hrs, hspam⟩ := ht.of_mem hf
  obtain ⟨d', hd', hr, hb⟩ := ht.listed r b _ hi
  obtain rfl := ht.alone _ _ _ hd hd'
  rw [← hrs, ← hspam]
  exact ⟨hr, hb⟩

/-- What is listed stays traced while the index and the entries are the same. -/
theorem of_same (ht : Traced created s) {s' : Store} (index : s'.index = s.index)
    (entries : s'.entries = s.entries) (lastId : s'.lastId = s.lastId) : Traced created s' where
  given := by rw [lastId]; exact ht.given
  alone := ht.alone
  stored := by rw [entries]; exact ht.stored
  listed := by
    unfold indexed partitions
    rw [index]
    exact ht.listed

/-- A draft that is inserted has been created. -/
theorem insert (ht : Traced created s) {d : Draft}
    (hd : Table.get? d.payloadId s.payloadIds = none) :
    Traced (created ++ [(s.lastId + 1, d)]) (s.insert d).2 := by
  have lastId := lastId_insert hd
  have entries := entries_insert hd
  have index := s.indexed_insert d
  have fresh : ∀ d', (s.lastId + 1, d') ∉ created := fun d' hmem => by
    have := ht.given _ hmem
    lia
  refine ⟨fun e he => ?_, fun i d₁ d₂ h₁ h₂ => ?_, fun i rs b he => ?_, fun r b i hi => ?_⟩
  · rw [lastId]
    rcases List.mem_append.1 he with he | he
    · have := ht.given e he
      lia
    · have last : e.1 = s.lastId + 1 := by rw [List.mem_singleton.1 he]
      exact Int.le_of_eq last
  · rw [List.mem_append, List.mem_singleton, Prod.mk.injEq] at h₁ h₂
    rcases h₁ with h₁ | ⟨rfl, rfl⟩ <;> rcases h₂ with h₂ | ⟨hi, rfl⟩
    · exact ht.alone i d₁ d₂ h₁ h₂
    · exact absurd (hi ▸ h₁) (fresh d₁)
    · exact absurd h₂ (fresh d₂)
    · rfl
  · rw [entries, List.mem_append, List.mem_singleton, Prod.mk.injEq, Prod.mk.injEq] at he
    rcases he with he | ⟨rfl, rfl, rfl⟩
    · obtain ⟨d', hd', same⟩ := ht.stored i rs b he
      exact ⟨d', List.mem_append_left _ hd', same⟩
    · exact ⟨d, List.mem_append_right _ (List.mem_singleton_self _), rfl, rfl⟩
  · rw [index] at hi
    obtain ⟨d', hd', same⟩ := ht.listed r b i hi
    exact ⟨d', List.mem_append_left _ hd', same⟩

/-- A feed that was created may be listed under its recipients. -/
theorem append (ht : Traced created s) {r : String} {i : FeedId} {d : Draft}
    (hd : (i, d) ∈ created) (hr : r ∈ d.recipients) : Traced created (s.append r i d.isSpam) where
  given := ht.given
  alone := ht.alone
  stored := ht.stored
  listed r' b j hj := by
    rw [indexed_append] at hj
    split at hj
    · next same =>
      obtain ⟨rfl, rfl⟩ := same
      rcases Ascending.mem_insert.1 hj with rfl | hj
      · exact ⟨d, hd, hr, rfl⟩
      · exact ht.listed _ _ j hj
    · exact ht.listed r' b j hj

/-- What is left in the index was created all the same. -/
theorem unindex (ht : Traced created s) (ids : List FeedId) : Traced created (s.unindex ids).2 where
  given := ht.given
  alone := ht.alone
  stored := ht.stored
  listed r b i hi := by
    rw [indexed_unindex] at hi
    exact ht.listed r b i (Ascending.mem_diff.1 hi).1

/-- What is deleted was created all the same. -/
theorem deleteExpired (ht : Traced created s) (now : Int) :
    Traced created (s.deleteExpired now).2 where
  given := ht.given
  alone := ht.alone
  stored i rs b he := ht.stored i rs b (mem_entries_deleteExpired.1 he).1
  listed := ht.listed

end Traced
end Store

/-- **Every call keeps feeds and entries traced**, if what it files was created before. -/
theorem Call.traced_perform (c : Call) (outages : Outages) {h : Hub}
    {created : List (FeedId × Draft)} (ht : h.store.Traced created)
    (files : ∀ r i b, c = .append r i b → ∃ d, (i, d) ∈ created ∧ r ∈ d.recipients ∧ d.isSpam = b) :
    (c.perform outages h).2.store.Traced (created ++ (c.turn outages h).created?.toList) := by
  by_cases hf : (c.turn outages h).failed
  · rw [c.perform_of_failed outages h hf, created?_of_failed outages h hf, Option.toList_none,
      List.append_nil]
    exact ht
  · rw [c.store_perform_of_not_failed outages h hf]
    have silent : (c.turn outages h).created? = none → (c.effect h.store).Traced created →
        (c.effect h.store).Traced (created ++ (c.turn outages h).created?.toList) := fun hc ht => by
      rw [hc, Option.toList_none, List.append_nil]
      exact ht
    have spared : c.movesFeeds = false → (c.effect h.store).Traced created := fun hc => by
      obtain ⟨index, entries, lastId⟩ := sparesIndex hc h.store
      exact ht.of_same index entries lastId
    cases c with
    | insert d =>
      rw [created?_insert outages h hf]
      cases hd : Table.get? d.payloadId h.store.payloadIds with
      | some i =>
        have same : h.store.insert d = (⟨i, false⟩, h.store) := by simp only [Store.insert, hd]
        simpa [effect, same] using ht
      | none =>
        have answer : (h.store.insert d).1 = ⟨h.store.lastId + 1, true⟩ := by
          simp only [Store.insert, hd]
        rw [answer]
        exact ht.insert hd
    | append r i b =>
      obtain ⟨d, hd, hr, rfl⟩ := files r i b rfl
      exact silent rfl (ht.append hd hr)
    | unindex ids => exact silent rfl (ht.unindex ids)
    | deleteExpired now => exact silent rfl (ht.deleteExpired now)
    | _ => exact silent rfl (spared rfl)

end NotificationRelay
