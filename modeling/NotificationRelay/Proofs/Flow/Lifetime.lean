/-
# How feeds come and go

What one call does to a feed, whoever makes it: the feed is created by an insertion
(`Turn.Genuine.exists_insert`), is deleted once (`Turn.Chain.gone_of_deleted`), and is there in
between (`Turn.Chain.deleted_of_lost`). Its record is the draft's until it is marked or an attempt
is counted (`Call.feed?_perform`), and it waits in the outbox until it is acknowledged or deleted
(`Turn.Chain.acknowledged_of_out`).
-/
import NotificationRelay.Proofs.Flow.Deletion

namespace NotificationRelay

variable {i : FeedId} {t : Turn} {s s' : Store} {ts : List Turn}

/-- A feed is there after a call if it was before, unless the call deletes it. -/
theorem Turn.Genuine.mem_ids_or_deleted (ht : t.Genuine) (there : i ∈ t.before.store.ids) :
    i ∈ t.after.store.ids ∨ i ∈ t.deleted := by
  obtain ⟨outages, ht⟩ := ht
  obtain ⟨h, c, a, h'⟩ := t
  rw [ht]
  show i ∈ (c.perform outages h).2.store.ids ∨ i ∈ c.deleted (c.perform outages h).1
  by_cases hf : (c.turn outages h).failed
  · rw [c.perform_of_failed outages h hf]
    exact .inl there
  rw [c.store_perform_of_not_failed outages h hf]
  have same : (c.effect h.store).entries = h.store.entries → i ∈ (c.effect h.store).ids := by
    intro same
    rw [Store.ids_eq_map_entries, same, ← Store.ids_eq_map_entries]
    exact there
  cases c with
  | insert d =>
    refine .inl ?_
    rw [Call.effect]
    cases hd : Table.get? d.payloadId h.store.payloadIds with
    | some j => simpa only [Store.insert, hd] using there
    | none =>
      rw [Store.ids_insert hd]
      exact List.mem_append_left _ there
  | deleteExpired now =>
    rw [Call.effect, Store.ids_deleteExpired, Ascending.mem_diff]
    have answer : Call.deleted (.deleteExpired now)
        (Call.perform outages (.deleteExpired now) h).1 = (h.store.deleteExpired now).1 := by
      simp only [Call.perform, Outages.guard, Call.no_outage _ outages h rfl hf, succeed,
        Call.deleted]
    rw [answer]
    by_cases hi : i ∈ (h.store.deleteExpired now).1
    · exact .inr hi
    · exact .inl ⟨there, hi⟩
  | append | unindex => exact .inl (same rfl)
  | _ => exact .inl (same (Call.sparesIndex rfl h.store).2.1)

/-- A feed that is lost was deleted. -/
theorem Turn.Chain.deleted_of_lost (c : Turn.Chain s ts s') (there : i ∈ s.ids)
    (lost : i ∉ s'.ids) : ∃ t ∈ ts, i ∈ t.deleted := by
  induction c with
  | nil => exact absurd there lost
  | @cons t ts s' genuine _ ih =>
    rcases genuine.mem_ids_or_deleted there with there | deleted
    · obtain ⟨u, hu, deleted⟩ := ih there lost
      exact ⟨u, List.mem_cons_of_mem _ hu, deleted⟩
    · exact ⟨t, List.mem_cons_self, deleted⟩

/-- Turns that start with a coherent store leave one. -/
theorem Turn.Chain.coherent (c : Turn.Chain s ts s') (hs : s.Coherent) : s'.Coherent := by
  induction c with
  | nil => exact hs
  | cons genuine _ ih => exact ih (genuine.coherent hs)

/-- A feed that is gone is not deleted. -/
theorem Turn.Genuine.not_deleted_of_gone (ht : t.Genuine) (hs : t.before.store.Coherent)
    (hx : t.before.store.standing i = Standing.gone) : i ∉ t.deleted := by
  obtain ⟨outages, ht⟩ := ht
  obtain ⟨h, c, a, h'⟩ := t
  rw [ht]
  show i ∉ c.deleted (c.perform outages h).1
  cases c with
  | deleteExpired now =>
    simp only [Call.perform, Outages.guard]
    split
    · exact List.not_mem_nil
    · intro deleted
      obtain ⟨f, hf, rfl⟩ := List.mem_map.1 deleted
      exact Standing.id_ne_of_gone hs hx (List.mem_filter.1 hf).1 rfl
  | _ => exact List.not_mem_nil

/-- A feed that was deleted is gone from then on, and is not deleted again. -/
theorem Turn.Chain.gone_of_deleted {xs ys : List Turn} (c : Turn.Chain s (xs ++ t :: ys) s')
    (hs : s.Coherent) (deleted : i ∈ t.deleted) :
    s'.standing i = Standing.gone ∧ ∀ u ∈ ys, i ∉ u.deleted := by
  obtain ⟨s₁, first, rest⟩ := c.of_append
  have genuine := rest.genuine t List.mem_cons_self
  obtain ⟨rfl, later⟩ := rest.of_cons
  have before := first.coherent hs
  have after := genuine.coherent before
  have gone := Standing.gone_of_deleted genuine before deleted
  refine ⟨(Standing.gone_of_chain later after gone).1, fun u hu => ?_⟩
  obtain ⟨us, vs, rfl⟩ := List.append_of_mem hu
  obtain ⟨s₂, between, last⟩ := later.of_append
  have genuine := last.genuine u List.mem_cons_self
  obtain ⟨rfl, -⟩ := last.of_cons
  exact genuine.not_deleted_of_gone (between.coherent after)
    (Standing.gone_of_chain between after gone).1

/-- A feed is created by an insertion that finds its payload identifier free, and is given the next
identifier. -/
theorem Turn.Genuine.exists_insert (ht : t.Genuine) {d : Draft}
    (created : t.created? = some (i, d)) :
    t.call = .insert d ∧ t.after.store = (t.before.store.insert d).2 ∧
      Table.get? d.payloadId t.before.store.payloadIds = none ∧ i = t.before.store.lastId + 1 := by
  obtain ⟨outages, ht⟩ := ht
  have same := created
  rw [congrArg Turn.created? ht] at same
  have hf : ¬ (t.call.turn outages t.before).failed := fun hf => by
    rw [Call.created?_of_failed outages t.before hf] at same
    cases same
  rw [congrArg Turn.after ht]
  show t.call = _ ∧ (t.call.perform outages t.before).2.store = _ ∧ _
  rw [t.call.store_perform_of_not_failed outages t.before hf]
  generalize t.call = c at same hf
  cases c with
  | insert d' =>
    rw [Call.created?_insert outages t.before hf] at same
    cases hd : Table.get? d'.payloadId t.before.store.payloadIds with
    | some j => simp [Store.insert, hd] at same
    | none =>
      simp only [Store.insert, hd, if_true, Option.some.injEq, Prod.mk.injEq] at same
      obtain ⟨rfl, rfl⟩ := same
      exact ⟨rfl, rfl, hd, rfl⟩
  | _ => cases same

/-- A feed that is created is there. -/
theorem Turn.Genuine.mem_ids_of_created (ht : t.Genuine) {d : Draft}
    (created : t.created? = some (i, d)) : i ∈ t.after.store.ids := by
  obtain ⟨-, after, free, rfl⟩ := ht.exists_insert created
  rw [after, Store.ids_insert free]
  exact List.mem_append_right _ (List.mem_singleton_self _)

/-- A feed that is not deleted stays. -/
theorem Turn.Chain.mem_ids_of_kept (c : Turn.Chain s ts s') (there : i ∈ s.ids)
    (kept : ∀ u ∈ ts, i ∉ u.deleted) : i ∈ s'.ids := by
  by_contra lost
  obtain ⟨u, hu, deleted⟩ := c.deleted_of_lost there lost
  exact kept u hu deleted

/-- Where the record of a feed comes from: it is new, or it is what it was but for a mark or a
counted attempt. -/
theorem Call.feed?_perform (c : Call) (outages : Outages) (h : Hub) {f : Feed}
    (found : (c.perform outages h).2.store.feed? i = some f) :
    (∃ d, c = .insert d ∧ f = .ofDraft i d) ∨ ∃ g, h.store.feed? i = some g ∧
      (f = g ∨ (∃ p, c = .complete i p ∧ f = g.completed p) ∨ f = g.bumped) := by
  by_cases hf : (c.turn outages h).failed
  · rw [c.perform_of_failed outages h hf] at found
    exact .inr ⟨f, found, .inl rfl⟩
  rw [c.store_perform_of_not_failed outages h hf] at found
  have kept : h.store.feed? i = some f → (∃ d, c = .insert d ∧ f = .ofDraft i d) ∨
      ∃ g, h.store.feed? i = some g ∧
        (f = g ∨ (∃ p, c = .complete i p ∧ f = g.completed p) ∨ f = g.bumped) :=
    fun found => .inr ⟨f, found, .inl rfl⟩
  have modified : ∀ {j : FeedId} {m : Feed → Feed}, (∀ f, (m f).id = f.id) →
      (h.store.update j m).2.feed? i = some f →
        h.store.feed? i = some f ∨ j = i ∧ ∃ g, h.store.feed? i = some g ∧ f = m g := by
    intro j m hid found
    rw [Store.update_snd, Store.feed?_modify _ _ _ hid] at found
    split at found
    · next same =>
      obtain ⟨g, hg, rfl⟩ := Option.map_eq_some_iff.1 found
      exact .inr ⟨same.symm, g, hg, rfl⟩
    · exact .inl found
  cases c with
  | insert d =>
    cases hd : Table.get? d.payloadId h.store.payloadIds with
    | some j => exact kept (by simpa only [Call.effect, Store.insert, hd] using found)
    | none =>
      rw [Call.effect, Store.feed?_insert _ _ _ hd, Option.or_eq_some_iff] at found
      rcases found with old | ⟨-, new⟩
      · exact kept old
      · split at new
        · exact .inl ⟨d, rfl, (Option.some.inj new).symm⟩
        · cases new
  | complete j p =>
    rcases modified (m := (·.completed p)) (fun _ => rfl) found with old | ⟨rfl, g, hg, same⟩
    · exact kept old
    · exact .inr ⟨g, hg, .inr (.inl ⟨p, rfl, same⟩)⟩
  | bump j =>
    rcases modified (m := Feed.bumped) (fun _ => rfl) found with old | ⟨-, g, hg, same⟩
    · exact kept old
    · exact .inr ⟨g, hg, .inr (.inr same)⟩
  | deleteExpired now =>
    rw [Call.effect, Store.feed?_deleteExpired] at found
    split at found
    · cases found
    · exact kept found
  | advance j epoch =>
    refine kept ?_
    rw [Call.effect, Store.advance] at found
    split at found
    · split at found <;> exact found
    · exact found
  | _ => exact kept found

/-- A feed that waits in the outbox goes on to wait, unless it is acknowledged or deleted. -/
theorem Turn.Genuine.waits (ht : t.Genuine) (waits : i ∈ t.before.store.outbox) :
    i ∈ t.after.store.outbox ∨ t.call = .acknowledge i ∨ i ∈ t.deleted := by
  obtain ⟨outages, ht⟩ := ht
  obtain ⟨h, c, a, h'⟩ := t
  rw [ht]
  show i ∈ (c.perform outages h).2.store.outbox ∨ c = .acknowledge i ∨
    i ∈ c.deleted (c.perform outages h).1
  by_cases hf : (c.turn outages h).failed
  · rw [c.perform_of_failed outages h hf]
    exact .inl waits
  rw [c.store_perform_of_not_failed outages h hf]
  cases c with
  | insert d =>
    refine .inl ?_
    rw [Call.effect, Store.insert]
    split
    · exact waits
    · exact Ascending.mem_insert.2 (.inr waits)
  | acknowledge j =>
    by_cases hj : j = i
    · exact .inr (.inl (congrArg Call.acknowledge hj))
    · exact .inl (List.mem_filter.2 ⟨waits, decide_eq_true (Ne.symm hj)⟩)
  | deleteExpired now =>
    have answer : Call.deleted (.deleteExpired now)
        (Call.perform outages (.deleteExpired now) h).1 = (h.store.deleteExpired now).1 := by
      simp only [Call.perform, Outages.guard, Call.no_outage _ outages h rfl hf, succeed,
        Call.deleted]
    rw [answer]
    by_cases hi : i ∈ (h.store.deleteExpired now).1
    · exact .inr (.inr hi)
    · exact .inl (Ascending.mem_diff.2 ⟨waits, hi⟩)
  | complete | bump =>
    refine .inl ?_
    simp only [Call.effect, Store.complete, Store.bump, Store.update_snd]
    exact waits
  | advance =>
    refine .inl ?_
    rw [Call.effect, Store.advance]
    split
    · split <;> exact waits
    · exact waits
  | _ => exact .inl waits

/-- A feed that no longer waits was acknowledged, unless it was deleted. -/
theorem Turn.Chain.acknowledged_of_out (c : Turn.Chain s ts s') (waits : i ∈ s.outbox)
    (out : i ∉ s'.outbox) (kept : ∀ t ∈ ts, i ∉ t.deleted) : ∃ t ∈ ts, t.call = .acknowledge i := by
  induction c with
  | nil => exact absurd waits out
  | @cons t ts s' genuine _ ih =>
    obtain ⟨here, later⟩ := List.forall_mem_cons.1 kept
    rcases genuine.waits waits with waits | acknowledged | deleted
    · obtain ⟨u, hu, acknowledged⟩ := ih waits out later
      exact ⟨u, List.mem_cons_of_mem _ hu, acknowledged⟩
    · exact ⟨t, List.mem_cons_self, acknowledged⟩
    · exact absurd deleted here

end NotificationRelay
