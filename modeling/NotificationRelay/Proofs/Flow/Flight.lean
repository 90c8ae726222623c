/-
# While a feed is processed

The processing of a feed begins with a note of it, and it ends when the feed has been marked as
processed or the attempt was to be counted (`Turn.ends`); in between it begins and ends nothing
(`Processing.runs_process`). So at any point in a series of calls a feed is being processed as
often as its processing has begun (`processings`) and not ended (`endings`).

Few calls concern a given feed that is there (`Call.concerns`). The others leave its standing
alone, unless they delete it (`Standing.effect_of_not_concerns`); and a feed that has been
deleted stays away, whatever calls are made (`Standing.gone_of_chain`).
-/
import NotificationRelay.Proofs.Flow.Filing
import NotificationRelay.Proofs.Flow.Ledger

namespace NotificationRelay

/-! ## When the processing of a feed ends -/

/-- Whether a call, by its answer, ends the processing of a feed: the feed has been marked as
processed, or an attempt was to be counted. -/
def Call.ends (i : FeedId) : (c : Call) → c.Answer → Bool
  | .bump j, _ => decide (j = i)
  | .complete j _, .ok _ => decide (j = i)
  | _, _ => false

/-- Whether the processing of a feed ended in a turn. -/
def Turn.ends (i : FeedId) (t : Turn) : Bool := t.call.ends i t.answer

/-- How often the processing of a feed ended in a series of calls. -/
def endings (i : FeedId) (ts : List Turn) : Nat := ts.countP (Turn.ends i)

/-- A call that says something of the processing of a feed or takes it out of the outbox. -/
def Call.concerns (i : FeedId) : Call → Bool
  | .note j => decide (j = i)
  | .complete j _ => decide (j = i)
  | .bump j => decide (j = i)
  | .acknowledge j => decide (j = i)
  | _ => false

namespace Call

variable {i : FeedId} {c : Call}

/-- A call that does not concern a feed does not begin to process it. -/
theorem begins_of_not_concerns (hc : c.concerns i = false) : c.begins i = false := by
  cases c <;> first | rfl | exact hc

/-- A call that does not concern a feed does not end its processing. -/
theorem ends_of_not_concerns (hc : c.concerns i = false) (a : c.Answer) : c.ends i a = false := by
  cases c with
  | complete j p => cases a <;> first | rfl | exact hc
  | bump j => exact hc
  | _ => rfl

/-- A passive call concerns no feed. -/
theorem not_concerns_of_passive (hc : c.isPassive = true) : c.concerns i = false := by
  cases c <;> first | rfl | cases hc

end Call

/-- The calls of a broadcast concern no feed. -/
theorem Broadcast.Makes.not_concerns {t : Topic} {f : Feed} {i : FeedId} {c : Call}
    (hc : Makes t f c) : c.concerns i = false := by
  cases hc <;> rfl

/-- Processing one feed does not concern another. -/
theorem Processing.Makes.not_concerns {t : Broadcast.Topic} {f : Feed} {i : FeedId} {c : Call}
    (hf : f.id ≠ i) (hc : Makes t f c) : c.concerns i = false := by
  cases hc with
  | passive hc => exact Call.not_concerns_of_passive hc
  | broadcast hc => exact hc.not_concerns
  | note | complete | bump => exact decide_eq_false hf

/-- Handling the entry of one feed does not concern another. -/
theorem Outbox.Makes.not_concerns {t : Broadcast.Topic} {i j : FeedId} {c : Call} (hj : j ≠ i)
    (hc : Makes t j c) : c.concerns i = false := by
  cases hc with
  | acknowledge => exact decide_eq_false hj
  | passive hc => exact Call.not_concerns_of_passive hc
  | processing hid hc => exact hc.not_concerns (hid ▸ hj)

/-- A turn in which no processing begins or ends. -/
def Turn.Quiet (t : Turn) : Prop := ∀ i, t.call.begins i = false ∧ t.ends i = false

/-- **The processing of a feed begins with its first call and ends with its last.** -/
theorem Processing.runs_process {t : Broadcast.Topic} {f : Feed} {h h' : Hub} {ts : List Turn}
    {a : Except FeedError Report} (r : (process t f).Runs h ts a h') :
    ∃ first us last, ts = first :: (us ++ [last]) ∧ first.call = .note f.id ∧
      last.ends f.id = true ∧ ∀ u ∈ us, u.Quiet := by
  have quiet : ∀ {us : List Turn}, (∀ u ∈ us, ∀ i, u.call.concerns i = false) →
      ∀ u ∈ us, u.Quiet := fun hus u hu i =>
    ⟨Call.begins_of_not_concerns (hus u hu i), Call.ends_of_not_concerns (hus u hu i) _⟩
  obtain ⟨h₀, outages₀, us, -, rfl, rest⟩ := Program.Runs.of_call r
  replace rest : ((Dispatch.dispatch f f.enriched).bind _).Runs _ us a h' := rest
  obtain ⟨us₁, us, _, h₁, rfl, dispatched, rest⟩ := rest.of_bind
  replace rest : ((Broadcast.publish t f f.enriched).bind _).Runs _ us a h' := rest
  obtain ⟨us₂, us, outcome, h₂, rfl, published, rest⟩ := rest.of_bind
  have quiet₁ : ∀ u ∈ us₁, u.Quiet := quiet fun u hu i =>
    Call.not_concerns_of_passive (dispatched.only (Dispatch.passive_dispatch f f.enriched) u hu)
  have quiet₂ : ∀ u ∈ us₂, u.Quiet := quiet fun u hu i =>
    (published.only (Broadcast.only_publish t f) u hu).not_concerns
  -- what comes after the broadcast ends the processing with its last call
  have tail : ∃ vs last, us = vs ++ [last] ∧ last.ends f.id = true ∧ ∀ u ∈ vs, u.Quiet := by
    replace rest : (if outcome = .watermarkUnavailable then _ else _ :
        Program (Except FeedError Report)).Runs _ us a h' := rest
    have bumped : ∀ outages g, ((Call.bump f.id).turn outages g).ends f.id = true :=
      fun outages g => decide_eq_true rfl
    split at rest
    · obtain ⟨g, outages, vs, -, rfl, last⟩ := Program.Runs.of_call rest
      obtain ⟨rfl, -, -⟩ := Program.Runs.of_done last
      exact ⟨[], _, rfl, bumped outages g, fun _ hu => nomatch hu⟩
    · obtain ⟨g, outages, vs, -, rfl, last⟩ := Program.Runs.of_call rest
      cases ha : (Call.perform outages (.complete f.id f.enriched) g).1 with
      | ok =>
        rw [ha] at last
        obtain ⟨rfl, -, -⟩ := Program.Runs.of_done last
        refine ⟨[], _, rfl, ?_, fun _ hu => nomatch hu⟩
        simp only [Turn.ends, Call.turn, ha]
        exact decide_eq_true rfl
      | error e =>
        rw [ha] at last
        obtain ⟨g', outages', ws, -, rfl, done⟩ := Program.Runs.of_call last
        obtain ⟨rfl, -, -⟩ := Program.Runs.of_done done
        refine ⟨[_], _, rfl, bumped outages' g', fun u hu i => ?_⟩
        obtain rfl := List.mem_singleton.1 hu
        refine ⟨rfl, ?_⟩
        simp only [Turn.ends, Call.turn, ha]
        rfl
  obtain ⟨vs, last, rfl, ends, quiet₃⟩ := tail
  refine ⟨(Call.note f.id).turn outages₀ h₀, us₁ ++ (us₂ ++ vs), last, by simp, rfl, ends,
    fun u hu => ?_⟩
  rcases List.mem_append.1 hu with hu | hu
  · exact quiet₁ u hu
  · rcases List.mem_append.1 hu with hu | hu
    · exact quiet₂ u hu
    · exact quiet₃ u hu

/-! ## Feeds that have been deleted -/

namespace Standing

variable {i : FeedId} {s s' : Store}

/-- The standing of a feed that has been deleted. -/
def gone : Standing := ⟨none, false, true⟩

/-- A call that does not concern a feed leaves its standing alone, stores it, or deletes it. -/
theorem effect_of_not_concerns (hs : s.Coherent) {c : Call} (hc : c.concerns i = false) :
    (c.effect s).standing i = s.standing i ∨ s.standing i = ⟨none, false, false⟩ ∨
      (c.effect s).standing i = ⟨none, false, (s.standing i).given⟩ := by
  have unmoved : Unmoved i c → (c.effect s).standing i = s.standing i := fun hu => hu s
  cases c with
  | insert d =>
    rcases of_insert hs d (i := i) with same | ⟨new, -⟩
    · exact .inl same
    · exact .inr (.inl new)
  | deleteExpired now =>
    rcases of_deleteExpired s now (i := i) with same | deleted
    · exact .inl same
    · exact .inr (.inr deleted)
  | note => exact .inl rfl
  | complete j p =>
    have other : i ≠ j := Ne.symm (of_decide_eq_false hc)
    exact .inl (unmoved (unmoved_update other (·.completed p) (fun _ => rfl) fun _ => rfl))
  | bump j =>
    have other : i ≠ j := Ne.symm (of_decide_eq_false hc)
    exact .inl (unmoved (unmoved_update other Feed.bumped (fun _ => rfl) fun _ => rfl))
  | acknowledge j => exact .inl (unmoved (unmoved_acknowledge (Ne.symm (of_decide_eq_false hc))))
  | advance => exact .inl (unmoved unmoved_advance)
  | _ => exact .inl rfl

/-- Whatever is called, a feed that is gone stays gone. -/
theorem gone_effect (hs : s.Coherent) (hx : s.standing i = gone) (c : Call) :
    (c.effect s).standing i = gone := by
  have modified : ∀ (j : FeedId) (change : Feed → Feed), (∀ f, (change f).id = f.id) →
      (s.update j change).2.standing i = gone := fun j change hid => by
    rw [Store.update_snd, of_modify s j change hid, hx]
    by_cases hij : i = j <;> simp [gone, hij]
  cases hc : c.concerns i with
  | false =>
    rcases effect_of_not_concerns hs hc with same | new | deleted
    · rw [same, hx]
    · rw [hx] at new
      cases new
    · rw [deleted, hx]
      rfl
  | true =>
    cases c with
    | note => exact hx
    | complete j p => exact modified j (·.completed p) fun _ => rfl
    | bump j => exact modified j Feed.bumped fun _ => rfl
    | acknowledge j =>
      rw [Call.effect, of_acknowledge, hx]
      rfl
    | _ => cases hc

/-- A feed that has been deleted stays away, whatever calls are made. -/
theorem gone_of_chain {ts : List Turn} (c : Turn.Chain s ts s') (hs : s.Coherent)
    (hx : s.standing i = gone) :
    s'.standing i = gone ∧ ∀ t ∈ ts, t.after.store.standing i = gone := by
  induction c with
  | nil => exact ⟨hx, fun _ ht => nomatch ht⟩
  | @cons t ts s' genuine _ ih =>
    have coherent := genuine.coherent hs
    obtain ⟨outages, ht⟩ := genuine
    have after : t.after = (t.call.perform outages t.before).2 := congrArg Turn.after ht
    have first : t.after.store.standing i = gone := by
      rw [after]
      by_cases hf : (t.call.turn outages t.before).failed
      · rwa [t.call.perform_of_failed outages t.before hf]
      · rw [t.call.store_perform_of_not_failed outages t.before hf]
        exact gone_effect hs hx t.call
    obtain ⟨last, rest⟩ := ih coherent first
    refine ⟨last, fun u hu => ?_⟩
    rcases List.mem_cons.1 hu with rfl | hu
    · exact first
    · exact rest u hu

/-- A feed that is deleted in a turn is gone after it. -/
theorem gone_of_deleted {t : Turn} (ht : t.Genuine) (hs : t.before.store.Coherent)
    (deleted : i ∈ t.deleted) : t.after.store.standing i = gone := by
  obtain ⟨outages, ht⟩ := ht
  have same := congrArg Turn.deleted ht
  have after : t.after = (t.call.perform outages t.before).2 := congrArg Turn.after ht
  rw [same] at deleted
  rw [after]
  change i ∈ t.call.deleted (t.call.perform outages t.before).1 at deleted
  generalize t.call = c at deleted
  cases c with
  | deleteExpired now =>
    simp only [Call.perform, Outages.guard] at deleted ⊢
    split at deleted
    · cases deleted
    · replace deleted : i ∈ (t.before.store.deleteExpired now).1 := deleted
      have given : i ≤ t.before.store.lastId := by
        obtain ⟨f, hf, rfl⟩ := List.mem_map.1 deleted
        exact (hs.numbered f.id (List.mem_map_of_mem (List.mem_filter.1 hf).1)).2
      show (t.before.store.deleteExpired now).2.standing i = gone
      have lost := Store.feed?_deleteExpired t.before.store now i
      rw [if_pos deleted] at lost
      have out : i ∉ (t.before.store.deleteExpired now).2.outbox := fun hi =>
        (Ascending.mem_diff.1 hi).2 deleted
      have kept : i ≤ (t.before.store.deleteExpired now).2.lastId := given
      unfold Store.standing gone
      rw [lost, decide_eq_true kept]
      simp [out]
  | _ => cases deleted

end Standing

end NotificationRelay
