/-
# What is handed over

A feed that asks is refused, or it is let through and its message is handed over once. What
comes of that is read off the program here, for any part of the hub that it may change
(`Broadcast.leads_publish`). The messages of one feed that turns handed over are `handed`,
those that the sink accepted are `published`; while it accepts everything they are the same
(`published_eq_handed`).
-/
import NotificationRelay.Proofs.Broadcast.Order
import NotificationRelay.Proofs.Run.Aspect

namespace NotificationRelay

/-- Whether a call hands over a message of a feed. -/
def Call.posts (i : FeedId) : Call → Bool
  | .post m => decide (m.id = i)
  | _ => false

/-- The messages of a feed that turns handed over. -/
def handed (i : FeedId) (ts : List Turn) : List Broadcast.Message :=
  (ts.filterMap Turn.posted?).filter fun m => decide (m.id = i)

theorem handed_append (i : FeedId) (ts us : List Turn) :
    handed i (ts ++ us) = handed i ts ++ handed i us := by
  unfold handed
  rw [List.filterMap_append, List.filter_append]

/-- A feed has been handed over as often as calls have posted it. -/
theorem length_handed (i : FeedId) (ts : List Turn) :
    (handed i ts).length = ts.countP fun t => t.call.posts i := by
  unfold handed
  rw [← List.countP_eq_length_filter, List.countP_filterMap]
  refine List.countP_congr fun t _ => ?_
  obtain ⟨h, c, a, h'⟩ := t
  cases c <;> rfl

/-- A message that was handed over for a feed was posted. -/
theorem call_of_mem_handed {i : FeedId} {ts : List Turn} {m : Broadcast.Message}
    (hm : m ∈ handed i ts) : m.id = i ∧ ∃ t ∈ ts, t.call = .post m := by
  obtain ⟨hm, hid⟩ := List.mem_filter.1 hm
  obtain ⟨t, ht, hpost⟩ := List.mem_filterMap.1 hm
  refine ⟨of_decide_eq_true hid, t, ht, ?_⟩
  unfold Turn.posted? at hpost
  split at hpost
  · next hcall =>
    cases hpost
    exact hcall
  · cases hpost

/-- The message that a turn handed to the sink, which accepted it. -/
def Turn.published? (t : Turn) : Option Broadcast.Message :=
  match t.call, t.answer with
  | .post m, true => some m
  | _, _ => none

/-- The messages of a feed that the sink accepted. -/
def published (i : FeedId) (ts : List Turn) : List Broadcast.Message :=
  (ts.filterMap Turn.published?).filter fun m => decide (m.id = i)

/-- A sink that accepts what it is handed publishes it. -/
theorem published_eq_handed {ts : List Turn}
    (accepted : ∀ t ∈ ts, ∀ m, t.call = .post m → t.published? = some m) (i : FeedId) :
    published i ts = handed i ts := by
  unfold published handed
  congr 1
  refine List.filterMap_congr fun t ht => ?_
  have accepted := accepted t ht
  obtain ⟨h, c, a, h'⟩ := t
  cases c with
  | post m => exact accepted m rfl
  | _ => rfl

/-- Whether a turn hands nothing over, or its message is accepted. -/
def Turn.isAccepted (t : Turn) : Bool := t.posted?.isSome == t.published?.isSome

/-- A message that the sink accepts is published. -/
theorem Turn.published?_of_isAccepted {t : Turn} (ht : t.isAccepted = true)
    {m : Broadcast.Message} (hcall : t.call = .post m) : t.published? = some m := by
  obtain ⟨h, c, a, h'⟩ := t
  obtain rfl : c = .post m := hcall
  cases a with
  | false => cases ht
  | true => rfl

/-- A feed is refused, or it is let through and handed over. -/
theorem Broadcast.leads_publish {σ : Type} {A : Aspect σ} {ok : Turn → Prop} {t : Topic} {f : Feed}
    {v : σ} {n : Nat} (on : t.enabled = true) (reached : ∀ u, ok u → ¬ u.failed)
    {post : Outcome → σ → Nat → Prop}
    (refused : ∀ outages h, A.view h = v → ok ((Call.advance f.id f.epoch).turn outages h) →
      ¬ h.store.Admits f.epoch →
        post .stale (A.view (Call.perform outages (.advance f.id f.epoch) h).2)
          (n + (A.counts (.advance f.id f.epoch)).toNat))
    (passed : ∀ outages h, A.view h = v → ok ((Call.advance f.id f.epoch).turn outages h) →
      h.store.Admits f.epoch →
        (Program.perform (.post (t.message f f.enriched))).Leads A ok
          (fun accepted => post (if accepted then .published else .failed))
          (A.view (Call.perform outages (.advance f.id f.epoch) h).2)
          (n + (A.counts (.advance f.id f.epoch)).toNat)) :
    (publish t f f.enriched).Leads A ok post v n := by
  unfold publish
  rw [if_pos on]
  intro outages h hv hok
  rw [Call.answer_advance (reached _ hok)]
  cases hpass : (h.store.advance watermarkKey f.epoch).1 with
  | false =>
    refine refused outages h hv hok fun admitted => ?_
    rw [(h.store.advance_fst_iff f.epoch).2 admitted] at hpass
    cases hpass
  | true =>
    show ((Program.perform (.post (t.message f f.enriched))).bind _).Leads _ _ _ _ _
    refine Program.Leads.bind ((passed outages h hv hok ?_).mono fun accepted w m here => ?_)
    · exact (h.store.advance_fst_iff f.epoch).1 hpass
    · cases accepted with
      | false => exact here
      | true => exact here

end NotificationRelay
