/-
# What acts do to a feed

However the feeds of a batch take turns, a pass over the outbox does to a feed what handling its
entry does (`Standing.leads_drain`), and a retry pass what processing it does, if it may be tried
again (`Standing.leads_retry`). Of all other acts only those matter that store a draft
(`Standing.leads_add`) or delete what has expired (`Standing.leads_sweep`).

So where an act can lead a feed is known from a few cases (`Standing.leads_act`), whatever is to be
said of it and whatever calls that regard it are to be counted.
-/
import NotificationRelay.Proofs.Flow.Standing

namespace NotificationRelay

/-- A call that says something of a feed, and does nothing to its standing. -/
inductive Call.Regards (i : FeedId) : Call → Prop
  | note : Regards i (.note i)
  | advance (epoch : Int) : Regards i (.advance i epoch)
  | post {m : Broadcast.Message} (hm : m.id = i) : Regards i (.post m)

namespace Standing

variable {i : FeedId} {counts : Call → Bool} {ok : Turn → Prop} {x : Standing} {n : Nat}
  {t : Broadcast.Topic} {post : Standing → Nat → Prop}

/-- A passive call regards no feed. -/
theorem not_regards_of_passive {c : Call} (hc : c.isPassive = true) : ¬ c.Regards i := by
  rintro (_ | _ | _) <;> cases hc

/-- Processing one feed does not regard another. -/
theorem not_regards_of_processing {f : Feed} {c : Call} (hf : f.id ≠ i)
    (hc : Processing.Makes t f c) : ¬ c.Regards i := by
  intro regards
  cases hc with
  | note => cases regards; exact hf rfl
  | passive hc => exact not_regards_of_passive hc regards
  | broadcast hc =>
    cases hc with
    | advance => cases regards; exact hf rfl
    | post =>
      obtain _ | _ | hm := regards
      exact hf hm
  | complete | bump => cases regards

/-- Handling the entry of one feed does not regard another. -/
theorem not_regards_of_outbox {j : FeedId} {c : Call} (hj : j ≠ i) (hc : Outbox.Makes t j c) :
    ¬ c.Regards i := by
  cases hc with
  | acknowledge => rintro ⟨⟩
  | passive hc => exact not_regards_of_passive hc
  | processing hid hc => exact not_regards_of_processing (hid ▸ hj) hc

/-! ## Entries and passes -/

/-- An entry of the outbox is taken out, unless the call fails. -/
theorem leads_acknowledge (hcount : counts (.acknowledge i) = false)
    (kept : ∀ t, ok t → t.call = .acknowledge i → t.failed → post x n)
    (out : post { x with waiting := false } n) :
    (Outbox.acknowledge i).Leads (aspect i counts) ok (fun _ => post) x n := by
  refine leads_call hcount (fun outages h _ hok hf => ?_) fun outages h hx _ _ => ?_
  · have here := kept _ hok rfl hf
    rcases (Call.perform outages (.acknowledge i) h).1 with _ | _ <;> exact here
  · have here : post ((Store.acknowledge h.store i).standing i) n := by
      rw [of_acknowledge, hx, decide_eq_false (by simp), Bool.and_false]
      exact out
    rcases (Call.perform outages (.acknowledge i) h).1 with _ | _ <;> exact here

/-- An entry of the outbox is left, or dropped because there is nothing to do, or its feed is
processed before it is dropped. -/
theorem leads_relayOne (hcount : counts (.load i) = false)
    (left : ∀ u, ok u → u.failed → post x n)
    (dropped : (∀ f, x.feed = some f → f.processed = true) →
      (Outbox.acknowledge i).Leads (aspect i counts) ok (fun _ => post) x n)
    (tried : ∀ f, x.feed = some f → f.id = i → f.processed = false →
      (Processing.process t f).Leads (aspect i counts) ok (fun _ y m =>
        (Outbox.acknowledge i).Leads (aspect i counts) ok (fun _ => post) y m) x n) :
    (Outbox.relayOne t i).Leads (aspect i counts) ok (fun _ => post) x n := by
  refine leads_read hcount (fun _ => rfl) fun outages h hx hok => ?_
  -- what the program decides on is the standing itself, unless the call fails
  have loaded : (Call.perform outages (.load i) h).1 = .ok x.feed ∨
      ∃ e, (Call.perform outages (.load i) h).1 = .error e ∧
        ((Call.load i).turn outages h).failed := by
    cases ho : outages (.load i) with
    | some reason =>
      exact .inr ⟨.unavailable reason, by simp only [Call.perform, Outages.guard, ho],
        Call.failed_of_outage _ outages h rfl ho⟩
    | none =>
      refine .inl ?_
      simp only [Call.perform, Outages.guard, ho]
      rw [← hx]
      rfl
  rcases loaded with loaded | ⟨e, loaded, failed⟩
  · rw [loaded]
    cases hf : x.feed with
    | none => exact dropped fun f hf' => by rw [hf] at hf'; cases hf'
    | some f =>
      show (if f.processed then Outbox.acknowledge i else _ : Program Bool).Leads _ _ _ _ _
      cases todo : f.processed with
      | true => exact dropped fun g hg => by rw [hf] at hg; cases hg; exact todo
      | false =>
        have hid : f.id = i := Store.id_of_feed? (s := h.store) (by rw [← hf, ← hx]; rfl)
        exact Program.Leads.bind (tried f hf hid todo)
  · rw [loaded]
    exact left _ hok failed

/-- A pass over the outbox leads a feed where its entry leads it, in whatever order the entries take
turns. -/
theorem leads_drain {limit batch : Nat} {handle : List FeedId → Program (List Bool)}
    (sideBySide : ∀ ids, Program.Weave limit (ids.map (Outbox.relayOne t)) (handle ids))
    (coherent : ∀ u, ok u → u.before.store.Coherent) (hcount : counts (.pending batch) = false)
    (others : ∀ j c, j ≠ i → Outbox.Makes t j c → counts c = false) (stay : post x n)
    (own : x.waiting = true →
      (Outbox.relayOne t i).Leads (aspect i counts) ok (fun _ => post) x n) :
    (Outbox.drainBy handle batch).Leads (aspect i counts) ok (fun _ => post) x n := by
  refine leads_read hcount (fun _ => rfl) fun outages h hx hok => ?_
  simp only [Call.perform, Outages.guard]
  split
  · exact stay
  · show Program.Leads _ _ ((handle (h.store.pending batch)).bind _) _ _ _
    refine Program.Leads.bind (((sideBySide _).leads_of_key id i ?_ (fun j _ hj => ?_)
      (fun j hj hji => ?_) fun _ => stay).mono fun _ _ _ here => here)
    · rw [List.map_id]
      exact (coherent _ hok).nodup_pending batch
    · exact (Outbox.only_relayOne t j).mono fun c hc =>
        spares (others j c hj hc) (unmoved_outbox hj hc)
    · obtain rfl : j = i := hji
      refine own ?_
      rw [← hx]
      exact List.contains_iff_mem.2 (List.mem_of_mem_take hj)

/-- A retry pass leads a feed where its processing leads it if it may be tried again, in whatever
order the feeds take turns. -/
theorem leads_retry {cap limit batch : Nat}
    {handle : List Feed → Program (List (Except FeedError Processing.Report))}
    (sideBySide : ∀ feeds, Program.Weave limit (feeds.map (Processing.process t)) (handle feeds))
    (coherent : ∀ u, ok u → u.before.store.Coherent)
    (hcount : counts (.candidates cap batch) = false)
    (others : ∀ f c, f.id ≠ i → Processing.Makes t f c → counts c = false) (stay : post x n)
    (own : ∀ f, x.feed = some f → f.id = i → f.processed = false → f.isSpam = false →
      f.attempts < cap → x.waiting = false →
        (Processing.process t f).Leads (aspect i counts) ok (fun _ => post) x n) :
    (Retry.passBy handle cap batch).Leads (aspect i counts) ok (fun _ => post) x n := by
  refine leads_read hcount (fun _ => rfl) fun outages h hx hok => ?_
  simp only [Call.perform, Outages.guard]
  split
  · exact stay
  · show Program.Leads _ _ ((handle (h.store.candidates cap batch)).bind _) _ _ _
    refine Program.Leads.bind (((sideBySide _).leads_of_key (·.id) i ?_ (fun f _ hf => ?_)
      (fun f hf hid => ?_) fun _ => stay).mono fun _ _ _ here => here)
    · exact (coherent _ hok).nodup_candidates cap batch
    · exact (Processing.only_process t f).mono fun c hc =>
        spares (others f c hf hc) (unmoved_processing hf hc)
    · obtain ⟨hmem, retryable⟩ := Store.mem_candidates hf
      have there : x.feed = some f := by
        rw [← hx]
        exact (coherent _ hok).feed?_eq_some_iff.2 ⟨hmem, hid⟩
      have out : x.waiting = h.store.outbox.contains f.id := by rw [← hx, hid]; rfl
      simp only [Store.isRetryable, Bool.and_eq_true, Bool.not_eq_true', decide_eq_true_eq,
        ← out] at retryable
      exact own f there hid retryable.1.1.1 retryable.1.1.2 retryable.1.2 retryable.2

/-! ## All acts -/

/-- A call that is followed only by calls that leave a standing alone. -/
theorem leads_call_of_only {α : Type} {c : Call} {next : c.Answer → Program α}
    (coherent : ∀ u, ok u → u.before.store.Coherent) (hcount : counts c = false)
    (rest : ∀ answer, (next answer).Only (aspect i counts).Spares) (failure : post x n)
    (success : ∀ s : Store, s.Coherent → s.standing i = x → post ((c.effect s).standing i) n) :
    (Program.call c next).Leads (aspect i counts) ok (fun _ => post) x n := by
  refine leads_call hcount (fun _ _ _ _ _ => .of_only (rest _) fun _ => failure) ?_
  exact fun _ h hx hok _ => .of_only (rest _) fun _ => success h.store (coherent _ hok) hx

/-- A draft that is stored becomes a feed, or changes nothing. -/
theorem leads_add (coherent : ∀ u, ok u → u.before.store.Coherent)
    (own : ∀ c, counts c = true → c.Regards i) (d : Draft) (stay : post x n)
    (stored : x = ⟨none, false, false⟩ → post ⟨some (.ofDraft i d), true, true⟩ n) :
    (Intake.add d).Leads (aspect i counts) ok (fun _ => post) x n := by
  have uncounted : ∀ {c : Call}, ¬ c.Regards i → counts c = false := fun hc =>
    Bool.eq_false_iff.2 (mt (own _) hc)
  refine leads_call_of_only coherent (uncounted (by rintro ⟨⟩)) ?_ stay fun s hs hx => ?_
  · rintro (e | inserted)
    · trivial
    · show (if inserted.created then _ else _ : Program _).Only _
      split
      · refine ((Intake.only_index d _).mono fun c hc => ?_).bind fun _ => trivial
        cases hc <;> exact spares (uncounted (by rintro ⟨⟩)) fun _ => rfl
      · trivial
  · rcases of_insert hs d (i := i) with same | ⟨new, here⟩
    · rw [Call.effect, same, hx]
      exact stay
    · rw [Call.effect, here]
      exact stored (hx.symm.trans new)

/-- A sweep deletes a feed, or leaves it as it is. -/
theorem leads_sweep (coherent : ∀ u, ok u → u.before.store.Coherent)
    (own : ∀ c, counts c = true → c.Regards i) (now : Int) (stay : post x n)
    (deleted : post ⟨none, false, x.given⟩ n) :
    (Expiry.sweep now).Leads (aspect i counts) ok (fun _ => post) x n := by
  have uncounted : ∀ {c : Call}, ¬ c.Regards i → counts c = false := fun hc =>
    Bool.eq_false_iff.2 (mt (own _) hc)
  refine leads_call_of_only coherent (uncounted (by rintro ⟨⟩)) ?_ stay fun s _ hx => ?_
  · rintro (e | ids)
    · trivial
    · show (if ids.isEmpty then _ else _ : Program _).Only _
      split
      · trivial
      · exact Program.Only.bind_except
          (Program.only_perform (spares (uncounted (by rintro ⟨⟩)) fun _ => rfl))
          (fun _ => trivial) fun _ => trivial
  · rcases of_deleteExpired s now (i := i) with same | gone
    · rw [Call.effect, same, hx]
      exact stay
    · rw [Call.effect, gone, hx]
      exact deleted

/-- **Where an act can lead a feed**, unless the act processes feeds outside the two passes: it
stays where it stands, it is stored, it is deleted, its entry in the outbox is handled, or it is
tried again. -/
theorem leads_act {s : Settings} {a : Act} {α : Type} {p : Program α} (hp : a.PerformedBy s p)
    (ha : ∀ f, a ≠ .process f) (coherent : ∀ u, ok u → u.before.store.Coherent)
    (own : ∀ c, counts c = true → c.Regards i) (stay : post x n)
    (stored : ∀ d, x = ⟨none, false, false⟩ → post ⟨some (.ofDraft i d), true, true⟩ n)
    (deleted : post ⟨none, false, x.given⟩ n)
    (entry : x.waiting = true →
      (Outbox.relayOne s.topic i).Leads (aspect i counts) ok (fun _ => post) x n)
    (retried : ∀ f, x.feed = some f → f.id = i → f.processed = false → f.isSpam = false →
      f.attempts < s.pipeline.maxAttempts → x.waiting = false →
        (Processing.process s.topic f).Leads (aspect i counts) ok (fun _ => post) x n) :
    p.Leads (aspect i counts) ok (fun _ => post) x n := by
  have uncounted : ∀ {c : Call}, ¬ c.Regards i → counts c = false := fun hc =>
    Bool.eq_false_iff.2 (mt (own _) hc)
  have passive : ∀ {β : Type} {q : Program β}, q.Passive →
      q.Leads (aspect i counts) ok (fun _ => post) x n := fun hq =>
    .of_only (hq.mono fun c hc => spares (uncounted (not_regards_of_passive hc))
      (unmoved_passive hc)) fun _ => stay
  have only := hp.only
  cases hp with
  | submit y epoch =>
    show (Intake.submit y epoch).Leads _ _ _ _ _
    unfold Intake.submit
    split
    · exact stay
    · next d _ => exact leads_add coherent own d stay (stored d)
  | add d => exact leads_add coherent own d stay (stored d)
  | drain sideBySide =>
    exact leads_drain sideBySide coherent (uncounted (by rintro ⟨⟩))
      (fun _ _ hj hc => uncounted (not_regards_of_outbox hj hc)) stay entry
  | retry sideBySide =>
    exact leads_retry sideBySide coherent (uncounted (by rintro ⟨⟩))
      (fun _ _ hf hc => uncounted (not_regards_of_processing hf hc)) stay retried
  | process f => exact absurd rfl (ha f)
  | sweep now => exact leads_sweep coherent own now stay deleted
  | _ => exact passive only

end Standing
end NotificationRelay
