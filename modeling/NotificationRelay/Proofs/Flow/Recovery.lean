/-
# After an outage of the watermark

While the watermark cannot be reached, feeds are left for the retry passes, which take the
newest first. The newest of them raises the watermark to its epoch, and what is older is
then skipped and marked as processed. So retrying settles everything that an outage held
back (`History.outage_settled`), and hands over what has the greatest epoch; when feeds are
processed one after another everything else is lost for the topic
(`Recovery.quiet_of_passes`).
-/
import NotificationRelay.Proofs.Feed.Contents
import NotificationRelay.Proofs.Flow.Ledger
import NotificationRelay.Proofs.Flow.Settling

namespace NotificationRelay

/-- Whether a call hands over a message of an epoch below another. -/
def Call.postsBelow (epoch : Int) : Call → Bool
  | .post m => decide (m.epoch < epoch)
  | _ => false

/-- No feed is let through but the given ones, with their epochs. -/
def Turn.Reserved (feeds : List Feed) (t : Turn) : Prop :=
  ∀ i e, t.passed? = some (i, e) → ∃ f ∈ feeds, f.id = i ∧ f.epoch = e

/-- A feed that was left behind by its first processing because the watermark, which lies
below it, could not be reached. -/
structure Store.HeldBack (s : Store) (f : Feed) : Prop where
  stored : f ∈ s.feeds
  genuine : f.isSpam = false
  todo : f.processed = false
  tried : f.attempts = 1
  dispatched : f.id ∉ s.outbox
  above : ∀ w, s.mark = some w → w < f.epoch

/-- A feed that was held back is to be tried again if more than one attempt is allowed. -/
theorem Store.HeldBack.retryable {s : Store} {f : Feed} (held : s.HeldBack f) {cap : Nat}
    (hcap : 2 ≤ cap) : s.isRetryable cap f = true := by
  have below : f.attempts < cap := by
    rw [held.tried]
    omega
  simp [Store.isRetryable, held.todo, held.genuine, held.dispatched, below]

namespace Recovery

/-- The watermark, and the messages of epochs below one. -/
def aspect (epoch : Int) : Aspect (Option Int) where
  view h := h.store.mark
  counts := Call.postsBelow epoch
  outside o := by rw [o.store_eq]

variable {t : Broadcast.Topic} {f : Feed} {fs : List Feed} {epoch : Int} {v : Option Int} {n : Nat}

/-- A call that does not belong to a broadcast changes nothing that is looked at. -/
theorem spares {c : Call} (hc : c.broadcasts = false) : (aspect epoch).Spares c := by
  constructor
  · cases c <;> first | rfl | cases hc
  · intro outages h
    exact c.mark_perform_of_other (fun i e hce => by rw [hce] at hc; cases hc) outages h

/-- A feed is refused by the watermark, or raises it to its own epoch and is handed over. -/
theorem leads_publish (on : t.enabled = true) {post : Option Int → Nat → Prop}
    (refused : ∀ w, v = some w → f.epoch < w → w ≤ epoch → post v n)
    (passed : ∀ g ∈ fs, g.id = f.id → g.epoch = f.epoch → (∀ w, v = some w → w ≤ f.epoch) →
      post (some f.epoch) (n + (decide (f.epoch < epoch)).toNat)) :
    (Broadcast.publish t f f.enriched).Leads (aspect epoch)
      (fun u => u.Clear epoch ∧ u.Reserved fs) (fun _ => post) v n := by
  have after : ∀ outages h, ¬ ((Call.advance f.id f.epoch).turn outages h).failed →
      (aspect epoch).view (Call.perform outages (.advance f.id f.epoch) h).2 =
        (h.store.advance Broadcast.watermarkKey f.epoch).2.mark := fun outages h hf =>
    congrArg Store.mark (Call.store_perform_of_not_failed _ outages h hf)
  refine Broadcast.leads_publish on (fun u ok => ok.1.reached) ?_ ?_
  · rintro outages h rfl ⟨clear, -⟩ barred
    obtain ⟨w, hw, hlt⟩ : ∃ w, h.store.mark = some w ∧ f.epoch < w := by
      simpa [Store.Admits] using barred
    rw [after outages h clear.reached, h.store.advance_snd_of_refused f.epoch (by
      rw [← Bool.not_eq_true, h.store.advance_fst_iff]
      exact barred)]
    exact refused w hw hlt (clear.admits w hw)
  · rintro outages h rfl ⟨clear, reserved⟩ admitted
    have hpass := (h.store.advance_fst_iff f.epoch).2 admitted
    rw [after outages h clear.reached, h.store.mark_advance_of_passed f.epoch hpass]
    have lets : (Call.turn (.advance f.id f.epoch) outages h).passed? = some (f.id, f.epoch) :=
      (Turn.passed?_iff ⟨outages, rfl⟩ rfl clear.reached).2 admitted
    obtain ⟨g, hg, hid, he⟩ := reserved _ _ lets
    rintro outages' h' hv -
    have same : (aspect epoch).view (Call.perform outages' (.post (t.message f f.enriched)) h').2 =
        some f.epoch := hv
    rw [same]
    exact passed g hg hid he admitted

/-- Processing a feed leaves the watermark alone, or raises it to the epoch of the feed. -/
theorem leads_process (on : t.enabled = true) {post : Option Int → Nat → Prop}
    (refused : ∀ w, v = some w → f.epoch < w → w ≤ epoch → post v n)
    (passed : ∀ g ∈ fs, g.id = f.id → g.epoch = f.epoch → (∀ w, v = some w → w ≤ f.epoch) →
      post (some f.epoch) (n + (decide (f.epoch < epoch)).toNat)) :
    (Processing.process t f).Leads (aspect epoch)
      (fun u => u.Clear epoch ∧ u.Reserved fs) (fun _ => post) v n := by
  refine Program.Leads.bind (.of_only (Program.only_perform (spares rfl)) fun _ => ?_)
  refine Program.Leads.bind (.of_only ?_ fun dispatched => ?_)
  · exact (Dispatch.passive_dispatch f f.enriched).mono fun c hc =>
      spares (Call.not_broadcasts_of_passive hc)
  refine Program.Leads.bind ((leads_publish on refused passed).mono fun outcome w m here => ?_)
  have bump : (Program.perform (.bump f.id)).Only (aspect epoch).Spares :=
    Program.only_perform (spares rfl)
  refine .of_only ?_ fun _ => here
  show (if outcome = .watermarkUnavailable then _ else _ : Program _).Only _
  split
  · exact bump.bind fun _ => trivial
  · exact Program.Only.bind_except (Program.only_perform (spares rfl))
      (fun _ => bump.bind fun _ => trivial) fun _ => trivial

/-- Whether a feed has the identifier of one of the given ones. -/
def isOf (fs : List Feed) (f : Feed) : Bool := decide (f.id ∈ fs.map (·.id))

/-- What handling feeds one after another makes of the watermark: it stands at an epoch, or
none of the feeds has been one of the given ones. No message of a lower epoch is handed
over. -/
structure Raised (epoch : Int) (fs feeds : List Feed) (v : Option Int) (n : Nat)
    (w : Option Int) (m : Nat) : Prop where
  quiet : m = n
  mark : w = some epoch ∨ w = v ∧ ∀ f ∈ feeds, isOf fs f = false

/-- **The newest goes first.** One feed after another is handled, and of the given ones the
newest comes before the others, unless its epoch is on the watermark already. -/
theorem leads_forEach (on : t.enabled = true) {newest : Feed} {feeds : List Feed}
    (greatest : ∀ g ∈ fs, g.epoch ≤ newest.epoch)
    (first : v = some newest.epoch ∨ ∀ f, feeds.find? (isOf fs) = some f → f = newest) :
    (Program.forEach feeds (Processing.process t)).Leads (aspect newest.epoch)
      (fun u => u.Clear newest.epoch ∧ u.Reserved fs)
      (fun _ => Raised newest.epoch fs feeds v n) v n := by
  -- along the feeds `first` is kept: a feed that is not one of the given ones is refused, so
  -- it leaves the watermark alone, and the first of them that comes along raises it
  induction feeds generalizing v with
  | nil => exact ⟨rfl, .inr ⟨rfl, fun _ hf => (nomatch hf)⟩⟩
  | cons f rest ih =>
    have head (hof : isOf fs f = true) : v = some newest.epoch ∨ f = newest := by
      rcases first with hv | first
      · exact .inl hv
      · have found : (f :: rest).find? (isOf fs) = some f := by rw [List.find?_cons_of_pos hof]
        exact .inr (first f found)
    have one : (Processing.process t f).Leads (aspect newest.epoch)
        (fun u => u.Clear newest.epoch ∧ u.Reserved fs)
        (fun _ => Raised newest.epoch fs [f] v n) v n := by
      refine leads_process on (fun w hw older le => ?_) fun g hg hid he admitted => ?_
      · cases hof : isOf fs f with
        | false => exact ⟨rfl, .inr ⟨rfl, List.forall_mem_singleton.2 hof⟩⟩
        | true =>
          rcases head hof with hv | rfl
          · exact ⟨rfl, .inl hv⟩
          · exact absurd le (Int.not_le.2 older)
      · have same : f.epoch = newest.epoch := by
          rcases head (decide_eq_true (hid ▸ List.mem_map_of_mem hg)) with hv | rfl
          · exact Int.le_antisymm (he ▸ greatest g hg) (admitted _ hv)
          · rfl
        rw [same]
        exact ⟨by simp, .inl rfl⟩
    refine Program.Leads.bind (one.mono ?_)
    rintro result w m ⟨rfl, hw⟩
    have first' : w = some newest.epoch ∨
        ∀ g, rest.find? (isOf fs) = some g → g = newest := by
      rcases hw with hw | ⟨rfl, hof⟩
      · exact .inl hw
      · have hof := hof f (List.mem_singleton_self f)
        rcases first with hv | first
        · exact .inl hv
        · refine .inr fun g hg => first g ?_
          rw [List.find?_cons_of_neg (by simp [hof]), hg]
    refine Program.Leads.bind ((ih first').mono ?_)
    rintro results w' m ⟨rfl, hw'⟩
    refine ⟨rfl, ?_⟩
    rcases hw' with hw' | ⟨rfl, hrest⟩
    · exact .inl hw'
    · refine hw.imp_right fun ⟨same, hof⟩ => ⟨same, fun g hg => ?_⟩
      rcases List.mem_cons.1 hg with rfl | hg
      · exact hof g (List.mem_singleton_self g)
      · exact hrest g hg

/-! ## Passes that handle one feed after another -/

section Passes

variable {s : Settings} {held h h' : Hub} {ts : List Turn} {newest : Feed}

/-- When the newest feed is tried first it raises the watermark, and nothing older is handed over.
-/
theorem raised_of_retry {p : Program (Stored Retry.Report)} {result : Stored Retry.Report}
    (on : s.topic.enabled = true) (sequential : s.pipeline.concurrency = 1)
    (hp : Act.PerformedBy s .retry p) (run : p.Runs h ts result h')
    (clear : ∀ t ∈ ts, t.Clear newest.epoch) (reserved : ∀ t ∈ ts, t.Reserved fs)
    (greatest : ∀ g ∈ fs, g.epoch ≤ newest.epoch)
    (first : h.store.mark = some newest.epoch ∨
      ∀ f, (Retry.selection s h.store).find? (isOf fs) = some f → f = newest) :
    Raised newest.epoch fs (Retry.selection s h.store) h.store.mark 0 h'.store.mark
      ((aspect newest.epoch).count ts) := by
  rw [hp.eq_retry sequential] at run
  obtain ⟨u, us, results, h₁, h₂, rfl, hcall, same₁, same₂, -, hus⟩ :=
    Retry.passBy_runs run fun t ht => (clear t ht).reached
  rw [← same₁] at hus
  have leads := leads_forEach (v := h₁.store.mark) (n := 0) on greatest (same₁ ▸ first)
  have raised := leads.of_runs hus fun t ht =>
    ⟨clear t (List.mem_cons_of_mem _ ht), reserved t (List.mem_cons_of_mem _ ht)⟩
  have uncounted : (aspect newest.epoch).counts u.call = false := by
    rw [hcall]
    rfl
  rw [Aspect.count_cons, uncounted, Bool.toNat_false, same₂, ← same₁]
  exact raised

/-- What may still be tried again of the given feeds is as it was. -/
theorem mem_of_retryable {g : Feed} (on : s.topic.enabled = true)
    (passes : Retry.Passes s held n ts h) (coherent : held.store.Coherent)
    (clear : ∀ t ∈ ts, t.Clear epoch) (there : ∀ f ∈ fs, held.store.feed? f.id = some f)
    (hg : g ∈ h.store.retryable s.pipeline.maxAttempts) (hof : isOf fs g = true) : g ∈ fs := by
  obtain ⟨hmem, hretry⟩ := List.mem_filter.1 hg
  obtain ⟨f, hf, hid⟩ := List.mem_map.1 (of_decide_eq_true hof)
  have hg' : (h.store.standing f.id).feed = some g :=
    (Retry.coherent_of_passes passes coherent).feed?_eq_some_iff.2 ⟨hmem, hid.symm⟩
  rcases Retry.settled_of_passes on passes coherent clear (there f hf) with ⟨same, -⟩ | settled
  · rw [same] at hg'
    have same' : f = g := Option.some.inj ((there f hf).symm.trans hg')
    exact same' ▸ hf
  · rw [settled.not_retryable hg'] at hretry
    cases hretry

/-- **Nothing older is handed over.** Until the newest of the given feeds has raised the
watermark none of them is handled, and after that no lower epoch is let through. -/
theorem quiet_of_passes (on : s.topic.enabled = true) (sequential : s.pipeline.concurrency = 1)
    (passes : Retry.Passes s held n ts h) (coherent : held.store.Coherent)
    (clear : ∀ t ∈ ts, t.Clear newest.epoch) (reserved : ∀ t ∈ ts, t.Reserved fs)
    (there : ∀ f ∈ fs, held.store.feed? f.id = some f) (greatest : ∀ g ∈ fs, g.epoch ≤ newest.epoch)
    (hnewest : newest ∈ fs) (hretry : held.store.isRetryable s.pipeline.maxAttempts newest = true)
    (last : ∀ f ∈ fs, Store.retriesBefore f newest = true → f = newest) :
    (aspect newest.epoch).count ts = 0 ∧ (h.store.mark = some newest.epoch ∨
      h.store.standing newest.id = held.store.standing newest.id) := by
  have listed : isOf fs newest = true := decide_eq_true (List.mem_map_of_mem hnewest)
  -- as long as the watermark has not been raised the newest stands as it was held back, so it
  -- may still be tried again and is met first
  induction passes with
  | start => exact ⟨rfl, .inr rfl⟩
  | @pass n p result ts us h h' before hp run ih =>
    have clear₁ : ∀ t ∈ ts, t.Clear newest.epoch := fun t ht => clear t (List.mem_append_left _ ht)
    have clear₂ : ∀ t ∈ us, t.Clear newest.epoch := fun t ht => clear t (List.mem_append_right _ ht)
    obtain ⟨quiet, stands⟩ := ih clear₁ fun t ht => reserved t (List.mem_append_left _ ht)
    have coherent' := Retry.coherent_of_passes before coherent
    have first : h.store.mark = some newest.epoch ∨
        ∀ f, (Retry.selection s h.store).find? (isOf fs) = some f → f = newest := by
      refine stands.imp_right fun same f hf => ?_
      have tried := Retry.mem_retryable_of_standing same (there newest hnewest) hretry
      refine Store.find?_candidates tried listed (fun g hg hof => ?_) hf
      exact last g (mem_of_retryable on before coherent clear₁ there hg hof)
    have raised := raised_of_retry on sequential hp run clear₂
      (fun t ht => reserved t (List.mem_append_right _ ht)) greatest first
    refine ⟨by rw [Aspect.count_append, quiet, raised.quiet], ?_⟩
    rcases raised.mark with hmark | ⟨same, absent⟩
    · exact .inl hmark
    · rw [same]
      refine stands.imp_right fun stands => ?_
      have handles := Retry.handles_of_retry on hp run coherent' clear₂
      refine (handles.spared newest.id fun f hf hid => ?_).1.trans stands
      have := absent f hf
      rw [isOf, hid, ← isOf, listed] at this
      cases this

/-- If nothing older has been handed over, nothing that was handed over is older. -/
theorem epoch_le_of_handed {i : FeedId} {m : Broadcast.Message}
    (quiet : (aspect epoch).count ts = 0) (hm : m ∈ handed i ts) : epoch ≤ m.epoch := by
  obtain ⟨-, t, ht, hcall⟩ := call_of_mem_handed hm
  have low := List.countP_eq_zero.1 quiet t ht
  rw [hcall] at low
  simpa [aspect, Call.postsBelow] using low

/-- What is admitted at first and not below the given feeds is admitted throughout. -/
theorem clear_of_passes (passes : Retry.Passes s held n ts h) (coherent : held.store.Coherent)
    (healthy : ∀ t ∈ ts, ¬ t.failed) (reserved : ∀ t ∈ ts, t.Reserved fs)
    (greatest : ∀ g ∈ fs, g.epoch ≤ epoch) (admits : held.store.Admits epoch) :
    ∀ t ∈ ts, t.Clear epoch := by
  have coherent' := (passes.history.coherent coherent).2
  have admitted := passes.history.chain.admits (fun t ht i e hpass => ?_) admits
  · exact fun t ht => ⟨(coherent' t ht).1, healthy t ht, admitted.1 t ht⟩
  · obtain ⟨g, hg, -, rfl⟩ := reserved t ht i e hpass
    exact greatest g hg

end Passes

/-- Of feeds in the order of their epochs the last has the greatest. -/
theorem exists_newest (ordered : fs.Pairwise fun f g => f.id < g.id ∧ f.epoch ≤ g.epoch)
    (some : fs ≠ []) : ∃ newest ∈ fs,
      ∀ f ∈ fs, f = newest ∨ f.id < newest.id ∧ f.epoch ≤ newest.epoch := by
  rcases fs.eq_nil_or_concat with rfl | ⟨older, newest, rfl⟩
  · exact absurd rfl some
  · rw [List.concat_eq_append, List.pairwise_append] at *
    refine ⟨newest, List.mem_append_right _ (List.mem_singleton_self _), fun f hf => ?_⟩
    rcases List.mem_append.1 hf with hf | hf
    · exact .inr (ordered.2.2 f hf newest (List.mem_singleton_self _))
    · exact .inl (List.mem_singleton.1 hf)

end Recovery

namespace History

variable {s : Settings} {allowed : Act → Prop} {start held h : Hub} {us ts : List Turn} {n : Nat}
  {fs : List Feed}

/-- Where only the watermark is out of reach, a feed that has been tried has left the
outbox. -/
theorem dispatched_of_outage {f : Feed}
    (hist : History s (fun a => ∀ g, a ≠ .process g) start us held)
    (empty : start.store = Store.empty) (cap : 1 ≤ s.pipeline.maxAttempts)
    (bound : s.pipeline.maxAttempts ≤ Feed.maxAttempts)
    (outage : ∀ t ∈ us, t.failed → ∃ i e, t.call = .advance i e) (hf : f ∈ held.store.feeds)
    (tried : f.attempts = 1) : f.id ∉ held.store.outbox := by
  intro waits
  obtain ⟨coherent, -⟩ := hist.coherent (empty ▸ Store.coherent_empty)
  have there : (held.store.standing f.id).feed = some f := coherent.feed?_eq_some_iff.2 ⟨hf, rfl⟩
  have spared : ∀ t ∈ us, (∀ i e, t.call ≠ .advance i e) → ¬ t.failed := by
    intro t ht other hfailed
    obtain ⟨i, e, he⟩ := outage t ht hfailed
    exact other i e he
  have bounded := hist.bounded (i := f.id) empty cap bound
    (fun t ht j hj _ => spared t ht fun i e he => by rw [hj] at he; cases he)
    (fun t ht j hj => spared t ht fun i e he => by rw [hj] at he; cases he)
  have none := bounded.untried f there (List.contains_iff_mem.2 waits)
  have counted := bounded.counted f there
  omega

/-- **Recovery from an outage of the watermark.** Feeds were stored in the order of their
epochs and left behind by their first processing. If from then on no call fails and no other
feed is let through, then as many retry passes as there are feeds to try again leave
nothing to select; and once nothing is selected each of the feeds is marked as processed, with
its payload stamped, and one message that carries it has been handed over, or none because one of
greater epoch went first. When feeds are processed one after another, the messages handed over are
exactly those of the greatest epoch. -/
theorem outage_settled (before : History s allowed start us held)
    (empty : start.store = Store.empty) (on : s.topic.enabled = true)
    (cap : 2 ≤ s.pipeline.maxAttempts) (batch : 1 ≤ s.pipeline.retryBatchSize)
    (left : ∀ f ∈ fs, held.store.HeldBack f)
    (ordered : fs.Pairwise fun f g => f.id < g.id ∧ f.epoch ≤ g.epoch)
    (passes : Retry.Passes s held n ts h) (healthy : ∀ t ∈ ts, ¬ t.failed)
    (reserved : ∀ t ∈ ts, t.Reserved fs) :
    ((held.store.retryable s.pipeline.maxAttempts).length ≤ n →
      Retry.selection s h.store = []) ∧
    (Retry.selection s h.store = [] → ∀ f ∈ fs,
      (∃ payload, f.payload.Stamped f.id f.epoch payload ∧
        h.store.feed? f.id = some { f with processed := true, payload := payload }) ∧
      (s.topic.Sends f (handed f.id ts) ∨ handed f.id ts = [] ∧ ∃ g ∈ fs, f.epoch < g.epoch) ∧
      (s.pipeline.concurrency = 1 →
        (s.topic.Sends f (handed f.id ts) ↔ ∀ g ∈ fs, g.epoch ≤ f.epoch))) := by
  have coherent : held.store.Coherent := (before.coherent (empty ▸ Store.coherent_empty)).1
  have there : ∀ f ∈ fs, held.store.feed? f.id = some f := fun f hf =>
    coherent.feed?_eq_some_iff.2 ⟨(left f hf).stored, rfl⟩
  by_cases some : fs = []
  · subst some
    have admits : held.store.Admits (held.store.mark.getD 0) := fun w hw => by
      rw [hw]
      exact Int.le_refl w
    have clear := Recovery.clear_of_passes passes coherent healthy reserved (by simp) admits
    exact ⟨Retry.selection_of_passes on batch passes coherent clear, fun _ f hf => (nomatch hf)⟩
  obtain ⟨newest, hnewest, order⟩ := Recovery.exists_newest ordered some
  have greatest : ∀ f ∈ fs, f.epoch ≤ newest.epoch := fun f hf => by
    rcases order f hf with rfl | ⟨-, hle⟩
    · exact Int.le_refl _
    · exact hle
  have clear := Recovery.clear_of_passes passes coherent healthy reserved greatest
    fun w hw => Int.le_of_lt ((left newest hnewest).above w hw)
  refine ⟨Retry.selection_of_passes on batch passes coherent clear, fun none f hf => ?_⟩
  have retryable := (left f hf).retryable cap
  have nothing : h.store.retryable s.pipeline.maxAttempts = [] :=
    (Store.candidates_eq_nil_iff _ _ batch).1 none
  rcases Retry.settled_of_passes on passes coherent clear (there f hf) with ⟨same, -⟩ | settled
  · have stuck := Retry.mem_retryable_of_standing same (there f hf) retryable
    rw [nothing] at stuck
    cases stuck
  have sends : handed f.id ts = [s.topic.message f f.enriched] →
      s.topic.Sends f (handed f.id ts) := fun sent => sent ▸ s.topic.sends_message f
  refine ⟨⟨_, f.payload.stamped_enrich f.id f.epoch, settled.feed_eq⟩, ?_,
    fun sequential => ⟨fun ⟨m, sent, carries⟩ g hg => ?_, fun highest => ?_⟩⟩
  · exact settled.messages.imp sends fun ⟨unsent, lower⟩ => ⟨unsent, newest, hnewest, lower⟩
  · have last : ∀ g ∈ fs, Store.retriesBefore g newest = true → g = newest := by
      intro g hg hbefore
      rcases order g hg with rfl | ⟨hid, -⟩
      · rfl
      · simp only [Store.retriesBefore, (left g hg).tried, (left newest hnewest).tried,
          Bool.or_eq_true, Bool.and_eq_true, decide_eq_true_eq] at hbefore
        lia
    have quiet := (Recovery.quiet_of_passes on sequential passes coherent clear reserved there
      greatest hnewest ((left newest hnewest).retryable cap) last).1
    have among : m ∈ handed f.id ts := sent ▸ List.mem_singleton_self _
    have high : newest.epoch ≤ m.epoch := Recovery.epoch_le_of_handed quiet among
    rw [carries.epoch] at high
    exact Int.le_trans (greatest g hg) high
  · rcases settled.messages with sent | ⟨-, lower⟩
    · exact sends sent
    · exact absurd (highest newest hnewest) (Int.not_le.2 lower)

/-- Two feeds in the order of their epochs whose first processing fell into an outage. -/
def heldBack : Hub :=
  ((Outbox.drain oneByOne.topic 100).run .ofWatermark
    ((Intake.add (.sample "q" ["solana:alice"] 2)).run .none
      ((Intake.add (.sample "p" ["solana:alice"] 1)).run .none .sample).2).2).2

/-- The newer and then the older of them processed again. -/
def again : Program (List (Except FeedError Processing.Report)) :=
  Program.forEach heldBack.store.feeds.reverse (Processing.process oneByOne.topic)

/-- The hub after the retry pass that follows the outage. -/
def recovered : Hub := (again.run .none heldBack).2

/-- The calls of this pass. -/
def recovery : List Turn :=
  (Call.candidates 3 50).turn .none heldBack :: again.turns .none heldBack

/-- The two feeds were held back in a history. -/
theorem history_heldBack : ∃ ts, History oneByOne (fun _ => True) .sample ts heldBack :=
  ⟨_, ((History.start.andThen trivial (.add _) .none).andThen trivial (.add _) .none).andThen
    trivial (Act.performedBy_drain (by decide)) .ofWatermark⟩

/-- Of the two feeds the newer is tried first. -/
theorem candidates_heldBack : heldBack.store.candidates 3 50 = heldBack.store.feeds.reverse := by
  obtain ⟨_, hist⟩ := history_heldBack
  exact (hist.coherent Store.coherent_empty).1.candidates_eq_reverse (by decide +kernel)
    (by decide +kernel) (by decide +kernel)

/-- One pass tries both. -/
theorem passes_recovery : Retry.Passes oneByOne heldBack 1 recovery recovered :=
  .pass .start (Act.performedBy_retry (by decide))
    (Retry.runs_passBy candidates_heldBack (again.runs_run .none heldBack))

/-- No call of that pass fails. -/
theorem healthy_recovery : ∀ t ∈ recovery, ¬ t.failed := by
  intro t ht hfailed
  rcases List.mem_cons.1 ht with rfl | ht
  · obtain ⟨_, ho⟩ := Call.outage_of_failed _ _ _ hfailed
    cases ho
  · exact Program.not_failed_of_mem_turns ht hfailed

/-- After that pass nothing is left to be tried. -/
theorem selection_recovered : Retry.selection oneByOne recovered.store = [] := by
  refine (Store.candidates_eq_nil_iff _ 3 (by decide)).2 (List.eq_nil_of_length_eq_zero ?_)
  decide +kernel

/-- **An outage loses the older feed.** Both are left behind and the watermark is below both,
yet a healthy pass settles them with a single message, that of the newer. -/
theorem older_lost_of_heldBack :
    (heldBack.store.feeds.map fun f => (f.id, f.epoch, f.attempts, f.processed, f.isSpam)) =
        [(1, 1, 1, false, false), (2, 2, 1, false, false)] ∧
      heldBack.store.outbox = [] ∧ heldBack.store.mark = none ∧
      Retry.Passes oneByOne heldBack 1 recovery recovered ∧ (∀ t ∈ recovery, ¬ t.failed) ∧
      Retry.selection oneByOne recovered.store = [] ∧
      (recovery.filterMap Turn.posted?).map (·.id) = [2] ∧
      (recovered.store.feeds.map fun f => (f.id, f.processed)) = [(1, true), (2, true)] :=
  ⟨by decide +kernel, by decide +kernel, by decide +kernel, passes_recovery, healthy_recovery,
    selection_recovered, by decide +kernel, by decide +kernel⟩

/-- Both are settled, and the message of the one with the greatest epoch is handed over. -/
theorem outage_settled_of_heldBack :
    Retry.selection oneByOne recovered.store = [] ∧
      ∀ f ∈ heldBack.store.feeds,
        (∃ payload, f.payload.Stamped f.id f.epoch payload ∧
          recovered.store.feed? f.id = some { f with processed := true, payload := payload }) ∧
        (oneByOne.topic.Sends f (handed f.id recovery) ↔
          ∀ g ∈ heldBack.store.feeds, g.epoch ≤ f.epoch) := by
  obtain ⟨_, before⟩ := history_heldBack
  have marks : (heldBack.store.feeds.all fun f => !f.isSpam && !f.processed &&
      decide (f.attempts = 1) && !heldBack.store.outbox.contains f.id) = true := by decide +kernel
  have unmarked : heldBack.store.mark = none := by decide +kernel
  have left : ∀ f ∈ heldBack.store.feeds, heldBack.store.HeldBack f := fun f hf => by
    have := List.all_eq_true.1 marks f hf
    simp only [Bool.and_eq_true, Bool.not_eq_true', decide_eq_true_eq] at this
    obtain ⟨⟨⟨genuine, todo⟩, tried⟩, out⟩ := this
    exact ⟨hf, genuine, todo, tried, by simpa using out, fun w hw => by simp [unmarked] at hw⟩
  have passed : ((recovery.filterMap Turn.passed?).all fun r =>
      heldBack.store.feeds.any fun f => decide (f.id = r.1 ∧ f.epoch = r.2)) = true := by
    decide +kernel
  have reserved : ∀ t ∈ recovery, t.Reserved heldBack.store.feeds := fun t ht i e hpass => by
    have := List.all_eq_true.1 passed (i, e) (List.mem_filterMap.2 ⟨t, ht, hpass⟩)
    simpa using this
  have settled := (outage_settled before rfl rfl (by decide) (by decide) left (by decide +kernel)
    passes_recovery healthy_recovery reserved).2 selection_recovered
  exact ⟨selection_recovered, fun f hf => ⟨(settled f hf).1, (settled f hf).2.2 rfl⟩⟩

end History
end NotificationRelay
