/-
# How often a feed is processed

The calls of a feed that are noted as its processing begins are counted here and
compared with what the store knows of the feed. What any act can do to a feed is one of
a few steps of its standing (`Standing.Step`): it is stored, it leaves the outbox, with or
without having been tried, it is tried again, or it is deleted. That holds for either pass
however the feeds of a batch take turns, since none of them touches the standing of
another (`Standing.unmoved_outbox`).

From the steps two invariants follow. Whatever fails, the count of attempts and the mark
of completion account for every processing (`Standing.Accounted`). If moreover no
acknowledgement is lost, no feed is processed before it leaves the outbox, more often than
the cap of attempts allows, or a second time if it is spam (`Standing.Bounded`).
-/
import NotificationRelay.Proofs.Flow.Acts

namespace NotificationRelay

/-- Whether a call notes that the processing of a feed begins. -/
def Call.begins (i : FeedId) : Call → Bool
  | .note j => decide (j = i)
  | _ => false

namespace Standing

/-- The standing of a feed, and how often its processing begins. -/
abbrev tally (i : FeedId) : Aspect Standing := aspect i (Call.begins i)

/-- A feed before and after it has been processed. -/
inductive Tried (f : Feed) : Feed → Prop
  | bumped : Tried f f.bumped
  | completed : Tried f (f.completed f.enriched)

/-- What one act can do to the standing of a feed and to the number of times it has been
processed, under a cap of attempts. An entry that is tried stays in the outbox only if its
acknowledgement may be lost. -/
inductive Step (cap : Nat) (lossy : Prop) : Standing → Nat → Standing → Nat → Prop
  | stay (x : Standing) (n : Nat) : Step cap lossy x n x n
  | stored (i : FeedId) (d : Draft) (n : Nat) :
      Step cap lossy ⟨none, false, false⟩ n ⟨some (.ofDraft i d), true, true⟩ n
  | dropped {x : Standing} (n : Nat) (done : ∀ f, x.feed = some f → f.processed = true) :
      Step cap lossy x n { x with waiting := false } n
  | relayed {x : Standing} {f g : Feed} (n : Nat) (hx : x.feed = some f)
      (waits : x.waiting = true) (todo : f.processed = false) (tried : Tried f g) :
      Step cap lossy x n ⟨some g, false, x.given⟩ (n + 1)
  | stuck {x : Standing} {f g : Feed} (n : Nat) (loss : lossy) (hx : x.feed = some f)
      (waits : x.waiting = true) (todo : f.processed = false) (tried : Tried f g) :
      Step cap lossy x n ⟨some g, true, x.given⟩ (n + 1)
  | retried {x : Standing} {f g : Feed} (n : Nat) (hx : x.feed = some f)
      (out : x.waiting = false) (todo : f.processed = false) (genuine : f.isSpam = false)
      (below : f.attempts < cap) (tried : Tried f g) :
      Step cap lossy x n ⟨some g, false, x.given⟩ (n + 1)
  | deleted (x : Standing) (n : Nat) : Step cap lossy x n ⟨none, false, x.given⟩ n

/-! ## What a step preserves -/

/-- The marks of a feed account for every processing, as long as attempts are counted. -/
structure Accounted (x : Standing) (n : Nat) : Prop where
  fresh : x.given = false → x.feed = none ∧ x.waiting = false ∧ n = 0
  counted : ∀ f, x.feed = some f → f.attempts < Feed.maxAttempts →
    n = f.attempts + f.processed.toNat

/-- The marks of a feed account for every processing, and there are not too many. -/
structure Bounded (cap : Nat) (x : Standing) (n : Nat) : Prop where
  fresh : x.given = false → x.feed = none ∧ x.waiting = false ∧ n = 0
  untried : ∀ f, x.feed = some f → x.waiting = true → n = 0
  counted : ∀ f, x.feed = some f → n = f.attempts + f.processed.toNat
  capped : ∀ f, x.feed = some f → n ≤ cap
  once : ∀ f, x.feed = some f → f.isSpam = true → n ≤ 1

/-- Processing an unprocessed feed adds one to its marks, up to the greatest count. -/
theorem Tried.marks {f g : Feed} (h : Tried f g) (todo : f.processed = false)
    (below : f.attempts < Feed.maxAttempts) :
    g.attempts + g.processed.toNat = f.attempts + 1 := by
  cases h with
  | bumped =>
    show min (f.attempts + 1) Feed.maxAttempts + f.processed.toNat = _
    rw [todo, Bool.toNat_false]
    omega
  | completed => rfl

/-- A feed with attempts left after being tried had some left before. -/
theorem Tried.attempts_le {f g : Feed} (h : Tried f g) (hg : g.attempts < Feed.maxAttempts) :
    f.attempts < Feed.maxAttempts := by
  cases h with
  | bumped =>
    have : min (f.attempts + 1) Feed.maxAttempts < Feed.maxAttempts := hg
    omega
  | completed => exact hg

/-- Being tried does not make a feed spam. -/
theorem Tried.isSpam_eq {f g : Feed} (h : Tried f g) : g.isSpam = f.isSpam := by
  cases h <;> rfl

/-- What is accounted for is so after one more step. -/
theorem Accounted.step {cap : Nat} {lossy : Prop} {x y : Standing} {n m : Nat}
    (hx : Accounted x n) (hs : Step cap lossy x n y m) : Accounted y m := by
  -- a feed that is tried had been given its identifier, and its marks go up by one
  have tried : ∀ {f g : Feed} {waiting : Bool}, x.feed = some f → f.processed = false →
      Tried f g → Accounted ⟨some g, waiting, x.given⟩ (n + 1) := by
    intro f g waiting hf todo ht
    refine ⟨fun hgiven => ?_, fun g' hg' hlt => ?_⟩
    · rw [(hx.fresh hgiven).1] at hf
      cases hf
    · obtain rfl : g = g' := Option.some.inj hg'
      have below := ht.attempts_le hlt
      have before := hx.counted f hf below
      have after := ht.marks todo below
      rw [todo, Bool.toNat_false] at before
      omega
  cases hs with
  | stay => exact hx
  | stored i d =>
    refine ⟨nofun, fun f hf _ => ?_⟩
    obtain rfl : Feed.ofDraft i d = f := Option.some.inj hf
    exact (hx.fresh rfl).2.2
  | dropped => exact ⟨fun hgiven => ⟨(hx.fresh hgiven).1, rfl, (hx.fresh hgiven).2.2⟩, hx.counted⟩
  | relayed _ hf _ todo ht => exact tried hf todo ht
  | stuck _ _ hf _ todo ht => exact tried hf todo ht
  | retried _ hf _ todo _ _ ht => exact tried hf todo ht
  | deleted =>
    exact ⟨fun hgiven => ⟨rfl, rfl, (hx.fresh hgiven).2.2⟩, fun _ hf => (nomatch hf)⟩

/-- What keeps to the cap does so after one more step, if nothing is lost. -/
theorem Bounded.step {cap : Nat} {x y : Standing} {n m : Nat} (h1 : 1 ≤ cap)
    (hcap : cap ≤ Feed.maxAttempts) (hx : Bounded cap x n) (hs : Step cap False x n y m) :
    Bounded cap y m := by
  have tried : ∀ {f g : Feed}, x.feed = some f → f.processed = false → n < cap →
      (f.isSpam = true → n = 0) → Tried f g → Bounded cap ⟨some g, false, x.given⟩ (n + 1) := by
    intro f g hf todo hn hspam ht
    have before := hx.counted f hf
    rw [todo, Bool.toNat_false] at before
    have after := ht.marks todo (by omega)
    refine ⟨fun hgiven => ?_, fun _ _ hw => (nomatch hw), fun g' hg' => ?_, fun _ _ => hn,
      fun g' hg' hs => ?_⟩
    · rw [(hx.fresh hgiven).1] at hf
      cases hf
    · obtain rfl : g = g' := Option.some.inj hg'
      omega
    · obtain rfl : g = g' := Option.some.inj hg'
      have none := hspam (ht.isSpam_eq ▸ hs)
      omega
  cases hs with
  | stay => exact hx
  | stored i d =>
    obtain ⟨-, -, rfl⟩ := hx.fresh rfl
    refine ⟨nofun, fun _ _ _ => rfl, fun f hf => ?_,
      fun _ _ => Nat.zero_le _, fun _ _ _ => Nat.zero_le _⟩
    obtain rfl : Feed.ofDraft i d = f := Option.some.inj hf
    rfl
  | dropped =>
    exact ⟨fun hgiven => ⟨(hx.fresh hgiven).1, rfl, (hx.fresh hgiven).2.2⟩,
      fun _ _ hw => (nomatch hw), hx.counted, hx.capped, hx.once⟩
  | relayed _ hf waits todo ht =>
    have none := hx.untried _ hf waits
    exact tried hf todo (by omega) (fun _ => none) ht
  | stuck _ loss => exact loss.elim
  | @retried x f g _ hf _ todo genuine below ht =>
    have before := hx.counted f hf
    rw [todo, Bool.toNat_false] at before
    exact tried hf todo (by omega) (fun hs => by rw [genuine] at hs; cases hs) ht
  | deleted =>
    exact ⟨fun hgiven => ⟨rfl, rfl, (hx.fresh hgiven).2.2⟩, fun _ hf => (nomatch hf),
      fun _ hf => (nomatch hf), fun _ hf => (nomatch hf), fun _ hf => (nomatch hf)⟩

/-! ## Calls that are not counted -/

variable {i : FeedId}

/-- A passive call does not begin to process a feed. -/
theorem begins_of_passive {c : Call} (hc : c.isPassive = true) : c.begins i = false := by
  cases c <;> first | rfl | cases hc

/-- The calls of a broadcast do not begin to process a feed. -/
theorem begins_of_broadcast {t : Broadcast.Topic} {f : Feed} {c : Call}
    (hc : Broadcast.Makes t f c) : c.begins i = false := by
  cases hc <;> rfl

/-- A call that begins to process a feed regards it. -/
theorem regards_of_begins {c : Call} (hc : c.begins i = true) : c.Regards i := by
  cases c with
  | note j =>
    obtain rfl := of_decide_eq_true hc
    exact .note
  | _ => cases hc

/-- A passive call makes no difference to the tally. -/
theorem spares_passive {c : Call} (hc : c.isPassive = true) : (tally i).Spares c :=
  spares (begins_of_passive hc) (unmoved_passive hc)

/-! ## What an act does to a standing -/

/-- A turn on a coherent store that loses no attempt of a stored feed, and no
acknowledgement unless such losses may occur. -/
structure Fair (lossy : Prop) (t : Turn) : Prop where
  coherent : t.before.store.Coherent
  bumped : ∀ j, t.call = .bump j → (t.before.store.feed? j).isSome → ¬ t.failed
  acknowledged : ∀ j, t.call = .acknowledge j → t.failed → lossy

section Leads

variable {cap : Nat} {lossy : Prop} {x : Standing} {n : Nat} {α : Type}

/-- An attempt is counted in the tally. -/
theorem leads_bump {f : Feed} (hf : x.feed = some f) {post : α → Standing → Nat → Prop}
    {next : Stored Unit → Program α}
    (hnext : ∀ a, (next a).Leads (tally i) (Fair lossy) post
      { x with feed := some f.bumped } n) :
    (Program.call (.bump i) next).Leads (tally i) (Fair lossy) post x n := by
  refine leads_call rfl (fun outages h hx hfair hfailed => ?_) fun outages h hx _ _ => ?_
  · have there : h.store.feed? i = some f := by rw [← hf, ← hx]; rfl
    exact absurd hfailed (hfair.bumped i rfl (by rw [Call.turn, there]; rfl))
  · subst hx
    rw [Call.effect, Store.bump, of_update hf Feed.bumped fun _ => rfl]
    exact hnext _

/-- Processing a feed that is stored tries it once. -/
theorem leads_process {t : Broadcast.Topic} {f : Feed} (hf : x.feed = some f) (hid : f.id = i)
    {post : Standing → Nat → Prop}
    (hpost : ∀ g, Tried f g → post { x with feed := some g } (n + 1)) :
    (Processing.process t f).Leads (tally i) (Fair lossy) (fun _ => post) x n := by
  subst hid
  refine leads_counted (decide_eq_true rfl) (fun _ => rfl) fun _ => ?_
  show ((Dispatch.dispatch f f.enriched).bind _).Leads _ _ _ _ _
  refine Program.Leads.bind (.of_only ?_ fun dispatched => ?_)
  · exact (Dispatch.passive_dispatch f f.enriched).mono fun c => spares_passive
  refine Program.Leads.bind (.of_only ?_ fun outcome => ?_)
  · exact (Broadcast.only_publish t f).mono fun c hc =>
      spares (begins_of_broadcast hc) (unmoved_broadcast hc)
  show (if outcome = .watermarkUnavailable then _ else _ : Program _).Leads _ _ _ _ _
  split
  · exact leads_bump hf fun _ => hpost _ .bumped
  · refine leads_complete rfl hf (fun e _ _ _ _ => ?_) (hpost _ .completed)
    exact leads_bump hf fun _ => hpost _ .bumped

/-- An entry of the outbox is dropped, tried and dropped, or left. -/
theorem step_relayOne (t : Broadcast.Topic) (waits : x.waiting = true) :
    (Outbox.relayOne t i).Leads (tally i) (Fair lossy) (fun _ => Step cap lossy x n) x n := by
  refine leads_relayOne rfl (fun _ _ _ => .stay x n) (fun done => ?_) fun f hf hid todo => ?_
  · exact leads_acknowledge rfl (fun _ _ _ _ => .stay x n) (.dropped n done)
  · refine leads_process hf hid fun g tried => ?_
    refine leads_acknowledge rfl (fun u fair hu failed => ?_) (.relayed n hf waits todo tried)
    exact waits ▸ .stuck n (fair.acknowledged i hu failed) hf waits todo tried

/-- **What an act does to a feed is one step**, unless the act processes feeds outside the
two passes. -/
theorem step_act {s : Settings} {a : Act} {p : Program α} (hp : a.PerformedBy s p)
    (ha : ∀ f, a ≠ .process f) :
    p.Leads (tally i) (Fair lossy) (fun _ => Step s.pipeline.maxAttempts lossy x n) x n := by
  refine leads_act hp ha (fun _ fair => fair.coherent) (fun _ => regards_of_begins) (.stay x n)
    (fun d new => ?_) (.deleted x n) (step_relayOne s.topic)
    fun f hf hid todo genuine below out => leads_process hf hid fun g tried => ?_
  · rw [new]
    exact .stored i d n
  · exact out ▸ .retried n hf out todo genuine below tried

end Leads

end Standing

/-- How often the processing of a feed began in a series of calls. -/
def processings (i : FeedId) (ts : List Turn) : Nat := ts.countP fun t => t.call.begins i

namespace History

variable {s : Settings} {start h : Hub} {ts : List Turn}

/-- What every step of a standing preserves every history preserves. -/
theorem standing_keeps {lossy : Prop} {i : FeedId} (inv : Standing → Nat → Prop)
    (hist : History s (fun a => ∀ f, a ≠ .process f) start ts h)
    (fair : ∀ t ∈ ts, Standing.Fair lossy t)
    (step : ∀ x n y m, inv x n → Standing.Step s.pipeline.maxAttempts lossy x n y m → inv y m)
    (hs : inv (start.store.standing i) 0) : inv (h.store.standing i) (processings i ts) := by
  induction hist with
  | start => exact hs
  | @act a _ p _ ts us h h' _ ha hp run ih =>
    have before := ih fun t ht => fair t (List.mem_append_left _ ht)
    have leads : p.Leads (Standing.tally i) (Standing.Fair lossy) _ (h.store.standing i)
        (processings i ts) := Standing.step_act hp ha
    have after := leads.of_runs run fun t ht => fair t (List.mem_append_right _ ht)
    have total : processings i (ts ++ us) = processings i ts + (Standing.tally i).count us :=
      List.countP_append
    rw [total]
    exact step _ _ _ _ before after
  | outside _ o ih =>
    rw [o.store_eq]
    exact ih fair

/-- As long as every attempt of a stored feed is counted, the marks of a feed account for
every processing. -/
theorem accounted {i : FeedId} (hist : History s (fun a => ∀ g, a ≠ .process g) start ts h)
    (empty : start.store = Store.empty)
    (bumped : ∀ t ∈ ts, ∀ j, t.call = .bump j → (t.before.store.feed? j).isSome → ¬ t.failed) :
    Standing.Accounted (h.store.standing i) (processings i ts) := by
  obtain ⟨-, turns⟩ := hist.coherent (by rw [empty]; exact Store.coherent_empty)
  have fair : ∀ t ∈ ts, Standing.Fair True t := fun t ht =>
    ⟨(turns t ht).1, bumped t ht, fun _ _ _ => trivial⟩
  refine hist.standing_keeps Standing.Accounted fair (fun _ _ _ _ => Standing.Accounted.step) ?_
  rw [empty]
  exact ⟨fun _ => ⟨rfl, rfl, rfl⟩, fun _ hf => (nomatch hf)⟩

/-- If moreover no acknowledgement fails, no feed is processed too often. -/
theorem bounded {i : FeedId} (hist : History s (fun a => ∀ g, a ≠ .process g) start ts h)
    (empty : start.store = Store.empty) (one : 1 ≤ s.pipeline.maxAttempts)
    (bound : s.pipeline.maxAttempts ≤ Feed.maxAttempts)
    (bumped : ∀ t ∈ ts, ∀ j, t.call = .bump j → (t.before.store.feed? j).isSome → ¬ t.failed)
    (acknowledged : ∀ t ∈ ts, ∀ j, t.call = .acknowledge j → ¬ t.failed) :
    Standing.Bounded s.pipeline.maxAttempts (h.store.standing i) (processings i ts) := by
  obtain ⟨-, turns⟩ := hist.coherent (by rw [empty]; exact Store.coherent_empty)
  have fair : ∀ t ∈ ts, Standing.Fair False t := fun t ht =>
    ⟨(turns t ht).1, bumped t ht, acknowledged t ht⟩
  refine hist.standing_keeps (Standing.Bounded s.pipeline.maxAttempts) fair
    (fun _ _ _ _ => Standing.Bounded.step one bound) ?_
  rw [empty]
  exact ⟨fun _ => ⟨rfl, rfl, rfl⟩, fun _ hf => (nomatch hf), fun _ hf => (nomatch hf),
    fun _ hf => (nomatch hf), fun _ hf => (nomatch hf)⟩

/-- **The delivery ledger.** Whatever else fails, as long as every attempt of a stored feed
is counted, a feed has been processed once for each attempt, and once more if it is marked
as processed. If moreover no acknowledgement fails, then it has not been processed while it
waits in the outbox, never more often than the cap allows, and at most once if it is
spam. -/
theorem processings_accounted {f : Feed}
    (hist : History s (fun a => ∀ g, a ≠ .process g) start ts h)
    (empty : start.store = Store.empty)
    (bumped : ∀ t ∈ ts, ∀ j, t.call = .bump j → (t.before.store.feed? j).isSome → ¬ t.failed)
    (hf : f ∈ h.store.feeds) :
    (f.attempts < Feed.maxAttempts →
      processings f.id ts = f.attempts + f.processed.toNat) ∧
    (1 ≤ s.pipeline.maxAttempts → s.pipeline.maxAttempts ≤ Feed.maxAttempts →
      (∀ t ∈ ts, ∀ j, t.call = .acknowledge j → ¬ t.failed) →
        (f.id ∈ h.store.outbox → processings f.id ts = 0) ∧
        processings f.id ts ≤ s.pipeline.maxAttempts ∧
        (f.isSpam = true → processings f.id ts ≤ 1)) := by
  obtain ⟨coherent, -⟩ := hist.coherent (by rw [empty]; exact Store.coherent_empty)
  have there : (h.store.standing f.id).feed = some f := coherent.feed?_eq_some_iff.2 ⟨hf, rfl⟩
  refine ⟨(hist.accounted empty bumped).counted f there, fun one bound acknowledged => ?_⟩
  have bounded := hist.bounded (i := f.id) empty one bound bumped acknowledged
  exact ⟨fun hwait => bounded.untried f there (List.contains_iff_mem.2 hwait),
    bounded.capped f there, bounded.once f there⟩

/-- A store with one new feed. -/
def oneStored : Hub := ((Intake.add (.sample "p" ["solana:alice"] 5)).run .none .sample).2

/-- The calls that store it, and those of a pass over the outbox in an outage. -/
def oneStuck : List Turn :=
  (Intake.add (.sample "p" ["solana:alice"] 5)).turns .none .sample ++
    (Outbox.drain Settings.sample.topic 100).turns .ofWatermark oneStored

/-- A feed whose first processing falls into an outage has been processed once. -/
theorem processings_accounted_of_outage :
    ∃ f ∈ ((Outbox.drain Settings.sample.topic 100).run .ofWatermark oneStored).2.store.feeds,
      f.id = 1 ∧ f.attempts = 1 ∧ processings f.id oneStuck = 1 := by
  have marks :
      (((Outbox.drain Settings.sample.topic 100).run .ofWatermark oneStored).2.store.feeds.map
        fun f => (f.id, f.attempts, f.processed)) = [(1, 1, false)] := by decide +kernel
  obtain ⟨f, hf, hmarks⟩ := List.mem_map.1 (marks ▸ List.mem_singleton_self (1, 1, false))
  simp only [Prod.mk.injEq] at hmarks
  obtain ⟨hid, hattempts, htodo⟩ := hmarks
  have hist : History Settings.sample (fun a => ∀ g, a ≠ .process g) .sample oneStuck _ :=
    (History.start.andThen (by simp) (.add _) .none).andThen (by simp)
      (Act.performedBy_drain (by decide)) .ofWatermark
  have bumped : ∀ t ∈ oneStuck, ∀ j, t.call = .bump j → (t.before.store.feed? j).isSome →
      ¬ t.failed := fun t ht j hj _ hfailed => by
    rcases List.mem_append.1 ht with ht | ht <;>
      obtain ⟨_, ho⟩ := Program.outage_of_mem_turns ht hfailed
    · cases ho
    · rw [hj] at ho
      cases ho
  have counted := (processings_accounted hist rfl bumped hf).1 (by rw [hattempts]; decide)
  refine ⟨f, hf, hid, hattempts, ?_⟩
  rw [counted, hattempts, htodo]
  rfl

end History
end NotificationRelay
