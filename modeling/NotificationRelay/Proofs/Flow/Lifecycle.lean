/-
# The life of a feed

What one act can do to a feed is little (`Act.Alters`): nothing, store it, count an attempt, mark it
as processed with the payload that it was sent with, or, if it has expired, delete it. That is so
whatever fails and however the feeds of a batch take turns, as long as a feed that is processed
outside the two passes is handed over as the store has it (`Act.PerformedBy.alters`).

A feed is made by an act that was asked to store its draft (`Turn.Chain.created_of_new`). From then
on its record is what the draft says, and once the feed has been processed its payload is that of
the draft with the identifier and the epoch written into it (`Feed.Records`). A payload that is
stamped again is as if it had been stamped once, so that this outlasts any number of attempts
(`Feed.Records.tried`), and every deed keeps it of all feeds (`Store.Recorded.deed`). As no
identifier is given twice, of two records under one identifier the later has grown out of the
earlier (`Act.Alters.remembers`). All of it together is `Course.lifecycle`.
-/
import NotificationRelay.Proofs.Feed.Contents
import NotificationRelay.Proofs.Flow.Ledger
import NotificationRelay.Proofs.Flow.Lifetime

namespace NotificationRelay

/-! ## What an act can do to a feed -/

/-- An act that is to store a draft. -/
def Act.Adds (a : Act) (d : Draft) : Prop :=
  a = .add d ∨ ∃ x epoch, a = .submit x epoch ∧ x.validate epoch = .ok d

/-- What an act can do to the standing of a feed. -/
inductive Act.Alters (a : Act) (i : FeedId) (x : Standing) : Standing → Prop
  | kept (waiting : Bool) : Alters a i x ⟨x.feed, waiting, x.given⟩
  | stored {d : Draft} (adds : a.Adds d) (new : x = ⟨none, false, false⟩) :
      Alters a i x ⟨some (.ofDraft i d), true, true⟩
  | tried {f g : Feed} (hf : x.feed = some f) (ht : Standing.Tried f g) (waiting : Bool) :
      Alters a i x ⟨some g, waiting, x.given⟩
  | deleted {f : Feed} {now : Int} (hf : x.feed = some f) (ha : a = .sweep now)
      (expired : f.isExpired now = true) : Alters a i x ⟨none, false, x.given⟩

namespace Standing

/-- The standing of a feed, with no call counted. -/
abbrev record (i : FeedId) : Aspect Standing := aspect i fun _ => false

/-- The turn finds a coherent store. -/
abbrev Sound (t : Turn) : Prop := t.before.store.Coherent

variable {i : FeedId} {x : Standing} {n : Nat} {f : Feed} {a : Act}

/-- Processing a feed that is stored marks it as processed, or fails. If it fails, an attempt is
counted, or not even that. -/
theorem leads_resolved {t : Broadcast.Topic} {ok : Turn → Prop} (hf : x.feed = some f)
    (hid : f.id = i) {post : Except FeedError Processing.Report → Standing → Nat → Prop}
    (failed : ∀ e g, g = f ∨ g = f.bumped → post (.error e) { x with feed := some g } n)
    (marked : ∀ report, post (.ok report) { x with feed := some (f.completed f.enriched) } n) :
    (Processing.process t f).Leads (record i) ok post x n := by
  subst hid
  have same : { x with feed := some f } = x := by rw [← hf]
  have bump : ∀ e, (Program.bind (Program.perform (.bump f.id)) fun _ => .done (.error e)).Leads
      (record f.id) ok post x n := fun e => by
    refine leads_call rfl (fun _ _ _ _ _ => ?_) fun outages h hx _ _ => ?_
    · exact same ▸ failed e f (.inl rfl)
    · subst hx
      rw [Call.effect, Store.bump, of_update hf Feed.bumped fun _ => rfl]
      exact failed e f.bumped (.inr rfl)
  rw [Processing.process_eq]
  refine Program.Leads.bind (.of_only (Program.only_perform (spares rfl fun _ => rfl)) fun _ => ?_)
  refine Program.Leads.bind (.of_only ?_ fun dispatch => ?_)
  · exact (Dispatch.passive_dispatch f f.enriched).mono fun c hc => spares rfl (unmoved_passive hc)
  refine Program.Leads.bind (.of_only ?_ fun outcome => ?_)
  · exact (Broadcast.only_publish t f).mono fun c hc => spares rfl (unmoved_broadcast hc)
  unfold Processing.settle
  split
  · exact bump _
  · exact leads_complete rfl hf (fun e _ _ _ _ => bump _) (marked _)

/-- Processing a feed that is stored tries it, or does nothing to it if not even the attempt can be
counted. -/
theorem leads_processed {t : Broadcast.Topic} (hf : x.feed = some f) (hid : f.id = i)
    {post : Standing → Nat → Prop} (stay : post x n)
    (hpost : ∀ g, Tried f g → post { x with feed := some g } n) :
    (Processing.process t f).Leads (record i) Sound (fun _ => post) x n := by
  refine leads_resolved hf hid ?_ fun _ => hpost _ .completed
  rintro e g (rfl | rfl)
  · rwa [← hf]
  · exact hpost _ .bumped

/-- Handling an entry of the outbox tries its feed, if there is one that is not yet processed. -/
theorem alters_relayOne (t : Broadcast.Topic) :
    (Outbox.relayOne t i).Leads (record i) Sound (fun _ y _ => a.Alters i x y) x n := by
  refine leads_relayOne rfl (fun _ _ _ => .kept _) (fun _ => ?_) fun f hf hid _ => ?_
  · exact leads_acknowledge rfl (fun _ _ _ _ => .kept _) (.kept _)
  · refine leads_processed hf hid ?_ fun g tried => ?_
    · exact leads_acknowledge rfl (fun _ _ _ _ => .kept _) (.kept _)
    · exact leads_acknowledge rfl (fun _ _ _ _ => .tried hf tried _) (.tried hf tried _)

/-- A sweep deletes a feed if it has expired, and else leaves it as it is. -/
theorem alters_sweep (now : Int) (ha : a = .sweep now) :
    (Expiry.sweep now).Leads (record i) Sound (fun _ y _ => a.Alters i x y) x n := by
  refine leads_call_of_only (fun _ sound => sound) rfl ?_ (.kept _) fun s hs hx => ?_
  · rintro (e | ids)
    · trivial
    · show (if ids.isEmpty then _ else _ : Program _).Only _
      split
      · trivial
      · exact Program.Only.bind_except (Program.only_perform (spares rfl fun _ => rfl))
          (fun _ => trivial) fun _ => trivial
  · rcases of_deleteExpired s now (i := i) with same | gone
    · rw [Call.effect, same, hx]
      exact .kept _
    · have lost := congrArg Standing.feed gone
      change (s.deleteExpired now).2.feed? i = none at lost
      rw [Store.feed?_deleteExpired] at lost
      rw [Call.effect, gone, hx]
      split at lost
      · next deleted =>
        obtain ⟨f, hf, rfl⟩ := List.mem_map.1 deleted
        obtain ⟨there, expired⟩ := List.mem_filter.1 hf
        have found : x.feed = some f := by
          rw [← hx]
          exact hs.feed?_eq_some_iff.2 ⟨there, rfl⟩
        exact .deleted found ha expired
      · have found : x.feed = none := by
          rw [← hx]
          exact lost
        rw [← found]
        exact .kept false

/-- What an act leads the standing of a feed to. -/
theorem leads_alters {s : Settings} {α : Type} {p : Program α} (hp : a.PerformedBy s p)
    (current : ∀ f, a = .process f → f.id = i → x.feed = some f) :
    p.Leads (record i) Sound (fun _ y _ => a.Alters i x y) x n := by
  have sound : ∀ u, Sound u → u.before.store.Coherent := fun _ => id
  have added : ∀ d, a.Adds d →
      (Intake.add d).Leads (record i) Sound (fun _ y _ => a.Alters i x y) x n :=
    fun d adds => leads_add sound (fun _ hc => absurd hc Bool.false_ne_true) d (.kept _)
      (.stored adds)
  have passive : ∀ {β : Type} {q : Program β}, q.Passive →
      q.Leads (record i) Sound (fun _ y _ => a.Alters i x y) x n := fun hq =>
    .of_only (hq.mono fun c hc => spares rfl (unmoved_passive hc)) fun _ => .kept _
  have only := hp.only
  cases hp with
  | submit y epoch =>
    show (Intake.submit y epoch).Leads _ _ _ _ _
    unfold Intake.submit
    split
    · exact .kept _
    · next d hd => exact added d (.inr ⟨y, epoch, rfl, hd⟩)
  | add d => exact added d (.inl rfl)
  | drain sideBySide =>
    exact leads_drain sideBySide sound rfl (fun _ _ _ _ => rfl) (.kept _)
      fun _ => alters_relayOne s.topic
  | retry sideBySide =>
    exact leads_retry sideBySide sound rfl (fun _ _ _ _ => rfl) (.kept _) fun f hf hid _ _ _ _ =>
      leads_processed hf hid (.kept _) fun g tried => .tried hf tried _
  | process f =>
    by_cases hid : f.id = i
    · have hf := current f rfl hid
      exact leads_processed hf hid (.kept _) fun g tried => .tried hf tried _
    · exact .of_only ((Processing.only_process s.topic f).mono fun c hc =>
        spares rfl (unmoved_processing hid hc)) fun _ => .kept _
  | sweep now => exact alters_sweep now rfl
  | _ => exact passive only

end Standing

/-- **What an act does to a feed**, if a feed that is processed directly is handed over as the store
has it. -/
theorem Act.PerformedBy.alters {s : Settings} {a : Act} {α : Type} {p : Program α}
    (hp : a.PerformedBy s p) {h h' : Hub} {ts : List Turn} {result : α}
    (run : p.Runs h ts result h') (coherent : h.store.Coherent)
    (current : ∀ f, a = .process f → h.store.feed? f.id = some f) (i : FeedId) :
    a.Alters i (h.store.standing i) (h'.store.standing i) := by
  have leads : p.Leads (Standing.record i) Standing.Sound (fun _ y _ =>
      a.Alters i (h.store.standing i) y) (h.store.standing i) 0 :=
    Standing.leads_alters hp fun f ha hid => by
      subst hid
      exact current f ha
  exact leads.of_runs run fun t ht => run.coherent_before coherent ht

/-! ## Where a new feed comes from -/

/-- A feed that is new after a call was created by it. -/
theorem Turn.Genuine.created_of_new {t : Turn} (ht : t.Genuine) {i : FeedId} {f : Feed}
    (new : t.before.store.feed? i = none) (hf : t.after.store.feed? i = some f) :
    ∃ d, t.call = .insert d ∧ t.created? = some (i, d) := by
  obtain ⟨outages, ht⟩ := ht
  obtain ⟨h, c, answer, h'⟩ := t
  rw [congrArg Turn.after ht] at hf
  rw [ht]
  change (c.perform outages h).2.store.feed? i = some f at hf
  show ∃ d, c = .insert d ∧ (c.turn outages h).created? = some (i, d)
  rcases c.feed?_perform outages h hf with ⟨d, rfl, rfl⟩ | ⟨g, old, -⟩
  · refine ⟨d, rfl, ?_⟩
    have reached : ¬ ((Call.insert d).turn outages h).failed := fun failed => by
      rw [Call.perform_of_failed _ outages h failed] at hf
      exact Option.some_ne_none _ (hf.symm.trans new)
    rw [Call.store_perform_of_not_failed _ outages h reached] at hf
    change (h.store.insert d).2.feed? i = _ at hf
    rw [Call.created?_insert outages h reached]
    cases hd : Table.get? d.payloadId h.store.payloadIds with
    | some j =>
      have same : (h.store.insert d).2 = h.store := by simp only [Store.insert, hd]
      rw [same] at hf
      exact absurd (hf.symm.trans new) (Option.some_ne_none _)
    | none =>
      have answer : (h.store.insert d).1 = ⟨h.store.lastId + 1, true⟩ := by
        simp only [Store.insert, hd]
      have next : i = h.store.lastId + 1 := by
        by_contra other
        rw [Store.feed?_insert _ _ _ hd, if_neg other, Option.or_none] at hf
        exact Option.some_ne_none _ (hf.symm.trans new)
      rw [answer, next]
      rfl
  · exact absurd (old.symm.trans new) (Option.some_ne_none _)

/-- A feed that is new after turns was created in one of them. -/
theorem Turn.Chain.created_of_new {s s' : Store} {ts : List Turn} (c : Turn.Chain s ts s')
    {i : FeedId} {f : Feed} (new : s.feed? i = none) (hf : s'.feed? i = some f) :
    ∃ t ∈ ts, ∃ d, t.call = .insert d ∧ t.created? = some (i, d) := by
  induction c with
  | nil => exact absurd (hf.symm.trans new) (Option.some_ne_none _)
  | @cons t ts s' genuine _ ih =>
    cases after : t.after.store.feed? i with
    | none =>
      obtain ⟨u, hu, created⟩ := ih after hf
      exact ⟨u, List.mem_cons_of_mem _ hu, created⟩
    | some g => exact ⟨t, List.mem_cons_self, genuine.created_of_new new after⟩

/-- An act is to store one draft at most. -/
theorem Act.Adds.unique {a : Act} {d d' : Draft} (hd : a.Adds d) (hd' : a.Adds d') : d = d' := by
  rcases hd with rfl | ⟨x, epoch, rfl, valid⟩ <;> rcases hd' with same | ⟨_, _, same, valid'⟩ <;>
    cases same
  · rfl
  · exact Except.ok.inj (valid.symm.trans valid')

/-- An act that inserts a draft is to store it. -/
theorem Act.PerformedBy.adds {s : Settings} {a : Act} {α : Type} {p : Program α}
    (hp : a.PerformedBy s p) {h h' : Hub} {ts : List Turn} {result : α}
    (run : p.Runs h ts result h') {t : Turn} (ht : t ∈ ts) {d : Draft} (hd : t.call = .insert d) :
    a.Adds d := by
  cases moves : a.movesFeeds with
  | false =>
    have still := run.only (hp.movesFeeds moves) t ht
    rw [hd] at still
    cases still
  | true =>
    have makes := run.only hp.only t ht
    rw [hd] at makes
    cases hp with
    | submit x epoch =>
      obtain ⟨d', valid, makes⟩ := makes
      cases makes with
      | insert => exact .inr ⟨x, epoch, rfl, valid⟩
      | index hc => cases hc
    | add d' =>
      replace makes : Intake.Makes d' (.insert d) := makes
      cases makes with
      | insert => exact .inl rfl
      | index hc => cases hc
    | sweep now =>
      replace makes : Expiry.Makes now (.insert d) := makes
      cases makes
    | _ => cases moves

/-! ## What a stored feed says -/

/-- A deed that has made a feed of a draft that it was asked to store. -/
structure Deed.Stores (D : Deed) (i : FeedId) (d : Draft) : Prop where
  adds : D.act.Adds d
  created : (i, d) ∈ Turn.created D.turns

/-- The record of a feed that was made of a draft, but for its two marks, is what the draft says.
Its payload is as it came in, or stamped once the feed has been processed. -/
structure Feed.Records (f : Feed) (i : FeedId) (d : Draft) : Prop where
  raw : f.processed = false → f.payload = d.payload
  stamped : f.processed = true → d.payload.Stamped i d.epoch f.payload
  rest : f = { d with
    payload := f.payload
    id := i
    processed := f.processed
    attempts := f.attempts }

/-- A later record of a feed: it stays processed, and its attempts have not become fewer. -/
structure Feed.Grown (f g : Feed) : Prop where
  processed : f.processed = true → g.processed = true
  attempts : f.attempts ≤ g.attempts

/-- **What an act makes of a stored feed**: it leaves it as it is, counts an attempt, up to the
greatest number of 32 bits, marks it as processed with the payload of its draft, stamped, or deletes
it after its expiry. -/
inductive Feed.Becomes (f : Feed) (d : Draft) (a : Act) : Option Feed → Prop
  | kept : Becomes f d a (some f)
  | tried : Becomes f d a (some { f with attempts := min (f.attempts + 1) 4294967295 })
  | done {payload : Payload} (stamped : d.payload.Stamped f.id d.epoch payload) :
      Becomes f d a (some { f with processed := true, payload := payload })
  | deleted {now expiry : Int} (sweep : a = .sweep now) (expires : f.expiry = some expiry)
      (past : expiry < now) : Becomes f d a none

namespace Feed

variable {f g : Feed} {i : FeedId} {d : Draft} {a : Act}

/-- A feed that was just made of a draft is what the draft says. -/
theorem records_ofDraft (i : FeedId) (d : Draft) : (ofDraft i d).Records i d :=
  ⟨fun _ => rfl, nofun, rfl⟩

theorem grown_refl (f : Feed) : Grown f f := ⟨fun done => done, Nat.le_refl _⟩

/-- What a feed is sent with is the payload of its draft, stamped, whether or not the feed has been
stamped before. -/
theorem Records.stamped_enriched (hf : f.Records i d) :
    d.payload.Stamped i d.epoch f.enriched := by
  have id : f.id = i := congrArg id hf.rest
  have epoch : f.epoch = d.epoch := congrArg (·.epoch) hf.rest
  have anew : f.payload.Stamped i d.epoch f.enriched := by
    rw [← id, ← epoch]
    exact f.payload.stamped_enrich f.id f.epoch
  cases processed : f.processed with
  | false => exact hf.raw processed ▸ anew
  | true => exact (hf.stamped processed).again anew

/-- A feed that is tried is still what its draft says. -/
theorem Records.tried (hf : f.Records i d) (tried : Standing.Tried f g) : g.Records i d := by
  cases tried with
  | bumped =>
    refine ⟨hf.raw, hf.stamped, ?_⟩
    unfold bumped
    rw [hf.rest]
  | completed =>
    refine ⟨nofun, fun _ => hf.stamped_enriched, ?_⟩
    unfold completed
    rw [hf.rest]

/-- A feed grows when it is tried. -/
theorem grown_of_tried (bound : f.attempts ≤ maxAttempts) (tried : Standing.Tried f g) :
    Grown f g := by
  cases tried with
  | bumped => exact ⟨fun done => done, Nat.le_min.2 ⟨Nat.le_succ _, bound⟩⟩
  | completed => exact ⟨fun _ => rfl, Nat.le_refl _⟩

/-- The attempts of a feed that is tried do not go beyond the greatest number. -/
theorem attempts_of_tried (bound : f.attempts ≤ maxAttempts) (tried : Standing.Tried f g) :
    g.attempts ≤ maxAttempts := by
  cases tried with
  | bumped => exact Nat.min_le_right _ _
  | completed => exact bound

end Feed

/-! ## Deeds and courses -/

/-- A feed that is processed directly is handed over as the store has it. -/
def Deed.Current (D : Deed) : Prop :=
  ∀ f, D.act = .process f → ∀ t ∈ D.turns.head?, t.before.store.feed? f.id = some f

/-- Only feeds that are processed directly have to be handed over as they are stored. -/
theorem Deed.current_of_other {D : Deed} (other : ∀ f, D.act ≠ .process f) : D.Current :=
  fun f hf => absurd hf (other f)

/-- Whatever is known of the first call of a direct processing is known of the store that it
begins with. -/
theorem Deed.Current.of_runs {s : Settings} {D : Deed} {p : Program D.act.Result}
    (current : D.Current) (hp : D.act.PerformedBy s p) {h h' : Hub}
    (run : p.Runs h D.turns D.result h') {f : Feed} (hf : D.act = .process f) :
    h.store.feed? f.id = some f := by
  obtain ⟨a, ts, result⟩ := D
  obtain rfl : a = .process f := hf
  cases hp with
  | process =>
    obtain ⟨h₁, outages, us, out, hts, -⟩ := Program.Runs.of_call run
    obtain rfl : ts = _ := hts
    rw [← Hub.store_eq_of_outside out]
    exact current f rfl _ rfl

/-- What one deed does to the standing of a feed. -/
theorem Deed.Current.alters {s : Settings} {D : Deed} {p : Program D.act.Result}
    (current : D.Current) (hp : D.act.PerformedBy s p) {h h' : Hub}
    (run : p.Runs h D.turns D.result h') (coherent : h.store.Coherent) (i : FeedId) :
    D.act.Alters i (h.store.standing i) (h'.store.standing i) :=
  hp.alters run coherent (fun _ hf => current.of_runs hp run hf) i

/-- The deeds by which a store has come about say what its feeds are. -/
structure Store.Recorded (ds : List Deed) (s : Store) : Prop where
  coherent : s.Coherent
  records : ∀ i f, s.feed? i = some f → ∃ D ∈ ds, ∃ d, D.Stores i d ∧ f.Records i d
  counted : ∀ i f, s.feed? i = some f → f.attempts ≤ Feed.maxAttempts

/-- **Every deed keeps records**: a new feed is what its draft says, and an old one still is. -/
theorem Store.Recorded.deed {s : Settings} {ds : List Deed} {D : Deed} {h h' : Hub}
    (hr : h.store.Recorded ds) {p : Program D.act.Result} (hp : D.act.PerformedBy s p)
    (run : p.Runs h D.turns D.result h') (current : D.Current) :
    h'.store.Recorded (ds ++ [D]) := by
  have told : ∀ i g, h'.store.feed? i = some g →
      (∃ E ∈ ds ++ [D], ∃ d, E.Stores i d ∧ g.Records i d) ∧ g.attempts ≤ Feed.maxAttempts := by
    intro i g hg
    have old : ∀ f, h.store.feed? i = some f →
        ∃ E ∈ ds ++ [D], ∃ d, E.Stores i d ∧ f.Records i d := fun f hf => by
      obtain ⟨E, hE, found⟩ := hr.records i f hf
      exact ⟨E, List.mem_append_left _ hE, found⟩
    have alters := current.alters hp run hr.coherent i
    generalize hy : h'.store.standing i = y at alters
    replace hy : y.feed = some g := by
      rw [← hy]
      exact hg
    cases alters with
    | kept => exact ⟨old g hy, hr.counted i g hy⟩
    | @stored d adds new =>
      obtain rfl : Feed.ofDraft i d = g := Option.some.inj hy
      obtain ⟨t, ht, d', insertion, created⟩ :=
        run.chain.created_of_new (congrArg Standing.feed new) hg
      obtain rfl := adds.unique (hp.adds run ht insertion)
      refine ⟨⟨D, List.mem_append_right _ (List.mem_singleton_self D), d, ⟨adds, ?_⟩,
        Feed.records_ofDraft i d⟩, Nat.zero_le _⟩
      exact List.mem_filterMap.2 ⟨t, ht, created⟩
    | tried hf tried =>
      obtain rfl := Option.some.inj hy
      obtain ⟨E, hE, d, stores, records⟩ := old _ hf
      exact ⟨⟨E, hE, d, stores, records.tried tried⟩,
        Feed.attempts_of_tried (hr.counted i _ hf) tried⟩
    | deleted => cases hy
  exact ⟨run.coherent hr.coherent, fun i g hg => (told i g hg).1, fun i g hg => (told i g hg).2⟩

/-- What the feeds of a store are is on record after every course. -/
theorem Course.recorded {s : Settings} {limit : Nat} {sink : Broadcast.Sink} {ds : List Deed}
    {h : Hub} (c : Course s (.empty limit sink) ds h) (current : ∀ D ∈ ds, D.Current) :
    h.store.Recorded ds := by
  refine c.keeps (fun past g => (∀ D ∈ past, D.Current) → g.store.Recorded past) ?_ ?_ ?_ current
  · intro past g g' o hr current
    rw [o.store_eq]
    exact hr current
  · intro past D p g g' hp run hr current
    obtain ⟨before, here⟩ := List.forall_mem_append.1 current
    exact (hr before).deed hp run (here D (List.mem_singleton_self D))
  · exact fun _ => ⟨Store.coherent_empty, fun _ _ hf => (nomatch hf), fun _ _ hf => (nomatch hf)⟩

/-- What is said of a feed that is stored: what its draft says, and that it has grown. -/
structure Standing.Remembers (f : Feed) (i : FeedId) (d : Draft) (x : Standing) : Prop where
  given : x.given = true
  records : ∀ g, x.feed = some g → g.Records i d
  grown : ∀ g, x.feed = some g → f.Grown g
  counted : ∀ g, x.feed = some g → g.attempts ≤ Feed.maxAttempts

/-- An act that alters a feed keeps what is said of it, since no identifier is given again. -/
theorem Act.Alters.remembers {a : Act} {i : FeedId} {x y : Standing} {f : Feed} {d : Draft}
    (alters : a.Alters i x y) (hx : x.Remembers f i d) : y.Remembers f i d := by
  cases alters with
  | kept => exact ⟨hx.given, hx.records, hx.grown, hx.counted⟩
  | stored adds new =>
    have given := hx.given
    rw [new] at given
    cases given
  | @tried g g' hg tried =>
    have bound := hx.counted g hg
    have before := hx.grown g hg
    have after := Feed.grown_of_tried bound tried
    refine ⟨hx.given, ?_, ?_, ?_⟩
    · rintro _ ⟨⟩
      exact (hx.records g hg).tried tried
    · rintro _ ⟨⟩
      exact ⟨after.processed ∘ before.processed, Nat.le_trans before.attempts after.attempts⟩
    · rintro _ ⟨⟩
      exact Feed.attempts_of_tried bound tried
  | deleted => exact ⟨hx.given, fun _ hg => (nomatch hg), fun _ hg => (nomatch hg),
      fun _ hg => (nomatch hg)⟩

/-- What is said of a feed outlasts every course. -/
theorem Course.remembers {s : Settings} {h h' : Hub} {es : List Deed}
    (c : Course s h es h') (current : ∀ E ∈ es, E.Current) (coherent : h.store.Coherent)
    {f : Feed} {i : FeedId} {d : Draft} (hx : (h.store.standing i).Remembers f i d) :
    (h'.store.standing i).Remembers f i d := by
  suffices here : h'.store.Coherent ∧ (h'.store.standing i).Remembers f i d from here.2
  refine c.keeps (fun past g => (∀ E ∈ past, E.Current) →
    g.store.Coherent ∧ (g.store.standing i).Remembers f i d) ?_ ?_ (fun _ => ⟨coherent, hx⟩) current
  · intro past g g' o before current
    rw [o.store_eq]
    exact before current
  · intro past E p g g' hp run before current
    obtain ⟨earlier, here⟩ := List.forall_mem_append.1 current
    obtain ⟨coherent, remembers⟩ := before earlier
    exact ⟨run.coherent coherent,
      ((here E (List.mem_singleton_self E)).alters hp run coherent i).remembers remembers⟩

/-- What one act makes of a stored feed whose draft is known. -/
theorem Act.Alters.becomes {a : Act} {i : FeedId} {x y : Standing} {f : Feed} {d : Draft}
    (alters : a.Alters i x y) (hf : x.feed = some f) (records : f.Records i d) :
    f.Becomes d a y.feed := by
  have hid : f.id = i := congrArg Feed.id records.rest
  have same : ∀ {g : Feed}, x.feed = some g → g = f := fun hg =>
    Option.some.inj (hg.symm.trans hf)
  cases alters with
  | kept =>
    rw [hf]
    exact .kept
  | stored adds new =>
    rw [new] at hf
    cases hf
  | @tried g _ hg tried =>
    obtain rfl := same hg
    cases tried with
    | bumped => exact .tried
    | completed =>
      have stamped := records.stamped_enriched
      rw [← hid] at stamped
      exact .done stamped
  | deleted hg ha expired =>
    obtain rfl := same hg
    unfold Feed.isExpired at expired
    split at expired
    · next expiry expires => exact .deleted ha expires (of_decide_eq_true expired)
    · cases expired

/-- **The life of a feed.** Of every feed that is stored, a deed of the past has been asked to store
its draft and has made the feed of it. Whatever fails, the record is what that draft says, with the
payload that came in until the feed is processed and, from then on, with its identifier and its
epoch written into that payload. The next deed leaves the feed as it is, counts an attempt, marks it
as processed with the payload stamped in this way, or, if it is a sweep after the expiry, deletes
it. And in every later record the feed is still what its draft says, no longer unprocessed once it
was processed, and with no fewer attempts. A feed that is processed directly must be handed over as
the store has it. -/
theorem Course.lifecycle {s : Settings} {limit : Nat} {sink : Broadcast.Sink} {ds : List Deed}
    {h : Hub} (c : Course s (.empty limit sink) ds h) (current : ∀ D ∈ ds, D.Current) {i : FeedId}
    {f : Feed} (hf : h.store.feed? i = some f) :
    ∃ D ∈ ds, ∃ d, D.Stores i d ∧ f.Records i d ∧
      (∀ E h', Course s h [E] h' → E.Current → f.Becomes d E.act (h'.store.feed? i)) ∧
      ∀ es h' g, Course s h es h' → (∀ E ∈ es, E.Current) → h'.store.feed? i = some g →
        g.Records i d ∧ f.Grown g := by
  have recorded := c.recorded current
  obtain ⟨D, hD, d, stores, records⟩ := recorded.records i f hf
  refine ⟨D, hD, d, stores, records, fun E h' next here => ?_, fun es h' g later here hg => ?_⟩
  · obtain ⟨p, h₁, hp, run, rest⟩ := next.of_cons
    rw [Hub.store_eq_of_outside rest.outside_of_nil]
    exact (here.alters hp run recorded.coherent i).becomes hf records
  · have given : i ≤ h.store.lastId :=
      (recorded.coherent.numbered i (Store.mem_ids_iff.2 ⟨f, hf⟩)).2
    have remembers : (h.store.standing i).Remembers f i d := by
      refine ⟨decide_eq_true given, ?_, ?_, ?_⟩ <;> intro g hg <;>
        obtain rfl : g = f := Option.some.inj (hg.symm.trans hf)
      · exact records
      · exact Feed.grown_refl _
      · exact recorded.counted i _ hf
    have last := later.remembers here recorded.coherent remembers
    exact ⟨last.records g hg, last.grown g hg⟩

/-- A hub with one feed that could not be marked as processed. -/
def Hub.onceTried : Hub :=
  ((Outbox.drain Settings.sample.topic 100).run .ofCompletion History.oneStored).2

/-- A feed that has been tried once is processed directly. -/
theorem Course.lifecycle_of_onceTried :
    ∃ ds f g, Course .sample .sample ds .onceTried ∧ (∀ D ∈ ds, D.Current) ∧
      Hub.onceTried.store.feed? 1 = some f ∧ f.processed = false ∧ f.attempts = 1 ∧
      ((Processing.process Settings.sample.topic f).run .none .onceTried).2.store.feed? 1 = some g ∧
      g.processed = true ∧
      ∃ D ∈ ds, ∃ d, D.Stores 1 d ∧ f.Records 1 d ∧ f.Becomes d (.process f) (some g) ∧
        g.Records 1 d ∧ f.Grown g := by
  obtain ⟨ds, course, current⟩ : ∃ ds, Course .sample .sample ds .onceTried ∧
      ∀ D ∈ ds, D.Current :=
    ⟨_, .alone (.add (.sample "p" ["solana:alice"] 5)) .none
      (.alone (Act.performedBy_drain (by decide)) .ofCompletion (.stop _)),
      List.forall_mem_cons.2 ⟨Deed.current_of_other (fun _ => nofun),
        List.forall_mem_singleton.2 (Deed.current_of_other fun _ => nofun)⟩⟩
  have before : (Hub.onceTried.store.feed? 1).map (fun f => (f.processed, f.attempts)) =
      some (false, 1) := by decide +kernel
  have after : ((Hub.onceTried.store.feed? 1).bind fun f =>
      ((Processing.process Settings.sample.topic f).run .none .onceTried).2.store.feed? 1).map
        (·.processed) = some true := by decide +kernel
  obtain ⟨f, hf, marks⟩ := Option.map_eq_some_iff.1 before
  obtain ⟨todo, tried⟩ := Prod.mk.inj marks
  rw [hf, Option.bind_some] at after
  obtain ⟨g, hg, done⟩ := Option.map_eq_some_iff.1 after
  obtain ⟨D, hD, d, stores, records, next, later⟩ := Course.lifecycle course current hf
  obtain ⟨E, hE, step, handed⟩ : ∃ E : Deed, E.act = .process f ∧ Course .sample .onceTried [E]
      ((Processing.process Settings.sample.topic f).run .none .onceTried).2 ∧ E.Current := by
    refine ⟨_, rfl, .alone (.process f) .none (.stop _), ?_⟩
    rintro _ ⟨⟩ _ ⟨⟩
    show Hub.onceTried.store.feed? f.id = some f
    rw [Store.id_of_feed? hf]
    exact hf
  have becomes := next E _ step handed
  rw [hE, hg] at becomes
  exact ⟨ds, f, g, course, current, hf, todo, tried, hg, done, D, hD, d, stores, records, becomes,
    later _ _ g step (List.forall_mem_singleton.2 handed) hg⟩

end NotificationRelay
