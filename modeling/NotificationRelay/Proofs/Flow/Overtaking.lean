/-
# Overtaking in the outbox

The feeds of a batch that are under way together reach the watermark in any order. In a healthy
pass (`Outbox.HealthyPass`) each of them that has not been processed yet asks to be let through
exactly once (`exists_ask`), and nothing else is broadcast (`broadcasts`). So a feed is handed
over unless one of greater epoch has overtaken it (`handed_iff`). It cannot be overtaken if none
of the batch has a greater epoch, and where feeds are handled one after another in the order of
their epochs, none is (`not_overtaken`). What this means for a batch is spelt out in
`History.batch_published`.
-/
import NotificationRelay.Proofs.Broadcast.Publishing
import NotificationRelay.Proofs.Feed.Contents
import NotificationRelay.Proofs.Flow.Acts

namespace NotificationRelay

/-- Whether a call asks to let a feed through. -/
def Call.asks (i : FeedId) : Call → Bool
  | .advance j _ => decide (j = i)
  | _ => false

/-- A call that does not belong to a broadcast neither asks nor hands over. -/
theorem Call.silent_of_not_broadcasts {c : Call} (hc : c.broadcasts = false) (i : FeedId) :
    c.asks i = false ∧ c.posts i = false := by
  cases c <;> first | exact ⟨rfl, rfl⟩ | cases hc

/-! ## What handling an entry comes to -/

section Leads

variable {σ : Type} {A : Aspect σ} {ok : Turn → Prop} {t : Broadcast.Topic} {f : Feed} {n : Nat}

/-- Of the calls that process a feed, those count that broadcast it: it asks, and if it is let
through its message is handed over. -/
theorem Processing.leads_process {v : σ} (silent : ∀ c, c.broadcasts = false → A.counts c = false)
    (on : t.enabled = true) (reached : ∀ u, ok u → ¬ u.failed) {post : Nat → Prop}
    (asked : ∀ u, ok u → u.call = .advance f.id f.epoch →
      post (n + (A.counts (.advance f.id f.epoch)).toNat +
        if u.passed? = some (f.id, f.epoch) then
          (A.counts (.post (t.message f f.enriched))).toNat else 0)) :
    (process t f).Leads A ok (fun _ _ m => post m) v n := by
  have uncounted : ∀ {c : Call}, c.broadcasts = false →
      (Program.perform c).Only fun c => A.counts c = false :=
    fun {c} hc => Program.only_perform (silent c hc)
  refine Program.Leads.bind (.of_uncounted (uncounted rfl) fun _ v => ?_)
  refine Program.Leads.bind (.of_uncounted ?_ fun dispatched v => ?_)
  · exact (Dispatch.passive_dispatch f f.enriched).mono fun c hc =>
      silent c (Call.not_broadcasts_of_passive hc)
  have published : (Broadcast.publish t f f.enriched).Leads A ok (fun _ _ m => post m) v n := by
    refine Broadcast.leads_publish on reached (fun outages h _ hok barred => ?_)
      fun outages h _ hok admitted => ?_
    · have refused := mt (Turn.passed?_iff ⟨outages, rfl⟩ rfl (reached _ hok)).1 barred
      have here := asked _ hok rfl
      rwa [if_neg refused, Nat.add_zero] at here
    · have passed := (Turn.passed?_iff ⟨outages, rfl⟩ rfl (reached _ hok)).2 admitted
      have here := asked _ hok rfl
      rw [if_pos passed] at here
      exact fun _ _ _ _ => here
  refine Program.Leads.bind (published.mono fun outcome v m here => ?_)
  refine .of_uncounted ?_ fun _ _ => here
  exact only_settle f (silent _ rfl) (silent _ rfl) dispatched outcome

/-- An entry whose feed is there and has not been processed asks once. -/
theorem Outbox.leads_relayOne {i : FeedId} {x : Standing} {counts : Call → Bool}
    (silent : ∀ c, c.broadcasts = false → counts c = false) (on : t.enabled = true)
    (reached : ∀ u, ok u → ¬ u.failed) {post : Nat → Prop}
    (nothing : (∀ f, x.feed = some f → f.processed = true) → post n)
    (asked : ∀ f, x.feed = some f → f.processed = false → ∀ u, ok u →
      u.call = .advance f.id f.epoch →
        post (n + (counts (.advance f.id f.epoch)).toNat +
          if u.passed? = some (f.id, f.epoch) then
            (counts (.post (t.message f f.enriched))).toNat else 0)) :
    (relayOne t i).Leads (Standing.aspect i counts) ok (fun _ _ m => post m) x n := by
  have acknowledge {m : Nat} (here : post m) (y : Standing) :
      (acknowledge i).Leads (Standing.aspect i counts) ok (fun _ _ m => post m) y m := by
    refine .of_uncounted ?_ fun _ _ => here
    exact Program.Only.bind_except (Program.only_perform (silent _ rfl)) (fun _ => trivial)
      fun _ => trivial
  refine Standing.leads_relayOne (silent _ rfl) (fun u hok failed => absurd failed (reached u hok))
    (fun done => acknowledge (nothing done) x) fun f hf _ todo => ?_
  have processed := Processing.leads_process (A := Standing.aspect i counts) (v := x)
    silent on reached (asked f hf todo)
  exact processed.mono fun _ y m here => acknowledge here y

end Leads

/-- The calls of one broadcast neither ask for another feed nor hand it over. -/
theorem Broadcast.Makes.silent {t : Topic} {f : Feed} {i : FeedId} {c : Call} (hf : f.id ≠ i)
    (hc : Makes t f c) : c.asks i = false ∧ c.posts i = false := by
  cases hc with
  | advance => exact ⟨decide_eq_false hf, rfl⟩
  | post => exact ⟨rfl, decide_eq_false hf⟩

namespace Outbox

/-! ## A healthy pass -/

/-- The feeds that a pass over the outbox takes on. -/
def batch (s : Settings) (store : Store) : List Feed :=
  (store.pending s.pipeline.relayBatchSize).filterMap store.feed?

/-- The calls of a pass over the outbox, none of which failed. -/
structure HealthyPass (s : Settings) (h : Hub) (ts : List Turn) : Prop where
  on : s.topic.enabled = true
  coherent : h.store.Coherent
  reached : ∀ u ∈ ts, ¬ u.failed
  performed : ∃ (p : Program (Stored Nat)) (result : Stored Nat) (h' : Hub),
    Act.PerformedBy s .drain p ∧ p.Runs h ts result h'

/-- A pass that does not fail handles the entries that it finds, and counts those that were
acknowledged. -/
theorem drainBy_runs {limit : Nat} {handle : List FeedId → Program (List Bool)} {h h' : Hub}
    {ts : List Turn} {result : Stored Nat} (run : (drainBy handle limit).Runs h ts result h')
    (reached : ∀ u ∈ ts, ¬ u.failed) :
    ∃ u us results h₁ h₂, ts = u :: us ∧ u.call = .pending limit ∧ h₁.store = h.store ∧
      h'.store = h₂.store ∧ result = .ok (results.countP id) ∧
      (handle (h.store.pending limit)).Runs h₁ us results h₂ := by
  obtain ⟨outages, h₀, us, rfl, reached, same, after, rest⟩ :=
    Program.Runs.of_read run (fun _ => rfl) reached
  rw [Call.answer_pending reached, same] at rest
  replace rest : ((handle (h.store.pending limit)).bind _).Runs _ us result h' := rest
  obtain ⟨vs, ws, results, h₂, rfl, handled, last⟩ := rest.of_bind
  obtain ⟨rfl, rfl, out⟩ := last.of_done
  exact ⟨_, vs, results, _, h₂, by rw [List.append_nil], rfl, after, Hub.store_eq_of_outside out,
    rfl, handled⟩

variable {s : Settings} {h : Hub} {ts : List Turn} {f : Feed}

/-- A batch holds the feeds of the entries that are pending, as they are found. -/
theorem mem_batch : f ∈ batch s h.store ↔
    f.id ∈ h.store.pending s.pipeline.relayBatchSize ∧ h.store.feed? f.id = some f := by
  unfold batch
  rw [List.mem_filterMap]
  constructor
  · rintro ⟨i, hi, hf⟩
    obtain rfl := Store.id_of_feed? hf
    exact ⟨hi, hf⟩
  · rintro ⟨hi, hf⟩
    exact ⟨f.id, hi, hf⟩

/-- A batch holds one feed of an identifier. -/
theorem eq_of_mem_batch {g : Feed} (hf : f ∈ batch s h.store) (hg : g ∈ batch s h.store)
    (hid : g.id = f.id) : g = f := by
  have hf := (mem_batch.1 hf).2
  have hg := (mem_batch.1 hg).2
  rw [hid, hf] at hg
  exact (Option.some.inj hg).symm

/-- **What a healthy pass comes to for one feed**: what handling its entry comes to, if the
other feeds do not count. -/
theorem HealthyPass.count (pass : HealthyPass s h ts) (i : FeedId) (counts : Call → Bool)
    (post : Nat → Prop) (silent : ∀ c, c.broadcasts = false → counts c = false)
    (others : ∀ (g : Feed) c, g.id ≠ i → Broadcast.Makes s.topic g c → counts c = false)
    (nothing : (∀ f ∈ batch s h.store, f.id = i → f.processed = true) → post 0)
    (asked : ∀ f ∈ batch s h.store, f.id = i → f.processed = false → ∀ u ∈ ts,
      u.call = .advance f.id f.epoch →
        post ((counts (.advance f.id f.epoch)).toNat +
          if u.passed? = some (f.id, f.epoch) then
            (counts (.post (s.topic.message f f.enriched))).toNat else 0)) :
    post (ts.countP fun u => counts u.call) := by
  obtain ⟨p, result, h', hp, run⟩ := pass.performed
  cases hp with
  | @drain handle sideBySide =>
    obtain ⟨u, us, results, h₁, h₂, rfl, hcall, same, -, -, handled⟩ :=
      drainBy_runs run pass.reached
    have stays : ∀ j ∈ h.store.pending s.pipeline.relayBatchSize, j ≠ i →
        (relayOne s.topic j).Only (Standing.aspect i counts).Spares := by
      refine fun j _ hj => (only_relayOne s.topic j).mono fun c hc => ?_
      refine Standing.spares ?_ (Standing.unmoved_outbox hj hc)
      cases hc with
      | acknowledge => exact silent _ rfl
      | passive hc => exact silent c (Call.not_broadcasts_of_passive hc)
      | @processing g _ hid hc =>
        cases hc with
        | passive hc => exact silent c (Call.not_broadcasts_of_passive hc)
        | broadcast hc => exact others g c (hid ▸ hj) hc
        | _ => exact silent _ rfl
    have leads : (handle (h.store.pending s.pipeline.relayBatchSize)).Leads
        (Standing.aspect i counts) (fun v => v ∈ u :: us) (fun _ _ m => post m)
        (h.store.standing i) 0 := by
      refine (sideBySide _).leads_of_key id i ?_ stays (fun j hj hji => ?_) fun absent => ?_
      · rw [List.map_id]
        exact pass.coherent.nodup_pending _
      · obtain rfl : j = i := hji
        refine leads_relayOne silent pass.on pass.reached (fun done => nothing fun f hf hid => ?_)
          fun f hf todo v hv hcall => ?_
        · exact done f (hid ▸ (mem_batch.1 hf).2)
        · obtain rfl := Store.id_of_feed? hf
          rw [Nat.zero_add]
          exact asked f (mem_batch.2 ⟨hj, hf⟩) rfl todo v hv hcall
      · exact nothing fun f hf hid => absurd hid (absent f.id (mem_batch.1 hf).1)
    have start : (Standing.aspect i counts).view h₁ = h.store.standing i :=
      congrArg (fun store : Store => store.standing i) same
    rw [← start] at leads
    have counted := leads.of_runs handled fun v hv => List.mem_cons_of_mem u hv
    have uncounted : counts u.call = false := hcall ▸ silent _ rfl
    rw [Nat.zero_add] at counted
    rw [List.countP_cons_of_neg (by rw [uncounted]; exact Bool.false_ne_true)]
    exact counted

/-- A call that broadcasts a feed of the batch, as it was found, that has not been processed
yet. -/
def Broadcasts (s : Settings) (store : Store) (c : Call) : Prop :=
  ∃ f ∈ batch s store, f.processed = false ∧ Broadcast.Makes s.topic f c

/-- In a broadcast of the batch a feed is asked for with its own epoch. -/
theorem Broadcasts.ask {c : Call} (hc : Broadcasts s h.store c) (hf : f ∈ batch s h.store)
    (asks : c.asks f.id = true) : c = .advance f.id f.epoch := by
  obtain ⟨g, hg, -, hc⟩ := hc
  cases hc with
  | advance => rw [eq_of_mem_batch hf hg (of_decide_eq_true asks)]
  | post => cases asks

/-- In a broadcast of the batch a feed is handed over by its own message. -/
theorem Broadcasts.message {m : Broadcast.Message} (hm : Broadcasts s h.store (.post m))
    (hf : f ∈ batch s h.store) (hid : m.id = f.id) : m = s.topic.message f f.enriched := by
  obtain ⟨g, hg, -, hm⟩ := hm
  cases hm with
  | post => rw [eq_of_mem_batch hf hg hid]

/-- **Nothing else is broadcast** in a healthy pass. -/
theorem HealthyPass.broadcasts (pass : HealthyPass s h ts) {u : Turn} (hu : u ∈ ts)
    (hcall : u.call.broadcasts = true) : Broadcasts s h.store u.call := by
  classical
  obtain ⟨i, named⟩ : ∃ i, (u.call.asks i || u.call.posts i) = true := by
    cases hc : u.call with
    | advance i _ => exact ⟨i, by simp [Call.asks]⟩
    | post m => exact ⟨m.id, by simp [Call.posts]⟩
    | _ =>
      rw [hc] at hcall
      cases hcall
  -- the calls that name this feed and are anything else are counted: there are none
  have strays := pass.count i (fun c => (c.asks i || c.posts i) && decide ¬ Broadcasts s h.store c)
    (fun m => m = 0) (fun c hc => ?_) (fun g c hg hc => ?_) (fun _ => rfl)
    fun f hf _ todo v _ _ => ?_
  · by_contra stray
    have counted := List.countP_eq_zero.1 strays u hu
    rw [named, Bool.true_and, decide_eq_true_iff] at counted
    exact counted stray
  · obtain ⟨unasked, unposted⟩ := Call.silent_of_not_broadcasts hc i
    rw [unasked, unposted]
    rfl
  · obtain ⟨unasked, unposted⟩ := hc.silent hg
    rw [unasked, unposted]
    rfl
  · have asks : Broadcasts s h.store (.advance f.id f.epoch) := ⟨f, hf, todo, .advance pass.on⟩
    have posts : Broadcasts s h.store (.post (s.topic.message f f.enriched)) :=
      ⟨f, hf, todo, .post pass.on⟩
    simp only [asks, posts, not_true_eq_false, decide_false, Bool.and_false, Bool.toNat_false,
      ite_self]

/-- **Each feed asks once.** -/
theorem HealthyPass.exists_ask (pass : HealthyPass s h ts) (hf : f ∈ batch s h.store)
    (todo : f.processed = false) :
    ∃ us u vs, ts = us ++ u :: vs ∧ u.call = .advance f.id f.epoch ∧
      ∀ v ∈ ts, v.call = .advance f.id f.epoch → v = u := by
  have once := pass.count f.id (Call.asks f.id) (fun m => m = 1)
    (fun c hc => (Call.silent_of_not_broadcasts hc f.id).1)
    (fun g c hg hc => (hc.silent hg).1) (fun done => ?_) fun g hg hid _ v _ _ => ?_
  · obtain ⟨u, hu, asks⟩ := List.countP_pos_iff.1 (by rw [once]; exact Nat.one_pos)
    obtain ⟨us, vs, rfl⟩ := List.append_of_mem hu
    rw [List.countP_append,
      List.countP_cons_of_pos (p := fun u : Turn => u.call.asks f.id) asks] at once
    have before : us.countP (fun u => u.call.asks f.id) = 0 := by omega
    have after : vs.countP (fun u => u.call.asks f.id) = 0 := by omega
    refine ⟨us, u, vs, rfl, ?_, fun v hv hcall => ?_⟩
    · refine (pass.broadcasts hu ?_).ask hf asks
      cases hc : u.call <;> first | rfl | (rw [hc] at asks; cases asks)
    · have asks : v.call.asks f.id = true := by rw [hcall]; exact decide_eq_true rfl
      rcases List.mem_append.1 hv with hv | hv
      · exact absurd asks (List.countP_eq_zero.1 before v hv)
      · rcases List.mem_cons.1 hv with rfl | hv
        · rfl
        · exact absurd asks (List.countP_eq_zero.1 after v hv)
  · rw [done f hf rfl] at todo
    cases todo
  · rw [hid]
    simp [Call.asks]

/-- A feed is handed over once if it is let through, and not at all if it is refused. -/
theorem HealthyPass.handed_eq (pass : HealthyPass s h ts) (hf : f ∈ batch s h.store)
    (todo : f.processed = false) {u : Turn}
    (only : ∀ v ∈ ts, v.call = .advance f.id f.epoch → v = u) :
    handed f.id ts =
      if u.passed? = some (f.id, f.epoch) then [s.topic.message f f.enriched] else [] := by
  have length := pass.count f.id (Call.posts f.id)
    (fun m => m = if u.passed? = some (f.id, f.epoch) then 1 else 0)
    (fun c hc => (Call.silent_of_not_broadcasts hc f.id).2)
    (fun g c hg hc => (hc.silent hg).2) (fun done => ?_) fun g hg hid _ v hv hcall => ?_
  · rw [← length_handed] at length
    by_cases passed : u.passed? = some (f.id, f.epoch)
    · rw [if_pos passed] at length ⊢
      obtain ⟨m, hm⟩ := List.length_eq_one_iff.1 length
      have sent : m ∈ handed f.id ts := hm ▸ List.mem_singleton_self m
      obtain ⟨hid, v, hv, hcall⟩ := call_of_mem_handed sent
      have made := pass.broadcasts hv (by rw [hcall]; rfl)
      rw [hcall] at made
      rw [hm, made.message hf hid]
    · rw [if_neg passed] at length ⊢
      exact List.length_eq_zero_iff.1 length
  · rw [done f hf rfl] at todo
    cases todo
  · obtain rfl := eq_of_mem_batch hf hg hid
    rw [only v hv hcall]
    simp [Call.posts, Broadcast.Topic.message]

/-- A feed that has been processed is not handed over again. -/
theorem HealthyPass.handed_of_processed (pass : HealthyPass s h ts) (hf : f ∈ batch s h.store)
    (done : f.processed = true) : handed f.id ts = [] := by
  refine List.eq_nil_iff_forall_not_mem.2 fun m hm => ?_
  obtain ⟨hid, u, hu, hcall⟩ := call_of_mem_handed hm
  obtain ⟨g, hg, todo, made⟩ := pass.broadcasts hu (by rw [hcall]; rfl)
  rw [hcall] at made
  cases made with
  | post =>
    rw [eq_of_mem_batch hf hg hid, done] at todo
    cases todo

/-! ## Overtaking -/

/-- When a feed asked to be let through, a feed of greater epoch had been, which was one of the
given feeds and had not been processed before. -/
def Overtaken (feeds : List Feed) (ts : List Turn) (f : Feed) : Prop :=
  ∃ us u vs, ts = us ++ u :: vs ∧ u.call = .advance f.id f.epoch ∧
    ∃ v ∈ us, ∃ g ∈ feeds, g.processed = false ∧ f.epoch < g.epoch ∧
      v.passed? = some (g.id, g.epoch)

/-- **A feed is handed over unless it is overtaken**, if its epoch was admitted at first. -/
theorem HealthyPass.handed_iff (pass : HealthyPass s h ts) (hf : f ∈ batch s h.store)
    (todo : f.processed = false) (admits : h.store.Admits f.epoch) :
    ¬ Overtaken (batch s h.store) ts f ∧ handed f.id ts = [s.topic.message f f.enriched] ∨
      Overtaken (batch s h.store) ts f ∧ handed f.id ts = [] := by
  obtain ⟨us, u, vs, hts, hcall, only⟩ := pass.exists_ask hf todo
  obtain ⟨p, result, h', -, run⟩ := pass.performed
  have chain := run.chain
  have hu : u ∈ ts := hts ▸ List.mem_append_right _ List.mem_cons_self
  rw [pass.handed_eq hf todo only]
  by_cases passed : u.passed? = some (f.id, f.epoch)
  · refine .inl ⟨?_, if_pos passed⟩
    rintro ⟨us', u', vs', hts', hcall', v, hv, g, -, -, higher, hpass⟩
    have hu' : u' ∈ ts := hts' ▸ List.mem_append_right _ List.mem_cons_self
    obtain rfl := only u' hu' hcall'
    have lower := ((hts' ▸ chain).passed?_iff admits hcall' (pass.reached _ hu)).1 passed
    exact absurd higher (Int.not_lt.2 (lower v hv _ _ hpass))
  · refine .inr ⟨?_, if_neg passed⟩
    have barred := mt ((hts ▸ chain).passed?_iff admits hcall (pass.reached u hu)).2 passed
    obtain ⟨v, hv, j, e, hpass, higher⟩ : ∃ v ∈ us, ∃ j e, v.passed? = some (j, e) ∧
        f.epoch < e := by
      by_contra none
      exact barred fun v hv j e hpass =>
        Int.not_lt.1 fun higher => none ⟨v, hv, j, e, hpass, higher⟩
    have ask := Turn.call_of_passed? hpass
    have hv' : v ∈ ts := hts ▸ List.mem_append_left _ hv
    obtain ⟨g, hg, fresh, made⟩ := pass.broadcasts hv' (by rw [ask]; rfl)
    rw [ask] at made
    cases made with
    | advance => exact ⟨us, u, vs, hts, hcall, v, hv, g, hg, fresh, higher, hpass⟩

/-- Where entries are handled one after another, only their feeds ask to be let through. -/
theorem mem_of_forEach_asks {t : Broadcast.Topic} {ids : List FeedId} {h h' : Hub}
    {results : List Bool} (run : (Program.forEach ids (relayOne t)).Runs h ts results h')
    {u : Turn} (hu : u ∈ ts) {j : FeedId} {e : Int} (hcall : u.call = .advance j e) : j ∈ ids := by
  have only : (Program.forEach ids (relayOne t)).Only fun c => ∃ i ∈ ids, Makes t i c :=
    Program.only_forEach fun i hi => (only_relayOne t i).mono fun c hc => ⟨i, hi, hc⟩
  obtain ⟨i, hi, made⟩ := run.only only u hu
  rw [hcall] at made
  cases made with
  | passive hc => cases hc
  | processing hid hc =>
    cases hc with
    | passive hc => cases hc
    | broadcast hc =>
      cases hc with
      | advance => exact hid ▸ hi

/-- **One after another, none is overtaken**, if no feed that comes before has a greater
epoch. -/
theorem HealthyPass.not_overtaken (pass : HealthyPass s h ts)
    (sequential : s.pipeline.concurrency = 1)
    (ordered : ∀ g ∈ batch s h.store, g.processed = false → g.id ≤ f.id → g.epoch ≤ f.epoch)
    (hf : f ∈ batch s h.store) : ¬ Overtaken (batch s h.store) ts f := by
  rintro ⟨us, u, vs, hts, hcall, v, hv, g, hg, fresh, higher, hpass⟩
  obtain ⟨p, result, h', hp, run⟩ := pass.performed
  rw [hp.eq_drain sequential] at run
  obtain ⟨first, ws, results, h₁, h₂, rfl, hfirst, -, -, -, handled⟩ :=
    drainBy_runs run pass.reached
  -- the calls up to the entry of the feed, its own included, and those after it
  obtain ⟨before, after, split⟩ := List.append_of_mem (mem_batch.1 hf).1
  rw [split, ← List.singleton_append, ← List.append_assoc] at handled
  obtain ⟨as, cs, _, _, h₃, h₄, rfl, early, late⟩ := handled.of_forEach_append
  have ascending : (h.store.pending s.pipeline.relayBatchSize).Pairwise (· < ·) :=
    pass.coherent.queued.sublist (List.take_sublist _ _)
  rw [split, List.pairwise_append, List.pairwise_cons] at ascending
  obtain ⟨-, ⟨above, -⟩, below⟩ := ascending
  have lower : ∀ j ∈ before ++ [f.id], j ≤ f.id := fun j hj => by
    rcases List.mem_append.1 hj with hj | hj
    · exact Int.le_of_lt (below j hj f.id List.mem_cons_self)
    · exact Int.le_of_eq (List.mem_singleton.1 hj)
  -- the feed does not ask after its own entry, so what came before that came before the rest
  have whole : (first :: as) ++ cs = us ++ u :: vs := hts
  have among : v ∈ first :: as := by
    rcases List.append_eq_append_iff.1 whole with ⟨ds, -, hds⟩ | ⟨ds, hds, -⟩
    · have hu : u ∈ cs := hds ▸ List.mem_append_right _ List.mem_cons_self
      exact absurd (above f.id (mem_of_forEach_asks late hu hcall)) (Int.lt_irrefl _)
    · exact hds ▸ List.mem_append_left _ hv
  have ask := Turn.call_of_passed? hpass
  rcases List.mem_cons.1 among with rfl | among
  · rw [hfirst] at ask
    cases ask
  · have earlier := lower g.id (mem_of_forEach_asks early among ask)
    exact absurd higher (Int.not_lt.2 (ordered g hg fresh earlier))

end Outbox

namespace History

open Outbox

variable {s : Settings} {allowed : Act → Prop} {start h h' : Hub} {us ts : List Turn}
  {p : Program (Stored Nat)} {result : Stored Nat} {f : Feed}

/-- **Publication of a batch.** A pass over the outbox finds a batch of feeds whose epochs, where
they have not been processed yet, lie at the watermark or above it; no call of the pass fails,
and the sink accepts what it is handed. Then, however the feeds take turns, of each of them that
has not been processed yet one message is published, which carries it, or it has been overtaken
and is not published; the others are not published again. No feed is overtaken if its epoch is
the greatest of these, and where feeds are handled one after another none is that comes after
feeds of no greater epoch. -/
theorem batch_published (hist : History s allowed start us h)
    (empty : start.store = Store.empty) (on : s.topic.enabled = true)
    (hp : Act.PerformedBy s .drain p) (run : p.Runs h ts result h')
    (healthy : ∀ t ∈ ts, ¬ t.failed)
    (accepted : ∀ t ∈ ts, ∀ m, t.call = .post m → t.published? = some m)
    (above : ∀ g ∈ batch s h.store, g.processed = false →
      ∀ w, h.store.mark = some w → w ≤ g.epoch)
    (hf : f ∈ batch s h.store) :
    (f.processed = true → published f.id ts = []) ∧
    (f.processed = false →
      (¬ Overtaken (batch s h.store) ts f ∧ s.topic.Sends f (published f.id ts) ∨
        Overtaken (batch s h.store) ts f ∧ published f.id ts = []) ∧
      ((∀ g ∈ batch s h.store, g.processed = false → g.epoch ≤ f.epoch) →
        s.topic.Sends f (published f.id ts)) ∧
      (s.pipeline.concurrency = 1 →
        (∀ g ∈ batch s h.store, g.processed = false → g.id ≤ f.id → g.epoch ≤ f.epoch) →
          s.topic.Sends f (published f.id ts))) := by
  have coherent := (hist.coherent (empty ▸ Store.coherent_empty)).1
  have pass : HealthyPass s h ts := ⟨on, coherent, healthy, p, result, h', hp, run⟩
  rw [published_eq_handed accepted]
  refine ⟨pass.handed_of_processed hf, fun todo => ?_⟩
  have either : ¬ Overtaken (batch s h.store) ts f ∧ s.topic.Sends f (handed f.id ts) ∨
      Overtaken (batch s h.store) ts f ∧ handed f.id ts = [] :=
    (pass.handed_iff hf todo (above f hf todo)).imp_left fun ⟨spared, sent⟩ =>
      ⟨spared, sent ▸ s.topic.sends_message f⟩
  have spare : ¬ Overtaken (batch s h.store) ts f → s.topic.Sends f (handed f.id ts) :=
    fun spared => by
      rcases either with ⟨-, sends⟩ | ⟨overtaken, -⟩
      · exact sends
      · exact absurd overtaken spared
  refine ⟨either, fun greatest => spare ?_, fun sequential ordered => spare ?_⟩
  · rintro ⟨_, _, _, -, -, _, -, g, hg, fresh, higher, -⟩
    exact absurd higher (Int.not_lt.2 (greatest g hg fresh))
  · exact pass.not_overtaken sequential ordered hf

/-- Two feeds in the order of their epochs that wait in the outbox. -/
def twoWaiting : Hub :=
  ((Intake.add (.sample "q" ["solana:alice"] 2)).run .none
    ((Intake.add (.sample "p" ["solana:alice"] 1)).run .none .sample).2).2

/-- Of two entries the second is handled before the first is begun. -/
def secondFirst (t : Broadcast.Topic) : List FeedId → Program (List Bool)
  | [i, j] => (relayOne t j).bind fun b => (relayOne t i).bind fun a => .done [a, b]
  | ids => Program.forEach ids (relayOne t)

/-- A pass that handles two entries in this order. -/
def overtaking : Program (Stored Nat) :=
  drainBy (secondFirst Settings.sample.topic) Settings.sample.pipeline.relayBatchSize

/-- The pass in which the second feed overtakes the first is a pass over the outbox. -/
theorem performedBy_overtaking : Act.PerformedBy Settings.sample .drain overtaking := by
  refine .drain fun ids => ?_
  unfold secondFirst
  split
  · exact Program.Weave.swap (by decide) _ _
  · exact Program.weave_forEach (by decide) _ _

/-- The calls of this pass over the two feeds. -/
def overtakes : List Turn := overtaking.turns .none twoWaiting

/-- In this pass the sink accepts whatever is posted. -/
theorem accepted_overtakes : ∀ t ∈ overtakes, ∀ m, t.call = .post m → t.published? = some m := by
  have all : overtakes.all Turn.isAccepted = true := by decide +kernel
  exact fun t ht m hcall => Turn.published?_of_isAccepted (List.all_eq_true.1 all t ht) hcall

/-- The two feeds wait in a history. -/
theorem history_twoWaiting : ∃ ts, History .sample (fun _ => True) .sample ts twoWaiting :=
  ⟨_, (History.start.andThen trivial (.add _) .none).andThen trivial (.add _) .none⟩

/-- A feed that waits in the outbox although it was processed, when the sink refused it. -/
def refusedOnce : Hub :=
  let stored := ((Intake.add (.sample "p" ["solana:alice"] 1)).run .none .sample).2
  let f := Feed.ofDraft 1 (.sample "p" ["solana:alice"] 1)
  ((Processing.process Settings.sample.topic f).run .none
    { stored with sink := ⟨true, [500], []⟩ }).2

/-- **A batch need not be published.** Two feeds wait in the order of their epochs, and in a
healthy pass the second is handled before the first is begun: only the second is published,
although both are when one is handled after the other. A feed that was processed before, and
refused by the sink, is not published by a healthy pass either. -/
theorem older_overtaken_of_twoWaiting :
    (Act.PerformedBy .sample .drain overtaking ∧
      (∃ result h', overtaking.Runs twoWaiting overtakes result h') ∧
      (∀ t ∈ overtakes, ¬ t.failed) ∧
      (∀ t ∈ overtakes, ∀ m, t.call = .post m → t.published? = some m) ∧
      twoWaiting.store.mark = none ∧
      (batch .sample twoWaiting.store).map (fun f => (f.id, f.epoch, f.processed)) =
        [(1, 1, false), (2, 2, false)] ∧
      (overtakes.filterMap Turn.published?).map (·.id) = [2] ∧
      (((Outbox.drain Settings.sample.topic 100).turns .none twoWaiting).filterMap
        Turn.published?).map (·.id) = [1, 2]) ∧
    (refusedOnce.sink.answers = [] ∧ refusedOnce.store.mark = some 1 ∧
      refusedOnce.sink.log.map (fun a => (a.status, a.message.id)) = [(500, 1)] ∧
      (batch .sample refusedOnce.store).map (fun f => (f.id, f.epoch, f.processed)) =
        [(1, 1, true)] ∧
      (((Outbox.drain Settings.sample.topic 100).turns .none refusedOnce).filterMap
        Turn.published?).map (·.id) = []) := by
  refine ⟨⟨performedBy_overtaking, ⟨_, _, overtaking.runs_run .none twoWaiting⟩,
    fun t ht => Program.not_failed_of_mem_turns ht, accepted_overtakes, ?_, ?_, ?_, ?_⟩,
    ?_, ?_, ?_, ?_, ?_⟩ <;> decide +kernel

/-- The newer of two feeds is published, although it overtakes the older. -/
theorem batch_published_of_twoWaiting :
    ∃ f ∈ batch .sample twoWaiting.store, f.id = 2 ∧
      Settings.sample.topic.Sends f (published f.id overtakes) := by
  obtain ⟨_, hist⟩ := history_twoWaiting
  have marks : (batch .sample twoWaiting.store).map (fun f => (f.id, f.epoch, f.processed)) =
      [(1, 1, false), (2, 2, false)] := by decide +kernel
  have unmarked : twoWaiting.store.mark = none := by decide +kernel
  have last : ((2, 2, false) : FeedId × Int × Bool) ∈
      (batch .sample twoWaiting.store).map fun f => (f.id, f.epoch, f.processed) := by
    rw [marks]
    exact List.mem_cons_of_mem _ List.mem_cons_self
  obtain ⟨f, hf, hmarks⟩ := List.mem_map.1 last
  simp only [Prod.mk.injEq] at hmarks
  obtain ⟨hid, hepoch, todo⟩ := hmarks
  have lower : ∀ g ∈ batch .sample twoWaiting.store, g.epoch ≤ f.epoch := fun g hg => by
    have among := marks ▸ List.mem_map_of_mem (f := fun f : Feed => (f.id, f.epoch, f.processed)) hg
    simp only [List.mem_cons, Prod.mk.injEq, List.not_mem_nil, or_false] at among
    omega
  have pass := batch_published hist rfl rfl performedBy_overtaking
    (overtaking.runs_run .none twoWaiting) (fun t ht => Program.not_failed_of_mem_turns ht)
    accepted_overtakes (fun g _ _ w hw => by rw [unmarked] at hw; cases hw) hf
  exact ⟨f, hf, hid, (pass.2 todo).2.1 fun g hg _ => lower g hg⟩

end History
end NotificationRelay
