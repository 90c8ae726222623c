/-
# Feeds that have used up their attempts

A feed is announced when its processing begins, when a live event of it is offered, and when it is
broadcast (`Call.announces`). Whoever processes a feed announces it first and settles it afterwards
(`Processing.phased_process`, `Outbox.phased_relayOne`), and announces no other. So as long as a
feed is announced in a pass it stands where it stood when the pass began, however the feeds of the
batch take turns (`Program.Weave.standing_of_announced`).

A retry pass takes feeds below the cap of attempts, so it announces no other. A pass over the outbox
does not look at the attempts: it announces what waits. So a feed that has used up its attempts is
announced only where it waits in the outbox, which comes about only if its acknowledgement was lost
or its attempts were counted by others (`Standing.untried_act`). Once it has left the outbox it
never comes back, and its count does not fall (`Standing.Spent.perform`): it is left alone
(`Hub.Evolves.spent_left_alone`).
-/
import NotificationRelay.Proofs.Flow.Delivery
import NotificationRelay.Proofs.Flow.Ledger
import NotificationRelay.Proofs.Run.Interleaving
import NotificationRelay.Proofs.Store.Reachability

namespace NotificationRelay

/-! ## Announcing a feed and settling it -/

/-- Whether a call begins to process a feed, offers a live event of it, or broadcasts it. -/
def Call.announces (i : FeedId) : Call → Bool
  | .note j => decide (j = i)
  | .offer _ e => decide (e.live? = some i)
  | .advance j _ => decide (j = i)
  | .post m => decide (m.id = i)
  | _ => false

/-- A call that announces a feed delivers something. -/
theorem Call.delivers_of_announces {i : FeedId} {c : Call} (hc : c.announces i = true) :
    c.delivers = true := by
  cases c with
  | offer _ e =>
    have live : e.live? = some i := of_decide_eq_true hc
    simp [delivers, live]
  | note | advance | post => rfl
  | _ => cases hc

/-- A call that announces one feed at most and leaves every feed where it stands. -/
structure Call.AnnouncesOnly (j : FeedId) (c : Call) : Prop where
  unmoved : ∀ i, Standing.Unmoved i c
  own : ∀ i, c.announces i = true → j = i

/-- A call that moves one feed at most and announces none. -/
structure Call.SettlesOnly (j : FeedId) (c : Call) : Prop where
  unmoved : ∀ i, j ≠ i → Standing.Unmoved i c
  silent : ∀ i, c.announces i = false

/-- A passive call that announces nothing announces at most any one feed. -/
theorem Call.announcesOnly_of_silent {c : Call} (hc : c.isPassive = true)
    (silent : ∀ i, c.announces i = false) (j : FeedId) : c.AnnouncesOnly j :=
  ⟨fun _ => Standing.unmoved_passive hc, fun i announced => by
    rw [silent i] at announced
    cases announced⟩

/-- The calls of a broadcast announce its own feed at most. -/
theorem Broadcast.Makes.announcesOnly {t : Topic} {f : Feed} {c : Call} (hc : Makes t f c) :
    c.AnnouncesOnly f.id where
  unmoved _ := Standing.unmoved_broadcast hc
  own i announced := by cases hc <;> exact of_decide_eq_true announced

/-- An offer of a live event announces the feed of the event. -/
theorem Call.announcesOnly_offer {i : FeedId} (k : SessionId) {e : Event} (he : e.live? = some i) :
    (Call.offer k e).AnnouncesOnly i :=
  ⟨fun _ => Standing.unmoved_passive rfl, fun _ announced =>
    Option.some.inj (he.symm.trans (of_decide_eq_true announced))⟩

/-- Telling sessions of a feed announces it, and no other. -/
theorem Dispatch.announcesOnly_dispatch (f : Feed) :
    (dispatch f f.enriched).Only (Call.AnnouncesOnly f.id) :=
  only_dispatch (Call.announcesOnly_of_silent rfl (fun _ => rfl) f.id)
    (Call.announcesOnly_of_silent rfl (fun _ => rfl) f.id)
    (fun k => Call.announcesOnly_offer k (Event.live?_forClient f f.enriched))
    fun k => Call.announcesOnly_offer k rfl

namespace Processing

variable (t : Broadcast.Topic) (f : Feed)

/-- Marking a feed as processed settles this feed only. -/
theorem settlesOnly_complete (payload : Payload) :
    (Call.complete f.id payload).SettlesOnly f.id where
  unmoved _ hi := Standing.unmoved_update (Ne.symm hi) (·.completed payload) (fun _ => rfl)
    fun _ => rfl
  silent _ := rfl

/-- Counting an attempt settles this feed only. -/
theorem settlesOnly_bump : (Call.bump f.id).SettlesOnly f.id where
  unmoved _ hi := Standing.unmoved_update (Ne.symm hi) Feed.bumped (fun _ => rfl) fun _ => rfl
  silent _ := rfl

/-- A feed that is processed is announced first and settled afterwards. -/
theorem phased_process :
    (process t f).Phased (Call.AnnouncesOnly f.id) (Call.SettlesOnly f.id) := by
  have noted : (Call.note f.id).AnnouncesOnly f.id :=
    ⟨fun _ _ => rfl, fun i announced => of_decide_eq_true announced⟩
  rw [process_eq]
  refine Program.Phased.first_bind (Program.only_perform noted) fun _ => ?_
  refine Program.Phased.first_bind (Dispatch.announcesOnly_dispatch f) fun dispatch => ?_
  refine Program.Phased.first_bind ((Broadcast.only_publish t f).mono fun c hc => hc.announcesOnly)
    fun outcome => .of_second ?_
  exact only_settle f (settlesOnly_complete f _) (settlesOnly_bump f) dispatch outcome

end Processing

namespace Outbox

/-- The feed of an entry is announced first, and settled and acknowledged afterwards. -/
theorem phased_relayOne (t : Broadcast.Topic) (i : FeedId) :
    (relayOne t i).Phased (Call.AnnouncesOnly i) (Call.SettlesOnly i) := by
  have acknowledging : (acknowledge i).Only (Call.SettlesOnly i) :=
    only_acknowledge i ⟨fun _ hj => Standing.unmoved_acknowledge (Ne.symm hj), fun _ => rfl⟩
  refine .inl ⟨Call.announcesOnly_of_silent rfl (fun _ => rfl) i, fun outages h => ?_⟩
  simp only [Call.perform, Outages.guard]
  split
  · trivial
  · cases hf : h.store.feed? i with
    | none => exact .of_second acknowledging
    | some f =>
      obtain rfl := Store.id_of_feed? hf
      show (if f.processed then acknowledge f.id else _ : Program Bool).Phased _ _
      split
      · exact .of_second acknowledging
      · exact (Processing.phased_process t f).bind_second fun _ => acknowledging

end Outbox

/-! ## While feeds are announced in a pass -/

/-- Calls that do not move a feed leave it where it stands. -/
theorem Turn.Chain.standing_eq {s s' : Store} {ts : List Turn} {i : FeedId} (c : Turn.Chain s ts s')
    (unmoved : ∀ t ∈ ts, Standing.Unmoved i t.call) : s'.standing i = s.standing i := by
  induction c with
  | nil => rfl
  | @cons t ts s' genuine _ ih =>
    obtain ⟨outages, ht⟩ := genuine
    have after : t.after = (t.call.perform outages t.before).2 := congrArg Turn.after ht
    rw [ih fun u hu => unmoved u (List.mem_cons_of_mem _ hu), after]
    exact Standing.standing_perform (unmoved t List.mem_cons_self) outages t.before

namespace Program

variable {α β : Type} {items : List β} {body : β → Program α} {h h' : Hub}
  {us vs : List Turn} {u : Turn} {i : FeedId}

/-- Where feeds that differ are handled side by side, each announced before it is settled, a feed
that is announced is one of them, and stands where it stood at the start. -/
theorem Weave.standing_of_announced (key : β → FeedId) {limit : Nat} {w : Program (List α)}
    {results : List α}
    (hw : Weave limit (items.map body) w)
    (phased : ∀ b ∈ items, (body b).Phased (Call.AnnouncesOnly (key b)) (Call.SettlesOnly (key b)))
    (apart : (items.map key).Nodup) (run : w.Runs h (us ++ u :: vs) results h')
    (announced : u.call.announces i = true) :
    ∃ b ∈ items, key b = i ∧ u.before.store.standing i = h.store.standing i := by
  obtain ⟨moves, made, r⟩ := hw.interleaved run
  obtain ⟨before, rest, rfl, rfl, same⟩ := List.map_eq_append_iff.1 made
  clear made
  obtain ⟨⟨k, u'⟩, after, rfl, heq, rfl⟩ := List.map_eq_cons_iff.1 same
  obtain rfl : u' = u := heq
  have loud : ∀ j, ¬ u'.call.SettlesOnly j := fun j settles => by
    rw [settles.silent i] at announced
    cases announced
  -- whoever announced the feed has not settled it yet
  have item : ∀ {j : Nat} {v : Turn}, (j, v) ∈ before ++ (k, u') :: after → ∃ b q,
      items[j]? = some b ∧ b ∈ items ∧ (body b).Goes (Turn.share j (before ++ (k, u') :: after)) q ∧
        v ∈ Turn.share j (before ++ (k, u') :: after) := by
    intro j v hv
    obtain ⟨p, q, hp, -, goes, mine⟩ := r.exists_goes hv
    rw [List.getElem?_map] at hp
    obtain ⟨b, hb, rfl⟩ := Option.map_eq_some_iff.1 hp
    exact ⟨b, q, hb, List.mem_of_getElem? hb, goes, mine⟩
  obtain ⟨b, q, hb, hmem, goes, -⟩ := item (List.mem_append_right before List.mem_cons_self)
  rw [Turn.share_append, Turn.share_cons_self] at goes
  obtain ⟨announces, mine⟩ := (phased b hmem).of_split goes (loud _)
  obtain rfl := announces.own i announced
  refine ⟨b, hmem, rfl, ?_⟩
  obtain ⟨s, first, second⟩ := Turn.Chain.of_append (List.map_append ▸ r.chain)
  obtain ⟨rfl, -⟩ := Turn.Chain.of_cons second
  refine first.standing_eq fun v hv => ?_
  obtain ⟨⟨j, v'⟩, hmove, rfl⟩ := List.mem_map.1 hv
  by_cases hj : j = k
  · subst hj
    exact (mine v' (Turn.mem_share.2 hmove)).unmoved _
  · obtain ⟨b', q', hb', hmem', goes', mine'⟩ := item (List.mem_append_left _ hmove)
    have inside : j < (items.map key).length := by
      rw [List.length_map]
      exact (List.getElem?_eq_some_iff.1 hb').1
    have other : key b' ≠ key b := fun same =>
      hj ((List.getElem?_inj inside apart).1 (by simp [hb, hb', same]))
    -- its own announcements move nothing, and what settles it moves no other feed
    obtain ⟨xs, ys, split, hxs, hys⟩ := (phased b' hmem').of_goes goes'
    rw [split] at mine'
    rcases List.mem_append.1 mine' with hx | hy
    · exact (hxs v' hx).unmoved _
    · exact (hys v' hy).unmoved _ other

/-- A program that begins by selecting items, and is done once these have been handled. -/
theorem Runs.of_selection {γ : Type} {c : Call} {next : c.Answer → Program γ} {a : γ}
    {handled : Program α} (run : (Program.call c next).Runs h us a h')
    (passive : c.isPassive = true)
    (select : ∀ outages g, g.store = h.store → (∃ b, next (c.perform outages g).1 = .done b) ∨
      ∃ finish : α → γ, next (c.perform outages g).1 =
        handled.bind fun results => .done (finish results)) :
    ∃ t vs, us = t :: vs ∧ t.call = c ∧
      (vs = [] ∨ ∃ h₁ h₂ results, h₁.store = h.store ∧ handled.Runs h₁ vs results h₂) := by
  obtain ⟨h₁, outages, vs, out, rfl, rest⟩ := run.of_call
  have same := Hub.store_eq_of_outside out
  refine ⟨_, vs, rfl, rfl, ?_⟩
  rcases select outages h₁ same with ⟨b, ended⟩ | ⟨finish, going⟩
  · rw [ended] at rest
    exact .inl rest.of_done.1
  · rw [going] at rest
    obtain ⟨ws, xs, results, h₂, rfl, hws, hxs⟩ := rest.of_bind
    obtain ⟨rfl, -, -⟩ := hxs.of_done
    have kept := (Runs.store_of_passive (.call outages (.done _ _))
      (passive_perform passive)).trans same
    exact .inr ⟨_, h₂, results, kept, by rwa [List.append_nil]⟩

/-- So where a pass begins by selecting feeds that differ, what it announces is among them. -/
theorem Runs.standing_of_selection {γ : Type} {c : Call} {next : c.Answer → Program γ} {a : γ}
    {limit : Nat} {w : Program (List α)} (run : (Program.call c next).Runs h us a h')
    (sideBySide : Weave limit (items.map body) w) (key : β → FeedId) (passive : c.isPassive = true)
    (silent : c.announces i = false)
    (select : ∀ outages g, g.store = h.store → (∃ b, next (c.perform outages g).1 = .done b) ∨
      ∃ finish : List α → γ, next (c.perform outages g).1 =
        w.bind fun results => .done (finish results))
    (phased : ∀ b ∈ items, (body b).Phased (Call.AnnouncesOnly (key b)) (Call.SettlesOnly (key b)))
    (apart : (items.map key).Nodup) (hu : u ∈ us) (announced : u.call.announces i = true) :
    ∃ b ∈ items, key b = i ∧ u.before.store.standing i = h.store.standing i := by
  obtain ⟨t, vs, rfl, hcall, handled⟩ := run.of_selection passive select
  rcases List.mem_cons.1 hu with rfl | hu
  · rw [hcall, silent] at announced
    cases announced
  rcases handled with rfl | ⟨h₁, h₂, results, same, run⟩
  · cases hu
  obtain ⟨before, after, rfl⟩ := List.append_of_mem hu
  obtain ⟨b, hb, hkey, still⟩ := sideBySide.standing_of_announced key phased apart run announced
  exact ⟨b, hb, hkey, by rw [still, same]⟩

end Program

/-! ## The two passes -/

section Passes

variable {s : Settings} {α : Type} {p : Program α} {result : α} {h h' : Hub} {us : List Turn}
  {u : Turn} {i : FeedId}

/-- A pass over the outbox announces what waits there. -/
theorem Outbox.announced_of_drain (hp : Act.PerformedBy s .drain p) (coherent : h.store.Coherent)
    (run : p.Runs h us result h') (hu : u ∈ us) (announced : u.call.announces i = true) :
    i ∈ h.store.outbox ∧ u.before.store.standing i = h.store.standing i := by
  cases hp with
  | @drain handle sideBySide =>
    obtain ⟨j, hj, rfl, still⟩ := run.standing_of_selection
      (sideBySide (h.store.pending s.pipeline.relayBatchSize)) id rfl rfl
      (fun outages g same => by
        simp only [Call.perform, Outages.guard]
        split
        · exact .inl ⟨_, rfl⟩
        · exact .inr ⟨_, by rw [← same]; rfl⟩)
      (fun j _ => phased_relayOne s.topic j)
      (by rw [List.map_id]; exact coherent.nodup_pending _) hu announced
    exact ⟨List.mem_of_mem_take hj, still⟩

/-- A retry pass announces what is below the cap of attempts and does not wait in the outbox. -/
theorem Retry.announced_of_retry (hp : Act.PerformedBy s .retry p) (coherent : h.store.Coherent)
    (run : p.Runs h us result h') (hu : u ∈ us) (announced : u.call.announces i = true) :
    (∃ f, h.store.feed? i = some f ∧ f.attempts < s.pipeline.maxAttempts) ∧
      i ∉ h.store.outbox ∧ u.before.store.standing i = h.store.standing i := by
  cases hp with
  | @retry handle sideBySide =>
    obtain ⟨f, hf, rfl, still⟩ := run.standing_of_selection
      (sideBySide (h.store.candidates s.pipeline.maxAttempts s.pipeline.retryBatchSize)) (·.id)
      rfl rfl
      (fun outages g same => by
        simp only [Call.perform, Outages.guard]
        split
        · exact .inl ⟨_, rfl⟩
        · exact .inr ⟨_, by rw [← same]; rfl⟩)
      (fun f _ => Processing.phased_process s.topic f) (coherent.nodup_candidates _ _) hu announced
    obtain ⟨hmem, retryable⟩ := Store.mem_candidates hf
    simp only [Store.isRetryable, Bool.and_eq_true, Bool.not_eq_true', List.contains_eq_mem,
      decide_eq_true_eq, decide_eq_false_iff_not] at retryable
    exact ⟨⟨f, coherent.feed?_eq_some_iff.2 ⟨hmem, rfl⟩, retryable.1.2⟩, retryable.2, still⟩

end Passes

/-! ## Feeds that have used up their attempts -/

/-- A feed has used up its attempts and does not wait in the outbox, if it is stored at all. -/
structure Standing.Spent (cap : Nat) (x : Standing) : Prop where
  given : x.given = true
  out : x.waiting = false
  used : ∀ f, x.feed = some f → cap ≤ f.attempts

namespace Standing.Spent

variable {cap : Nat} {i j : FeedId} {s : Store}

/-- A feed that is spent stays so when its attempts do not become fewer. -/
theorem modify (spent : (s.standing i).Spent cap) {change : Feed → Feed}
    (hid : ∀ f, (change f).id = f.id)
    (used : j = i → ∀ f : Feed, cap ≤ f.attempts → cap ≤ (change f).attempts) :
    ((s.modify j change).standing i).Spent cap := by
  rw [of_modify s j change hid]
  refine ⟨spent.given, spent.out, fun g hg => ?_⟩
  dsimp only at hg
  split at hg
  · next same =>
    obtain ⟨f, hf, rfl⟩ := Option.map_eq_some_iff.1 hg
    exact used same.symm f (spent.used f hf)
  · exact spent.used g hg

/-- **Nothing but to set its attempts brings such a feed back.** -/
theorem perform (spent : (s.standing i).Spent cap) (coherent : s.Coherent)
    (bound : cap ≤ Feed.maxAttempts) {op : Store.Op} (other : ∀ n, op ≠ .setAttempts i n) :
    ((op.perform s).standing i).Spent cap := by
  cases op with
  | insert d =>
    rcases of_insert coherent d (i := i) with same | ⟨new, -⟩
    · rwa [Store.Op.perform, same]
    · have given := spent.given
      rw [new] at given
      cases given
  | complete k payload =>
    rw [Store.Op.perform, Store.complete, Store.update_snd]
    exact spent.modify (fun _ => rfl) fun _ f hf => hf
  | bump k =>
    rw [Store.Op.perform, Store.bump, Store.update_snd]
    refine spent.modify (fun _ => rfl) fun _ f hf => ?_
    show cap ≤ min (f.attempts + 1) Feed.maxAttempts
    omega
  | setAttempts k n =>
    rw [Store.Op.perform, Store.setAttempts, Store.update_snd]
    refine spent.modify (fun _ => rfl) fun same => ?_
    exact absurd (by rw [same]) (other n)
  | acknowledge k =>
    rw [Store.Op.perform, of_acknowledge]
    exact ⟨spent.given, by rw [spent.out, Bool.false_and], spent.used⟩
  | advance key value =>
    simp only [Store.Op.perform, Store.advance]
    split
    · split <;> exact spent
    · exact spent
  | deleteExpired now =>
    rw [Store.Op.perform]
    rcases of_deleteExpired s now (i := i) with same | gone
    · rwa [same]
    · rw [gone]
      exact ⟨spent.given, rfl, by rintro _ ⟨⟩⟩
  | append | unindex | setWatermark | subscribe => exact spent

/-- So whatever the passes do it stays as it is. -/
theorem of_runs {α : Type} {p : Program α} {h h' : Hub} {us : List Turn} {result : α}
    (spent : (h.store.standing i).Spent cap) (coherent : h.store.Coherent)
    (bound : cap ≤ Feed.maxAttempts) (run : p.Runs h us result h') :
    (h'.store.standing i).Spent cap := by
  refine (run.keeps (fun g => g.store.Coherent ∧ (g.store.standing i).Spent cap) p.only_any
    (fun g g' o hg => by rwa [o.store_eq]) (fun c outages g _ hg => ?_) ⟨coherent, spent⟩).1.2
  exact c.keeps_of_op (fun s => s.Coherent ∧ (s.standing i).Spent cap) outages
    (fun op hop => ⟨hg.1.perform op, hg.2.perform hg.1 bound fun n same =>
      c.op?_ne_setAttempts i n (same ▸ hop)⟩) hg

end Standing.Spent

/-! ## Feeds that wait -/

/-- A feed has not been tried if it waits in the outbox. -/
def Standing.Untried (x : Standing) : Prop :=
  x.waiting = true → ∀ f, x.feed = some f → f.attempts = 0

namespace Standing.Untried

variable {i j : FeedId} {s : Store}

/-- A feed that has not been tried stays so while its attempts stay the same. -/
theorem modify (untried : (s.standing i).Untried) {change : Feed → Feed}
    (hid : ∀ f, (change f).id = f.id)
    (same : j = i → ∀ f : Feed, (change f).attempts = f.attempts) :
    ((s.modify j change).standing i).Untried := by
  rw [of_modify s j change hid]
  intro waits g hg
  dsimp only at hg
  split at hg
  · next here =>
    obtain ⟨f, hf, rfl⟩ := Option.map_eq_some_iff.1 hg
    rw [same here.symm f]
    exact untried waits f hf
  · exact untried waits g hg

/-- Only to count an attempt, or to set the attempts, makes a difference. -/
theorem perform (untried : (s.standing i).Untried) (coherent : s.Coherent) {op : Store.Op}
    (bump : op ≠ .bump i) (set : ∀ n, op ≠ .setAttempts i n) :
    ((op.perform s).standing i).Untried := by
  cases op with
  | insert d =>
    rcases of_insert coherent d (i := i) with same | ⟨-, stored⟩
    · rwa [Store.Op.perform, same]
    · rw [Store.Op.perform, stored]
      rintro - f hf
      obtain rfl := Option.some.inj hf
      rfl
  | complete k payload =>
    rw [Store.Op.perform, Store.complete, Store.update_snd]
    exact untried.modify (fun _ => rfl) fun _ _ => rfl
  | bump k =>
    rw [Store.Op.perform, Store.bump, Store.update_snd]
    exact untried.modify (fun _ => rfl) fun same => absurd (by rw [same]) bump
  | setAttempts k n =>
    rw [Store.Op.perform, Store.setAttempts, Store.update_snd]
    exact untried.modify (fun _ => rfl) fun same => absurd (by rw [same]) (set n)
  | acknowledge k =>
    rw [Store.Op.perform, of_acknowledge]
    exact fun waits => untried (Bool.and_eq_true_iff.1 waits).1
  | advance key value =>
    simp only [Store.Op.perform, Store.advance]
    split
    · split <;> exact untried
    · exact untried
  | deleteExpired now =>
    rw [Store.Op.perform]
    rcases of_deleteExpired s now (i := i) with same | gone
    · rwa [same]
    · rw [gone]
      rintro ⟨⟩
  | append | unindex | setWatermark | subscribe => exact untried

end Standing.Untried

namespace Standing

/-- A coherent store, and an acknowledgement of the feed does not fail. -/
structure Acknowledged (i : FeedId) (u : Turn) : Prop where
  coherent : u.before.store.Coherent
  reached : u.call = .acknowledge i → ¬ u.failed

section Leads

variable {i : FeedId} {x : Standing} {n : Nat}

/-- What is out of the outbox has not been tried while it waits. -/
theorem Untried.of_out (out : x.waiting = false) : x.Untried :=
  fun waits => absurd (out.symm.trans waits) (by decide)

/-- Processing a feed does not put it into the outbox. -/
theorem untried_process (t : Broadcast.Topic) (f : Feed) (out : x.waiting = false) :
    (Processing.process t f).Leads (aspect i fun _ => false) (Acknowledged i)
      (fun _ y _ => y.Untried) x n := by
  refine .of_kept (fun y => y.waiting = false) ((Processing.only_process t f).mono
    fun c hc => ⟨rfl, fun outages h hy => ?_⟩) out fun _ _ => Untried.of_out
  have still : ∀ s : Store, ((c.effect s).standing i).waiting = (s.standing i).waiting := by
    intro s
    cases hc with
    | note => rfl
    | passive hc => rw [c.effect_of_passive hc]
    | broadcast hc => rw [unmoved_broadcast hc]
    | complete => rw [Call.effect, Store.complete, Store.update_snd]; rfl
    | bump => rw [Call.effect, Store.bump, Store.update_snd]; rfl
  show (Store.standing _ i).waiting = false
  by_cases hf : (c.turn outages h).failed
  · rwa [c.perform_of_failed outages h hf]
  · rw [c.store_perform_of_not_failed outages h hf, still]
    exact hy

/-- An entry that is acknowledged is out of the outbox. -/
theorem untried_acknowledge :
    (Outbox.acknowledge i).Leads (aspect i fun _ => false) (Acknowledged i)
      (fun _ y _ => y.Untried) x n :=
  leads_acknowledge rfl (fun _ ok hu failed => absurd failed (ok.reached hu)) (.of_out rfl)

/-- **Whatever act is performed**, a feed that has not been tried while it waits has not been tried
when it waits afterwards, if its acknowledgement does not fail. -/
theorem untried_act {s : Settings} {a : Act} {α : Type} {p : Program α} (hp : a.PerformedBy s p)
    (ha : ∀ f, a ≠ .process f) (untried : x.Untried) :
    p.Leads (aspect i fun _ => false) (Acknowledged i) (fun _ y _ => y.Untried) x n := by
  refine leads_act hp ha (fun _ ok => ok.coherent) (fun _ hc => nomatch hc) untried
    (fun d _ _ f hf => ?_) (.of_out rfl) (fun _ => ?_)
    fun f _ _ _ _ _ out => untried_process s.topic f out
  · obtain rfl := Option.some.inj hf
    rfl
  · refine leads_relayOne rfl (fun _ _ _ => untried) (fun _ => untried_acknowledge)
      fun f _ _ _ => .of_uncounted ?_ fun _ _ => untried_acknowledge
    exact (Processing.only_process s.topic f).mono fun _ _ => rfl

end Leads

end Standing

/-! ## Passes on a hub that has come about -/

/-- A pass that begins on a hub announces a feed by one of its calls. -/
def Hub.Announced (s : Settings) (h : Hub) (a : Act) (i : FeedId) (u : Turn) : Prop :=
  (a = .drain ∨ a = .retry) ∧
    ∃ (α : Type) (p : Program α) (us : List Turn) (result : α) (h' : Hub),
      a.PerformedBy s p ∧ p.Runs h us result h' ∧ u ∈ us ∧ u.call.announces i = true

/-- What is announced stands as it stood when the pass began: it is below the cap, or it waits in the
outbox and the pass is one over the outbox. -/
theorem Hub.Announced.standing {s : Settings} {h : Hub} {a : Act} {i : FeedId} {u : Turn}
    (announced : h.Announced s a i u) (coherent : h.store.Coherent) :
    u.before.store.standing i = h.store.standing i ∧
      (a = .drain ∧ i ∈ h.store.outbox ∨
        ∃ f, h.store.feed? i = some f ∧ f.attempts < s.pipeline.maxAttempts) := by
  obtain ⟨rfl | rfl, α, p, us, result, h', hp, run, hu, announced⟩ := announced
  · obtain ⟨waits, still⟩ := Outbox.announced_of_drain hp coherent run hu announced
    exact ⟨still, .inl ⟨rfl, waits⟩⟩
  · obtain ⟨below, -, still⟩ := Retry.announced_of_retry hp coherent run hu announced
    exact ⟨still, .inr below⟩

namespace Hub.Evolves

variable {s : Settings} {start h h' : Hub} {ts us : List Turn} {i : FeedId}

/-- A feed that has used up its attempts and does not wait is announced no more. -/
theorem silent_of_spent
    (e : h.Evolves s (fun op => ∀ n, op ≠ .setAttempts i n) (fun a => ∀ f, a ≠ .process f) us h')
    (spent : (h.store.standing i).Spent s.pipeline.maxAttempts) (coherent : h.store.Coherent)
    (bound : s.pipeline.maxAttempts ≤ Feed.maxAttempts) : ∀ u ∈ us, u.call.announces i = false := by
  induction e with
  | stop => exact fun u hu => (nomatch hu)
  | @op op _ _ _ other _ ih => exact ih (spent.perform coherent bound other) (coherent.perform op)
  | outside o _ ih =>
    refine ih ?_ ?_ <;> rw [o.store_eq]
    exacts [spent, coherent]
  | @act a α p result ts us h h₁ _ ha hp run _ ih =>
    have later := ih (spent.of_runs coherent bound run) (run.coherent coherent)
    refine fun u hu => (List.mem_append.1 hu).elim (fun hu => ?_) (later u)
    refine Bool.eq_false_iff.2 fun announced => ?_
    by_cases pass : a = .drain ∨ a = .retry
    · have here : h.Announced s a i u := ⟨pass, α, p, ts, result, h₁, hp, run, hu, announced⟩
      obtain ⟨-, ⟨-, waits⟩ | ⟨f, hf, below⟩⟩ := here.standing coherent
      · have out : h.store.outbox.contains i = false := spent.out
        rw [List.contains_iff_mem.2 waits] at out
        cases out
      · exact absurd below (Nat.not_lt.2 (spent.used f hf))
    -- all other acts are quiet, and what announces is not
    · have quiet : a.processes = false := by
        cases a with
        | drain => exact absurd (.inl rfl) pass
        | retry => exact absurd (.inr rfl) pass
        | process f => exact absurd rfl (ha f)
        | _ => rfl
      have silent := run.only (hp.quiet quiet) u hu
      rw [Call.delivers_of_announces announced] at silent
      cases silent

/-- As long as no acknowledgement of a feed fails and its attempts are counted by the passes only,
it has not been tried while it waits. -/
theorem untried (e : start.Evolves s (fun op => op ≠ .bump i ∧ ∀ n, op ≠ .setAttempts i n)
      (fun a => ∀ f, a ≠ .process f) ts h)
    (untried : (start.store.standing i).Untried) (coherent : start.store.Coherent)
    (acknowledged : ∀ t ∈ ts, t.call = .acknowledge i → ¬ t.failed) :
    (h.store.standing i).Untried := by
  induction e with
  | stop => exact untried
  | @op op _ _ _ other _ ih =>
    exact ih (untried.perform coherent other.1 other.2) (coherent.perform op) acknowledged
  | outside o _ ih =>
    refine ih ?_ ?_ acknowledged <;> rw [o.store_eq]
    exacts [untried, coherent]
  | @act a α p result ts us h h₁ _ ha hp run _ ih =>
    have leads : p.Leads (Standing.aspect i fun _ => false) (Standing.Acknowledged i) _
        (h.store.standing i) 0 := Standing.untried_act hp ha untried
    refine ih (leads.of_runs run fun u hu => ⟨run.coherent_before coherent hu, ?_⟩)
      (run.coherent coherent) fun u hu => acknowledged u (List.mem_append_right _ hu)
    exact acknowledged u (List.mem_append_left _ hu)

/-- **What has used up its attempts is left alone once it is out of the outbox.** Whatever acts
have been performed, whatever failed and whatever operations the store has been asked for:

* A retry pass announces no feed that has reached the cap of attempts, and a pass over the outbox
  only one that waits there. What is stored of a feed that is announced is what was stored when the
  pass began.
* A feed at the cap that is out of the outbox is announced by no later act, short of processing it
  by hand, as long as the store is not asked to set its attempts.
* If no acknowledgement of a feed has failed and none but the relay has counted or set its attempts,
  then a pass announces it only below the cap. -/
theorem spent_left_alone (e : start.Evolves s (fun _ => True) (fun _ => True) ts h)
    (empty : start.store = Store.empty) (bound : s.pipeline.maxAttempts ≤ Feed.maxAttempts) :
    (∀ a i u, h.Announced s a i u → u.before.store.feed? i = h.store.feed? i ∧
      ∀ f, u.before.store.feed? i = some f → s.pipeline.maxAttempts ≤ f.attempts →
        a = .drain ∧ i ∈ u.before.store.outbox) ∧
    (∀ i f, h.store.feed? i = some f → s.pipeline.maxAttempts ≤ f.attempts → i ∉ h.store.outbox →
      ∀ us h', h.Evolves s (fun op => ∀ n, op ≠ .setAttempts i n) (fun a => ∀ g, a ≠ .process g)
        us h' → ∀ u ∈ us, u.call.announces i = false) ∧
    ∀ i, start.Evolves s (fun op => op ≠ .bump i ∧ ∀ n, op ≠ .setAttempts i n)
        (fun a => ∀ g, a ≠ .process g) ts h →
      (∀ t ∈ ts, t.call = .acknowledge i → ¬ t.failed) → 1 ≤ s.pipeline.maxAttempts →
        ∀ a u, h.Announced s a i u → ∀ f, u.before.store.feed? i = some f →
          f.attempts < s.pipeline.maxAttempts := by
  have first : start.store.Reachable := empty ▸ Store.reachable_empty
  have coherent : h.store.Coherent := (e.reachable first).coherent
  refine ⟨fun a i u announced => ?_,
    fun i f hf used out us h' e => e.silent_of_spent ⟨?_, ?_, fun g hg => ?_⟩ coherent bound,
    fun i e acknowledged one a u announced f hf => ?_⟩
  · obtain ⟨still, pass⟩ := announced.standing coherent
    have there : u.before.store.feed? i = h.store.feed? i := congrArg Standing.feed still
    refine ⟨there, fun g hg used => ?_⟩
    rcases pass with ⟨drain, waits⟩ | ⟨f, hf, below⟩
    · have same : u.before.store.outbox.contains i = h.store.outbox.contains i :=
        congrArg Standing.waiting still
      exact ⟨drain, List.contains_iff_mem.1 (same.trans (List.contains_iff_mem.2 waits))⟩
    · obtain rfl : f = g := Option.some.inj (hf.symm.trans (there.symm.trans hg))
      exact absurd below (Nat.not_lt.2 used)
  · exact decide_eq_true (coherent.numbered i (Store.mem_ids_iff.2 ⟨f, hf⟩)).2
  · exact Bool.eq_false_iff.2 fun waits => out (List.contains_iff_mem.1 waits)
  · obtain rfl : f = g := Option.some.inj (hf.symm.trans hg)
    exact used
  · obtain ⟨still, pass⟩ := announced.standing coherent
    have there : u.before.store.feed? i = h.store.feed? i := congrArg Standing.feed still
    rw [there] at hf
    rcases pass with ⟨-, waits⟩ | ⟨g, hg, below⟩
    · have none : (start.store.standing i).Untried := by
        rw [empty]
        exact fun waits => (nomatch waits)
      rw [e.untried none first.coherent acknowledged (List.contains_iff_mem.2 waits) f hf]
      exact one
    · obtain rfl : g = f := Option.some.inj (hg.symm.trans hf)
      exact below

/-- Settings under which a feed is given up after one attempt. -/
def oneAttempt : Settings := { Settings.sample with pipeline := { maxAttempts := 1 } }

/-- Nothing can be marked as processed or acknowledged. -/
def ofMarks : Outages
  | .complete _ _ => some "unreachable"
  | .acknowledge _ => some "unreachable"
  | _ => Option.none

/-- A feed whose only attempt has failed. -/
def oneTried : Hub :=
  ((Outbox.drain oneAttempt.topic 100).run .ofCompletion History.oneStored).2

/-- A feed whose only attempt has failed, and that waits in the outbox as before. -/
def oneLeft : Hub := ((Outbox.drain oneAttempt.topic 100).run ofMarks History.oneStored).2

/-- The feed was tried below the cap. It has reached the cap now, and neither pass announces it. -/
theorem spent_left_alone_of_oneTried :
    ((Outbox.drain oneAttempt.topic 100).turns .ofCompletion History.oneStored).any
        (fun u => u.call.announces 1) = true ∧
      (∀ u ∈ (Outbox.drain oneAttempt.topic 100).turns .ofCompletion History.oneStored,
        u.call.announces 1 = true → ∀ f, u.before.store.feed? 1 = some f → f.attempts < 1) ∧
      oneTried.store.feeds.map (fun f => (f.id, f.attempts, f.processed)) = [(1, 1, false)] ∧
      ∀ u ∈ (Outbox.drain oneAttempt.topic 100).turns .none oneTried ++
          (Retry.pass oneAttempt.topic 1 50).turns .none
            ((Outbox.drain oneAttempt.topic 100).run .none oneTried).2,
        u.call.announces 1 = false := by
  have marks : oneTried.store.feeds.map (fun f => (f.id, f.attempts, f.processed)) =
      [(1, 1, false)] := by decide +kernel
  have drained : Act.PerformedBy oneAttempt .drain (Outbox.drain oneAttempt.topic 100) :=
    Act.performedBy_drain (by decide)
  have retried : Act.PerformedBy oneAttempt .retry (Retry.pass oneAttempt.topic 1 50) :=
    Act.performedBy_retry (by decide)
  have stored : ∀ {asked : Store.Op → Prop} {allowed : Act → Prop}, (∀ d, allowed (.add d)) →
      Hub.sample.Evolves oneAttempt asked allowed _ History.oneStored := fun adds =>
    .act (adds _) (.add _) (Program.runs_run .none _ .sample) (.stop _)
  have tried : Hub.sample.Evolves oneAttempt (fun _ => True) (fun _ => True) _ oneTried :=
    .act trivial (.add _) (Program.runs_run .none _ .sample)
      (.act trivial drained (Program.runs_run .ofCompletion _ History.oneStored) (.stop _))
  have later : oneTried.Evolves oneAttempt (fun op => ∀ n, op ≠ .setAttempts 1 n)
      (fun a => ∀ g, a ≠ .process g) _ _ :=
    .act (by simp) drained (Program.runs_run .none _ oneTried)
      (.act (by simp) retried (Program.runs_run .none _ _) (.stop _))
  have none : ∀ t ∈ (Intake.add (.sample "p" ["solana:alice"] 5)).turns .none .sample ++ [],
      t.call = .acknowledge 1 → ¬ t.failed := fun t ht _ =>
    Program.not_failed_of_mem_turns (by rwa [List.append_nil] at ht)
  obtain ⟨f, hf, hmarks⟩ := List.mem_map.1 (marks ▸ List.mem_singleton_self (1, 1, false))
  simp only [Prod.mk.injEq] at hmarks
  obtain ⟨hid, hattempts, -⟩ := hmarks
  have there : oneTried.store.feed? 1 = some f :=
    (tried.reachable Store.reachable_empty).coherent.feed?_eq_some_iff.2 ⟨hf, hid⟩
  have used : oneAttempt.pipeline.maxAttempts ≤ f.attempts := by
    rw [hattempts]
    decide
  have out : 1 ∉ oneTried.store.outbox := by decide +kernel
  refine ⟨by decide +kernel, fun u hu announced f hf => ?_, marks, fun u hu => ?_⟩
  · exact (spent_left_alone (stored fun _ => trivial) rfl (by decide)).2.2 1
      (stored (by simp)) none (by decide) .drain u
      ⟨.inl rfl, _, _, _, _, _, drained, Program.runs_run .ofCompletion _ _, hu, announced⟩ f hf
  · refine (spent_left_alone tried rfl (by decide)).2.1 1 f there used out _ _ later u ?_
    rwa [List.append_nil]

/-- A pass over the outbox does not look at the attempts: what has used them up while its
acknowledgement was lost is handed over again. -/
theorem spent_announced_of_oneLeft :
    ¬ ∀ (s : Settings) (start h : Hub) (ts : List Turn), start.store = Store.empty →
      1 ≤ s.pipeline.maxAttempts → s.pipeline.maxAttempts ≤ Feed.maxAttempts →
      start.Evolves s (fun _ => True) (fun a => (∃ d, a = .add d) ∨ a = .drain ∨ a = .retry) ts h →
        ∀ a i u, h.Announced s a i u → ∀ f, u.before.store.feed? i = some f →
          f.attempts < s.pipeline.maxAttempts := by
  intro claim
  have again : (((Outbox.drain oneAttempt.topic 100).turns .none oneLeft).filter
      fun u => u.call.posts 1 && u.call.announces 1).map
        (fun u => (u.before.store.feed? 1).map (·.attempts)) = [some 1] := by decide +kernel
  obtain ⟨u, hu, hattempts⟩ := List.mem_map.1 (again ▸ List.mem_singleton_self (some 1))
  obtain ⟨hu, posted⟩ := List.mem_filter.1 hu
  obtain ⟨f, hf, used⟩ := Option.map_eq_some_iff.1 hattempts
  have drained : Act.PerformedBy oneAttempt .drain (Outbox.drain oneAttempt.topic 100) :=
    Act.performedBy_drain (by decide)
  have below := claim oneAttempt .sample oneLeft _ rfl (by decide) (by decide)
    (.act (.inl ⟨_, rfl⟩) (.add _) (Program.runs_run .none _ .sample)
      (.act (.inr (.inl rfl)) drained (Program.runs_run ofMarks _ History.oneStored) (.stop _)))
    .drain 1 u ⟨.inl rfl, _, _, _, _, _, drained, Program.runs_run .none _ oneLeft, hu,
      (Bool.and_eq_true_iff.1 posted).2⟩ f hf
  rw [used] at below
  exact absurd below (by decide)

end Hub.Evolves

end NotificationRelay
