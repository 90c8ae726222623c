/-
# The relay comes to rest

When the relay is woken it repeats passes over the outbox for as long as each acknowledges a whole
batch (`Outbox.Loops`). Others may be at work meanwhile; as long as they store nothing, the outbox
only shrinks (`Turn.Chain.outbox_sublist`), and what a pass reports is what it has taken out of what
waited when it asked (`Outbox.Passed.exists_taken`). So a pass after which the relay goes on takes a
whole batch away, and one after which it stops leaves nothing behind, unless a call for an entry is
lost.

A batch has a place at least where the settings are valid, and so the outbox bounds how many passes
there can be, whatever fails (`Outbox.relay_comes_to_rest`). One pass more than there are entries is
always enough (`Outbox.settle_rests`).
-/
import NotificationRelay.Proofs.Flow.Draining

namespace NotificationRelay

/-! ## Settings and calls -/

/-- Where settings are valid a batch has a place, and a feed may be under way. -/
theorem Settings.pos_of_validate {s : Settings} (valid : s.validate = .ok s) :
    0 < s.pipeline.relayBatchSize ∧ 0 < s.pipeline.concurrency := by
  have sound : s.problem? = none := by
    cases problem : s.problem? with
    | none => rfl
    | some p =>
      rw [validate, problem] at valid
      cases valid
  unfold problem? at sound
  repeat' split at sound
  all_goals first | omega | cases sound

/-- A call by which a pass learns what waits, looks an entry up or takes it out. -/
def Call.relays : Call → Bool
  | .pending _ => true
  | .load _ => true
  | .acknowledge _ => true
  | _ => false

namespace Turn

variable {k : Nat} {s s' : Store}

/-- Where a share falls into two parts, so do all turns. -/
theorem exists_of_share_append {moves : List (Nat × Turn)} {xs ys : List Turn}
    (split : share k moves = xs ++ ys) :
    ∃ first rest, moves = first ++ rest ∧ share k first = xs ∧ share k rest = ys := by
  obtain ⟨vs, ws, hfilter, rfl, rfl⟩ := List.map_eq_append_iff.1 split
  obtain ⟨first, rest, rfl, rfl, rfl⟩ := List.filter_eq_append_iff.1 hfilter
  exact ⟨first, rest, rfl, rfl, rfl⟩

/-- Turns that one party makes alone. -/
theorem exists_moves (k : Nat) (ts : List Turn) :
    ∃ moves : List (Nat × Turn), moves.map (·.2) = ts ∧ share k moves = ts := by
  refine ⟨ts.map (k, ·), ?_, ?_⟩
  · rw [List.map_map]
    exact List.map_id ts
  · induction ts with
    | nil => rfl
    | cons u ts ih => rw [List.map_cons, share_cons_self, ih]

/-- The share of a program is part of what is done. -/
theorem share_subset (moves : List (Nat × Turn)) : share k moves ⊆ moves.map (·.2) := fun _ hu =>
  List.mem_map_of_mem (mem_share.1 hu)

/-- A call that stores nothing leaves nothing in the outbox but what was there, without what it
acknowledges. -/
theorem Genuine.outbox_sublist {t : Turn} (genuine : t.Genuine)
    (stores : ∀ d, t.call ≠ .insert d) :
    t.after.store.outbox.Sublist (Ascending.diff t.before.store.outbox (acknowledged [t])) := by
  cases restocks : t.call.restocks with
  | false =>
    rw [genuine.outbox_eq restocks]
  | true =>
    obtain ⟨outages, ht⟩ := genuine
    rw [ht]
    generalize t.call = c at restocks stores
    cases c with
    | insert d => exact absurd rfl (stores d)
    | deleteExpired now =>
      have none : Ascending.diff t.before.store.outbox [] = t.before.store.outbox := by
        simp [Ascending.diff]
      show (Call.perform outages (.deleteExpired now) t.before).2.store.outbox.Sublist
        (Ascending.diff t.before.store.outbox [])
      rw [none]
      by_cases hf : ((Call.deleteExpired now).turn outages t.before).failed
      · rw [Call.perform_of_failed _ outages _ hf]
      · rw [Call.store_perform_of_not_failed _ outages _ hf]
        exact List.filter_sublist
    | _ => cases restocks

/-- **While nothing is stored the outbox only shrinks**, and what is acknowledged leaves it. -/
theorem Chain.outbox_sublist {ts : List Turn} (c : Chain s ts s')
    (stores : ∀ t ∈ ts, ∀ d, t.call ≠ .insert d) :
    s'.outbox.Sublist (Ascending.diff s.outbox (acknowledged ts)) := by
  induction c with
  | nil => simp [acknowledged, Ascending.diff]
  | @cons t ts s' genuine _ ih =>
    have here := genuine.outbox_sublist (stores t List.mem_cons_self)
    have later := ih fun u hu => stores u (List.mem_cons_of_mem _ hu)
    rw [← List.singleton_append, acknowledged_append, ← Ascending.diff_diff]
    exact later.trans (here.filter _)

end Turn

namespace Outbox

variable {t : Broadcast.Topic} {s : Settings} {k : Nat} {batch : Nat}
  {moves : List (Nat × Turn)} {before after : Store}

/-! ## A pass beside others -/

/-- The outbox grows only when something is inserted. -/
theorem shrinks_of_chain (chain : Turn.Chain before (moves.map (·.2)) after)
    (stores : ∀ m ∈ moves, ∀ d, m.2.call ≠ .insert d) : after.outbox.Sublist before.outbox :=
  (chain.outbox_sublist (List.forall_mem_map.2 stores)).trans List.filter_sublist

/-- What a pass has taken out of what waited when it asked for the outbox. -/
structure Took (batch : Nat) (waiting taken : List FeedId) (after : Store) : Prop where
  once : taken.Nodup
  among : taken ⊆ waiting.take batch
  gone : after.outbox.Sublist (Ascending.diff waiting taken)

/-- A whole batch that has been taken out has left the outbox. -/
theorem Took.length_le {waiting taken : List FeedId} (took : Took batch waiting taken after)
    (ascending : waiting.Pairwise (· < ·)) :
    after.outbox.length + taken.length ≤ waiting.length := by
  have left : (Ascending.diff waiting taken ++ taken).Nodup := by
    refine List.Nodup.append ((ascending.imp Int.ne_of_lt).filter _) took.once ?_
    exact fun i hi taken => (Ascending.mem_diff.1 hi).2 taken
  have within : Ascending.diff waiting taken ++ taken ⊆ waiting :=
    List.append_subset.2 ⟨List.filter_subset_self _,
      fun i hi => List.mem_of_mem_take (took.among hi)⟩
  have bound := (left.subperm within).length_le
  rw [List.length_append] at bound
  have fewer := took.gone.length_le
  omega

/-- Nothing is left if all has been taken out and that was less than a batch. -/
theorem Took.eq_nil {waiting taken : List FeedId} (took : Took batch waiting taken after)
    (all : taken.Perm (waiting.take batch)) (short : taken.length ≠ batch) :
    after.outbox = [] := by
  have whole : waiting.take batch = waiting := by
    refine List.take_of_length_le ?_
    rw [all.length_eq, List.length_take] at short
    omega
  rw [whole] at all
  have none : Ascending.diff waiting taken = [] :=
    List.filter_eq_nil_iff.2 fun i hi => by simp [all.mem_iff.2 hi]
  exact List.sublist_nil.1 (none ▸ took.gone)

/-- **A pass reports what it has taken out** of what waited when it asked, whatever others do
meanwhile; that is all it was given if none of its calls for an entry is lost. -/
theorem Passed.exists_taken {n : Nat} (passed : Passed t batch (Turn.share k moves) (.ok n))
    (chain : Turn.Chain before (moves.map (·.2)) after)
    (stores : ∀ m ∈ moves, ∀ d, m.2.call ≠ .insert d)
    (ascending : before.outbox.Pairwise (· < ·)) :
    ∃ waiting taken, waiting.Sublist before.outbox ∧ taken.length = n ∧
      Took batch waiting taken after ∧
      ((∀ u ∈ Turn.share k moves, u.call.relays = true → ¬ u.failed) →
        taken.Perm (waiting.take batch)) := by
  generalize hus : Turn.share k moves = us at passed
  cases passed with
  | @seen u own results call reached handling =>
    replace hus : Turn.share k moves = [] ++ u :: own.map (·.2) := hus
    obtain ⟨first, rest, rfl, -, hrest⟩ := Turn.exists_of_share hus
    rw [List.map_append, List.map_cons] at chain
    obtain ⟨s₁, earlier, asked⟩ := chain.of_append
    obtain ⟨rfl, later⟩ := asked.of_cons
    have genuine := chain.genuine u (List.mem_append_right _ List.mem_cons_self)
    have same : u.after.store = u.before.store :=
      genuine.store_of_passive (by rw [call]; rfl)
    replace later : Turn.Chain u.before.store (rest.map (·.2)) after := same ▸ later
    have waited : u.before.store.outbox.Sublist before.outbox :=
      shrinks_of_chain earlier fun m hm => stores m (List.mem_append_left _ hm)
    have once : (u.before.store.pending batch).Nodup :=
      ((ascending.sublist waited).imp Int.ne_of_lt).sublist (List.take_sublist ..)
    refine ⟨u.before.store.outbox, Turn.acknowledged (own.map (·.2)), waited,
      handling.length_acknowledged, ⟨handling.nodup_acknowledged once,
        fun i hi => ((handling.mem_acknowledged once).1 hi).1, ?_⟩, fun healthy => ?_⟩
    · -- others may have acknowledged more
      have all := later.outbox_sublist (List.forall_mem_map.2 fun m hm =>
        stores m (List.mem_append_right _ (List.mem_cons_of_mem _ hm)))
      refine all.trans (List.monotone_filter_right _ fun i hi => ?_)
      have mine : Turn.acknowledged (own.map (·.2)) ⊆ Turn.acknowledged (rest.map (·.2)) :=
        List.filterMap_subset _ (hrest ▸ Turn.share_subset rest)
      simp only [Bool.not_eq_true', List.contains_eq_mem, decide_eq_false_iff_not] at hi ⊢
      exact fun taken => hi (mine taken)
    · refine (List.perm_ext_iff_of_nodup (handling.nodup_acknowledged once) once).2 fun i => ?_
      rw [handling.mem_acknowledged once, and_iff_left]
      refine ⟨?_, ?_⟩ <;> rintro ⟨v, hv, made, failed⟩ <;>
        exact healthy v (List.mem_cons_of_mem _ hv) (by rw [made]; rfl) failed

/-- After a pass that reports a whole batch the outbox is shorter by a batch. -/
theorem Passed.length_le (passed : Passed t batch (Turn.share k moves) (.ok batch))
    (chain : Turn.Chain before (moves.map (·.2)) after)
    (stores : ∀ m ∈ moves, ∀ d, m.2.call ≠ .insert d)
    (ascending : before.outbox.Pairwise (· < ·)) :
    after.outbox.length + batch ≤ before.outbox.length := by
  obtain ⟨waiting, taken, waited, length, took, -⟩ := passed.exists_taken chain stores ascending
  have fewer := took.length_le (ascending.sublist waited)
  have bound := waited.length_le
  omega

/-- After any other pass the outbox is empty, unless a call for an entry is lost. -/
theorem Passed.eq_nil {result : Stored Nat} (passed : Passed t batch (Turn.share k moves) result)
    (chain : Turn.Chain before (moves.map (·.2)) after)
    (stores : ∀ m ∈ moves, ∀ d, m.2.call ≠ .insert d)
    (ascending : before.outbox.Pairwise (· < ·)) (short : result ≠ .ok batch)
    (reached : ∀ u ∈ Turn.share k moves, u.call.relays = true → ¬ u.failed) :
    after.outbox = [] := by
  cases result with
  | error e =>
    generalize Turn.share k moves = us at passed reached
    cases passed with
    | blind call lost => exact absurd lost (reached _ List.mem_cons_self (by rw [call]; rfl))
  | ok n =>
    obtain ⟨waiting, taken, -, length, took, all⟩ := passed.exists_taken chain stores ascending
    refine took.eq_nil (all reached) ?_
    rw [length]
    exact fun same => short (congrArg Except.ok same)

/-! ## The relay, once it is woken -/

/-- The relay that has been woken, for at most so many passes: it goes on for as long as a pass
acknowledges a whole batch. Whether it has come to rest. -/
inductive Loops (s : Settings) : Nat → Program Bool → Prop
  | out : Loops s 0 (.done false)
  | pass {p : Program (Stored Nat)} {next : Program Bool} {passes : Nat}
      (performs : Act.PerformedBy s .drain p) (rest : Loops s passes next) :
      Loops s (passes + 1) (p.bind fun
        | .error _ => .done true
        | .ok n => if n = s.pipeline.relayBatchSize then next else .done true)

/-- The relay that handles one entry after another. -/
theorem loops_drainWhileFull (hc : 1 ≤ s.pipeline.concurrency) (passes : Nat) :
    Loops s passes (drainWhileFull s.topic s.pipeline.relayBatchSize passes) := by
  induction passes with
  | zero => exact .out
  | succ passes ih => exact .pass (Act.performedBy_drain hc) ih

/-- The relay stores nothing. -/
theorem Loops.only {allowed : Nat} {loop : Program Bool} (loops : Loops s allowed loop) :
    loop.Only fun c => ∀ d, c ≠ .insert d := by
  induction loops with
  | out => trivial
  | pass performs _ ih =>
    refine (performs.only.mono fun c made d hc => ?_).bind fun result => ?_
    · obtain ⟨i, made⟩ := made
      subst hc
      cases made with
      | passive hc => cases hc
      | processing _ hc =>
        cases hc with
        | passive hc => cases hc
        | broadcast hc => cases hc
    · cases result with
      | error e => trivial
      | ok n =>
        show (if n = s.pipeline.relayBatchSize then _ else Program.done true).Only _
        split
        · exact ih
        · trivial

/-- The passes that have been begun. -/
def passes (ts : List Turn) : Nat := ts.countP (·.call.asksOutbox)

theorem passes_append (us ts : List Turn) : passes (us ++ ts) = passes us + passes ts :=
  List.countP_append

/-- A pass asks for the outbox once. -/
theorem passes_le_one {p q : Program (Stored Nat)} {us : List Turn}
    (performs : Act.PerformedBy s .drain p) (g : p.Goes us q) : passes us ≤ 1 := by
  cases performs with
  | @drain handle sideBySide =>
    rcases Program.Goes.of_call g with ⟨rfl, -⟩ | ⟨outages, h, us, rfl, rest⟩
    · exact Nat.zero_le 1
    have unasking : ∀ ids, (handle ids).Only fun c => c.asksOutbox = false := fun ids =>
      (sideBySide ids).only fun p hp => by
        obtain ⟨i, -, rfl⟩ := List.mem_map.1 hp
        exact only_unasking s.topic i
    have later : ∀ u ∈ us, u.call.asksOutbox = false := by
      generalize (Call.perform outages (.pending s.pipeline.relayBatchSize) h).1 = answer at rest
      cases answer with
      | error e =>
        obtain ⟨rfl, -⟩ := Program.Goes.of_done rest
        exact fun _ hu => nomatch hu
      | ok ids =>
        replace rest : ((handle ids).bind fun acknowledged =>
          .done (.ok (acknowledged.countP id))).Goes us q := rest
        exact (rest.only ((unasking ids).bind fun _ => trivial)).1
    have none : passes us = 0 := List.countP_eq_zero.2 fun u hu => by simp [later u hu]
    show List.countP _ _ ≤ 1
    rw [List.countP_cons]
    show passes us + _ ≤ 1
    rw [none]
    split <;> simp

/-- After a pass the relay goes on, or it comes to rest, as the pass has taken out a whole batch or
not. -/
theorem goes_on {next q : Program Bool} {result : Stored Nat} {us : List Turn}
    (g : Program.Goes (match result with
      | .error _ => .done true
      | .ok n => if n = batch then next else .done true) us q) :
    result = .ok batch ∧ next.Goes us q ∨ result ≠ .ok batch ∧ us = [] ∧ q = .done true := by
  cases result with
  | error e => exact .inr ⟨nofun, g.of_done⟩
  | ok n =>
    by_cases full : n = batch
    · exact .inl ⟨congrArg Except.ok full, by simpa only [if_pos full] using g⟩
    · exact .inr ⟨fun same => full (Except.ok.inj same),
        Program.Goes.of_done (by simpa only [if_neg full] using g)⟩

/-- **The relay, from where it is woken.** However far it has come, the outbox bounds how many
passes it has begun. Where it is let go on for long enough it comes to rest, and it leaves nothing
behind if none of its calls for an entry is lost. -/
theorem Loops.bounded {allowed : Nat} {loop q : Program Bool} (loops : Loops s allowed loop)
    (place : 0 < s.pipeline.relayBatchSize) (g : loop.Goes (Turn.share k moves) q)
    (chain : Turn.Chain before (moves.map (·.2)) after)
    (stores : ∀ m ∈ moves, ∀ d, m.2.call ≠ .insert d)
    (ascending : before.outbox.Pairwise (· < ·)) :
    passes (Turn.share k moves) ≤ before.outbox.length / s.pipeline.relayBatchSize + 1 ∧
      ∀ rested, q = .done rested →
        (before.outbox.length / s.pipeline.relayBatchSize < allowed → rested = true) ∧
        (rested = true → (∀ u ∈ Turn.share k moves, u.call.relays = true → ¬ u.failed) →
          after.outbox = []) := by
  induction loops generalizing moves before with
  | out =>
    obtain ⟨none, rfl⟩ := g.of_done
    rw [none]
    refine ⟨Nat.zero_le _, fun rested ended => ?_⟩
    obtain rfl := Program.done.inj ended
    exact ⟨fun more => absurd more (Nat.not_lt_zero _), nofun⟩
  | @pass p next allowed performs _ ih =>
    rcases g.of_bind with ⟨p', goes, unfinished, rfl⟩ | ⟨us, ws, result, split, goes, rest⟩
    · exact ⟨(passes_le_one performs goes).trans (Nat.le_add_left ..), fun rested ended =>
        absurd ended (Program.Goes.bind_ne_done unfinished rested)⟩
    have first := passes_le_one performs goes
    obtain ⟨mine, others, rfl, rfl, rfl⟩ := Turn.exists_of_share_append split
    have passed := passed_of_performed performs goes
    rw [Turn.share_append, passes_append]
    rw [List.map_append] at chain
    obtain ⟨s₁, earlier, later⟩ := chain.of_append
    have stores₁ : ∀ m ∈ mine, ∀ d, m.2.call ≠ .insert d := fun m hm =>
      stores m (List.mem_append_left _ hm)
    have stores₂ : ∀ m ∈ others, ∀ d, m.2.call ≠ .insert d := fun m hm =>
      stores m (List.mem_append_right _ hm)
    rcases goes_on rest with ⟨rfl, onward⟩ | ⟨short, none, rfl⟩
    · have shorter : s₁.outbox.length / s.pipeline.relayBatchSize + 1 ≤
          before.outbox.length / s.pipeline.relayBatchSize := by
        rw [← Nat.add_div_right _ place]
        exact Nat.div_le_div_right (passed.length_le earlier stores₁ ascending)
      obtain ⟨few, ends⟩ :=
        ih onward later stores₂ (ascending.sublist (shrinks_of_chain earlier stores₁))
      refine ⟨by omega, fun rested ended => ?_⟩
      obtain ⟨long, healthy⟩ := ends rested ended
      exact ⟨fun more => long (by omega),
        fun rests reached => healthy rests fun u hu => reached u (List.mem_append_right _ hu)⟩
    · rw [none, List.append_nil]
      refine ⟨first.trans (Nat.le_add_left ..), fun rested ended => ?_⟩
      obtain rfl := Program.done.inj ended
      refine ⟨fun _ => rfl, fun _ reached => ?_⟩
      have last := shrinks_of_chain later stores₂
      rw [passed.eq_nil earlier stores₁ ascending short reached] at last
      exact List.sublist_nil.1 last

/-- The relay that is woken on a hub comes to rest: one pass more than there are entries is enough
for it. -/
theorem settle_rests (outages : Outages) {h : Hub} (valid : s.validate = .ok s)
    (ascending : h.store.outbox.Pairwise (· < ·)) :
    (settle outages s.topic s.pipeline.relayBatchSize h).1 = true := by
  obtain ⟨place, room⟩ := Settings.pos_of_validate valid
  have loops := loops_drainWhileFull (s := s) room (h.store.outbox.length + 1)
  have run := Program.runs_run outages
    (drainWhileFull s.topic s.pipeline.relayBatchSize (h.store.outbox.length + 1)) h
  have stores := (run.goes.only loops.only).1
  -- it runs alone, so that all calls are its own
  obtain ⟨moves, same, mine⟩ := Turn.exists_moves 0 (Program.turns outages
    (drainWhileFull s.topic s.pipeline.relayBatchSize (h.store.outbox.length + 1)) h)
  rw [← same] at stores
  have chain := run.chain
  have goes := run.goes
  rw [← same] at chain
  rw [← mine] at goes
  obtain ⟨-, ends⟩ := loops.bounded place goes chain (List.forall_mem_map.1 stores) ascending
  exact (ends _ rfl).1 (Nat.lt_succ_of_le (Nat.div_le_self ..))

/-- **The relay comes to rest.** The settings are valid, and nothing is stored while the relay is
awake, whatever else others do, whatever calls fail and however the entries of a batch take turns.
Then at every stage it has begun one pass at most for every batch in the outbox, and one more. Where
it is let go on for so long it stops of itself, and it leaves the outbox empty if none of its calls
to ask for the outbox, to look an entry up or to take one out has been lost. The relay that is woken
on a hub and left alone is let go on for long enough. -/
theorem relay_comes_to_rest {ps qs : List (Program Unit)} {h h' : Hub} {allowed : Nat}
    {loop : Program Bool} (valid : s.validate = .ok s) (loops : Loops s allowed loop)
    (here : ps[k]? = some loop.discard) (r : Program.Interleaved ps h moves qs h')
    (stores : ∀ m ∈ moves, ∀ d, m.2.call ≠ .insert d)
    (ascending : h.store.outbox.Pairwise (· < ·)) :
    passes (Turn.share k moves) ≤ h.store.outbox.length / s.pipeline.relayBatchSize + 1 ∧
      (qs[k]? = some (.done ()) → ∃ rested, loop.Goes (Turn.share k moves) (.done rested) ∧
        (h.store.outbox.length / s.pipeline.relayBatchSize < allowed → rested = true) ∧
        (rested = true → (∀ u ∈ Turn.share k moves, u.call.relays = true → ¬ u.failed) →
          h'.store.outbox = [])) ∧
      ∀ outages, (settle outages s.topic s.pipeline.relayBatchSize h).1 = true := by
  obtain ⟨q, hq, goes⟩ := r.goes here
  obtain ⟨stage, goes, ends⟩ := goes.of_discard
  have place := (Settings.pos_of_validate valid).1
  obtain ⟨few, rests⟩ := loops.bounded place goes r.chain stores ascending
  refine ⟨few, fun ended => ?_, fun outages => settle_rests outages valid ascending⟩
  obtain ⟨rested, rfl⟩ := ends (Option.some.inj (hq.symm.trans ended))
  exact ⟨rested, goes, rests rested rfl⟩

/-- Three feeds wait, and a batch has two places. No feed can be marked as processed, and a retry
pass tries the first again before the relay goes on with its second batch. -/
def woken : List (Nat × Turn) × List (Program Unit) × Hub :=
  Program.Interleaved.takeTurns .ofCompletion
    (List.replicate 20 0 ++ List.replicate 8 1 ++ List.replicate 11 0)
    [(drainWhileFull Settings.sample.topic 2 2).discard,
      (Retry.pass Settings.sample.topic 5 9).discard] .threeWaiting

/-- The relay stops after its second pass, and nothing is left in the outbox. -/
theorem relay_comes_to_rest_of_woken :
    passes (Turn.share 0 woken.1) ≤ 2 ∧ (∀ q ∈ woken.2.1, q = .done ()) ∧
      woken.2.2.store.outbox = [] := by
  have ended : ∀ q ∈ woken.2.1, q = .done () := by
    have finished : ∀ q ∈ woken.2.1, q.isUnfinished = false := by decide +kernel
    intro q hq
    have here := finished q hq
    cases q with
    | done => rfl
    | call => cases here
  have run : Program.Interleaved _ .threeWaiting woken.1 woken.2.1 woken.2.2 :=
    Program.Interleaved.of_takeTurns .ofCompletion _ _ _
  have valid : (Settings.oneByOne.withBatch .drain 2).validate = .ok _ := rfl
  have loops : Loops (Settings.oneByOne.withBatch .drain 2) 2
      (drainWhileFull Settings.sample.topic 2 2) := loops_drainWhileFull (Nat.le_refl 1) 2
  have stores : ∀ m ∈ woken.1, ∀ d, m.2.call ≠ .insert d := by
    have none : ∀ m ∈ woken.1, m.2.call.restocks = false := by decide +kernel
    intro m hm d made
    have here := none m hm
    rw [made] at here
    cases here
  have reached : ∀ u ∈ Turn.share 0 woken.1, u.call.relays = true → ¬ u.failed := by
    intro u hu relays failed
    obtain ⟨reason, outage⟩ :=
      Program.Interleaved.outage_of_takeTurns (Turn.mem_share.1 hu) failed
    generalize u.call = c at relays outage
    cases c with
    | pending | load | acknowledge => cases outage
    | _ => cases relays
  obtain ⟨few, stops, -⟩ :=
    relay_comes_to_rest (k := 0) valid loops rfl run stores (by decide +kernel)
  obtain ⟨q, hq, -⟩ := run.goes (k := 0) rfl
  have stopped := ended q (List.mem_of_getElem? hq)
  obtain ⟨rested, -, long, empty⟩ := stops (hq.trans (congrArg some stopped))
  exact ⟨few, ended, empty (long (by decide +kernel)) reached⟩

end Outbox
end NotificationRelay
