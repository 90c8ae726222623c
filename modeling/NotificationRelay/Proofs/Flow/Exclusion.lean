/-
# The outbox loop and the retry loop

The two loops that process feeds run beside each other, and beside whatever comes in or is swept
meanwhile. Each goes by a list that it has read some time ago: the outbox loop by the oldest
entries of the outbox, the retry loop by the feeds that it has selected. What keeps them apart is
the outbox. A feed is selected for a retry only when it is out of the outbox, and nothing puts it
back; an entry of the outbox is taken out by the outbox loop alone, as the last thing it does with
it. So whoever has a feed on its list has it alone, until the feed is deleted; and then nobody can
put it on a list again.

This is an invariant of what the parties are about to do with one feed (`Exclusive`), a matter of
roles (`Part`). Each loop plays its part in it (`Outbox.plays_drain`, `Retry.plays_pass`) and
nothing else matters to it (`Exclusive.bystander`). `Program.Weave.passes_exclude` draws the
conclusion: no feed is processed twice at the same time, and none that is marked as processed.
-/
import NotificationRelay.Proofs.Flow.Flight
import NotificationRelay.Proofs.Run.Roles

namespace NotificationRelay

/-! ## What a party may rely on -/

namespace Standing

/-- What there is to rely on for the outbox loop, which has a feed on its list: that it waits,
unless it has been deleted; and for the retry loop: that it does not wait. -/
def Keeps : (retry : Bool) → Standing → Prop
  | false, x => x.waiting = true ∨ x = gone
  | true, x => x.waiting = false ∧ x.given = true

variable {i : FeedId} {s : Store} {x : Standing} {retry : Bool}

/-- Only an identifier that has been given can wait. -/
theorem given_of_waiting (hs : s.Coherent) (hw : (s.standing i).waiting = true) :
    (s.standing i).given = true := by
  have there : i ∈ s.outbox := List.contains_iff_mem.1 hw
  exact decide_eq_true (hs.numbered i (hs.stored i there)).2

/-- A loop can rely on the same when the feed has been changed. -/
theorem Keeps.update (hk : (s.standing i).Keeps retry) (change : Feed → Feed)
    (hid : ∀ f, (change f).id = f.id) : ((s.update i change).2.standing i).Keeps retry := by
  rw [Store.update_snd, of_modify s i change hid, if_pos rfl]
  cases retry with
  | false =>
    rcases hk with waits | lost
    · exact .inl waits
    · exact .inr (by rw [lost]; rfl)
  | true => exact hk

end Standing

/-- What a party is about to do with one feed. -/
inductive Part where
  /-- It has nothing to do with the feed. -/
  | away
  /-- The outbox loop has the feed on its list. -/
  | listed
  /-- The feed is about to be processed. -/
  | ready (retry : Bool)
  /-- The feed is being processed. -/
  | busy (retry : Bool)

namespace Part

/-- What a party relies on. -/
def Holds : Part → Standing → Prop
  | .away, _ => True
  | .listed, x => x.Keeps false
  | .ready retry, x => x.Keeps retry ∧ ∀ f, x.feed = some f → f.processed = false
  | .busy retry, x => x.Keeps retry

/-- Which party can have a part: the outbox loop is the first, and the retry loop is the second. -/
def Suits : Part → Nat → Prop
  | .away, _ => True
  | .listed, k => k = 0
  | .ready retry, k => k = retry.toNat
  | .busy retry, k => k = retry.toNat

/-- The number of times that a party is processing the feed. -/
def load : Part → Nat
  | .busy _ => 1
  | _ => 0

/-- What is left to be done with a feed that has been processed. -/
def after : (retry : Bool) → Part
  | false => .listed
  | true => .away

variable {i : FeedId} {s : Store} {r : Part} {retry : Bool}

/-- A party that has something to do with the feed is one of the two loops, and relies on what
that loop relies on. -/
theorem exists_keeps {x : Standing} (hr : r.Holds x) (there : r ≠ .away) :
    ∃ retry, x.Keeps retry ∧ ∀ k, r.Suits k → k = retry.toNat := by
  cases r with
  | away => exact absurd rfl there
  | listed => exact ⟨false, hr, fun _ hk => hk⟩
  | ready retry => exact ⟨retry, hr.1, fun _ hk => hk⟩
  | busy retry => exact ⟨retry, hr, fun _ hk => hk⟩

/-- The part that is left after processing suits the loop that has had the feed. -/
theorem suits_after : (after retry).Suits retry.toNat := by
  cases retry <;> trivial

/-- What the loop relies on is enough for the part that is left after processing. -/
theorem holds_after {x : Standing} (hx : x.Keeps retry) : (after retry).Holds x := by
  cases retry with
  | false => exact hx
  | true => trivial

/-- What a party relies on outlasts every call that does not concern the feed. -/
theorem Holds.effect (hr : r.Holds (s.standing i)) (hs : s.Coherent) {c : Call}
    (hc : c.concerns i = false) : r.Holds ((c.effect s).standing i) := by
  rcases Standing.effect_of_not_concerns hs hc with same | new | deleted
  · rwa [same]
  · -- nobody has a feed on its list that is still to come
    rw [new] at hr
    have away : r = .away := by
      by_contra there
      obtain ⟨retry, keeps, -⟩ := exists_keeps hr there
      cases retry with
      | false =>
        rcases keeps with waits | lost
        · cases waits
        · cases lost
      | true => cases keeps.2
    rw [away]
    trivial
  · have kept : ∀ {retry}, (s.standing i).Keeps retry →
        Standing.Keeps retry ⟨none, false, (s.standing i).given⟩ := by
      intro retry hk
      cases retry with
      | false =>
        refine .inr ?_
        rcases hk with waits | lost
        · rw [Standing.given_of_waiting hs waits]
          rfl
        · rw [lost]
          rfl
      | true => exact ⟨rfl, hk.2⟩
    rw [deleted]
    cases r with
    | away => trivial
    | listed => exact kept (show (s.standing i).Keeps false from hr)
    | ready retry => exact ⟨kept hr.1, fun f hf => nomatch hf⟩
    | busy retry => exact kept hr

end Part

/-- The parts that the parties have in the handling of one feed: at most one of them has
anything to do with it, it can rely on what its part says, and the feed is being processed as
often as its processing has begun and not ended. -/
structure Exclusive (i : FeedId) (parts : Nat → Part) (past : List Turn) (h : Hub) : Prop where
  coherent : h.store.Coherent
  suits : ∀ k, (parts k).Suits k
  alone : ∀ j k, parts j ≠ .away → parts k ≠ .away → j = k
  holds : ∀ k, (parts k).Holds (h.store.standing i)
  counted : ∀ j, (∀ k, k ≠ j → parts k = .away) →
    processings i past = endings i past + (parts j).load

namespace Exclusive

variable {i : FeedId} {parts : Nat → Part} {past : List Turn} {h : Hub} {me : Nat}

/-- One more turn may begin to process the feed. -/
theorem processings_snoc (t : Turn) :
    processings i (past ++ [t]) = processings i past + (t.call.begins i).toNat := by
  unfold processings
  rw [List.countP_append, List.countP_singleton]
  cases t.call.begins i <;> rfl

/-- One more turn may end the processing of the feed. -/
theorem endings_snoc (t : Turn) :
    endings i (past ++ [t]) = endings i past + (t.ends i).toNat := by
  unfold endings
  rw [List.countP_append, List.countP_singleton]
  cases t.ends i <;> rfl

/-- Nobody has anything to do with the feed at first. -/
theorem start (hs : h.store.Coherent) : Exclusive i (fun _ => .away) [] h where
  coherent := hs
  suits _ := trivial
  alone _ _ there := absurd rfl there
  holds _ := trivial
  counted _ _ := rfl

/-- Who has something to do with the feed is alone with it. -/
theorem others_away (hx : Exclusive i parts past h) (there : parts me ≠ .away) (k : Nat)
    (hk : k ≠ me) : parts k = .away := by
  by_contra other
  exact hk (hx.alone k me other there)

/-- A call that does not concern the feed changes nothing for anybody. -/
theorem bystander (hx : Exclusive i parts past h) {c : Call} (hc : c.concerns i = false)
    (outages : Outages) :
    Exclusive i parts (past ++ [c.turn outages h]) (c.perform outages h).2 where
  coherent := c.coherent_perform outages hx.coherent
  suits := hx.suits
  alone := hx.alone
  holds k := by
    by_cases hf : (c.turn outages h).failed
    · rw [c.perform_of_failed outages h hf]
      exact hx.holds k
    · rw [c.store_perform_of_not_failed outages h hf]
      exact (hx.holds k).effect hx.coherent hc
  counted j alone := by
    have silent : (c.turn outages h).ends i = false := Call.ends_of_not_concerns hc _
    have begins : (c.turn outages h).call.begins i = false := Call.begins_of_not_concerns hc
    rw [processings_snoc, endings_snoc, begins, silent]
    exact hx.counted j alone

/-- A party that is alone with the feed makes a call and goes on to another part, if it can rely
on what that part says and the call begins or ends the processing accordingly. -/
theorem act (hx : Exclusive i parts past h) (others : ∀ k, k ≠ me → parts k = .away) {c : Call}
    (outages : Outages) {r : Part} (suits : r.Suits me)
    (holds : r.Holds ((c.perform outages h).2.store.standing i))
    (load : (c.begins i).toNat + (parts me).load = ((c.turn outages h).ends i).toNat + r.load) :
    Exclusive i (Function.update parts me r) (past ++ [c.turn outages h])
      (c.perform outages h).2 := by
  have away : ∀ k, k ≠ me → Function.update parts me r k = .away := fun k hk => by
    rw [Function.update_of_ne hk]
    exact others k hk
  have mine : ∀ k, Function.update parts me r k ≠ .away → k = me := fun k there => by
    by_contra hk
    exact there (away k hk)
  refine ⟨c.coherent_perform outages hx.coherent, fun k => ?_, fun j k hj hk => ?_, fun k => ?_,
    fun j alone => ?_⟩
  · by_cases hk : k = me
    · subst hk
      rwa [Function.update_self]
    · rw [away k hk]
      trivial
  · rw [mine j hj, mine k hk]
  · by_cases hk : k = me
    · subst hk
      rwa [Function.update_self]
    · rw [away k hk]
      trivial
  · have before := hx.counted me others
    have now : (Function.update parts me r j).load = r.load := by
      by_cases hj : j = me
      · rw [hj, Function.update_self]
      · have idle := alone me (Ne.symm hj)
        rw [Function.update_self] at idle
        rw [away j hj, idle]
    have call : (c.turn outages h).call = c := rfl
    rw [processings_snoc, endings_snoc, now, call]
    omega

end Exclusive

/-- The parts of the parties, with the rule that the processing of the feed begins only while it is
not being processed, and only if it is not marked as processed. -/
def Exclusive.cast (i : FeedId) : Cast Part where
  inv := Exclusive i
  rule past h c := c = .note i → processings i past = endings i past ∧
    ∀ f, h.store.feed? i = some f → f.processed = false
  outside o hx := by
    refine ⟨?_, hx.suits, hx.alone, ?_, hx.counted⟩
    · rw [o.store_eq]
      exact hx.coherent
    · rw [o.store_eq]
      exact hx.holds

/-- A call that does not concern the feed is neutral. -/
theorem Exclusive.neutral {i : FeedId} {c : Call} (hc : c.concerns i = false) :
    (Exclusive.cast i).Neutral c := by
  intro parts past h outages hx
  refine ⟨fun hnote => ?_, hx.bystander hc outages⟩
  rw [hnote] at hc
  exact absurd rfl (of_decide_eq_false hc)

namespace Exclusive

variable {α : Type} {i : FeedId} {me : Nat} {retry : Bool} {r : Part} {post : α → Part → Prop}

/-- A party that has something to do with the feed makes a call, other than to begin with it, and
goes on to a part for which the call has made it ready. -/
theorem plays_act {c : Call} {next : c.Answer → Program α} (there : r ≠ .away)
    (quiet : c.begins i = false)
    (step : ∀ outages h, r.Holds (h.store.standing i) → ∃ r' : Part, r'.Suits me ∧
      r'.Holds ((c.perform outages h).2.store.standing i) ∧
      r.load = ((c.turn outages h).ends i).toNat + r'.load ∧
      (next (c.perform outages h).1).Plays (cast i) me post r') :
    (Program.call c next).Plays (cast i) me post r := by
  intro parts past h outages hr hx
  subst hr
  obtain ⟨r', suits, holds, load, goes⟩ := step outages h (hx.holds me)
  refine ⟨fun hnote => ?_, r', hx.act (hx.others_away there) outages suits holds ?_, goes⟩
  · rw [hnote] at quiet
    exact absurd rfl (of_decide_eq_false quiet)
  · rw [quiet, load]
    exact Nat.zero_add _

/-- A party that has nothing to do with the feed reads a list. If the feed is on it and the other
loop cannot have to do with it, the feed becomes its own. -/
theorem plays_take {c : Call} {next : c.Answer → Program α} (hc : c.concerns i = false)
    (hme : me = retry.toNat)
    (step : ∀ outages h, h.store.Coherent →
      (next (c.perform outages h).1).Plays (cast i) me post .away ∨
      ∃ r' : Part, r'.Suits me ∧ r'.Holds (h.store.standing i) ∧ r'.load = 0 ∧
        ¬ (h.store.standing i).Keeps (!retry) ∧
        (next (c.perform outages h).1).Plays (cast i) me post r') :
    (Program.call c next).Plays (cast i) me post .away := by
  intro parts past h outages hr hx
  obtain ⟨rule, stays⟩ := neutral hc parts past h outages hx
  refine ⟨rule, ?_⟩
  rcases step outages h hx.coherent with goes | ⟨r', suits, holds, load, clash, goes⟩
  · exact ⟨.away, by rwa [← hr, Function.update_eq_self], goes⟩
  · have others : ∀ k, k ≠ me → parts k = .away := fun k hk => by
      by_contra other
      obtain ⟨retry', keeps, party⟩ := Part.exists_keeps (hx.holds k) other
      have hk' := party k (hx.suits k)
      have opposite : retry' = !retry := by
        cases retry <;> cases retry' <;> first | rfl | exact absurd (hk'.trans hme.symm) hk
      exact clash (opposite ▸ keeps)
    refine ⟨r', hx.act others outages suits ?_ ?_, goes⟩
    · by_cases hf : (c.turn outages h).failed
      · rwa [c.perform_of_failed outages h hf]
      · rw [c.store_perform_of_not_failed outages h hf]
        exact holds.effect hx.coherent hc
    · have silent : (c.turn outages h).ends i = false := Call.ends_of_not_concerns hc _
      rw [Call.begins_of_not_concerns hc, silent, hr, load]
      rfl

/-! ## Processing a feed -/

/-- Counting an attempt ends the processing of the feed. -/
theorem plays_bump {next : Stored Unit → Program α}
    (hnext : ∀ a, (next a).Plays (cast i) retry.toNat post (Part.after retry)) :
    (Program.call (.bump i) next).Plays (cast i) retry.toNat post (.busy retry) := by
  refine plays_act nofun rfl fun outages h hr => ?_
  have ends : ((Call.bump i).turn outages h).ends i = true := decide_eq_true rfl
  have load : (Part.after retry).load = 0 := by cases retry <;> rfl
  refine ⟨Part.after retry, Part.suits_after, Part.holds_after ?_, by rw [ends, load]; rfl,
    hnext _⟩
  by_cases hf : ((Call.bump i).turn outages h).failed
  · rw [Call.perform_of_failed _ outages h hf]
    exact hr
  · rw [Call.store_perform_of_not_failed _ outages h hf]
    exact Standing.Keeps.update hr Feed.bumped fun _ => rfl

/-- Marking the feed as processed ends its processing, and if that is refused it goes on. -/
theorem plays_complete {p : Payload} {next : Stored Unit → Program α}
    (refused : ∀ e, (next (.error e)).Plays (cast i) retry.toNat post (.busy retry))
    (done : (next (.ok ())).Plays (cast i) retry.toNat post (Part.after retry)) :
    (Program.call (.complete i p) next).Plays (cast i) retry.toNat post (.busy retry) := by
  refine plays_act nofun rfl fun outages h hr => ?_
  have keeps : ((Call.perform outages (.complete i p) h).2.store.standing i).Keeps retry := by
    by_cases hf : ((Call.complete i p).turn outages h).failed
    · rw [Call.perform_of_failed _ outages h hf]
      exact hr
    · rw [Call.store_perform_of_not_failed _ outages h hf]
      exact Standing.Keeps.update hr (·.completed p) fun _ => rfl
  cases ha : (Call.perform outages (.complete i p) h).1 with
  | error e =>
    have ends : ((Call.complete i p).turn outages h).ends i = false := by
      simp only [Turn.ends, Call.turn, ha]
      rfl
    exact ⟨.busy retry, rfl, keeps, by rw [ends]; rfl, refused e⟩
  | ok =>
    have ends : ((Call.complete i p).turn outages h).ends i = true := by
      simp only [Turn.ends, Call.turn, ha]
      exact decide_eq_true rfl
    have load : (Part.after retry).load = 0 := by cases retry <;> rfl
    refine ⟨Part.after retry, Part.suits_after, Part.holds_after keeps, ?_, done⟩
    rw [ends, load]
    rfl

/-- Whoever has a feed and knows that it is not marked as processed may process it. -/
theorem plays_process (retry : Bool) (t : Broadcast.Topic) {f : Feed} (hf : f.id = i) :
    (Processing.process t f).Plays (cast i) retry.toNat (fun _ r => r = Part.after retry)
      (.ready retry) := by
  subst hf
  intro parts past h outages hr hx
  have ready : (Part.ready retry).Holds (h.store.standing f.id) := hr ▸ hx.holds retry.toNat
  have there : parts retry.toNat ≠ .away := by rw [hr]; nofun
  have others := hx.others_away there
  refine ⟨fun _ => ⟨?_, ready.2⟩, .busy retry, hx.act others outages rfl ready.1 ?_, ?_⟩
  · have idle := hx.counted _ others
    rwa [hr] at idle
  · rw [hr]
    have begins : (Call.note f.id).begins f.id = true := decide_eq_true rfl
    rw [begins]
    rfl
  · show ((Dispatch.dispatch f f.enriched).bind _).Plays _ _ _ _
    refine .bind (.of_only ?_ fun dispatched => ?_)
    · exact (Dispatch.passive_dispatch f f.enriched).mono fun c hc =>
        neutral (Call.not_concerns_of_passive hc)
    refine .bind (.of_only ?_ fun outcome => ?_)
    · exact (Broadcast.only_publish t f).mono fun c hc => neutral hc.not_concerns
    show (if outcome = .watermarkUnavailable then _ else _ : Program _).Plays _ _ _ _
    split
    · exact plays_bump fun _ => rfl
    · exact plays_complete (fun e => plays_bump fun _ => rfl) rfl

end Exclusive

/-! ## The two loops -/

namespace Outbox

variable {i : FeedId}

/-- Whoever has the feed listed lets go of it when its entry is taken out. -/
theorem plays_acknowledge :
    (acknowledge i).Plays (Exclusive.cast i) 0 (fun _ r => r = .away) .listed := by
  refine Exclusive.plays_act nofun rfl fun outages h _ => ⟨.away, trivial, trivial, rfl, ?_⟩
  rcases (Call.perform outages (.acknowledge i) h).1 with _ | _ <;> rfl

/-- The outbox loop handles an entry of its list and is then done with it. -/
theorem plays_relayOne (t : Broadcast.Topic) :
    (relayOne t i).Plays (Exclusive.cast i) 0 (fun _ r => r = .away) .listed := by
  refine Exclusive.plays_act nofun rfl fun outages h hr => ?_
  have same : (Call.perform outages (.load i) h).2.store = h.store := by
    simp only [Call.perform, Outages.guard]
    split <;> rfl
  have ends : ((Call.load i).turn outages h).ends i = false := rfl
  rw [same, ends]
  simp only [Call.perform, Outages.guard]
  split
  · exact ⟨.away, trivial, trivial, rfl, rfl⟩
  · cases hf : h.store.feed? i with
    | none => exact ⟨.listed, rfl, hr, rfl, plays_acknowledge⟩
    | some f =>
      show ∃ r' : Part, _ ∧ _ ∧ _ ∧
        Program.Plays _ _ (if f.processed then acknowledge i else _) _ r'
      cases todo : f.processed with
      | true => exact ⟨.listed, rfl, hr, rfl, plays_acknowledge⟩
      | false =>
        refine ⟨.ready false, rfl, ⟨hr, fun g hg => ?_⟩, rfl, ?_⟩
        · obtain rfl : f = g := Option.some.inj (hf.symm.trans hg)
          exact todo
        · have processed := Exclusive.plays_process false t (Store.id_of_feed? hf)
          refine Program.Plays.bind (processed.mono ?_)
          rintro - - rfl
          exact plays_acknowledge

/-- A pass over the outbox has nothing to do with the feed before it and after it. -/
theorem plays_drain {t : Broadcast.Topic} {limit batch : Nat}
    {handle : List FeedId → Program (List Bool)}
    (sideBySide : ∀ ids, Program.Weave limit (ids.map (relayOne t)) (handle ids)) :
    (drainBy handle batch).Plays (Exclusive.cast i) 0 (fun _ r => r = .away) .away := by
  refine Exclusive.plays_take rfl (show 0 = false.toNat from rfl) fun outages h coherent => ?_
  simp only [Call.perform, Outages.guard]
  split
  · exact .inl rfl
  · have others : ∀ j ∈ h.store.pending batch, j ≠ i →
        (relayOne t j).Only (Exclusive.cast i).Neutral := fun j _ hj =>
      (only_relayOne t j).mono fun c hc => Exclusive.neutral (hc.not_concerns hj)
    have plays : ∀ r, (∀ j ∈ h.store.pending batch, j = i → r = .listed) →
        (i ∉ h.store.pending batch → r = .away) →
        (handle (h.store.pending batch)).Plays (Exclusive.cast i) 0 (fun _ r => r = .away) r := by
      intro r mine none
      refine (sideBySide _).plays_of_key id i ?_ others (fun j hj hji => ?_) fun absent => ?_
      · rw [List.map_id]
        exact coherent.nodup_pending batch
      · obtain rfl : j = i := hji
        rw [mine j hj rfl]
        exact plays_relayOne t
      · exact none fun hi => absent i hi rfl
    show Program.Plays _ _ ((handle (h.store.pending batch)).bind _) _ _ ∨
      ∃ r' : Part, _ ∧ _ ∧ _ ∧ _ ∧ Program.Plays _ _ ((handle (h.store.pending batch)).bind _) _ r'
    by_cases hi : i ∈ h.store.pending batch
    · have waits : (h.store.standing i).waiting = true :=
        List.contains_iff_mem.2 (List.mem_of_mem_take hi)
      refine .inr ⟨.listed, rfl, .inl waits, rfl, fun keeps => ?_, .bind ?_⟩
      · rw [keeps.1] at waits
        cases waits
      · exact plays .listed (fun _ _ _ => rfl) fun out => absurd hi out
    · exact .inl (.bind (plays .away (fun j hj hji => absurd (hji ▸ hj) hi) fun _ => rfl))

end Outbox

namespace Retry

variable {i : FeedId}

/-- A retry pass has nothing to do with the feed before it and after it. -/
theorem plays_pass {t : Broadcast.Topic} {limit cap batch : Nat}
    {handle : List Feed → Program (List (Except FeedError Processing.Report))}
    (sideBySide : ∀ feeds, Program.Weave limit (feeds.map (Processing.process t)) (handle feeds)) :
    (passBy handle cap batch).Plays (Exclusive.cast i) 1 (fun _ r => r = .away) .away := by
  refine Exclusive.plays_take rfl (show 1 = true.toNat from rfl) fun outages h coherent => ?_
  simp only [Call.perform, Outages.guard]
  split
  · exact .inl rfl
  · have others : ∀ f ∈ h.store.candidates cap batch, f.id ≠ i →
        (Processing.process t f).Only (Exclusive.cast i).Neutral := fun f _ hf =>
      (Processing.only_process t f).mono fun c hc => Exclusive.neutral (hc.not_concerns hf)
    have plays : ∀ r, (∀ f ∈ h.store.candidates cap batch, f.id = i → r = .ready true) →
        ((∀ f ∈ h.store.candidates cap batch, f.id ≠ i) → r = .away) →
        (handle (h.store.candidates cap batch)).Plays (Exclusive.cast i) 1
          (fun _ r => r = .away) r := by
      intro r mine none
      refine (sideBySide _).plays_of_key (·.id) i (coherent.nodup_candidates cap batch) others
        (fun f hf hid => ?_) none
      rw [mine f hf hid]
      exact Exclusive.plays_process true t hid
    show Program.Plays _ _ ((handle (h.store.candidates cap batch)).bind _) _ _ ∨
      ∃ r' : Part, _ ∧ _ ∧ _ ∧ _ ∧
        Program.Plays _ _ ((handle (h.store.candidates cap batch)).bind _) _ r'
    by_cases hi : ∃ f ∈ h.store.candidates cap batch, f.id = i
    · obtain ⟨f, hf, rfl⟩ := hi
      obtain ⟨hmem, hretry⟩ := Store.mem_candidates hf
      simp only [Store.isRetryable, Bool.and_eq_true, Bool.not_eq_true', decide_eq_true_eq]
        at hretry
      obtain ⟨⟨⟨todo, -⟩, -⟩, out⟩ := hretry
      have there : (h.store.standing f.id).feed = some f := coherent.feed?_eq_some_iff.2 ⟨hmem, rfl⟩
      have given : (h.store.standing f.id).given = true :=
        decide_eq_true (coherent.numbered f.id (List.mem_map_of_mem hmem)).2
      refine .inr ⟨.ready true, rfl, ⟨⟨out, given⟩, fun g hg => ?_⟩, rfl, fun keeps => ?_, .bind ?_⟩
      · obtain rfl : f = g := Option.some.inj (there.symm.trans hg)
        exact todo
      · rcases keeps with waits | gone
        · exact Bool.false_ne_true (out.symm.trans waits)
        · rw [gone] at there
          cases there
      · exact plays (.ready true) (fun _ _ _ => rfl) fun absent => absurd rfl (absent f hf)
    · have absent : ∀ f ∈ h.store.candidates cap batch, f.id ≠ i := fun f hf hid => hi ⟨f, hf, hid⟩
      exact .inl (.bind (plays .away (fun f hf hid => absurd hid (absent f hf)) fun _ => rfl))

end Retry

/-! ## Everything beside them -/

/-- All other acts concern no feed that there is. -/
theorem Act.PerformedBy.neutral {s : Settings} {a : Act} {α : Type} {p : Program α} {i : FeedId}
    (hp : a.PerformedBy s p) (ha : a.processes = false) : p.Only (Exclusive.cast i).Neutral := by
  refine hp.only.mono fun c hc => Exclusive.neutral ?_
  have added : ∀ {d}, Intake.Makes d c → c.concerns i = false := fun made => by
    cases made with
    | insert => rfl
    | index made => cases made <;> rfl
  cases a with
  | drain | retry | process => cases ha
  | submit =>
    obtain ⟨d, -, made⟩ := hc
    exact added made
  | add d => exact added hc
  | sweep now => cases hc <;> rfl
  | _ => exact Call.not_concerns_of_passive hc

namespace Exclusive

variable {i : FeedId} {parts : Nat → Part} {past : List Turn} {h : Hub}

/-- The feed is being processed by nobody or by one party. -/
theorem bounds (hx : Exclusive i parts past h) :
    endings i past ≤ processings i past ∧ processings i past ≤ endings i past + 1 := by
  obtain ⟨j, alone⟩ : ∃ j, ∀ k, k ≠ j → parts k = .away := by
    by_cases busy : ∃ j, parts j ≠ .away
    · obtain ⟨j, hj⟩ := busy
      exact ⟨j, hx.others_away hj⟩
    · exact ⟨0, fun k _ => not_not.1 fun hk => busy ⟨k, hk⟩⟩
  have counted := hx.counted j alone
  have load : (parts j).load ≤ 1 := by cases parts j <;> simp [Part.load]
  omega

end Exclusive

/-- **The outbox loop and the retry loop exclude each other.** One party performs passes over the
outbox, another one retry passes, and any others whatever else there is to do, sweeps and new
feeds among it; they take turns in any way, and any call to the store may fail. Then the
processing of a feed begins only when it is not being processed and its record is not marked as
processed; at no time is it being processed twice; and once it has been deleted it is never
there again. -/
theorem Program.Weave.passes_exclude {s : Settings} {limit : Nat} {relay retrier : Program Unit}
    {others : List (Program Unit)} {w : Program (List Unit)} {start h : Hub} {ts : List Turn}
    {results : List Unit} (hrelay : relay.Performs s (· = .drain))
    (hretrier : retrier.Performs s (· = .retry))
    (hothers : ∀ q ∈ others, q.Performs s (·.processes = false))
    (hw : Weave limit (relay :: retrier :: others) w) (run : w.Runs start ts results h)
    (hs : start.store.Coherent) (i : FeedId) :
    (∀ us t vs, ts = us ++ t :: vs → t.call = .note i → processings i us = endings i us ∧
      ∀ f, t.before.store.feed? i = some f → f.processed = false) ∧
    (∀ us vs, ts = us ++ vs →
      endings i us ≤ processings i us ∧ processings i us ≤ endings i us + 1) ∧
    ∀ us t vs, ts = us ++ t :: vs → i ∈ t.deleted →
      (∀ v ∈ vs, v.after.store.feed? i = none) ∧ h.store.feed? i = none := by
  have plays : ∀ (k : Nat) p, (relay :: retrier :: others)[k]? = some p →
      p.Plays (Exclusive.cast i) k (fun _ _ => True) .away := by
    intro k p hk
    match k with
    | 0 =>
      obtain rfl : relay = p := Option.some.inj hk
      refine (hrelay.plays fun a _ p ha hp => ?_).mono fun _ _ _ => trivial
      subst ha
      cases hp with
      | drain sideBySide => exact Outbox.plays_drain sideBySide
    | 1 =>
      obtain rfl : retrier = p := Option.some.inj hk
      refine (hretrier.plays fun a _ p ha hp => ?_).mono fun _ _ _ => trivial
      subst ha
      cases hp with
      | retry sideBySide => exact Retry.plays_pass sideBySide
    | k + 2 =>
      refine ((hothers p (List.mem_of_getElem? hk)).plays fun a _ p ha hp => ?_).mono
        fun _ _ _ => trivial
      exact .of_only (hp.neutral ha) fun _ => rfl
  obtain ⟨⟨parts, last⟩, turns⟩ := hw.played plays run (Exclusive.start hs)
  refine ⟨fun us t vs hsplit hnote => (turns us t vs hsplit).1 hnote, fun us vs hsplit => ?_,
    fun us t vs hsplit deleted => ?_⟩
  · cases vs with
    | nil =>
      rw [List.append_nil] at hsplit
      exact hsplit ▸ last.bounds
    | cons t vs =>
      obtain ⟨-, parts', before⟩ := turns us t vs hsplit
      exact before.bounds
  · obtain ⟨-, parts', before⟩ := turns us t vs hsplit
    have chain := run.chain
    rw [hsplit] at chain
    obtain ⟨s₁, -, chain⟩ := chain.of_append
    cases chain with
    | cons genuine rest =>
      have lost := Standing.gone_of_deleted genuine before.coherent deleted
      obtain ⟨final, later⟩ :=
        Standing.gone_of_chain rest (genuine.coherent before.coherent) lost
      exact ⟨fun v hv => congrArg Standing.feed (later v hv), congrArg Standing.feed final⟩

/-- One pass over the outbox in an outage of the watermark store, and a retry pass after it. -/
def Program.oneEach : List (Program Unit) :=
  [(Outbox.drain Settings.sample.topic 100).bind fun _ => .done (),
    (Retry.pass Settings.sample.topic 3 50).bind fun _ => .done ()]

/-- A feed that the first pass leaves unprocessed is processed a second time by the other, but not
before the first time has come to its end. -/
theorem Program.Weave.passes_exclude_of_outage :
    ∃ ts results h, (Program.forEach Program.oneEach id).Runs History.oneStored ts results h ∧
      processings 1 ts = 2 ∧
      ∀ us t vs, ts = us ++ t :: vs → t.call = .note 1 → processings 1 us = endings 1 us := by
  have hw : Weave 2 Program.oneEach (Program.forEach Program.oneEach id) := by
    have sequential : Weave 2 (Program.oneEach.map id) (Program.forEach Program.oneEach id) :=
      Program.weave_forEach (by decide) _ _
    rwa [List.map_id] at sequential
  have run := (Program.forEach Program.oneEach id).runs_run .ofWatermark History.oneStored
  have drain : Act.PerformedBy .sample .drain (Outbox.drain Settings.sample.topic 100) :=
    Act.performedBy_drain (by decide)
  have retry : Act.PerformedBy .sample .retry (Retry.pass Settings.sample.topic 3 50) :=
    Act.performedBy_retry (by decide)
  have coherent : History.oneStored.store.Coherent :=
    ((Intake.add (.sample "p" ["solana:alice"] 5)).runs_run .none .sample).coherent
      Store.coherent_empty
  obtain ⟨begins, -, -⟩ := passes_exclude (.act rfl drain fun _ => .rest)
    (.act rfl retry fun _ => .rest) (by simp) hw run coherent 1
  exact ⟨_, _, _, run, by decide +kernel,
    fun us t vs hsplit hnote => (begins us t vs hsplit hnote).1⟩

end NotificationRelay
