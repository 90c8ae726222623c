/-
# How often a feed is handed over

The watermark keeps a feed from being handed over after a newer one, but not from being handed over
again: it admits the epoch that it stands at. What ends it is the mark of completion, since a feed
that is marked as processed is not processed again (`Standing.Over`). An act hands a feed over once
at most, and for the last time if the mark is written (`Standing.Handing`).

So over a whole history a feed is handed over at most once more often than its mark could not be
written, whatever else fails and in whatever order the feeds of a batch take turns
(`History.handed_bounded`). It is handed over again where the mark was lost
(`History.handed_twice_of_lostMark`).
-/
import NotificationRelay.Proofs.Flow.Ledger
import NotificationRelay.Proofs.Flow.Settling

namespace NotificationRelay

/-- Whether a turn was to mark a feed as processed and failed. -/
def Turn.unmarked (i : FeedId) (t : Turn) : Bool :=
  match t.call, t.answer with
  | .complete j _, .error (.unavailable _) => decide (j = i)
  | _, _ => false

/-- A feed whose mark as processed is lost is unmarked. -/
theorem Turn.unmarked_of_failed {i : FeedId} {p : Payload} {t : Turn}
    (hcall : t.call = .complete i p) (failed : t.failed) : t.unmarked i = true := by
  obtain ⟨h, c, a, h'⟩ := t
  obtain rfl : c = .complete i p := hcall
  obtain ⟨reason, hr⟩ := failed
  cases a with
  | ok => cases hr
  | error e =>
    obtain rfl : e = .unavailable reason := Option.some.inj hr
    exact decide_eq_true rfl

namespace Standing

/-- A feed has been created, and if it is still stored it is marked as processed. -/
structure Over (x : Standing) : Prop where
  given : x.given = true
  marked : ∀ f, x.feed = some f → f.processed = true

/-- What an act does to the standing of a feed and to the number of times it has been handed over:
it is handed over once at most, and neither then nor later if it was over before. If no mark is lost
it is over once it has been handed over. -/
structure Handing (safe : Prop) (x : Standing) (n : Nat) (y : Standing) (m : Nat) : Prop where
  once : m ≤ n + 1
  ended : x.Over → m = n ∧ y.Over
  marked : safe → m = n ∨ y.Over

/-- A turn on a coherent store, at which the mark of a feed is not lost if none is to be. -/
structure Marking (safe : Prop) (i : FeedId) (u : Turn) : Prop where
  coherent : u.before.store.Coherent
  kept : safe → u.unmarked i = false

variable {safe : Prop} {x y : Standing} {n m : Nat}

/-- Handing nothing over is safe. -/
theorem Handing.none (ended : x.Over → y.Over) : Handing safe x n y n :=
  ⟨Nat.le_succ n, fun before => ⟨rfl, ended before⟩, fun _ => .inl rfl⟩

/-- A feed that is tried is handed over once at most, and for the last time if its mark is safe. -/
theorem Handing.tried {f : Feed} (hf : x.feed = some f) (todo : f.processed = false)
    (once : m = n ∨ m = n + 1) (marked : safe → m = n ∨ y.Over) : Handing safe x n y m := by
  refine ⟨by omega, fun before => ?_, marked⟩
  rw [before.marked f hf] at todo
  cases todo

/-- To leave the outbox makes no difference. -/
theorem Handing.out (handing : Handing safe x n y m) :
    Handing safe x n { y with waiting := false } m := by
  have same : y.Over → { y with waiting := false }.Over := fun ended => ⟨ended.given, ended.marked⟩
  exact ⟨handing.once, fun before => (handing.ended before).imp_right same,
    fun hs => (handing.marked hs).imp_right same⟩

section Leads

variable {i : FeedId} {f : Feed}

/-- A call that hands a feed over regards it. -/
theorem regards_of_posts {c : Call} (hc : c.posts i = true) : c.Regards i := by
  cases c with
  | post m => exact .post (of_decide_eq_true hc)
  | _ => cases hc

/-- A feed is handed over once or not at all, and not at all if the watermark is out of reach. -/
theorem handing_publish (t : Broadcast.Topic) (hid : f.id = i) {ok : Turn → Prop} :
    (Broadcast.publish t f f.enriched).Leads (aspect i (Call.posts i)) ok (fun outcome y m =>
      y = x ∧ (m = n ∨ m = n + 1 ∧ outcome ≠ .watermarkUnavailable)) x n := by
  unfold Broadcast.publish
  split
  · next on =>
    refine leads_read rfl (unmoved_broadcast (.advance on)) fun outages h _ _ => ?_
    match (Call.perform outages (.advance f.id f.epoch) h).1 with
    | .error _ => exact ⟨rfl, .inl rfl⟩
    | .ok false => exact ⟨rfl, .inl rfl⟩
    | .ok true =>
      refine leads_counted (decide_eq_true hid) (unmoved_broadcast (.post on)) fun accepted => ?_
      cases accepted with
      | false => exact ⟨rfl, .inr ⟨rfl, by decide⟩⟩
      | true => exact ⟨rfl, .inr ⟨rfl, by decide⟩⟩
  · exact ⟨rfl, .inl rfl⟩

/-- An attempt is counted, unless the call fails. -/
theorem leads_attempt {α : Type} {a : α} {counts : Call → Bool} {ok : Turn → Prop}
    (hcount : counts (.bump i) = false) (hf : x.feed = some f) {post : Standing → Nat → Prop}
    (lost : post x n) (counted : post { x with feed := some f.bumped } n) :
    ((Program.perform (.bump i)).bind fun _ => .done a).Leads (aspect i counts) ok (fun _ => post)
      x n := by
  refine leads_call hcount (fun _ _ _ _ _ => lost) fun outages h hx _ _ => ?_
  subst hx
  show post ((Call.effect (.bump i) h.store).standing i) n
  rw [Call.effect, Store.bump, of_update hf Feed.bumped fun _ => rfl]
  exact counted

/-- Processing a feed hands it over once at most. -/
theorem handing_process (t : Broadcast.Topic) (hf : x.feed = some f) (hid : f.id = i)
    (todo : f.processed = false) (given : x.given = true) :
    (Processing.process t f).Leads (aspect i (Call.posts i)) (Marking safe i)
      (fun _ => Handing safe x n) x n := by
  subst hid
  have noted : (aspect f.id (Call.posts f.id)).Spares (.note f.id) := spares rfl fun _ => rfl
  rw [Processing.process_eq]
  refine Program.Leads.bind (.of_only (Program.only_perform noted) fun _ => ?_)
  refine Program.Leads.bind (.of_only ?_ fun dispatch => ?_)
  · exact (Dispatch.passive_dispatch f f.enriched).mono fun c => Retry.spares_passive
  refine Program.Leads.bind ((handing_publish t rfl).mono ?_)
  rintro outcome _ m ⟨rfl, sent⟩
  have once : m = n ∨ m = n + 1 := sent.imp_right And.left
  unfold Processing.settle
  split
  · next unavailable =>
    have none : m = n := sent.resolve_right fun sent => sent.2 unavailable
    exact leads_attempt rfl hf (.tried hf todo once fun _ => .inl none)
      (.tried hf todo once fun _ => .inl none)
  · refine leads_complete rfl hf (fun e u marking hu failed => ?_) ?_
    · have lost : ¬ safe := fun hs => by
        have kept := marking.kept hs
        rw [Turn.unmarked_of_failed hu failed] at kept
        cases kept
      exact leads_attempt rfl hf (.tried hf todo once fun hs => absurd hs lost)
        (.tried hf todo once fun hs => absurd hs lost)
    · refine .tried hf todo once fun _ => .inr ⟨given, fun g hg => ?_⟩
      obtain rfl := Option.some.inj hg
      rfl

/-- **An act hands a feed over at most once**, unless it processes feeds outside the two passes. -/
theorem handing_act {s : Settings} {a : Act} {α : Type} {p : Program α} (hp : a.PerformedBy s p)
    (ha : ∀ f, a ≠ .process f) (given : ∀ f, x.feed = some f → x.given = true) :
    p.Leads (aspect i (Call.posts i)) (Marking safe i) (fun _ => Handing safe x n) x n := by
  refine leads_act hp ha (fun _ marking => marking.coherent) (fun _ => regards_of_posts)
    (.none id) (fun d new => .none fun ended => ?_)
    (.none fun ended => ⟨ended.given, fun _ hf => (nomatch hf)⟩) (fun _ => ?_)
    fun f hf hid todo _ _ _ => handing_process s.topic hf hid todo (given f hf)
  · rw [new] at ended
    cases ended.given
  · refine leads_relayOne rfl (fun _ _ _ => .none id) (fun _ => ?_) fun f hf hid todo => ?_
    · exact leads_acknowledge rfl (fun _ _ _ _ => .none id) (Handing.none id).out
    · exact (handing_process s.topic hf hid todo (given f hf)).mono fun _ y m handing =>
        leads_acknowledge rfl (fun _ _ _ _ => handing) handing.out

end Leads

end Standing

namespace History

variable {s : Settings} {start h : Hub} {ts : List Turn} {i : FeedId}

/-- **A feed is handed over at most once more often than marking it as processed has failed**,
whatever else fails and in whatever order the feeds of a batch take turns, in every history in
which no feed is processed by hand. -/
theorem handed_bounded (hist : History s (fun a => ∀ f, a ≠ .process f) start ts h)
    (empty : start.store = Store.empty) (i : FeedId) :
    (handed i ts).length ≤ 1 + ts.countP (Turn.unmarked i) := by
  -- as long as it is not over there has been a lost mark for every time it was handed over
  suffices here :
      (¬ (h.store.standing i).Over → (handed i ts).length ≤ ts.countP (Turn.unmarked i)) ∧
        (handed i ts).length ≤ 1 + ts.countP (Turn.unmarked i) from here.2
  induction hist with
  | start => exact ⟨fun _ => Nat.le_refl 0, Nat.zero_le _⟩
  | @act a α p result ts us h h' before ha hp run ih =>
    have coherent := (before.coherent (by rw [empty]; exact Store.coherent_empty)).1
    have given : ∀ f, (h.store.standing i).feed = some f → (h.store.standing i).given = true :=
      fun f hf => decide_eq_true (coherent.numbered i (Store.mem_ids_iff.2 ⟨f, hf⟩)).2
    have leads : p.Leads (Standing.aspect i (Call.posts i))
        (Standing.Marking (∀ u ∈ us, u.unmarked i = false) i) _ (h.store.standing i) 0 :=
      Standing.handing_act hp ha given
    obtain ⟨once, ended, marked⟩ := leads.of_runs run fun u hu =>
      ⟨run.coherent_before coherent hu, fun safe => safe u hu⟩
    have sent : (handed i us).length = 0 + (Standing.aspect i (Call.posts i)).count us :=
      (length_handed i us).trans (Nat.zero_add _).symm
    rw [← sent] at once ended marked
    rw [handed_append, List.length_append, List.countP_append]
    by_cases done : (h.store.standing i).Over
    · obtain ⟨none, last⟩ := ended done
      exact ⟨fun early => absurd last early, by omega⟩
    · have first := ih.1 done
      by_cases lost : us.countP (Turn.unmarked i) = 0
      · have safe : ∀ u ∈ us, u.unmarked i = false := fun u hu =>
          Bool.eq_false_iff.2 (List.countP_eq_zero.1 lost u hu)
        refine ⟨fun early => ?_, by omega⟩
        have none := (marked safe).resolve_right early
        omega
      · exact ⟨fun _ => by omega, by omega⟩
  | outside _ o ih =>
    rw [o.store_eq]
    exact ih

/-- A feed is stored, it is handed over while nothing can be marked as processed, and a retry pass
takes it up. -/
def lostMark : List Turn :=
  (Intake.add (.sample "p" ["solana:alice"] 5)).turns .none .sample ++
    (Outbox.drain oneByOne.topic 100).turns .ofCompletion oneStored ++
      (Retry.pass oneByOne.topic 3 50).turns .none
        ((Outbox.drain oneByOne.topic 100).run .ofCompletion oneStored).2

/-- The hub that is left. -/
def afterLostMark : Hub := ((Retry.pass oneByOne.topic 3 50).run .none
  ((Outbox.drain oneByOne.topic 100).run .ofCompletion oneStored).2).2

/-- The feed whose mark was lost is handed over in a history. -/
theorem of_lostMark {allowed : Act → Prop} (adds : ∀ d, allowed (.add d)) (drains : allowed .drain)
    (retries : allowed .retry) : History oneByOne allowed .sample lostMark afterLostMark :=
  ((History.start.andThen (adds _) (.add _) .none).andThen drains
    (Act.performedBy_drain (by decide)) .ofCompletion).andThen retries
      (Act.performedBy_retry (by decide)) .none

/-- Its mark failed once, and it was handed over twice. -/
theorem handed_bounded_of_lostMark :
    (handed 1 lostMark).length = 2 ∧ lostMark.countP (Turn.unmarked 1) = 1 ∧
      (handed 1 lostMark).length ≤ 1 + lostMark.countP (Turn.unmarked 1) := by
  have hist : History oneByOne (fun a => ∀ f, a ≠ .process f) .sample lostMark afterLostMark :=
    of_lostMark (by simp) (by simp) (by simp)
  exact ⟨by decide +kernel, by decide +kernel, hist.handed_bounded rfl 1⟩

/-- One lost mark is enough for a feed to be handed over twice, although one feed is processed at a
time and nothing fails but to load a feed, to mark it as processed, and to consult the watermark. -/
theorem handed_twice_of_lostMark :
    ¬ ∀ (s : Settings) (start h : Hub) (ts : List Turn), start.store = Store.empty →
      s.pipeline.concurrency = 1 →
      History s (fun a => (∃ d, a = .add d) ∨ a = .drain ∨ a = .retry ∨ ∃ now, a = .sweep now)
        start ts h →
      (∀ t ∈ ts, t.failed → (∃ i, t.call = .load i) ∨ (∃ i p, t.call = .complete i p) ∨
        ∃ i epoch, t.call = .advance i epoch) →
        ∀ i, (handed i ts).length ≤ 1 := by
  intro claim
  have failing : ∀ t ∈ lostMark, t.failed → ∃ i p, t.call = .complete i p := by
    intro t ht failed
    obtain ⟨outages, ⟨reason, hreason⟩, known⟩ : ∃ outages : Outages,
        (∃ reason, outages t.call = some reason) ∧ (outages = .none ∨ outages = .ofCompletion) := by
      rcases List.mem_append.1 ht with ht | ht
      · rcases List.mem_append.1 ht with ht | ht
        · exact ⟨_, Program.outage_of_mem_turns ht failed, .inl rfl⟩
        · exact ⟨_, Program.outage_of_mem_turns ht failed, .inr rfl⟩
      · exact ⟨_, Program.outage_of_mem_turns ht failed, .inl rfl⟩
    rcases known with rfl | rfl
    · cases hreason
    · cases hc : t.call with
      | complete i p => exact ⟨i, p, rfl⟩
      | _ =>
        rw [hc] at hreason
        cases hreason
  have atMostOnce := claim oneByOne .sample afterLostMark lostMark rfl rfl
    (of_lostMark (fun d => .inl ⟨d, rfl⟩) (.inr (.inl rfl)) (.inr (.inr (.inl rfl))))
    (fun t ht failed => .inr (.inl (failing t ht failed))) 1
  have twice : (handed 1 lostMark).length = 2 := by decide +kernel
  omega

end History
end NotificationRelay
