/-
# What is told of feeds

While a feed is processed, sessions are told of it by live events and its message is handed over.
What sessions were told of a feed is read off the calls (`offered`); what they are due depends on
who they are (`Feed.due`, and in full `Draft.Due`). Where the registry is right about who is
connected, asking it comes to the same (`Registry.Seats.sent_eq`).

`Telling` says of a list of feeds that they, and no others, were noted, offered, handed over and
marked as processed, each once and in the order of the list. Calls that deliver nothing keep it
(`Telling.quiet`), and handling an entry of the outbox puts its feed at the end
(`Telling.relay`).
-/
import Mathlib.Data.List.Forall2
import NotificationRelay.Proofs.Feed.Contents
import NotificationRelay.Proofs.Flow.Handling

namespace NotificationRelay

/-! ## What sessions are told of a feed -/

/-- The feed that a live event tells of. -/
def Event.live? : Event → Option FeedId
  | .userFeed feed => some feed.id
  | .userSpamFeed feed => some feed.id
  | .liveFeed feed => some feed.id
  | _ => none

/-- The live event for a client tells of its feed. -/
theorem Event.live?_forClient (f : Feed) (payload : Payload) :
    (forClient f payload).live? = some f.id := by
  unfold forClient
  split <;> rfl

/-- The live event of a feed that a call offers to a session. -/
def Call.offered? (i : FeedId) (k : SessionId) : Call → Option Event
  | .offer j e => if j = k ∧ e.live? = some i then some e else none
  | _ => none

/-- The live events of a feed that turns offered to a session. -/
def offered (i : FeedId) (k : SessionId) (ts : List Turn) : List Event :=
  ts.filterMap fun t => t.call.offered? i k

/-- What a session is due of a feed: a client at one of its recipients is told once, and so is a
delivery node. -/
def Feed.due (f : Feed) : Option Seat → List Event
  | some (.client a) => if a ∈ f.recipients then [Event.forClient f f.enriched] else []
  | some .node => [Event.forNode f f.enriched]
  | none => []

/-- The events that a session is due of a feed, by what they say: a client at one of its recipients
is told of it once, and so is a delivery node, and nobody else is told anything. -/
inductive Draft.Due (d : Draft) (i : FeedId) : Option Seat → List Event → Prop
  | client {a : String} {e : Event} (addressed : a ∈ d.recipients) (tells : e.TellsClient i d) :
      Due d i (some (.client a)) [e]
  | elsewhere {a : String} (strange : a ∉ d.recipients) : Due d i (some (.client a)) []
  | node {e : Event} (tells : e.TellsNode i d) : Due d i (some .node) [e]
  | nobody : Due d i none []

/-- What a session is due of a feed says so. -/
theorem Feed.due_of_draft (f : Feed) (seat : Option Seat) :
    f.toDraft.Due f.id seat (f.due seat) := by
  match seat with
  | none => exact .nobody
  | some .node => exact .node (Event.tellsNode_forNode f)
  | some (.client a) =>
    show f.toDraft.Due f.id _ (if a ∈ f.recipients then _ else _)
    by_cases addressed : a ∈ f.recipients
    · rw [if_pos addressed]
      exact .client addressed (Event.tellsClient_forClient f)
    · rw [if_neg addressed]
      exact .elsewhere addressed

/-- What a session is sent of a feed for which the registry is asked. -/
def Feed.sent (f : Feed) (r : Registry) (k : SessionId) : List Event :=
  List.replicate ((r.clientsFor f.recipients).count k) (Event.forClient f f.enriched) ++
    List.replicate (r.nodes.count k) (Event.forNode f f.enriched)

/-- Where the registry is right about who is connected, everybody is sent what they are due. -/
theorem Registry.Seats.sent_eq {seat : SessionId → Option Seat} {r : Registry}
    (hs : r.Seats seat) (f : Feed) (k : SessionId) : f.sent r k = f.due (seat k) := by
  unfold Feed.sent Feed.due
  rw [hs.count_clientsFor, hs.count_nodes]
  match seat k with
  | none => simp
  | some .node => simp
  | some (.client a) => by_cases ha : a ∈ f.recipients <;> simp [ha]

/-- The message that a call hands over. -/
def Call.message? : Call → Option Broadcast.Message
  | .post m => some m
  | _ => none

section Traces

variable (ts us : List Turn) (i : FeedId) (k : SessionId)

theorem offered_append : offered i k (ts ++ us) = offered i k ts ++ offered i k us :=
  List.filterMap_append

/-- What was offered of a feed is read off the calls. -/
theorem offered_eq : offered i k ts = (ts.map (·.call)).filterMap (Call.offered? i k) := by
  rw [List.filterMap_map]
  rfl

/-- The messages that were handed over are read off the calls. -/
theorem Turn.posted_eq :
    ts.filterMap Turn.posted? = (ts.map (·.call)).filterMap Call.message? := by
  rw [List.filterMap_map]
  refine List.filterMap_congr fun t _ => ?_
  obtain ⟨_, c, _, _⟩ := t
  cases c <;> rfl

end Traces

namespace Outbox

variable (t : Broadcast.Topic) (r : Registry) (f : Feed)

/-- Sessions to which an event is offered are told once for each time they are listed. -/
theorem offered_offers (ks : List SessionId) {e : Event} (he : e.live? = some f.id) (i : FeedId)
    (k : SessionId) : (ks.map fun j => Call.offer j e).filterMap (Call.offered? i k) =
      if i = f.id then List.replicate (ks.count k) e else [] := by
  induction ks with
  | nil => simp
  | cons j ks ih =>
    rw [List.map_cons, List.filterMap_cons, ih]
    simp only [Call.offered?, he, Option.some.injEq]
    by_cases hi : i = f.id
    · subst hi
      by_cases hj : j = k
      · subst hj
        simp [List.replicate_succ]
      · simp [hj]
    · simp [hi, Ne.symm hi]

/-- Handling an entry tells sessions of its feed, as the registry has them, and of no other. -/
theorem offered_calls (i : FeedId) (k : SessionId) :
    (calls t r f).filterMap (Call.offered? i k) = if i = f.id then f.sent r k else [] := by
  have clients := offered_offers f (r.clientsFor f.recipients)
    (Event.live?_forClient f f.enriched) i k
  have nodes := offered_offers f r.nodes (e := Event.forNode f f.enriched) rfl i k
  simp only [calls, Processing.calls, Dispatch.calls, List.filterMap_cons, List.cons_append,
    List.filterMap_append, Call.offered?, clients, nodes, List.filterMap_nil, List.append_nil]
  split <;> simp [Feed.sent]

/-- Handling an entry hands over the message of its feed, and no other. -/
theorem message_calls : (calls t r f).filterMap Call.message? = [t.message f f.enriched] := by
  have offers : ∀ (ks : List SessionId) e,
      (ks.map fun k => Call.offer k e).filterMap Call.message? = [] := fun ks e =>
    List.filterMap_eq_nil_iff.2 fun c hc => by
      obtain ⟨k, -, rfl⟩ := List.mem_map.1 hc
      rfl
  simp only [calls, Processing.calls, Dispatch.calls, List.filterMap_cons, List.cons_append,
    List.filterMap_append, Call.message?, offers, List.filterMap_nil, List.append_nil,
    List.nil_append]

variable {t r f} in
/-- Handling an entry notes its feed once, after loading it, and no other feed. -/
theorem note_of_calls {us : List Turn} (made : us.map (·.call) = calls t r f) :
    ∃ u v vs, us = u :: v :: vs ∧ v.call = .note f.id ∧ ∀ w ∈ u :: vs, ∀ i, w.call ≠ .note i := by
  have split : calls t r f = .load f.id :: .note f.id :: (Dispatch.calls r f f.enriched ++
      [.advance f.id f.epoch, .post (t.message f f.enriched), .complete f.id f.enriched] ++
      [.acknowledge f.id]) := rfl
  rw [split] at made
  obtain ⟨u, us, rfl, loads, made⟩ := List.map_eq_cons_iff.1 made
  obtain ⟨v, vs, rfl, notes, made⟩ := List.map_eq_cons_iff.1 made
  refine ⟨u, v, vs, rfl, notes, fun w hw i hcall => ?_⟩
  rcases List.mem_cons.1 hw with rfl | hw
  · rw [loads] at hcall
    cases hcall
  · have later := List.mem_map_of_mem (f := fun x : Turn => x.call) hw
    rw [made, hcall] at later
    simp [Dispatch.calls] at later

end Outbox

/-- A call by which a feed is delivered. -/
def Call.delivers : Call → Bool
  | .note _ => true
  | .complete _ _ => true
  | .bump _ => true
  | .advance _ _ => true
  | .post _ => true
  | .acknowledge _ => true
  | .offer _ e => e.live?.isSome
  | _ => false

/-! ## What the turns say of the feeds that have been processed -/

/-- The feeds of a list, and no others, were noted, offered, handed over and marked as processed in
turns, each once and in the order of the list. -/
structure Telling (t : Broadcast.Topic) (ts : List Turn) (done : List (FeedId × Draft)) : Prop where
  completed : Turn.completed ts = done.map (·.1)
  posted : List.Forall₂ (fun e m => m.Carries t e.1 e.2) done (ts.filterMap Turn.posted?)
  told : ∀ e ∈ done, ∃ us u vs, ts = us ++ u :: vs ∧ u.call = .note e.1 ∧
    (∀ v ∈ us ++ vs, v.call ≠ .note e.1) ∧
    ∀ k, offered e.1 k ts = (Feed.ofDraft e.1 e.2).sent u.before.registry k
  untold : ∀ i, i ∉ done.map (·.1) → (∀ u ∈ ts, u.call ≠ .note i) ∧ ∀ k, offered i k ts = []

namespace Telling

variable {t : Broadcast.Topic} {ts us : List Turn} {done : List (FeedId × Draft)}

/-- Nothing has been told at first. -/
theorem empty : Telling t [] [] where
  completed := rfl
  posted := .nil
  told _ he := by cases he
  untold _ _ := ⟨fun _ hu => absurd hu List.not_mem_nil, fun _ => rfl⟩

/-- What was told of a feed stays so while nothing else is said of it. -/
theorem later {e : FeedId × Draft} (hT : Telling t ts done) (he : e ∈ done)
    (unnoted : ∀ u ∈ us, u.call ≠ .note e.1) (silent : ∀ k, offered e.1 k us = []) :
    ∃ us' u vs, ts ++ us = us' ++ u :: vs ∧ u.call = .note e.1 ∧
      (∀ v ∈ us' ++ vs, v.call ≠ .note e.1) ∧
      ∀ k, offered e.1 k (ts ++ us) = (Feed.ofDraft e.1 e.2).sent u.before.registry k := by
  obtain ⟨us', u, vs, rfl, hu, once, sent⟩ := hT.told e he
  refine ⟨us', u, vs ++ us, by simp, hu, fun v hv => ?_, fun k => ?_⟩
  · rw [← List.append_assoc] at hv
    exact (List.mem_append.1 hv).elim (once v) (unnoted v)
  · rw [offered_append, sent, silent, List.append_nil]

/-- Calls that deliver nothing tell nothing. -/
theorem quiet (hT : Telling t ts done) (quiet : ∀ u ∈ us, u.call.delivers = false) :
    Telling t (ts ++ us) done := by
  have unnoted : ∀ i, ∀ u ∈ us, u.call ≠ .note i := fun i u hu hcall => by
    have := quiet u hu
    rw [hcall] at this
    cases this
  have silent : ∀ i k, offered i k us = [] := fun i k =>
    List.filterMap_eq_nil_iff.2 fun u hu => by
      have := quiet u hu
      cases hc : u.call with
      | offer j e =>
        rw [hc] at this
        have still : e.live? = none := by simpa [Call.delivers] using this
        simp [Call.offered?, still]
      | _ => rfl
  refine ⟨?_, ?_, fun e he => hT.later he (unnoted e.1) (silent e.1), fun i hi => ⟨fun u hu => ?_,
    fun k => ?_⟩⟩
  · have unmarked : Turn.completed us = [] := Turn.completed_eq_nil fun u hu i p hcall => by
      have := quiet u hu
      rw [hcall] at this
      cases this
    rw [Turn.completed_append, unmarked, List.append_nil, hT.completed]
  · have unposted : us.filterMap Turn.posted? = [] := List.filterMap_eq_nil_iff.2 fun u hu => by
      have := quiet u hu
      obtain ⟨_, c, _, _⟩ := u
      cases c <;> first | rfl | cases this
    rw [List.filterMap_append, unposted, List.append_nil]
    exact hT.posted
  · exact (List.mem_append.1 hu).elim ((hT.untold i hi).1 u) (unnoted i u)
  · rw [offered_append, (hT.untold i hi).2, silent]
    rfl

/-- Handling an entry puts its feed at the end of the list. -/
theorem relay {e : FeedId × Draft} {r : Registry} (hT : Telling t ts done)
    (new : e.1 ∉ done.map (·.1))
    (made : us.map (·.call) = Outbox.calls t r (.ofDraft e.1 e.2))
    (completed : Turn.completed us = [e.1]) (registry : ∀ u ∈ us, u.before.registry = r) :
    Telling t (ts ++ us) (done ++ [e]) := by
  have sent : ∀ i k, offered i k us =
      if i = e.1 then (Feed.ofDraft e.1 e.2).sent r k else [] := fun i k => by
    rw [offered_eq, made]
    exact Outbox.offered_calls t r (.ofDraft e.1 e.2) i k
  have posted : List.Forall₂ (fun e m => m.Carries t e.1 e.2) [e]
      (us.filterMap Turn.posted?) := by
    rw [Turn.posted_eq, made, Outbox.message_calls]
    exact .cons (t.carries_message (.ofDraft e.1 e.2)) .nil
  obtain ⟨u, v, vs, rfl, hnote, others⟩ := Outbox.note_of_calls made
  have noted : ∀ w ∈ u :: v :: vs, ∀ i, w.call = .note i → i = e.1 := by
    intro w hw i hcall
    rcases List.mem_cons.1 hw with rfl | hw
    · exact absurd hcall (others w List.mem_cons_self i)
    · rcases List.mem_cons.1 hw with rfl | hw
      · rw [hnote] at hcall
        cases hcall
        rfl
      · exact absurd hcall (others w (List.mem_cons_of_mem u hw) i)
  have absent : ∀ {i}, i ∉ (done ++ [e]).map (·.1) → i ∉ done.map (·.1) ∧ i ≠ e.1 := by
    intro i hi
    rw [List.map_append, List.mem_append, not_or] at hi
    exact ⟨hi.1, fun same => hi.2 (List.mem_singleton.2 same)⟩
  refine ⟨?_, ?_, fun e' he' => ?_, fun i hi => ⟨fun w hw hcall => ?_, fun k => ?_⟩⟩
  · rw [Turn.completed_append, hT.completed, completed, List.map_append]
    rfl
  · rw [List.filterMap_append]
    exact List.rel_append hT.posted posted
  · rcases List.mem_append.1 he' with he' | he'
    · have other : e'.1 ≠ e.1 := fun same => new (same ▸ List.mem_map_of_mem he')
      refine hT.later he' (fun w hw hcall => other (noted w hw _ hcall)) fun k => ?_
      rw [sent, if_neg other]
    · obtain rfl := List.mem_singleton.1 he'
      obtain ⟨fresh, silent⟩ := hT.untold e'.1 new
      refine ⟨ts ++ [u], v, vs, by simp, hnote, fun w hw => ?_, fun k => ?_⟩
      · rw [List.append_assoc] at hw
        exact (List.mem_append.1 hw).elim (fresh w) fun hw => others w hw _
      · rw [offered_append, silent, sent, if_pos rfl, registry v (by simp)]
        rfl
  · rcases List.mem_append.1 hw with hw | hw
    · exact (hT.untold i (absent hi).1).1 w hw hcall
    · exact (absent hi).2 (noted w hw i hcall)
  · rw [offered_append, (hT.untold i (absent hi).1).2, sent, if_neg (absent hi).2]
    rfl

end Telling

end NotificationRelay
