/-
# What calls do, and which calls are made

A call that reaches the store does to it what `Call.effect` says, and one that fails
does nothing at all (`Turn.failed`, `Call.perform_of_failed`,
`Call.store_perform_of_not_failed`). Most calls are passive: they leave the store, the
topic and the notes alone (`Call.isPassive`).

The other half lists, for each part of the relay, the calls that it can come to make.
A feed that is processed is touched by calls that name it (`Processing.Makes`), and an
entry of the outbox by those and its acknowledgement (`Outbox.Makes`); sessions make passive
calls only, and queries make only calls of their own (`Call.isQuery`), which are passive.
-/
import NotificationRelay.Proofs.Run.Trace
import NotificationRelay.Query.Search
import NotificationRelay.Relay

namespace NotificationRelay

/-! ## What calls do -/

namespace Call

/-- What a call does to a store that it reaches. -/
def effect : Call → Store → Store
  | .insert d, s => (s.insert d).2
  | .complete id p, s => (s.complete id p).2
  | .bump id, s => (s.bump id).2
  | .acknowledge id, s => s.acknowledge id
  | .append recipient id isSpam, s => s.append recipient id isSpam
  | .unindex ids, s => (s.unindex ids).2
  | .advance _ epoch, s => (s.advance Broadcast.watermarkKey epoch).2
  | .deleteExpired now, s => (s.deleteExpired now).2
  | _, s => s

/-- A call that leaves the store and the topic as they are, and notes nothing. -/
def isPassive : Call → Bool
  | .insert _ => false
  | .complete _ _ => false
  | .bump _ => false
  | .acknowledge _ => false
  | .append _ _ _ => false
  | .unindex _ => false
  | .advance _ _ => false
  | .deleteExpired _ => false
  | .post _ => false
  | .note _ => false
  | _ => true

/-- A call that a query makes. -/
def isQuery : Call → Bool
  | .indexed _ _ => true
  | .pageByIds _ _ _ => true
  | .pageBySender _ _ _ => true
  | .search _ _ => true
  | .pageBetween _ _ _ => true
  | .distinctSenders _ => true
  | .channels _ => true
  | .cached _ => true
  | .remember _ _ => true
  | _ => false

/-- A call that asks something of the store. -/
def asksStore : Call → Bool
  | .cached _ => false
  | .remember _ _ => false
  | .openQueue _ => false
  | .closeQueue _ => false
  | .registerClient _ _ => false
  | .registerNode _ => false
  | .unregister _ => false
  | .clientsFor _ => false
  | .nodes => false
  | .offer _ _ => false
  | .post _ => false
  | .wake => false
  | .note _ => false
  | _ => true

/-- The failure that an answer reports. -/
def failureOf {α : Type} : Stored α → Option StoreError
  | .ok _ => none
  | .error e => some e

/-- The failure of the store that an answer to a call reports. -/
def failure? : (c : Call) → c.Answer → Option StoreError
  | .insert _, a => failureOf a
  | .load _, a => failureOf a
  | .complete _ _, a => failureOf a
  | .bump _, a => failureOf a
  | .candidates _ _, a => failureOf a
  | .pending _, a => failureOf a
  | .acknowledge _, a => failureOf a
  | .append _ _ _, a => failureOf a
  | .indexed _ _, a => failureOf a
  | .unindex _, a => failureOf a
  | .advance _ _, a => failureOf a
  | .pageByIds _ _ _, a => failureOf a
  | .pageBySender _ _ _, a => failureOf a
  | .search _ _, a => failureOf a
  | .pageBetween _ _ _, a => failureOf a
  | .distinctSenders _, a => failureOf a
  | .deleteExpired _, a => failureOf a
  | .channels _, a => failureOf a
  | _, _ => none

end Call

/-- A call that the store did not carry out because it could not be reached. -/
def Turn.failed (t : Turn) : Prop :=
  ∃ reason, t.call.failure? t.answer = some (.unavailable reason)

namespace Call

variable (c : Call) (outages : Outages) (h : Hub)

/-- A query is passive. -/
theorem isPassive_of_isQuery (hc : c.isQuery = true) : c.isPassive = true := by
  cases c <;> first | rfl | cases hc

/-- A passive call leaves the store as it is. -/
theorem effect_of_passive (hc : c.isPassive = true) (s : Store) : c.effect s = s := by
  cases c <;> first | rfl | cases hc

/-- Only an outage makes a call fail. -/
theorem outage_of_failed (hf : (c.turn outages h).failed) : ∃ reason, outages c = some reason := by
  obtain ⟨reason, hr⟩ := hf
  cases ho : outages c with
  | some reason => exact ⟨reason, rfl⟩
  | none =>
    cases c with
    | complete id p =>
      simp only [turn, perform, Outages.guard, ho, failure?, Store.complete, Store.update] at hr
      split at hr <;> cases hr
    | bump id =>
      simp only [turn, perform, Outages.guard, ho, failure?, Store.bump, Store.update] at hr
      split at hr <;> cases hr
    | _ => simp_all [perform, turn, Outages.guard, failure?, failureOf, succeed, readFrom]

/-- In an outage no call to the store succeeds. -/
theorem failed_of_outage (hc : c.asksStore = true) {reason : String}
    (ho : outages c = some reason) : (c.turn outages h).failed := by
  cases c with
  | cached | remember | openQueue | closeQueue | registerClient | registerNode | unregister
  | clientsFor | nodes | offer | post | wake | note => cases hc
  | _ => exact ⟨reason, by simp [turn, perform, Outages.guard, ho, failure?, failureOf]⟩

/-- A call that asks the store and does not fail meets no outage. -/
theorem no_outage (hc : c.asksStore = true) (hf : ¬ (c.turn outages h).failed) :
    outages c = none := by
  cases ho : outages c with
  | none => rfl
  | some reason => exact absurd (c.failed_of_outage outages h hc ho) hf

/-- **A failed call changes nothing.** -/
theorem perform_of_failed (hf : (c.turn outages h).failed) : (c.perform outages h).2 = h := by
  obtain ⟨_, ho⟩ := c.outage_of_failed outages h hf
  obtain ⟨reason, hr⟩ := hf
  cases c <;> simp_all [perform, turn, Outages.guard, failure?]

/-- **A call that does not fail has its effect.** -/
theorem store_perform_of_not_failed (hf : ¬ (c.turn outages h).failed) :
    (c.perform outages h).2.store = c.effect h.store := by
  cases c with
  | openQueue capacity => exact h.store_openQueue capacity
  | closeQueue id => exact h.store_closeQueue id
  | offer id e => exact h.store_offer id e
  | cached | remember | registerClient | registerNode | unregister | clientsFor | nodes | post
  | wake | note => rfl
  | _ => simp only [perform, Outages.guard, no_outage _ outages h rfl hf, effect, succeed, readFrom]

end Call

/-- The entries of the outbox, unless the call fails. -/
theorem Call.answer_pending {outages : Outages} {h : Hub} {limit : Nat}
    (hf : ¬ (Call.turn (.pending limit) outages h).failed) :
    (Call.perform outages (.pending limit) h).1 = .ok (h.store.pending limit) := by
  simp only [perform, Outages.guard, no_outage _ outages h rfl hf, readFrom]

/-- A program that runs alone makes each of its calls under the same outages. -/
theorem Program.turn_of_mem_turns {α : Type} {outages : Outages} {p : Program α} {h : Hub}
    {t : Turn} (ht : t ∈ p.turns outages h) : t = t.call.turn outages t.before := by
  induction p generalizing h with
  | done => cases ht
  | call c next ih =>
    rcases List.mem_cons.1 ht with rfl | ht
    · rfl
    · exact ih _ ht

/-- Such a program meets failures only where there are outages. -/
theorem Program.outage_of_mem_turns {α : Type} {outages : Outages} {p : Program α} {h : Hub}
    {t : Turn} (ht : t ∈ p.turns outages h) (hf : t.failed) :
    ∃ reason, outages t.call = some reason := by
  rw [turn_of_mem_turns ht] at hf
  exact Call.outage_of_failed _ outages _ hf

/-- A run that begins with a call which changes nothing and does not fail. -/
theorem Program.Runs.of_read {α : Type} {c : Call} {next : c.Answer → Program α} {h h' : Hub}
    {ts : List Turn} {a : α} (r : (Program.call c next).Runs h ts a h')
    (still : ∀ s, c.effect s = s) (healthy : ∀ t ∈ ts, ¬ t.failed) :
    ∃ outages h₁ us, ts = c.turn outages h₁ :: us ∧ ¬ (c.turn outages h₁).failed ∧
      h₁.store = h.store ∧ (c.perform outages h₁).2.store = h.store ∧
      (next (c.perform outages h₁).1).Runs (c.perform outages h₁).2 us a h' := by
  obtain ⟨h₁, outages, us, out, rfl, rest⟩ := r.of_call
  have same := Hub.store_eq_of_outside out
  have reached := healthy _ List.mem_cons_self
  have after := Call.store_perform_of_not_failed _ outages h₁ reached
  rw [still, same] at after
  exact ⟨outages, h₁, us, rfl, reached, same, after, rest⟩

/-- Without outages none of its calls fails. -/
theorem Program.not_failed_of_mem_turns {α : Type} {p : Program α} {h : Hub} {t : Turn}
    (ht : t ∈ p.turns .none h) : ¬ t.failed := by
  intro hf
  obtain ⟨_, ho⟩ := Program.outage_of_mem_turns ht hf
  cases ho

/-! ## Which calls are made -/

/-- The calls that can be made while a feed is broadcast. -/
inductive Broadcast.Makes (t : Topic) (f : Feed) : Call → Prop
  | advance (on : t.enabled = true) : Makes t f (.advance f.id f.epoch)
  | post (on : t.enabled = true) : Makes t f (.post (t.message f f.enriched))

/-- The calls that can be made while a feed is processed. -/
inductive Processing.Makes (t : Broadcast.Topic) (f : Feed) : Call → Prop
  | note : Makes t f (.note f.id)
  | passive {c : Call} (hc : c.isPassive = true) : Makes t f c
  | broadcast {c : Call} (hc : Broadcast.Makes t f c) : Makes t f c
  | complete : Makes t f (.complete f.id f.enriched)
  | bump : Makes t f (.bump f.id)

/-- The calls that can be made for an entry of the outbox. -/
inductive Outbox.Makes (t : Broadcast.Topic) (id : FeedId) : Call → Prop
  | acknowledge : Makes t id (.acknowledge id)
  | passive {c : Call} (hc : c.isPassive = true) : Makes t id c
  | processing {f : Feed} {c : Call} (hid : f.id = id) (hc : Processing.Makes t f c) :
      Makes t id c

/-- The calls that can be made while a new feed is indexed. -/
inductive Intake.Indexes (d : Draft) (id : FeedId) : Call → Prop
  | append {recipient : String} (hr : recipient ∈ d.recipients) :
      Indexes d id (.append recipient id d.isSpam)
  | wake : Indexes d id .wake

/-- The calls that can be made while a draft is stored. -/
inductive Intake.Makes (d : Draft) : Call → Prop
  | insert : Makes d (.insert d)
  | index {id : FeedId} {c : Call} (hc : Indexes d id c) : Makes d c

/-- The calls that can be made while expired feeds are swept. -/
inductive Expiry.Makes (now : Int) : Call → Prop
  | delete : Makes now (.deleteExpired now)
  | unindex (ids : List FeedId) : Makes now (.unindex ids)

/-- A program of passive calls. -/
abbrev Program.Passive {α : Type} (p : Program α) : Prop := p.Only fun c => c.isPassive = true

/-- A program of one passive call is passive. -/
theorem Program.passive_perform {c : Call} (hc : c.isPassive = true) : (perform c).Passive :=
  only_perform hc

/-- A program of calls of queries. -/
abbrev Program.Asking {α : Type} (p : Program α) : Prop := p.Only fun c => c.isQuery = true

/-- A program that only asks is passive. -/
theorem Program.Only.passive {α : Type} {p : Program α} (hp : p.Asking) : p.Passive :=
  hp.mono fun c hc => c.isPassive_of_isQuery hc

/-- A program of passive calls leaves the store as it is throughout. -/
theorem Program.Runs.stores_of_passive {α : Type} {p : Program α} {h h' : Hub} {ts : List Turn}
    {a : α} (r : p.Runs h ts a h') (hp : p.Passive) :
    h'.store = h.store ∧ ∀ t ∈ ts, t.before.store = h.store ∧ t.after.store = h.store := by
  refine r.keeps (fun g => g.store = h.store) hp (fun _ _ o hg => o.store_eq.trans hg)
    (fun c outages g hc hg => ?_) rfl
  by_cases hf : (c.turn outages g).failed
  · rwa [c.perform_of_failed outages g hf]
  · rwa [c.store_perform_of_not_failed outages g hf, c.effect_of_passive hc]

/-- A passive program leaves the store as it was. -/
theorem Program.Runs.store_of_passive {α : Type} {p : Program α} {h h' : Hub} {ts : List Turn}
    {a : α} (r : p.Runs h ts a h') (hp : p.Passive) : h'.store = h.store :=
  (r.stores_of_passive hp).1

namespace Dispatch

variable {sort : Call → Prop}

/-- Offers to sessions are all that is made when an event is offered to them. -/
theorem only_offerAll {e : Event} (offer : ∀ k, sort (.offer k e)) (ids : List SessionId) :
    (offerAll ids e).Only sort :=
  Program.Only.bind (Program.only_forEach fun k _ => Program.only_perform (offer k)) fun _ =>
    trivial

/-- Calls to find sessions and calls to offer them the feed are all that a dispatch makes. -/
theorem only_dispatch {f : Feed} {payload : Payload} (clients : sort (.clientsFor f.recipients))
    (nodes : sort .nodes) (toClient : ∀ k, sort (.offer k (Event.forClient f payload)))
    (toNode : ∀ k, sort (.offer k (Event.forNode f payload))) : (dispatch f payload).Only sort := by
  refine Program.Only.bind (Program.only_perform clients) fun _ => ?_
  refine Program.Only.bind (Program.only_perform nodes) fun _ => ?_
  refine (only_offerAll toClient _).bind fun _ => ?_
  exact (only_offerAll toNode _).bind fun _ => trivial

/-- Telling sessions of a feed is passive. -/
theorem passive_dispatch (f : Feed) (payload : Payload) : (dispatch f payload).Passive :=
  only_dispatch rfl rfl (fun _ => rfl) fun _ => rfl

end Dispatch

/-- A broadcast makes the calls of its feed only. -/
theorem Broadcast.only_publish (t : Topic) (f : Feed) :
    (publish t f f.enriched).Only (Makes t f) := by
  unfold publish
  split
  · next on =>
    refine (Program.only_perform (.advance on)).bind fun answer => ?_
    match answer with
    | .error _ => trivial
    | .ok false => trivial
    | .ok true =>
      refine (Program.only_perform (.post on)).bind fun accepted => ?_
      cases accepted <;> trivial
  · trivial

namespace Processing

variable (t : Broadcast.Topic) (f : Feed)

/-- What is done once a feed has been broadcast: it is marked as processed, or an attempt is
counted. -/
def settle (dispatch : Dispatch.Report) (outcome : Broadcast.Outcome) :
    Program (Except FeedError Report) := do
  if outcome = .watermarkUnavailable then
    let _ ← Program.perform (.bump f.id)
    return .error (.watermarkUnavailable f.id)
  else
    match ← Program.perform (.complete f.id f.enriched) with
    | .ok () => return .ok ⟨dispatch, outcome⟩
    | .error e =>
      let _ ← Program.perform (.bump f.id)
      return .error (.completion f.id e)

/-- A feed is processed in stages: it is noted, told to sessions and broadcast, and then it is
settled what becomes of it. -/
theorem process_eq : process t f = (Program.perform (.note f.id)).bind fun _ =>
    (Dispatch.dispatch f f.enriched).bind fun dispatch =>
      (Broadcast.publish t f f.enriched).bind (settle f dispatch) := rfl

/-- What becomes of a feed is settled by two calls at most. -/
theorem only_settle {sort : Call → Prop} (complete : sort (.complete f.id f.enriched))
    (bump : sort (.bump f.id)) (dispatch : Dispatch.Report) (outcome : Broadcast.Outcome) :
    (settle f dispatch outcome).Only sort := by
  unfold settle
  split
  · exact (Program.only_perform bump).bind fun _ => trivial
  · refine Program.Only.bind_except (Program.only_perform complete) (fun _ => ?_)
      fun _ => trivial
    exact (Program.only_perform bump).bind fun _ => trivial

/-- Processing a feed makes the calls of this feed only. -/
theorem only_process : (process t f).Only (Makes t f) := by
  rw [process_eq]
  refine Program.Only.bind (Program.only_perform .note) fun _ => ?_
  refine ((Dispatch.passive_dispatch f f.enriched).mono fun c hc => .passive hc).bind fun _ => ?_
  refine ((Broadcast.only_publish t f).mono fun c hc => .broadcast hc).bind fun outcome => ?_
  exact only_settle f .complete .bump _ outcome

end Processing

namespace Outbox

variable (t : Broadcast.Topic) (id : FeedId)

/-- An entry is taken out of the outbox by one call. -/
theorem only_acknowledge {sort : Call → Prop} (out : sort (.acknowledge id)) :
    (acknowledge id).Only sort :=
  Program.Only.bind_except (Program.only_perform out) (fun _ => trivial) fun _ => trivial

/-- A feed that is loaded has the identifier it was loaded by. -/
theorem only_load_bind {α : Type} {sort : Call → Prop} {k : Stored (Option Feed) → Program α}
    (hc : sort (.load id)) (lost : ∀ e, (k (.error e)).Only sort) (gone : (k (.ok none)).Only sort)
    (found : ∀ f : Feed, f.id = id → (k (.ok (some f))).Only sort) :
    (Program.bind (Program.perform (.load id)) k).Only sort := by
  refine ⟨hc, fun outages h => ?_⟩
  show (k (outages.guard (.load id) h (readFrom h.store (h.store.feed? id))).1).Only sort
  unfold Outages.guard
  split
  · exact lost _
  · cases hf : h.store.feed? id with
    | none => exact gone
    | some f => exact found f (by simpa using List.find?_some hf)

/-- What holds of looking an entry up, of taking it out and of processing its feed holds of all
calls that are made for it. -/
theorem only_calls {sort : Call → Prop} (load : sort (.load id)) (out : sort (.acknowledge id))
    (tried : ∀ f : Feed, f.id = id → (Processing.process t f).Only sort) :
    (relayOne t id).Only sort := by
  unfold relayOne
  refine only_load_bind id load (fun _ => trivial) (only_acknowledge id out) fun f hf => ?_
  show (if f.processed then acknowledge id else _).Only _
  split
  · exact only_acknowledge id out
  · exact (tried f hf).bind fun _ => only_acknowledge id out

/-- Handling an entry of the outbox makes the calls of its feed only. -/
theorem only_relayOne : (relayOne t id).Only (Makes t id) :=
  only_calls t id (.passive rfl) .acknowledge fun f hf =>
    (Processing.only_process t f).mono fun _ hc => .processing hf hc

end Outbox

namespace Intake

/-- A feed is filed by calls that put it into the index. -/
theorem only_index (d : Draft) (id : FeedId) : (index d id).Only (Indexes d id) := by
  refine Program.Only.bind (Program.only_forEach fun r hr => ?_) fun _ => ?_
  · exact Program.only_perform (.append hr)
  · exact Program.only_perform .wake

/-- Adding a draft makes the calls of this draft only. -/
theorem only_add (d : Draft) : (add d).Only (Makes d) := by
  refine Program.Only.bind_except (Program.only_perform .insert) (fun _ => trivial)
    fun inserted => ?_
  show (if inserted.created then _ else _ : Program _).Only _
  split
  · exact ((only_index d _).mono fun c hc => .index hc).bind fun _ => trivial
  · trivial

end Intake

namespace Expiry

/-- A sweep deletes and takes out of the index, and makes no other calls. -/
theorem only_sweep (now : Int) : (sweep now).Only (Makes now) := by
  unfold sweep
  refine Program.Only.bind_except (Program.only_perform .delete) (fun _ => trivial) fun ids => ?_
  show (if ids.isEmpty then _ else _ : Program _).Only _
  split
  · trivial
  · exact Program.Only.bind_except (Program.only_perform (.unindex ids)) (fun _ => trivial)
      fun _ => trivial

end Expiry

namespace Query

/-- Listing the feeds of a recipient only asks. -/
theorem asking_recipientPage (bound : Nat) (raw : String) (isSpam : Bool) (listing : Listing)
    (p : Paging) : (recipientPage bound raw isSpam listing p).Asking := by
  unfold recipientPage
  split
  · trivial
  · refine Program.Only.bind_except (Program.only_perform rfl) (fun _ => trivial) fun ids => ?_
    show (if ids.isEmpty then _ else _ : Program _).Asking
    split
    · trivial
    · exact Program.Only.bind_except (Program.only_perform rfl) (fun _ => trivial)
        fun _ => trivial

/-- Looking up the senders of spam only asks. -/
theorem asking_spamSenders (raw : String) : (spamSenders raw).Asking := by
  unfold spamSenders
  split
  · trivial
  · refine Program.Only.bind_except (Program.only_perform rfl) (fun _ => trivial) fun ids => ?_
    show (if ids.isEmpty then _ else _ : Program _).Asking
    split
    · trivial
    · exact Program.Only.bind_except (Program.only_perform rfl) (fun _ => trivial)
        fun _ => trivial

/-- Listing the feeds of a sender only asks. -/
theorem asking_senderFeeds (bound : Nat) (sender : String) (kind : Option Kind) (p : Paging) :
    (senderFeeds bound sender kind p).Asking :=
  Program.Only.bind_except (Program.only_perform rfl) (fun _ => trivial) fun _ => trivial

/-- Exporting feeds only asks. -/
theorem asking_history (bound : Nat) (start stop : Int) (p : Paging) :
    (history bound start stop p).Asking := by
  unfold history
  split
  · trivial
  · exact Program.Only.bind_except (Program.only_perform rfl) (fun _ => trivial)
      fun _ => trivial

/-- Looking up the channels of a subscriber only asks. -/
theorem asking_channels (subscriber : String) : (channels subscriber).Asking := by
  unfold channels
  refine Program.Only.bind (Program.only_perform rfl) fun
    | some _ => trivial
    | none => ?_
  refine Program.Only.bind_except (Program.only_perform rfl) (fun _ => trivial) fun _ => ?_
  exact Program.Only.bind (Program.only_perform rfl) fun _ => trivial

/-- Settling where a search looks only asks. -/
theorem asking_senders (request : SearchRequest) : (senders request).Asking := by
  unfold senders
  split
  · trivial
  · split
    · trivial
    · exact Program.Only.bind_except (asking_channels _) (fun _ => trivial) fun _ => trivial

/-- A search only asks. -/
theorem asking_search (bound : Nat) (request : SearchRequest) :
    (search bound request).Asking := by
  unfold search
  split
  · trivial
  · refine Program.Only.bind (asking_senders request) fun
      | .error _ => trivial
      | .ok [] => trivial
      | .ok (_ :: _) => ?_
    exact Program.Only.bind_except (Program.only_perform rfl) (fun _ => trivial)
      fun _ => trivial

end Query

namespace Gateway

/-- Offering a session a page that was read is passive. -/
theorem passive_offerPage {α : Type} (id : SessionId) (event : α → Event)
    (answer : Except FeedError α) : (offerPage id event answer).Passive := by
  cases answer with
  | error => trivial
  | ok page => exact Program.Only.bind (Program.passive_perform rfl) fun _ => trivial

/-- Offering a client its snapshot is passive. -/
theorem passive_snapshot (b : Bounds) (address : String) (id : SessionId) :
    (snapshot b address id).Passive := by
  unfold snapshot
  refine Program.Only.bind (Query.asking_recipientPage ..).passive fun normal => ?_
  refine Program.Only.bind (passive_offerPage ..) fun _ => ?_
  refine Program.Only.bind (Query.asking_recipientPage ..).passive fun spam => ?_
  exact passive_offerPage ..

/-- Turning a session away is passive. -/
theorem passive_refuse (id : SessionId) (e : SessionError) : (refuse id e).Passive :=
  Program.Only.bind (Program.passive_perform rfl) fun _ => trivial

/-- Admitting a session is passive. -/
theorem passive_connect (b : Bounds) (mode : SessionMode) (address : Option String) :
    (connect b mode address).Passive := by
  unfold connect
  refine Program.Only.bind (Program.passive_perform rfl) fun answer => ?_
  match answer, mode with
  | none, _ => trivial
  | some id, .delivery => exact Program.Only.bind (Program.passive_perform rfl) fun _ => trivial
  | some id, .client =>
    dsimp only
    split
    · exact passive_refuse ..
    · refine Program.Only.bind_except (Program.passive_perform rfl)
        (fun _ => passive_refuse ..) fun _ => ?_
      exact Program.Only.bind (passive_snapshot ..) fun _ => trivial

/-- Taking in what a session sends is passive. -/
theorem passive_receive (b : Bounds) (mode : SessionMode) (id : SessionId) (frame : Frame) :
    (receive b mode id frame).Passive := by
  match frame, mode with
  | .text content, .delivery =>
    show (answer b id content).Passive
    unfold answer
    split
    · trivial
    · exact Program.Only.bind (Query.asking_history ..).passive fun _ => passive_offerPage ..
  | .text _, .client => trivial
  | .binary, _ => trivial
  | .closed, _ => exact Program.passive_perform rfl

end Gateway

end NotificationRelay
