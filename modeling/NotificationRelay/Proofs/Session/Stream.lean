/-
# The stream of a session

A session that is admitted is offered its snapshot, if it is a client; then of every feed that is
processed what it is due, as long as it is connected; and, if it is a delivery node, an answer to
every text that it sends in. Nothing else is offered to it. One deed at a time this is said by
`Deed.Serves` and shown for every act (`Act.serves`); from there it is put together over errands
(`Errand.silent_deeds`, `Errand.seats_deeds`).

With what is known of queues (`Errand.passage_deeds`) this gives the whole stream of a session
(`Errand.stream_law`).
-/
import NotificationRelay.Proofs.Session.Offering

namespace NotificationRelay

/-! ## What a session is offered by a deed -/

/-- Whether an act disconnects a session. -/
def Act.unregisters (k : SessionId) : Act → Bool
  | .disconnect j => decide (j = k)
  | .receive _ j .closed => decide (j = k)
  | _ => false

/-- The text that a session of a mode sends in by an act, if it is read. -/
def Act.text? (mode : SessionMode) (k : SessionId) : Act → Option String
  | .receive _ j (.text content) => if j = k ∧ mode = .delivery then some content else none
  | _ => none

/-- The feeds that are processed for a deed. -/
def Deed.processed (D : Deed) : List Feed :=
  match D.act with
  | .drain => Turn.handedOut D.turns
  | .retry => Turn.handedOut D.turns
  | .process f => [f]
  | _ => []

/-- A session that stands for something, or for nothing, is offered what it is due of the feeds that
are processed for a deed, and nothing else; and if their calls are `alone`, and do not take turns
with each other, in the order in which they are processed. -/
structure Deed.Tells (k : SessionId) (seat : Option Seat) (alone : Prop) (D : Deed) : Prop where
  notes : (Turn.noted D.turns).Perm (D.processed.map (·.id))
  offers : ∃ parts, List.Forall₂ (fun f part => f.toDraft.Due f.id seat part) D.processed parts ∧
    (Turn.offersTo k D.turns).Perm parts.flatten ∧
    (alone → Turn.noted D.turns = D.processed.map (·.id) ∧
      Turn.offersTo k D.turns = parts.flatten)

/-- What a session is offered by a deed: its text is answered, or it is told of the feeds that are
processed. -/
def Deed.Serves (b : Gateway.Bounds) (mode : SessionMode) (k : SessionId) (seat : Option Seat)
    (found : Hub) (alone : Prop) (D : Deed) : Prop :=
  match D.act.text? mode k with
  | some text => Gateway.Replies b found k text D.turns
  | none => D.Tells k seat alone

/-- A call that is not about a session and does not begin to process a feed. -/
def Call.Distant (k : SessionId) (c : Call) : Prop := c.party? ≠ some k ∧ c.noted? = none

/-- A query has nothing to do with a session. -/
theorem Call.distant_of_isQuery {k : SessionId} {c : Call} (hc : c.isQuery = true) :
    c.Distant k := by
  refine ⟨?_, ?_⟩
  · rw [Call.party?_eq_none_of_isQuery hc]
    exact (Option.some_ne_none k).symm
  · cases c <;> first | rfl | cases hc

/-- Adding a draft has nothing to do with a session. -/
theorem Intake.Makes.distant {k : SessionId} {d : Draft} {c : Call} (hc : Makes d c) :
    c.Distant k := by
  cases hc with
  | insert => exact ⟨(Option.some_ne_none k).symm, rfl⟩
  | index hc => cases hc <;> exact ⟨(Option.some_ne_none k).symm, rfl⟩

/-- A sweep has nothing to do with a session. -/
theorem Expiry.Makes.distant {k : SessionId} {now : Int} {c : Call} (hc : Makes now c) :
    c.Distant k := by
  cases hc <;> exact ⟨(Option.some_ne_none k).symm, rfl⟩

/-- What is sent to one session has nothing to do with another. -/
theorem Gateway.Sends.distant {j k : SessionId} {c : Call} (hc : Sends j c) (hj : j ≠ k) :
    c.Distant k := by
  cases hc with
  | query hc => exact Call.distant_of_isQuery hc
  | _ => exact ⟨fun same => hj (Option.some.inj same), rfl⟩

/-- A session that asks for admission makes no calls about another one. -/
theorem Gateway.distant_of_connect {b : Bounds} {mode : SessionMode} {raw : Option String}
    {us : List Turn} {result : Admission} {k : SessionId}
    (g : (connect b mode raw).Goes us (.done result)) (fresh : ∀ u ∈ us, u.opened? ≠ some k) :
    ∀ u ∈ us, u.call.Distant k := by
  have unnoted : ∀ u ∈ us, u.call.noted? = none := fun u hu => by
    have passive := (g.only (passive_connect b mode raw)).1 u hu
    generalize u.call = c at passive
    cases c <;> first | rfl | cases passive
  refine fun u hu => ⟨fun about => ?_, unnoted u hu⟩
  obtain ⟨o, rest, rfl, opens, mine⟩ := party_of_connect g
  rcases List.mem_cons.1 hu with rfl | hu
  · rw [opens] at about
    cases about
  · exact fresh o List.mem_cons_self (mine u hu k about)

section Deeds

variable {s : Settings} {k : SessionId} {mode : SessionMode} {g g' : Hub} {past : List Turn}

namespace Deed

variable {D : Deed} {seat : SessionId → Option Seat} {alone : Prop}

/-- Feeds are told of by what is due of each of them. -/
theorem Tells.of_due {held : Option Seat}
    (notes : (Turn.noted D.turns).Perm (D.processed.map (·.id)))
    (offers : (Turn.offersTo k D.turns).Perm (D.processed.flatMap (·.due held)))
    (inOrder : alone → Turn.noted D.turns = D.processed.map (·.id) ∧
      Turn.offersTo k D.turns = D.processed.flatMap (·.due held)) : D.Tells k held alone := by
  refine ⟨notes, D.processed.map (·.due held), ?_, ?_, fun calm => ?_⟩
  · exact List.forall₂_map_right_iff.2 (List.forall₂_same.2 fun f _ => f.due_of_draft held)
  · rwa [← List.flatMap_def]
  · rw [← List.flatMap_def]
    exact inOrder calm

/-- Whoever has a seat is told what is due to it of feeds that are handled. -/
theorem Tells.of_handles {r : Registry} {vs : List Turn} {chosen fs : List Feed}
    (seats : r.Seats seat) (perm : vs.Perm D.turns) (same : alone → vs = D.turns)
    (handles : Turn.Handles k r chosen fs vs) (feeds : fs.Perm D.processed)
    (feeds' : alone → fs = D.processed) : D.Tells k (seat k) alone := by
  have offers : Turn.offersTo k vs = fs.flatMap (·.due (seat k)) := by
    rw [handles.offers]
    exact List.flatMap_congr fun f _ => seats.sent_eq f k
  refine .of_due ?_ ?_ fun inOrder => ?_
  · have notes : (Turn.noted vs).Perm (D.processed.map (·.id)) := by
      rw [handles.notes]
      exact feeds.map _
    exact (perm.filterMap _).symm.trans notes
  · have due : (Turn.offersTo k vs).Perm (D.processed.flatMap (·.due (seat k))) := by
      rw [offers]
      exact feeds.flatMap_right _
    exact (perm.filterMap _).symm.trans due
  · rw [← same inOrder, ← feeds' inOrder]
    exact ⟨handles.notes, offers⟩

/-- A pass tells of the feeds that it selects. -/
theorem Tells.of_pass {r : Registry} (selects : D.processed = Turn.handedOut D.turns)
    (seats : r.Seats seat) (handled : ∃ vs fs, vs.Perm D.turns ∧ (alone → vs = D.turns) ∧
      Turn.Handles k r fs fs vs) : D.Tells k (seat k) alone := by
  obtain ⟨vs, fs, perm, same, handles⟩ := handled
  refine .of_handles seats perm same handles ?_ fun inOrder => ?_
  · rw [selects, ← handles.selects]
    exact perm.flatMap_right _
  · rw [selects, ← handles.selects, same inOrder]

/-- A deed for which no feed is processed tells a session nothing if it offers it nothing. -/
theorem Tells.of_silent (none : D.processed = [])
    (silent : ∀ t ∈ D.turns, t.call.offeredTo? k = Option.none ∧ t.call.noted? = Option.none)
    {held : Option Seat} : D.Tells k held alone := by
  have told : Turn.noted D.turns = D.processed.map (·.id) ∧
      Turn.offersTo k D.turns = D.processed.flatMap (·.due held) := by
    rw [none]
    exact ⟨List.filterMap_eq_nil_iff.2 fun t ht => (silent t ht).2,
      Turn.offersTo_eq_nil fun t ht => (silent t ht).1⟩
  exact .of_due (.of_eq told.1) (.of_eq told.2) fun _ => told

/-- Whoever is not connected is told nothing. -/
theorem Tells.silent (tells : D.Tells k none alone) : Turn.offersTo k D.turns = [] := by
  obtain ⟨parts, due, perm, -⟩ := tells.offers
  have nothing : parts.flatten = [] := by
    clear perm
    generalize D.processed = feeds at due
    induction due with
    | nil => rfl
    | cons first _ ih =>
      cases first
      exact ih
  exact (nothing ▸ perm).eq_nil

end Deed

namespace Act

/-- An act that takes nothing in from a session reads no text of it. -/
theorem text?_eq_none {a : Act} (strange : ∀ m frame, a ≠ .receive m k frame) :
    a.text? mode k = none := by
  cases a with
  | receive m j frame =>
    cases frame with
    | text content => exact if_neg fun same => strange m (.text content) (by rw [same.1])
    | binary | closed => rfl
  | _ => rfl

variable {a : Act} {ts : List Turn} {result : a.Result} {b : Gateway.Bounds} {held : Option Seat}
  {found : Hub} {alone : Prop}

/-- An act that has nothing to do with a session. -/
theorem serves_of_distant (distant : ∀ t ∈ ts, t.call.Distant k)
    (none : Deed.processed ⟨a, ts, result⟩ = []) (unread : a.text? mode k = Option.none)
    (stays : a.unregisters k = false) :
    Deed.Serves b mode k held found alone ⟨a, ts, result⟩ ∧ Turn.seats (past ++ ts) k =
      if a.unregisters k then Option.none else Turn.seats past k := by
  constructor
  · unfold Deed.Serves
    rw [unread]
    exact .of_silent none fun t ht =>
      ⟨Call.offeredTo?_eq_none (distant t ht).1, (distant t ht).2⟩
  · rw [stays]
    exact Turn.seats_append fun t ht seat => Call.reseat_of_party (distant t ht).1 seat t.answer

/-- An act by which a session is disconnected, maybe this one. -/
theorem serves_of_unregister {j : SessionId} {outages : Outages} {h : Hub}
    (made : ts = [(Call.unregister j).turn outages h])
    (none : Deed.processed ⟨a, ts, result⟩ = []) (unread : a.text? mode k = Option.none)
    (leaves : a.unregisters k = decide (j = k)) :
    Deed.Serves b mode k held found alone ⟨a, ts, result⟩ ∧ Turn.seats (past ++ ts) k =
      if a.unregisters k then Option.none else Turn.seats past k := by
  subst made
  rw [leaves]
  constructor
  · unfold Deed.Serves
    rw [unread]
    exact .of_silent none (List.forall_mem_singleton.2 ⟨rfl, rfl⟩)
  · rw [Turn.seats_snoc]
    show Function.update (Turn.seats past) j Option.none k = _
    by_cases hj : j = k
    · subst hj
      rw [Function.update_self, decide_eq_true rfl]
      rfl
    · rw [Function.update_of_ne (Ne.symm hj), decide_eq_false hj]
      rfl

/-- What comes in from a session is answered if it is a text of a delivery node, and disconnects the
session if the other side has closed. -/
theorem serves_receive {m : SessionMode} {j : SessionId} {frame : Gateway.Frame}
    (run : (Gateway.receive s.bounds m j frame).Runs g ts () g')
    (ascending : g.store.ids.Pairwise (· < ·)) (own : j = k → m = mode) :
    Deed.Serves s.bounds mode k held g alone ⟨.receive m j frame, ts, ()⟩ ∧
      Turn.seats (past ++ ts) k =
        if (Act.receive m j frame).unregisters k then none else Turn.seats past k := by
  match frame, m with
  | .text content, .delivery =>
    have sends := run.only (Gateway.only_answer s.bounds j content)
    by_cases hj : j = k
    · subst hj
      obtain rfl : SessionMode.delivery = mode := own rfl
      have stores := (run.stores_of_passive (Gateway.passive_receive ..)).2
      have read : Act.text? .delivery j (.receive .delivery j (.text content)) = some content :=
        if_pos ⟨rfl, rfl⟩
      constructor
      · unfold Deed.Serves
        rw [read]
        exact Gateway.replies_of_answer (Program.Runs.goes run) ascending
          fun t ht => (stores t ht).1
      · exact Turn.seats_append fun t ht seat =>
          congrFun (Call.reseat_of_spares (sends t ht).sparesSeats seat t.answer) j
    · exact serves_of_distant (fun t ht => (sends t ht).distant hj) rfl
        (if_neg fun same => hj same.1) rfl
  | .text content, .client =>
    obtain ⟨rfl, -⟩ := Program.Goes.of_done run.goes
    refine serves_of_distant (fun _ ht => absurd ht List.not_mem_nil) rfl (if_neg ?_) rfl
    rintro ⟨rfl, rfl⟩
    cases own rfl
  | .binary, m =>
    obtain ⟨rfl, -⟩ := Program.Goes.of_done run.goes
    exact serves_of_distant (fun _ ht => absurd ht List.not_mem_nil) rfl rfl rfl
  | .closed, m =>
    obtain ⟨outages, h, made, -⟩ := Program.Goes.of_perform run.goes
    exact serves_of_unregister made rfl rfl rfl

/-- **What an act offers a session** that it does not connect, and what becomes of its seat. -/
theorem serves {order : List Nat} (hc : 1 ≤ s.pipeline.concurrency)
    (run : (a.program s order).Runs g ts result g') (ascending : g.store.ids.Pairwise (· < ·))
    (seated : g.Seated past) (fresh : ∀ t ∈ ts, t.opened? ≠ some k)
    (own : ∀ m frame, a = .receive m k frame → m = mode) :
    Deed.Serves s.bounds mode k (Turn.seats past k) g (order = []) ⟨a, ts, result⟩ ∧
      Turn.seats (past ++ ts) k = if a.unregisters k then none else Turn.seats past k := by
  have made := run.only (performedBy_program hc order a).only
  have asks : (a.program s order).Asking → ∀ t ∈ ts, t.call.Distant k := fun asks t ht =>
    Call.distant_of_isQuery (run.only asks t ht)
  have still : (a.program s order).SparesSeats → Turn.seats (past ++ ts) k = Turn.seats past k :=
    fun spares => Turn.seats_append fun t ht seat =>
      congrFun (Call.reseat_of_spares (run.only spares t ht) seat t.answer) k
  cases a with
  | submit x epoch =>
    refine serves_of_distant (fun t ht => ?_) rfl rfl rfl
    obtain ⟨d, -, makes⟩ := made t ht
    exact makes.distant
  | add d => exact serves_of_distant (fun t ht => (made t ht).distant) rfl rfl rfl
  | drain =>
    have spares := Outbox.sparesSeats_drainBy (fun ids => Program.weave_interleave hc order
      (ids.map (Outbox.relayOne s.topic))) s.pipeline.relayBatchSize
    exact ⟨.of_pass rfl seated.seats (Outbox.handles_drainBy hc (Program.Runs.goes run)
      (run.registry_of_sparesSeats spares)), still spares⟩
  | retry =>
    have spares := Retry.sparesSeats_passBy (fun feeds => Program.weave_interleave hc order
      (feeds.map (Processing.process s.topic))) s.pipeline.maxAttempts s.pipeline.retryBatchSize
    exact ⟨.of_pass rfl seated.seats (Retry.handles_passBy hc (Program.Runs.goes run)
      (run.registry_of_sparesSeats spares)), still spares⟩
  | process f =>
    have spares := Processing.sparesSeats_process s.topic f
    exact ⟨.of_handles seated.seats (.refl _) (fun _ => rfl) (Processing.handles_process
      (Program.Runs.goes run) (run.registry_of_sparesSeats spares)) (.refl _) fun _ => rfl,
        still spares⟩
  | sweep now => exact serves_of_distant (fun t ht => (made t ht).distant) rfl rfl rfl
  | connect m raw =>
    exact serves_of_distant (Gateway.distant_of_connect (Program.Runs.goes run) fresh) rfl rfl rfl
  | receive m j frame => exact serves_receive run ascending fun same => own m frame (by rw [same])
  | disconnect j =>
    obtain ⟨outages, h, made, -⟩ := Program.Goes.of_perform (Program.Runs.goes run)
    exact serves_of_unregister made rfl rfl rfl
  | feeds | channelFeeds =>
    exact serves_of_distant (asks (Query.asking_recipientPage ..)) rfl rfl rfl
  | spamSenders => exact serves_of_distant (asks (Query.asking_spamSenders ..)) rfl rfl rfl
  | senderFeeds => exact serves_of_distant (asks (Query.asking_senderFeeds ..)) rfl rfl rfl
  | history => exact serves_of_distant (asks (Query.asking_history ..)) rfl rfl rfl
  | search => exact serves_of_distant (asks (Query.asking_search ..)) rfl rfl rfl

end Act
end Deeds

/-! ## A session is opened once -/

/-- A session is opened by a queue that is put behind those that are there already. -/
theorem Turn.Genuine.exists_open {t : Turn} (genuine : t.Genuine) {k : SessionId}
    (opened : t.opened? = some k) : ∃ capacity queue, t.call = .openQueue capacity ∧
      EventQueue.open? capacity = some queue ∧ k = t.before.queues.length ∧
        t.after.queues = t.before.queues ++ [queue] := by
  obtain ⟨outages, same⟩ := genuine
  have made : ∃ capacity, t.call = .openQueue capacity := by
    obtain ⟨_, c, _, _⟩ := t
    cases c with
    | openQueue capacity => exact ⟨capacity, rfl⟩
    | _ => cases opened
  obtain ⟨capacity, opens⟩ := made
  rw [opens] at same
  rw [same] at opened
  change Call.opened? (.openQueue capacity) (t.before.openQueue capacity).1 = some k at opened
  cases hq : EventQueue.open? capacity with
  | none =>
    have refused : t.before.openQueue capacity = (none, t.before) := by rw [Hub.openQueue, hq]
    rw [refused] at opened
    cases opened
  | some queue =>
    have given : t.before.openQueue capacity = (some t.before.queues.length,
        { t.before with queues := t.before.queues ++ [queue] }) := by rw [Hub.openQueue, hq]
    rw [given] at opened
    refine ⟨capacity, queue, opens, hq, (Option.some.inj opened).symm, ?_⟩
    rw [congrArg Turn.after same]
    show (t.before.openQueue capacity).2.queues = _
    rw [given]

/-- A session is opened by a call that opens a queue. -/
theorem Turn.opens_of_opened? {t : Turn} {k : SessionId} (opened : t.opened? = some k) :
    t.call.opens t.answer = true := by
  obtain ⟨_, c, a, _⟩ := t
  cases c with
  | openQueue capacity =>
    cases a with
    | none => cases opened
    | some => rfl
  | _ => cases opened

/-- A queue is opened for one event at least, and for as many as it was asked for. -/
theorem EventQueue.capacity_of_open? {capacity : Nat} {q : EventQueue}
    (opened : open? capacity = some q) : 1 ≤ capacity ∧ q.capacity = capacity := by
  unfold open? at opened
  split at opened
  · cases opened
  · next some =>
    obtain rfl := Option.some.inj opened
    exact ⟨Nat.pos_of_ne_zero some, rfl⟩

theorem Turn.opened_append (ts us : List Turn) : opened (ts ++ us) = opened ts + opened us :=
  List.countP_append

/-- **A session is opened once.** -/
theorem Course.opened_once {s : Settings} {limit : Nat} {sink : Broadcast.Sink} {ds : List Deed}
    {h : Hub} (c : Course s (.empty limit sink) ds h) {us vs : List Turn} {t : Turn}
    (split : Deed.turnsOf ds = us ++ t :: vs) {k : SessionId} (opened : t.opened? = some k) :
    ∀ u ∈ us ++ vs, u.opened? ≠ some k := by
  -- the number of a session tells how many were opened before
  have number : ∀ {us vs t j}, Deed.turnsOf ds = us ++ t :: vs → t.opened? = some j →
      j = Turn.opened us ∧ Turn.opened (us ++ [t]) = j + 1 := by
    intro us vs t j split opened
    have genuine : t.Genuine := c.history.chain.genuine t (by simp [split])
    obtain ⟨_, _, -, -, last, -⟩ := genuine.exists_open opened
    rw [(c.seated split).opened] at last
    refine ⟨last, ?_⟩
    rw [Turn.opened_snoc, Turn.opens_of_opened? opened, last]
    rfl
  obtain ⟨mine, next⟩ := number split opened
  intro u hu again
  rcases List.mem_append.1 hu with hu | hu
  · obtain ⟨us₁, us₂, rfl⟩ := List.append_of_mem hu
    rw [List.append_assoc, List.cons_append] at split
    have later := (number split again).2
    rw [List.append_cons, Turn.opened_append] at mine
    lia
  · obtain ⟨vs₁, vs₂, rfl⟩ := List.append_of_mem hu
    rw [← List.cons_append, ← List.append_assoc] at split
    have later := (number split again).1
    rw [List.append_cons, Turn.opened_append] at later
    lia

/-- A session that is opened has a queue from then on, which holds one event at least and as many
as it was opened for at most. -/
theorem Course.queue_of_opened {s : Settings} {limit : Nat} {sink : Broadcast.Sink}
    {ds : List Deed} {h : Hub} (c : Course s (.empty limit sink) ds h) {t : Turn}
    (ht : t ∈ Deed.turnsOf ds) {capacity : Nat} (opens : t.call = .openQueue capacity)
    {k : SessionId} (opened : t.opened? = some k) :
    1 ≤ capacity ∧
      (∃ q, h.queues[k]? = some q ∧ q.capacity = capacity ∧ q.events.length ≤ capacity) ∧
      ∀ u ∈ Deed.turnsOf ds, ∀ q, u.before.queues[k]? = some q ∨ u.after.queues[k]? = some q →
        q.capacity = capacity ∧ q.events.length ≤ capacity := by
  obtain ⟨_, q, opens', new, number, queues⟩ := (c.history.chain.genuine t ht).exists_open opened
  obtain rfl := Call.openQueue.inj (opens.symm.trans opens')
  obtain ⟨positive, hcapacity⟩ := EventQueue.capacity_of_open? new
  have hq : t.after.queues[k]? = some q := by
    rw [queues, number, List.getElem?_concat_length]
  obtain ⟨kept, turns⟩ := c.queues_kept
  obtain ⟨last, hlast, same⟩ := (turns t ht).2.2.capacity _ q hq
  -- a queue keeps its capacity, so it has had this one at any time
  have within : ∀ {g : Hub}, (Hub.empty limit sink).KeepsQueues g → g.KeepsQueues h →
      ∀ q, g.queues[k]? = some q → q.capacity = capacity ∧ q.events.length ≤ capacity := by
    intro g before after q hq
    obtain ⟨q', hq', same'⟩ := after.capacity _ q hq
    obtain rfl := Option.some.inj (hlast.symm.trans hq')
    have capacity_eq : q.capacity = capacity := same'.symm.trans (same.trans hcapacity)
    have bounded := before.bounded (fun _ hq => absurd hq List.not_mem_nil) q
      (List.mem_of_getElem? hq)
    exact ⟨capacity_eq, capacity_eq ▸ bounded⟩
  refine ⟨positive, ⟨last, hlast, within kept (.of_same rfl) last hlast⟩, fun u hu q hq => ?_⟩
  obtain ⟨before, here, after⟩ := turns u hu
  rcases hq with hq | hq
  · exact within before (here.trans after) q hq
  · exact within (before.trans here) after q hq

/-! ## Over errands -/

namespace Errand

section Sessions

variable {s : Settings} {k : SessionId} {mode : SessionMode} {g : Hub} {past : List Turn}
  {xs : List Errand}

/-- Doing errands keeps the registry right about who is connected. -/
theorem seated_deeds (hc : 1 ≤ s.pipeline.concurrency)
    (natural : ∀ x ∈ xs, ∀ n, (x.script n).Natural) (seated : g.Seated past) :
    (deeds s xs g).2.Seated (past ++ Deed.turnsOf (deeds s xs g).1) :=
  (@Course.follows s seating _ _ _ past (fun _ _ _ => True) (course_deeds s hc natural g)
    (fun _ _ _ _ _ _ hp _ => hp.follows_seating) seated).2.1

/-- Doing an errand keeps the registry right about who is connected. -/
theorem seated_played (hc : 1 ≤ s.pipeline.concurrency) {x : Errand}
    (natural : ∀ n, (x.script n).Natural) (seated : g.Seated past) :
    (x.played s g).hub.Seated (past ++ (x.deed s g).turns) := by
  have alone : (deeds s [x] g).2.Seated (past ++ Deed.turnsOf (deeds s [x] g).1) :=
    seated_deeds hc (List.forall_mem_singleton.2 natural) seated
  rwa [show Deed.turnsOf (deeds s [x] g).1 = (x.deed s g).turns from List.append_nil _] at alone

/-- Doing an errand keeps the store coherent. -/
theorem coherent_played {x : Errand} (natural : ∀ n, (x.script n).Natural)
    (coherent : g.store.Coherent) : (x.played s g).hub.store.Coherent :=
  (Program.runs_play (x.act.program s x.order) natural g).coherent coherent

/-- What is done on errands keeps the store coherent. -/
theorem coherent_deeds (hc : 1 ≤ s.pipeline.concurrency)
    (natural : ∀ x ∈ xs, ∀ n, (x.script n).Natural) (coherent : g.store.Coherent) :
    (deeds s xs g).2.store.Coherent :=
  ((course_deeds s hc natural g).history.coherent coherent).1

/-- What an errand offers a session that it does not connect, and what becomes of its seat. -/
theorem serves (hc : 1 ≤ s.pipeline.concurrency) {x : Errand}
    (natural : ∀ n, (x.script n).Natural) (coherent : g.store.Coherent) (seated : g.Seated past)
    (fresh : ∀ t ∈ (x.deed s g).turns, t.opened? ≠ some k)
    (own : ∀ m frame, x.act = .receive m k frame → m = mode) :
    (x.deed s g).Serves s.bounds mode k (Turn.seats past k) g (x.order = []) ∧
      Turn.seats (past ++ (x.deed s g).turns) k =
        if x.act.unregisters k then none else Turn.seats past k :=
  Act.serves hc (Program.runs_play _ natural g) coherent.ascending seated fresh own

/-- A session that is not connected, and sends nothing in, is offered nothing. -/
theorem silent_deeds (hc : 1 ≤ s.pipeline.concurrency)
    (natural : ∀ x ∈ xs, ∀ n, (x.script n).Natural) (coherent : g.store.Coherent)
    (seated : g.Seated past)
    (fresh : ∀ t ∈ Deed.turnsOf (deeds s xs g).1, t.opened? ≠ some k)
    (apart : ∀ x ∈ xs, ∀ m frame, x.act ≠ .receive m k frame) (out : Turn.seats past k = none) :
    Turn.offersTo k (Deed.turnsOf (deeds s xs g).1) = [] := by
  induction xs generalizing g past with
  | nil => rfl
  | cons x xs ih =>
    obtain ⟨first, natural⟩ := List.forall_mem_cons.1 natural
    obtain ⟨strange, apart⟩ := List.forall_mem_cons.1 apart
    obtain ⟨new, fresh⟩ := List.forall_mem_append.1 fresh
    obtain ⟨here, seat⟩ : (x.deed s g).Serves s.bounds .client k (Turn.seats past k) g
        (x.order = []) ∧ _ :=
      serves hc first coherent seated new fun m frame same => absurd same (strange m frame)
    have next := seated_played hc first seated
    have kept : (x.played s g).hub.store.Coherent := coherent_played first coherent
    rw [out, ite_self] at seat
    have told : (x.deed s g).Tells k none (x.order = []) := by
      unfold Deed.Serves at here
      rwa [show (x.deed s g).act.text? .client k = none from Act.text?_eq_none strange, out] at here
    show Turn.offersTo k ((x.deed s g).turns ++ _) = []
    rw [Turn.offersTo_append, told.silent]
    exact ih natural kept next fresh apart seat

/-- A session stays in its seat until it is disconnected. -/
theorem seats_deeds (hc : 1 ≤ s.pipeline.concurrency)
    (natural : ∀ x ∈ xs, ∀ n, (x.script n).Natural) (coherent : g.store.Coherent)
    (seated : g.Seated past)
    (fresh : ∀ t ∈ Deed.turnsOf (deeds s xs g).1, t.opened? ≠ some k)
    (own : ∀ x ∈ xs, ∀ m frame, x.act = .receive m k frame → m = mode) :
    Turn.seats (past ++ Deed.turnsOf (deeds s xs g).1) k =
      if xs.any (·.act.unregisters k) then none else Turn.seats past k := by
  induction xs generalizing g past with
  | nil =>
    show Turn.seats (past ++ []) k = _
    rw [List.append_nil]
    rfl
  | cons x xs ih =>
    obtain ⟨first, natural⟩ := List.forall_mem_cons.1 natural
    obtain ⟨mine, own⟩ := List.forall_mem_cons.1 own
    obtain ⟨new, fresh⟩ := List.forall_mem_append.1 fresh
    obtain ⟨-, seat⟩ := serves hc first coherent seated new mine
    have next := seated_played hc first seated
    have later := ih natural (coherent_played first coherent) next fresh own
    rw [List.append_assoc, seat] at later
    refine later.trans ?_
    rw [List.any_cons]
    cases x.act.unregisters k <;> cases xs.any (·.act.unregisters k) <;> rfl

end Sessions

/-- What goes into a queue that is empty at first comes out of it, or is left in it. -/
theorem received_deeds {s : Settings} {xs : List Errand}
    (natural : ∀ x ∈ xs, ∀ n, (x.script n).Natural) {h : Hub} {k : SessionId}
    (empty : h.waiting k = []) {q : EventQueue} (hq : (deeds s xs h).2.queues[k]? = some q) :
    taken s k xs h ++ left s k xs h ++ q.events =
        Turn.acceptedBy k (Deed.turnsOf (deeds s xs h).1) ∧
      (left s k xs h = [] ∨ q.closed = true ∧ q.events = []) := by
  have passage := passage_deeds k s natural h
  have balance := passage.balance
  rw [empty, List.nil_append, Hub.waiting_of_some hq] at balance
  refine ⟨balance.symm, or_iff_not_imp_left.2 fun lost => ?_⟩
  obtain ⟨q', hq', closed, nothing⟩ := passage.lost lost
  obtain rfl := Option.some.inj (hq.symm.trans hq')
  exact ⟨closed, nothing⟩

theorem turnsOf_deeds_append (s : Settings) (es fs : List Errand) (h : Hub) :
    Deed.turnsOf (deeds s (es ++ fs) h).1 = Deed.turnsOf (deeds s es h).1 ++
      Deed.turnsOf (deeds s fs (deeds s es h).2).1 := by
  rw [deeds_append, Deed.turnsOf_append]

/-- **The stream of a session.** Let errands be done from an empty hub on, and let a session be
admitted for one of them. Frames come in from it only after that and in its own mode. Then:

* its queue is there for at least one event, and holds no more events than it was opened for at any
  time;
* what its reader takes, followed by what is lost when the queue is closed, or by what is still
  waiting if it is not, is what the session was offered while the queue was open and not full, in
  this order;
* it is offered nothing before it asks for admission, and its snapshot while it is admitted, if it is
  a client: the first pages of its normal and its spam feeds;
* by each errand after that it is offered what `Deed.Serves` says: an answer to its own text, if it
  is a delivery node, which is the page of history that the text asks for; and what it is due of
  every feed that is processed, once, as long as it has not been disconnected, and nothing of it
  after that. -/
theorem stream_law {s : Settings} (hc : 1 ≤ s.pipeline.concurrency) {limit : Nat}
    {sink : Broadcast.Sink} {pre rest : List Errand} {mode : SessionMode} {raw : Option String}
    {order : List Nat} {script : Script} {k : SessionId}
    (natural : ∀ x ∈ pre ++ ⟨.connect mode raw, order, script⟩ :: rest,
      ∀ n, (x.script n).Natural)
    (admitted : (played s ⟨.connect mode raw, order, script⟩
      (deeds s pre (.empty limit sink)).2).result = .admitted k)
    (apart : ∀ x ∈ pre, ∀ m frame, x.act ≠ .receive m k frame)
    (own : ∀ x ∈ rest, ∀ m frame, x.act = .receive m k frame → m = mode) :
    let connecting : Errand := ⟨.connect mode raw, order, script⟩
    let done := deeds s (pre ++ connecting :: rest) (.empty limit sink)
    let before := deeds s pre (.empty limit sink)
    let after := (connecting.played s before.2).hub
    let lost := left s k (pre ++ connecting :: rest) (.empty limit sink)
    -- the queue is bounded
    (1 ≤ s.bounds.queueCapacity ∧ ∀ t ∈ Deed.turnsOf done.1, ∀ q,
      t.before.queues[k]? = some q ∨ t.after.queues[k]? = some q →
        q.capacity = s.bounds.queueCapacity ∧ q.events.length ≤ s.bounds.queueCapacity) ∧
    -- what goes in comes out
    (∃ q, done.2.queues[k]? = some q ∧ q.events.length ≤ s.bounds.queueCapacity ∧
      taken s k (pre ++ connecting :: rest) (.empty limit sink) ++ lost ++ q.events =
        Turn.acceptedBy k (Deed.turnsOf done.1) ∧
      (lost = [] ∨ q.closed = true ∧ q.events = [])) ∧
    -- what is offered
    Turn.offersTo k (Deed.turnsOf before.1) = [] ∧
    Gateway.Welcomes s.bounds mode raw before.2 k (connecting.deed s before.2).turns ∧
    ∀ xs x ys, rest = xs ++ x :: ys →
      let found := (deeds s xs after).2
      (x.deed s found).Serves s.bounds mode k
        (if xs.any (·.act.unregisters k) then none else Gateway.seat? mode raw) found
        (x.order = []) := by
  intro connecting done before after lost
  have start := Hub.Seated.empty limit sink
  obtain ⟨first, others⟩ := List.forall_mem_append.1 natural
  obtain ⟨here, later⟩ := List.forall_mem_cons.1 others
  have whole : Course s (.empty limit sink) done.1 done.2 := course_deeds s hc natural _
  have run : (Gateway.connect s.bounds mode raw).Runs before.2
      (connecting.deed s before.2).turns (.admitted k) after :=
    admitted ▸ Program.runs_play (connecting.act.program s order) here before.2
  obtain ⟨o, more, turns, opens, opened⟩ := Gateway.opened_of_connect run.goes
  -- the session is opened in the first turn of its admission, and in no other turn
  have split : Deed.turnsOf done.1 = Deed.turnsOf before.1 ++ o ::
      (more ++ Deed.turnsOf (deeds s rest after).1) := by
    rw [← List.cons_append, ← turns]
    exact turnsOf_deeds_append s pre (connecting :: rest) _
  have once := whole.opened_once split opened
  obtain ⟨positive, ⟨q, hq, -, bounded⟩, within⟩ :=
    whole.queue_of_opened (split ▸ List.mem_append_right _ List.mem_cons_self) opens opened
  have coherent : before.2.store.Coherent := coherent_deeds hc first Store.coherent_empty
  obtain ⟨received, unlost⟩ := received_deeds natural (Hub.waiting_of_none rfl) hq
  refine ⟨⟨positive, within⟩, ⟨q, hq, bounded, received, unlost⟩, ?_, ?_, ?_⟩
  · exact silent_deeds hc first Store.coherent_empty start
      (fun t ht => once t (List.mem_append_left _ ht)) apart rfl
  · exact Gateway.welcomes_of_connect run.goes coherent.ascending fun t ht =>
      ((run.stores_of_passive (Gateway.passive_connect ..)).2 t ht).1
  · rintro xs x ys rfl
    have fresh : ∀ t ∈ Deed.turnsOf (deeds s (xs ++ x :: ys) after).1, t.opened? ≠ some k :=
      fun t ht => once t (List.mem_append_right _ (List.mem_append_right _ ht))
    rw [turnsOf_deeds_append] at fresh
    obtain ⟨fresh, new⟩ := List.forall_mem_append.1 fresh
    obtain ⟨mine, -⟩ := List.forall_mem_append.1 new
    obtain ⟨calm, others⟩ := List.forall_mem_append.1 later
    obtain ⟨speaks, others'⟩ := List.forall_mem_append.1 own
    have seated := seated_played hc here (seated_deeds hc first start)
    have opening : after.store.Coherent := coherent_played here coherent
    have seat := seats_deeds hc calm opening seated fresh speaks
    rw [Gateway.seats_of_connect run.goes] at seat
    rw [← seat]
    exact (serves hc (others x List.mem_cons_self) (coherent_deeds hc calm opening)
      (seated_deeds hc calm seated) mine (others' x List.mem_cons_self)).1

end Errand

/-! ## A queue that is too small -/

/-- Settings by which queues are opened for two events. -/
def Settings.cramped : Settings :=
  { Settings.sample with sessions := { Settings.sample.sessions with queueCapacity := 2 } }

/-- Alice asks for admission. -/
def Errand.arrival : Errand := ⟨.connect .client (some "solana:alice"), [], .calm⟩

/-- A feed for alice is processed. Only then does she read an event, and another feed for her is
added and processed. She is disconnected, and the second feed is processed once more. -/
def Errand.crowding : List Errand :=
  [⟨.drain, [], .calm⟩,
    ⟨.add (.sample "q" ["solana:alice"] 6), [], .next ⟨[.read 0 1], .none⟩ .calm⟩,
    ⟨.drain, [], .calm⟩, ⟨.disconnect 0, [], .calm⟩,
    ⟨.process (.ofDraft 2 (.sample "q" ["solana:alice"] 6)), [], .calm⟩]

/-- The two pages of her snapshot leave no room for the first feed, so she is told of the second one
only; and when she has been disconnected, nothing is offered to her any more. -/
theorem Errand.stream_law_of_cramped :
    let es := ⟨.add (.sample "p" ["solana:alice"] 5), [], .calm⟩ :: arrival :: crowding
    let done := deeds .cramped es .sample
    (Turn.offersTo 0 (Deed.turnsOf done.1)).map Event.name =
      ["feed", "spam", "userFeeds", "userFeeds"] ∧
    ∃ q, done.2.queues[0]? = some q ∧ q.events.length ≤ 2 ∧
      taken .cramped 0 es .sample ++ left .cramped 0 es .sample ++ q.events =
        Turn.acceptedBy 0 (Deed.turnsOf done.1) ∧
      (taken .cramped 0 es .sample).map Event.name = ["feed"] ∧
      q.events.map Event.name = ["spam", "userFeeds"] := by
  intro es done
  have natural : ∀ x ∈ es, ∀ n, (x.script n).Natural := by
    have reads : Moment.Natural ⟨[.read 0 1], .none⟩ := by
      intro x hx
      rw [List.mem_singleton.1 hx]
      rfl
    intro x hx
    simp only [es, arrival, crowding, List.mem_cons, List.not_mem_nil, or_false] at hx
    rcases hx with rfl | rfl | rfl | rfl | rfl | rfl | rfl
    all_goals first
      | exact Script.natural_calm
      | exact Script.natural_next reads Script.natural_calm
  have apart : ∀ x ∈ [(⟨.add (.sample "p" ["solana:alice"] 5), [], .calm⟩ : Errand)],
      ∀ m frame, x.act ≠ .receive m 0 frame := by
    rintro x hx m frame
    rw [List.mem_singleton.1 hx]
    rintro ⟨⟩
  have own : ∀ x ∈ crowding, ∀ m frame, x.act = .receive m 0 frame → m = .client := by
    intro x hx m frame same
    simp only [crowding, List.mem_cons, List.not_mem_nil, or_false] at hx
    rcases hx with rfl | rfl | rfl | rfl | rfl <;> cases same
  have admitted : (played .cramped arrival (deeds .cramped
      [⟨.add (.sample "p" ["solana:alice"] 5), [], .calm⟩] (.empty 10 ⟨true, [], []⟩)).2).result =
        .admitted 0 := rfl
  obtain ⟨-, ⟨q, hq, bounded, received, -⟩, -⟩ :=
    stream_law (s := .cramped) (by decide) natural admitted apart own
  have events : (done.2.queues[0]?.map fun q => q.events.map Event.name) =
      some ["spam", "userFeeds"] := by decide +kernel
  rw [show done.2.queues[0]? = some q from hq] at events
  exact ⟨by decide +kernel, q, hq, bounded, received, by decide +kernel, Option.some.inj events⟩

end NotificationRelay
