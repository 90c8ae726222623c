/-
# What a session is offered by which act

Whoever processes a feed offers it to the sessions that the registry finds, once each, and offers
nothing else (`Processing.handles_process`). However many feeds are processed for an act, and
however they take turns, a session is offered what each of them comes to (`Turn.Handles`,
`Outbox.handles_drainBy`, `Retry.handles_passBy`). A client that is admitted is offered the two
halves of its snapshot (`Gateway.welcomes_of_connect`), and the text of a delivery node is answered
(`Gateway.replies_of_answer`).

No other act offers a session anything, and none but the two by which a session is disconnected
takes its seat away. That is read off the sessions that calls are about (`Call.party?`): a session
that asks for admission makes calls about itself only (`Gateway.party_of_connect`).
-/
import NotificationRelay.Proofs.Flow.Telling
import NotificationRelay.Proofs.Query.Scan
import NotificationRelay.Proofs.Run.Portion
import NotificationRelay.Proofs.Session.Admission
import NotificationRelay.Proofs.Session.Waiting

namespace NotificationRelay

/-! ## The feeds that are processed -/

/-- The feed whose processing a call begins. -/
def Call.noted? : Call → Option FeedId
  | .note i => some i
  | _ => none

/-- The feeds that a call selects to be processed: one that it finds unprocessed in the outbox, or
those that are to be tried again. -/
def Call.handsOut : (c : Call) → c.Answer → List Feed
  | .load _, .ok (some f) => if f.processed then [] else [f]
  | .candidates _ _, .ok feeds => feeds
  | _, _ => []

/-- A call that neither offers a session anything nor has to do with which feeds are processed. -/
def Call.Quiet (k : SessionId) (c : Call) : Prop :=
  c.offeredTo? k = none ∧ c.noted? = none ∧ ∀ a, c.handsOut a = []

namespace Turn

/-- The feeds whose processing begins in turns, in order. -/
def noted (ts : List Turn) : List FeedId := ts.filterMap (·.call.noted?)

/-- The feeds that are handed out in turns to be processed, in order. -/
def handedOut (ts : List Turn) : List Feed := ts.flatMap fun t => t.call.handsOut t.answer

/-- Feeds are handed out in turns, and feeds are processed, one after another; each of these is
offered to a session as a registry has it, and nothing else is offered to the session. -/
structure Handles (k : SessionId) (r : Registry) (chosen fs : List Feed) (ts : List Turn) :
    Prop where
  selects : handedOut ts = chosen
  notes : noted ts = fs.map (·.id)
  offers : offersTo k ts = fs.flatMap (·.sent r k)

variable {k : SessionId} {r : Registry} {chosen chosen' fs gs : List Feed} {ts us : List Turn}

theorem noted_append : noted (ts ++ us) = noted ts ++ noted us := List.filterMap_append

theorem handedOut_append : handedOut (ts ++ us) = handedOut ts ++ handedOut us := List.flatMap_append

/-- What is offered to a session is read off the calls. -/
theorem offersTo_eq : offersTo k ts = (ts.map (·.call)).filterMap (Call.offeredTo? k) := by
  rw [List.filterMap_map]
  rfl

/-- Nothing is offered to a session by calls that offer it nothing. -/
theorem offersTo_eq_nil (silent : ∀ t ∈ ts, t.call.offeredTo? k = none) : offersTo k ts = [] :=
  List.filterMap_eq_nil_iff.2 silent

namespace Handles

/-- By quiet calls nothing is handed out or processed, and nothing is offered. -/
theorem quiet (quiet : ∀ t ∈ ts, t.call.Quiet k) : Handles k r [] [] ts where
  selects := List.flatMap_eq_nil_iff.2 fun t ht => (quiet t ht).2.2 t.answer
  notes := List.filterMap_eq_nil_iff.2 fun t ht => (quiet t ht).2.1
  offers := offersTo_eq_nil fun t ht => (quiet t ht).1

theorem append (first : Handles k r chosen fs ts) (rest : Handles k r chosen' gs us) :
    Handles k r (chosen ++ chosen') (fs ++ gs) (ts ++ us) where
  selects := by rw [handedOut_append, first.selects, rest.selects]
  notes := by rw [noted_append, List.map_append, first.notes, rest.notes]
  offers := by rw [offersTo_append, first.offers, rest.offers, List.flatMap_append]

/-- A call that selects feeds does nothing else. -/
theorem select {c : Call} (outages : Outages) (h : Hub) (silent : c.offeredTo? k = none)
    (unnoted : c.noted? = none) (handles : Handles k r chosen fs ts) :
    Handles k r (c.handsOut (c.perform outages h).1 ++ chosen) fs (c.turn outages h :: ts) where
  selects := congrArg (_ ++ ·) handles.selects
  notes := (List.filterMap_cons_none (f := fun t : Turn => t.call.noted?) unnoted).trans
    handles.notes
  offers := (List.filterMap_cons_none (f := fun t : Turn => t.call.offeredTo? k) silent).trans
    handles.offers

end Handles
end Turn

/-- Sessions to which an event is offered are offered it once for each time they are listed. -/
theorem Call.offeredTo?_offers (ks : List SessionId) (e : Event) (k : SessionId) :
    (ks.map fun j => Call.offer j e).filterMap (Call.offeredTo? k) =
      List.replicate (ks.count k) e := by
  induction ks with
  | nil => rfl
  | cons j ks ih =>
    rw [List.map_cons, List.filterMap_cons, ih]
    by_cases hj : j = k
    · subst hj
      simp [offeredTo?, List.replicate_succ]
    · simp [offeredTo?, hj]

section Processing

variable {t : Broadcast.Topic} {k : SessionId} {r : Registry} {us : List Turn}

namespace Dispatch

/-- An event is offered to one session after another. -/
theorem calls_of_goes_offerAll {ids : List SessionId} {e : Event} {n : Nat}
    (g : (offerAll ids e).Goes us (.done n)) : us.map (·.call) = ids.map fun k => .offer k e := by
  obtain ⟨us, vs, as, rfl, offers, last⟩ := Program.Goes.of_bind_done g
  obtain ⟨rfl, -⟩ := last.of_done
  rw [List.append_nil]
  have portions := Program.Goes.portions offers
  clear offers g
  induction ids generalizing us with
  | nil =>
    cases portions
    rfl
  | cons id rest ih =>
    cases portions with
    | cons first later =>
      obtain ⟨outages, h, rfl, -⟩ := first.of_perform
      rw [List.map_append, ih _ later]
      rfl

/-- Sessions are offered a feed as the registry has them meanwhile. -/
theorem calls_of_goes {f : Feed} {payload : Payload} {report : Report}
    (g : (dispatch f payload).Goes us (.done report)) (registry : ∀ u ∈ us, u.before.registry = r) :
    us.map (·.call) = calls r f payload := by
  rcases Program.Goes.of_call g with ⟨-, ended⟩ | ⟨outages, h, us, rfl, g₁⟩
  · cases ended
  obtain ⟨found, registry⟩ := List.forall_mem_cons.1 registry
  replace found : h.registry = r := found
  rcases Program.Goes.of_call g₁ with ⟨-, ended⟩ | ⟨outages', h', us, rfl, g₂⟩
  · cases ended
  obtain ⟨nodes, -⟩ := List.forall_mem_cons.1 registry
  replace nodes : h'.registry = r := nodes
  replace g₂ : ((offerAll (h.registry.clientsFor f.recipients) _).bind _).Goes us _ := g₂
  obtain ⟨us, vs, _, rfl, clients, g₃⟩ := Program.Goes.of_bind_done g₂
  replace g₃ : ((offerAll h'.registry.nodes _).bind _).Goes vs _ := g₃
  obtain ⟨vs, ws, _, rfl, others, last⟩ := Program.Goes.of_bind_done g₃
  obtain ⟨rfl, -⟩ := last.of_done
  simp only [List.map_cons, List.map_append, calls_of_goes_offerAll clients,
    calls_of_goes_offerAll others, List.append_nil, found, nodes]
  rfl

/-- What sessions are offered when they are told of a feed is what they are sent of it. -/
theorem offeredTo?_calls (f : Feed) :
    (calls r f f.enriched).filterMap (Call.offeredTo? k) = f.sent r k := by
  simp only [calls, List.filterMap_cons, List.filterMap_append, Call.offeredTo?,
    Call.offeredTo?_offers, Feed.sent]

/-- That is all that it does. -/
theorem handles_dispatch {f : Feed} {report : Report}
    (g : (dispatch f f.enriched).Goes us (.done report))
    (registry : ∀ u ∈ us, u.before.registry = r) :
    Turn.handedOut us = [] ∧ Turn.noted us = [] ∧ Turn.offersTo k us = f.sent r k := by
  have made := calls_of_goes g registry
  have plain : ∀ u ∈ us, u.call.noted? = none ∧ ∀ a, u.call.handsOut a = [] := fun u hu => by
    have hc : u.call ∈ calls r f f.enriched := made ▸ List.mem_map_of_mem hu
    generalize u.call = c at hc
    simp only [calls, List.mem_cons, List.mem_append, List.mem_map] at hc
    rcases hc with rfl | rfl | ⟨_, -, rfl⟩ | ⟨_, -, rfl⟩ <;> exact ⟨rfl, fun _ => rfl⟩
  refine ⟨List.flatMap_eq_nil_iff.2 fun u hu => (plain u hu).2 u.answer,
    List.filterMap_eq_nil_iff.2 fun u hu => (plain u hu).1, ?_⟩
  rw [Turn.offersTo_eq, made, offeredTo?_calls]

end Dispatch

/-- **A feed that is processed** is offered to the sessions that the registry finds for it. -/
theorem Processing.handles_process {f : Feed} {result : Except FeedError Report}
    (g : (process t f).Goes us (.done result)) (registry : ∀ u ∈ us, u.before.registry = r) :
    Turn.Handles k r [] [f] us := by
  rw [process_eq] at g
  obtain ⟨us₁, us, _, rfl, notes, g₁⟩ := Program.Goes.of_bind_done g
  obtain ⟨outages, h, rfl, -⟩ := notes.of_perform
  obtain ⟨us₂, us, dispatch, rfl, dispatched, g₂⟩ := Program.Goes.of_bind_done g₁
  obtain ⟨us₃, us₄, outcome, rfl, published, settled⟩ := Program.Goes.of_bind_done g₂
  obtain ⟨selects, notes, offers⟩ := Dispatch.handles_dispatch (k := k) dispatched
    fun u hu => registry u (by simp [hu])
  have first : Turn.Handles k r [] [f] ((Call.note f.id).turn outages h :: us₂) := by
    refine ⟨selects, congrArg (f.id :: ·) notes, ?_⟩
    rw [List.flatMap_singleton, ← offers]
    rfl
  -- after it has been offered, only its message and its mark remain
  have last : ∀ u ∈ us₃ ++ us₄, u.call.Quiet k := by
    intro u hu
    rcases List.mem_append.1 hu with hu | hu
    · have made := (published.only (Broadcast.only_publish t f)).1 u hu
      generalize u.call = c at made
      cases made <;> exact ⟨rfl, rfl, fun _ => rfl⟩
    · exact (settled.only (only_settle f ⟨rfl, rfl, fun _ => rfl⟩ ⟨rfl, rfl, fun _ => rfl⟩
        dispatch outcome)).1 u hu
  exact first.append (.quiet last)

/-- An entry of the outbox that is handled offers its feed, if the feed is there and has not been
processed. -/
theorem Outbox.handles_relayOne {i : FeedId} {b : Bool}
    (g : (relayOne t i).Goes us (.done b)) (registry : ∀ u ∈ us, u.before.registry = r) :
    ∃ fs, Turn.Handles k r fs fs us := by
  rcases Program.Goes.of_call g with ⟨-, ended⟩ | ⟨outages, h, us, rfl, rest⟩
  · cases ended
  have selects : ∀ {chosen fs us}, Turn.Handles k r chosen fs us → Turn.Handles k r
      (Call.handsOut (.load i) (Call.perform outages (.load i) h).1 ++ chosen) fs
        ((Call.load i).turn outages h :: us) := fun handles => .select outages h rfl rfl handles
  have acknowledged : ∀ {us : List Turn}, (acknowledge i).Goes us (.done b) →
      Turn.Handles k r [] [] us := fun g => by
    have only : (acknowledge i).Only (Call.Quiet k) :=
      Program.Only.bind_except (Program.only_perform ⟨rfl, rfl, fun _ => rfl⟩) (fun _ => trivial)
        fun _ => trivial
    exact .quiet (g.only only).1
  generalize (Call.perform outages (.load i) h).1 = answer at rest selects
  match answer with
  | .error e =>
    obtain ⟨rfl, -⟩ := Program.Goes.of_done rest
    exact ⟨[], selects (.quiet fun _ hu => absurd hu List.not_mem_nil)⟩
  | .ok none => exact ⟨[], selects (acknowledged rest)⟩
  | .ok (some f) =>
    replace rest : (if f.processed then acknowledge i else
      (Processing.process t f).bind fun _ => acknowledge i).Goes us (.done b) := rest
    have loaded : Call.handsOut (.load i) (.ok (some f)) = if f.processed then [] else [f] := rfl
    rw [loaded] at selects
    split at rest
    · next done =>
      rw [if_pos done] at selects
      exact ⟨[], selects (acknowledged rest)⟩
    · next todo =>
      rw [if_neg todo] at selects
      obtain ⟨us, vs, _, rfl, processing, last⟩ := Program.Goes.of_bind_done rest
      have here := Processing.handles_process (k := k) processing fun u hu =>
        registry u (List.mem_cons_of_mem _ (List.mem_append_left _ hu))
      exact ⟨[f], selects (here.append (acknowledged last))⟩

/-- Feeds that are processed one after another are offered one after another. -/
theorem Processing.handles_portions {feeds : List Feed}
    (portions : Program.Portions (feeds.map (process t)) us)
    (registry : ∀ u ∈ us, u.before.registry = r) : Turn.Handles k r [] feeds us := by
  induction feeds generalizing us with
  | nil =>
    cases portions
    exact .quiet fun _ hu => absurd hu List.not_mem_nil
  | cons f feeds ih =>
    cases portions with
    | cons one later =>
      have here := handles_process (k := k) one fun u hu => registry u (List.mem_append_left _ hu)
      exact here.append (ih later fun u hu => registry u (List.mem_append_right _ hu))

/-- Entries that are handled one after another are offered one after another. -/
theorem Outbox.handles_portions {ids : List FeedId}
    (portions : Program.Portions (ids.map (relayOne t)) us)
    (registry : ∀ u ∈ us, u.before.registry = r) : ∃ fs, Turn.Handles k r fs fs us := by
  induction ids generalizing us with
  | nil =>
    cases portions
    exact ⟨[], .quiet fun _ hu => absurd hu List.not_mem_nil⟩
  | cons i ids ih =>
    cases portions with
    | cons one later =>
      obtain ⟨fs, here⟩ := handles_relayOne (k := k) one fun u hu =>
        registry u (List.mem_append_left _ hu)
      obtain ⟨gs, more⟩ := ih later fun u hu => registry u (List.mem_append_right _ hu)
      exact ⟨fs ++ gs, here.append more⟩

/-- The calls of programs whose turns are settled by a list can be put in portions, and are in
portions already if the list is empty. -/
theorem Program.Goes.portions_interleave {α : Type} {limit : Nat} (hl : 1 ≤ limit)
    {order : List Nat} {ps : List (Program α)} {as : List α}
    (g : (interleave limit order ps).Goes us (.done as)) :
    ∃ vs, vs.Perm us ∧ (order = [] → vs = us) ∧ Portions ps vs := by
  cases order with
  | nil =>
    have portions : Portions (ps.map id) us := Program.Goes.portions g
    rw [List.map_id] at portions
    exact ⟨us, .refl _, fun _ => rfl, portions⟩
  | cons n order =>
    obtain ⟨vs, perm, portions⟩ := (weave_interleave hl (n :: order) ps).portions g
    exact ⟨vs, perm, nofun, portions⟩

/-- **A pass over the outbox** offers the feeds that it finds unprocessed. -/
theorem Outbox.handles_drainBy {limit batch : Nat} (hl : 1 ≤ limit) {order : List Nat}
    {result : Stored Nat} (g : (drainBy (fun ids => Program.interleave limit order
      (ids.map (relayOne t))) batch).Goes us (.done result))
    (registry : ∀ u ∈ us, u.before.registry = r) :
    ∃ vs fs, vs.Perm us ∧ (order = [] → vs = us) ∧ Turn.Handles k r fs fs vs := by
  rcases Program.Goes.of_call g with ⟨-, ended⟩ | ⟨outages, h, us, rfl, rest⟩
  · cases ended
  generalize (Call.perform outages (.pending batch) h).1 = answer at rest
  match answer with
  | .error e =>
    obtain ⟨rfl, -⟩ := Program.Goes.of_done rest
    exact ⟨_, [], .refl _, fun _ => rfl, .quiet (List.forall_mem_singleton.2
      ⟨rfl, rfl, fun _ => rfl⟩)⟩
  | .ok ids =>
    replace rest : ((Program.interleave limit order (ids.map (relayOne t))).bind _).Goes us _ := rest
    obtain ⟨us, vs, acknowledged, rfl, handling, last⟩ := Program.Goes.of_bind_done rest
    obtain ⟨rfl, -⟩ := last.of_done
    obtain ⟨vs, perm, same, portions⟩ := handling.portions_interleave hl
    rw [List.append_nil] at registry ⊢
    obtain ⟨fs, handles⟩ := handles_portions (k := k) portions fun v hv =>
      registry v (List.mem_cons_of_mem _ (perm.subset hv))
    exact ⟨_, fs, perm.cons _, fun alone => congrArg _ (same alone),
      Turn.Handles.select (c := .pending batch) outages h rfl rfl handles⟩

/-- **A retry pass** offers the feeds that it has selected. -/
theorem Retry.handles_passBy {limit cap batch : Nat} (hl : 1 ≤ limit) {order : List Nat}
    {result : Stored Report} (g : (passBy (fun feeds => Program.interleave limit order
      (feeds.map (Processing.process t))) cap batch).Goes us (.done result))
    (registry : ∀ u ∈ us, u.before.registry = r) :
    ∃ vs fs, vs.Perm us ∧ (order = [] → vs = us) ∧ Turn.Handles k r fs fs vs := by
  rcases Program.Goes.of_call g with ⟨-, ended⟩ | ⟨outages, h, us, rfl, rest⟩
  · cases ended
  have selects : ∀ {chosen fs us}, Turn.Handles k r chosen fs us → Turn.Handles k r
      (Call.handsOut (.candidates cap batch) (Call.perform outages (.candidates cap batch) h).1 ++
        chosen) fs ((Call.candidates cap batch).turn outages h :: us) := fun handles =>
    .select outages h rfl rfl handles
  generalize (Call.perform outages (.candidates cap batch) h).1 = answer at rest selects
  match answer with
  | .error e =>
    obtain ⟨rfl, -⟩ := Program.Goes.of_done rest
    exact ⟨_, [], .refl _, fun _ => rfl, selects (.quiet fun _ hu => absurd hu List.not_mem_nil)⟩
  | .ok feeds =>
    replace rest : ((Program.interleave limit order (feeds.map (Processing.process t))).bind _).Goes
      us _ := rest
    obtain ⟨us, vs, results, rfl, handling, last⟩ := Program.Goes.of_bind_done rest
    obtain ⟨rfl, -⟩ := last.of_done
    obtain ⟨vs, perm, same, portions⟩ := handling.portions_interleave hl
    rw [List.append_nil] at registry ⊢
    have handles := selects (Processing.handles_portions (k := k) portions fun v hv =>
      registry v (List.mem_cons_of_mem _ (perm.subset hv)))
    rw [List.append_nil] at handles
    exact ⟨_, feeds, perm.cons _, fun alone => congrArg _ (same alone), handles⟩

end Processing

/-! ## The sessions that calls are about -/

/-- The session that a call is about, if it is about one that is there already. -/
def Call.party? : Call → Option SessionId
  | .closeQueue k => some k
  | .registerClient _ k => some k
  | .registerNode k => some k
  | .unregister k => some k
  | .offer k _ => some k
  | _ => none

namespace Call

variable {c : Call} {k : SessionId}

/-- A query is about no session. -/
theorem party?_eq_none_of_isQuery (hc : c.isQuery = true) : c.party? = none := by
  cases c <;> first | rfl | cases hc

/-- A call that is not about a session offers it nothing. -/
theorem offeredTo?_eq_none (hc : c.party? ≠ some k) : c.offeredTo? k = none := by
  cases c with
  | offer j e => exact if_neg fun same => hc (congrArg some same)
  | _ => rfl

/-- A call about another session leaves a session in its seat. -/
theorem reseat_of_party (hc : c.party? ≠ some k) (seat : SessionId → Option Seat)
    (a : c.Answer) : c.reseat seat a k = seat k := by
  cases c with
  | registerClient address j =>
    cases a with
    | error => rfl
    | ok => exact Function.update_of_ne (fun same => hc (congrArg some same.symm)) _ _
  | registerNode j | unregister j =>
    exact Function.update_of_ne (fun same => hc (congrArg some same.symm)) _ _
  | _ => rfl

/-- So does a call that changes no seats. -/
theorem reseat_of_spares (hc : c.reseats = false) (seat : SessionId → Option Seat)
    (a : c.Answer) : c.reseat seat a = seat := by
  cases c with
  | registerClient | registerNode | unregister => cases hc
  | _ => rfl

/-- A client that has been connected sits at its address. -/
theorem reseat_of_joined {a : c.Answer} {address : String} (joined : c.joined? a = some (k, address))
    (seat : SessionId → Option Seat) : c.reseat seat a k = some (.client address) := by
  cases c with
  | registerClient address' j =>
    cases a with
    | error => cases joined
    | ok =>
      obtain ⟨rfl, rfl⟩ := Prod.mk.inj (Option.some.inj joined)
      exact Function.update_self ..
  | _ => cases joined

/-- The session for which a call has opened a queue. -/
def opened? : (c : Call) → c.Answer → Option SessionId
  | .openQueue _, some k => some k
  | _, _ => none

end Call

/-- The session for which a queue was opened in a turn. -/
def Turn.opened? (t : Turn) : Option SessionId := t.call.opened? t.answer

namespace Turn

variable {k : SessionId} {ts us : List Turn}

/-- Turns in which a session keeps its seat leave it there. -/
theorem seats_append (still : ∀ u ∈ us, ∀ seat, u.call.reseat seat u.answer k = seat k) :
    seats (ts ++ us) k = seats ts k := by
  induction us generalizing ts with
  | nil => rw [List.append_nil]
  | cons u us ih =>
    obtain ⟨first, still⟩ := List.forall_mem_cons.1 still
    rw [List.append_cons, ih still, seats_snoc, first]

/-- An event is offered to a session unless a call fails, and then nothing is. -/
def Offers (k : SessionId) (e : Event) (ts : List Turn) : Prop :=
  offersTo k ts = [e] ∧ (∀ t ∈ ts, ¬ t.failed) ∨ offersTo k ts = [] ∧ ∃ t ∈ ts, t.failed

end Turn

namespace Query

/-- The exported form of a page. -/
def exported (p : Paged) : ExportPage := ⟨p.feeds.map Feed.exported, p.total⟩

/-- An export shows a page of its window, if it does not end before it begins. -/
theorem run_history {bound : Nat} {start stop : Int} {p : Paging} {h : Hub}
    (ordered : start ≤ stop) : (history bound start stop p).run .none h =
      (.ok (exported (h.store.pageBetween start stop (p.clamp bound))), h) := by
  unfold history
  rw [if_neg (Int.not_lt.2 ordered)]
  rfl

/-- A page of history is read by one call, unless the call fails. -/
theorem goes_history {bound : Nat} {start stop : Int} {p : Paging}
    {us : List Turn} {result : Except FeedError ExportPage} (ordered : start ≤ stop)
    (g : (history bound start stop p).Goes us (.done result)) :
    ∃ outages h, us = [(Call.pageBetween start stop (p.clamp bound)).turn outages h] ∧
      ((∃ u ∈ us, u.failed) ∧ (∃ e, result = .error e) ∨ (∀ u ∈ us, ¬ u.failed) ∧
        result = .ok (exported (h.store.pageBetween start stop (p.clamp bound)))) := by
  unfold history at g
  rw [if_neg (Int.not_lt.2 ordered)] at g
  rcases Program.Goes.of_call g with ⟨-, ended⟩ | ⟨outages, h, us, rfl, rest⟩
  · cases ended
  by_cases hf : ((Call.pageBetween start stop (p.clamp bound)).turn outages h).failed
  · obtain ⟨reason, ho⟩ := Call.outage_of_failed _ outages h hf
    simp only [Call.perform, Outages.guard, ho] at rest
    obtain ⟨rfl, ended⟩ := Program.Goes.of_done rest
    cases ended
    exact ⟨outages, h, rfl, .inl ⟨⟨_, List.mem_cons_self, hf⟩, _, rfl⟩⟩
  · simp only [Call.perform, Outages.guard, Call.no_outage _ outages h rfl hf] at rest
    obtain ⟨rfl, ended⟩ := Program.Goes.of_done rest
    cases ended
    exact ⟨outages, h, rfl, .inr ⟨List.forall_mem_singleton.2 hf, rfl⟩⟩

end Query

namespace Gateway

variable {b : Bounds} {mode : SessionMode} {raw : Option String} {k : SessionId}
  {us : List Turn} {found : Hub}

/-- When its queue has been opened, a session that asks for admission makes calls about itself
only. -/
theorem only_connect (b : Bounds) (mode : SessionMode) (raw : Option String) :
    ∃ next, connect b mode raw = .call (.openQueue b.queueCapacity) next ∧
      next none = .done .noQueue ∧
      ∀ id, (next (some id)).Only fun c => ∀ k, c.party? = some k → k = id := by
  refine ⟨_, rfl, rfl, fun id => ?_⟩
  have mine : ∀ {c : Call}, c.party? = some id → ∀ k, c.party? = some k → k = id := fun hc k hk =>
    Option.some.inj (hk.symm.trans hc)
  have refused : ∀ e, (refuse id e).Only fun c => ∀ k, c.party? = some k → k = id := fun e =>
    Program.Only.bind (Program.only_perform (mine rfl)) fun _ => trivial
  cases mode with
  | delivery =>
    show ((Program.perform (.registerNode id)).bind fun _ => .done (Admission.admitted id)).Only _
    exact Program.Only.bind (Program.only_perform (mine rfl)) fun _ => trivial
  | client =>
    dsimp only [Program.perform, bind, Program.bind]
    split
    · exact refused _
    · next canonical _ =>
      refine Program.Only.bind (Program.only_perform (mine rfl)) fun answer => ?_
      cases answer with
      | error e => exact refused e
      | ok =>
        refine Program.Only.bind ((only_snapshot b canonical id).mono fun c hc => ?_) fun _ => trivial
        cases hc with
        | query hc =>
          rw [Call.party?_eq_none_of_isQuery hc]
          nofun
        | _ => exact mine rfl

/-- **A session that asks for admission** is given a queue, and what follows is about this session
only. -/
theorem party_of_connect {result : Admission} (g : (connect b mode raw).Goes us (.done result)) :
    ∃ o rest, us = o :: rest ∧ o.call = .openQueue b.queueCapacity ∧
      ∀ u ∈ rest, ∀ k, u.call.party? = some k → o.opened? = some k := by
  obtain ⟨next, whole, unopened, only⟩ := only_connect b mode raw
  rw [whole] at g
  rcases Program.Goes.of_call g with ⟨-, ended⟩ | ⟨outages, h, us, rfl, rest⟩
  · cases ended
  refine ⟨_, us, rfl, rfl, fun u hu k hk => ?_⟩
  show Call.opened? (.openQueue b.queueCapacity)
    (Call.perform outages (.openQueue b.queueCapacity) h).1 = some k
  generalize (Call.perform outages (.openQueue b.queueCapacity) h).1 = answer at rest
  cases answer with
  | none =>
    rw [unopened] at rest
    obtain ⟨rfl, -⟩ := Program.Goes.of_done rest
    cases hu
  | some id =>
    rw [(rest.only (only id)).1 u hu k hk]
    rfl

/-- A delivery node that is admitted is given a queue and registered. -/
theorem goes_connect_node (g : (connect b .delivery raw).Goes us (.done (.admitted k))) :
    ∃ o r, us = [o, r] ∧ o.call = .openQueue b.queueCapacity ∧ r.call = .registerNode k := by
  rcases Program.Goes.of_call g with ⟨-, ended⟩ | ⟨outages, h, us, rfl, rest⟩
  · cases ended
  generalize (Call.perform outages (.openQueue b.queueCapacity) h).1 = answer at rest
  cases answer with
  | none =>
    obtain ⟨-, ended⟩ := Program.Goes.of_done rest
    cases ended
  | some id =>
    rcases Program.Goes.of_call rest with ⟨-, ended⟩ | ⟨outages', h', vs, rfl, last⟩
    · cases ended
    obtain ⟨rfl, ended⟩ := Program.Goes.of_done last
    cases ended
    exact ⟨_, _, rfl, rfl, rfl⟩

/-- The session that is admitted is the one for which the queue was opened. -/
theorem opened_of_connect (g : (connect b mode raw).Goes us (.done (.admitted k))) :
    ∃ o rest, us = o :: rest ∧ o.call = .openQueue b.queueCapacity ∧ o.opened? = some k := by
  obtain ⟨o, rest, rfl, opens, mine⟩ := party_of_connect g
  refine ⟨o, rest, rfl, opens, ?_⟩
  have joins : ∃ r ∈ rest, r.call.party? = some k := by
    cases mode with
    | delivery =>
      obtain ⟨_, r, same, -, joins⟩ := goes_connect_node g
      obtain ⟨-, rfl⟩ := List.cons.inj same
      exact ⟨r, List.mem_cons_self, by rw [joins, Call.party?]⟩
    | client =>
      rcases goes_connect g with ⟨-, refused⟩ | ⟨j, address, _, r, vs, same', same, -, joins, -⟩
      · exact absurd rfl (refused k)
      · cases same'
        obtain ⟨-, rfl⟩ := List.cons.inj same
        exact ⟨r, List.mem_cons_self, by rw [joins, Call.party?]⟩
  obtain ⟨r, hr, about⟩ := joins
  exact mine r hr k about

/-! ## Snapshots and answers -/

/-- What a connected session of a mode stands for, by the address with which it has asked. -/
def seat? : SessionMode → Option String → Option Seat
  | .client, raw => (Address.normalize (raw.getD "")).map .client
  | .delivery, _ => some .node

/-- The query for the first page of the normal or the spam feeds of a recipient. -/
def frontPage (b : Bounds) (address : String) (isSpam : Bool) :
    Program (Except FeedError FeedPage) :=
  Query.feeds b.maxPageSize address isSpam false (Paging.make 1 b.snapshotSize)

/-- The query for the page of history that a delivery node asks for. -/
def historyPage (b : Bounds) (request : NodeRequest) : Program (Except FeedError ExportPage) :=
  Query.history b.maxPageSize request.start request.stop (Paging.make request.page request.size)

/-- The first page of the normal or the spam feeds of a recipient: of those that the hub lists under
the recipient and that are not hidden, newest first, it shows the items at its positions and tells
the number of all. -/
def ShowsFront (b : Bounds) (h : Hub) (address : String) (isSpam : Bool) (page : FeedPage) : Prop :=
  ∃ l shown,
    h.store.Scan (fun f => f.id ∈ h.store.indexed address isSpam ∧ f.hidden = false) l ∧
    (Paging.mk 1 (max b.snapshotSize 1)).Shows b.maxPageSize l shown ∧
    page = ⟨shown.map Feed.view, l.length⟩

/-- The page of history that a request asks for: of the feeds between its two moments that are not
spam, oldest first, it shows the items at its positions and tells the number of all. -/
def ShowsHistory (b : Bounds) (h : Hub) (request : NodeRequest) (page : ExportPage) : Prop :=
  ∃ l shown,
    l.Pairwise (fun f g => f.id < g.id) ∧
    (∀ f, f ∈ l ↔
      f ∈ h.store.feeds ∧ f.isSpam = false ∧ request.start ≤ f.epoch ∧ f.epoch ≤ request.stop) ∧
    (Paging.mk (max request.page 1) (max request.size 1)).Shows b.maxPageSize l shown ∧
    page = ⟨shown.map Feed.exported, l.length⟩

/-- What a session is offered while it is connected: a client the first pages of its normal and its
spam feeds, in this order, as a query shows them on the hub that it finds, and of which one that
cannot be read is left out; and a delivery node nothing. -/
def Welcomes (b : Bounds) (mode : SessionMode) (raw : Option String) (h : Hub) (k : SessionId)
    (ts : List Turn) : Prop :=
  match mode with
  | .delivery => Turn.offersTo k ts = []
  | .client => ∃ address opening normal spam page page',
      Address.normalize (raw.getD "") = some address ∧
      ts = opening ++ normal ++ spam ∧ Turn.offersTo k opening = [] ∧
      (frontPage b address false).run .none h = (.ok page, h) ∧
      ShowsFront b h address false page ∧ Turn.Offers k (.snapshot page) normal ∧
      (frontPage b address true).run .none h = (.ok page', h) ∧
      ShowsFront b h address true page' ∧ Turn.Offers k (.spamSnapshot page') spam

/-- How the text of a delivery node is answered on a hub: with the page of history for which it
asks, if it is a request with a start that is not after its end, and if the page can be read. -/
def Replies (b : Bounds) (h : Hub) (k : SessionId) (text : String) (ts : List Turn) : Prop :=
  match NodeRequest.ofText? text with
  | none => Turn.offersTo k ts = []
  | some request =>
    if request.start ≤ request.stop then
      ∃ page, (historyPage b request).run .none h = (.ok page, h) ∧
        ShowsHistory b h request page ∧ Turn.Offers k (.history page) ts
    else Turn.offersTo k ts = []

/-- A listing of a recipient from its first page on shows that page. -/
theorem showsFront_listed {h : Hub} (ascending : h.store.ids.Pairwise (· < ·)) (b : Bounds)
    (address : String) (isSpam : Bool) :
    ShowsFront b h address isSpam (Query.listed (h.store.pageByIds (h.store.indexed address isSpam)
      ⟨false, none, none⟩ ((Paging.make 1 b.snapshotSize).clamp b.maxPageSize))) := by
  refine ⟨_, _, Store.scan_newest ascending fun f _ => ?_, Paging.shows_slice _ _ _, rfl⟩
  simp [Listing.accepts, absentOr]

/-- An export of the window of a request shows the page for which it asks. -/
theorem showsHistory_exported {h : Hub} (ascending : h.store.ids.Pairwise (· < ·)) (b : Bounds)
    (request : NodeRequest) :
    ShowsHistory b h request (Query.exported (h.store.pageBetween request.start request.stop
      ((Paging.make request.page request.size).clamp b.maxPageSize))) := by
  refine ⟨_, _, (List.pairwise_map.1 ascending).filter _, fun f => ?_,
    Paging.shows_slice _ _ _, rfl⟩
  simp [Store.isExported, and_assoc]

/-- A turn that offers something does not fail. -/
theorem not_failed_of_offer (e : Event) (outages : Outages) (h : Hub) :
    ¬ ((Call.offer k e).turn outages h).failed := by
  rintro ⟨reason, lost⟩
  cases lost

/-- An offer offers one event. -/
theorem offersTo_of_offer (e : Event) (outages : Outages) (h : Hub) :
    Turn.offersTo k [(Call.offer k e).turn outages h] = [e] := by
  have offered : ((Call.offer k e).turn outages h).call.offeredTo? k = some e := if_pos rfl
  exact List.filterMap_cons_some offered

/-- What is read without a failure and handed over then is offered. -/
theorem offers_of_read {e : Event} {vs : List Turn} (silent : Turn.offersTo k vs = [])
    (healthy : ∀ v ∈ vs, ¬ v.failed) (outages : Outages) (h : Hub) :
    Turn.Offers k e (vs ++ [(Call.offer k e).turn outages h]) := by
  refine .inl ⟨?_, fun t ht => ?_⟩
  · rw [Turn.offersTo_append, silent, offersTo_of_offer]
    rfl
  · rcases List.mem_append.1 ht with ht | ht
    · exact healthy t ht
    · rw [List.mem_singleton.1 ht]
      exact not_failed_of_offer e outages h

/-- A page that is read from one store and handed over is offered, unless a call fails. -/
theorem offers_of_reads {address : String} {isSpam : Bool} {listing : Listing} {p : Paging}
    {event : FeedPage → Event} {answer : Except FeedError FeedPage} {vs ws : List Turn}
    (reads : Query.Reads address isSpam listing p vs answer) (hands : Hands k event answer ws)
    {σ : Store} (store : ∀ v ∈ vs, v.before.store = σ) :
    Turn.Offers k (event (Query.listed (σ.pageByIds (σ.indexed address isSpam) listing p)))
      (vs ++ ws) := by
  cases reads with
  | unlisted hf =>
    cases hands
    exact .inr ⟨rfl, _, List.mem_cons_self, hf⟩
  | unread hf hf' =>
    cases hands
    exact .inr ⟨rfl, _, List.mem_cons_of_mem _ List.mem_cons_self, hf'⟩
  | @none outages h hf empty =>
    obtain rfl : h.store = σ := store _ List.mem_cons_self
    have nothing : Query.listed (h.store.pageByIds (h.store.indexed address isSpam) listing p) =
        .empty := by
      rw [empty]
      simp [Query.listed, Store.pageByIds, Store.page, Store.newest, Paging.slice, FeedPage.empty]
    cases hands with
    | page _ outages' h' =>
      rw [nothing]
      exact offers_of_read rfl (List.forall_mem_singleton.2 hf) outages' h'
  | @page outages outages' h h' hf hf' =>
    obtain ⟨first, rest⟩ := List.forall_mem_cons.1 store
    obtain rfl : h.store = σ := first
    have same : h'.store = h.store := rest _ List.mem_cons_self
    cases hands with
    | page _ outages₂ h₂ =>
      rw [same]
      exact offers_of_read rfl (List.forall_mem_cons.2 ⟨hf, List.forall_mem_singleton.2 hf'⟩)
        outages₂ h₂

/-- **A session that is admitted** is offered its snapshot, if it is a client, and nothing
otherwise. -/
theorem welcomes_of_connect (g : (connect b mode raw).Goes us (.done (.admitted k)))
    (ascending : found.store.ids.Pairwise (· < ·))
    (store : ∀ u ∈ us, u.before.store = found.store) : Welcomes b mode raw found k us := by
  cases mode with
  | delivery =>
    obtain ⟨o, r, rfl, opens, joins⟩ := goes_connect_node g
    refine Turn.offersTo_eq_nil (List.forall_mem_cons.2 ⟨?_, List.forall_mem_singleton.2 ?_⟩)
    · rw [opens]
      rfl
    · rw [joins]
      rfl
  | client =>
    rcases goes_connect g with ⟨-, refused⟩ | ⟨k', address, o, r, vs, same, rfl, opens, joins, -,
      normal, shows⟩
    · exact absurd rfl (refused k)
    cases same
    have canonical := Address.normalize_normalize normal
    obtain ⟨_, _, us₁, us₂, us₃, us₄, rfl, first, offer, second, offer'⟩ :=
      goes_snapshot canonical shows
    refine ⟨address, [o, r], us₁ ++ us₂, us₃ ++ us₄, _, _, normal, rfl, ?_,
      Query.run_listing canonical .., showsFront_listed ascending b address false,
      offers_of_reads first offer fun v hv => store v (by simp [hv]),
      Query.run_listing canonical .., showsFront_listed ascending b address true,
      offers_of_reads second offer' fun v hv => store v (by simp [hv])⟩
    refine Turn.offersTo_eq_nil (List.forall_mem_cons.2 ⟨?_, List.forall_mem_singleton.2 ?_⟩)
    · rw [opens]
      rfl
    · rw [joins]
      rfl

/-- A session that is admitted takes its seat. -/
theorem seats_of_connect (g : (connect b mode raw).Goes us (.done (.admitted k)))
    (past : List Turn) : Turn.seats (past ++ us) k = seat? mode raw := by
  cases mode with
  | delivery =>
    obtain ⟨o, r, rfl, -, joins⟩ := goes_connect_node g
    rw [List.append_cons, Turn.seats_snoc]
    obtain ⟨_, c, _, _⟩ := r
    obtain rfl : c = .registerNode k := joins
    exact Function.update_self ..
  | client =>
    rcases goes_connect g with ⟨-, refused⟩ | ⟨k', address, o, r, vs, same, rfl, -, -, joined,
      normal, shows⟩
    · exact absurd rfl (refused k)
    cases same
    have still := (shows.only (only_snapshot b address k)).1
    rw [List.append_cons, List.append_cons, Turn.seats_append fun v hv seat =>
      congrFun (Call.reseat_of_spares (still v hv).sparesSeats seat v.answer) k, Turn.seats_snoc,
      Call.reseat_of_joined joined, seat?, normal]
    rfl

/-- **The text of a delivery node is answered** if it is a request that makes sense. -/
theorem replies_of_answer {text : String} (g : (answer b k text).Goes us (.done ()))
    (ascending : found.store.ids.Pairwise (· < ·))
    (store : ∀ u ∈ us, u.before.store = found.store) : Replies b found k text us := by
  unfold answer at g
  unfold Replies
  generalize NodeRequest.ofText? text = request? at g
  cases request? with
  | none =>
    obtain ⟨rfl, -⟩ := Program.Goes.of_done g
    rfl
  | some request =>
    replace g : ((historyPage b request).bind (offerPage k .history)).Goes us (.done ()) := g
    obtain ⟨vs, ws, page, rfl, asks, offers⟩ := Program.Goes.of_bind_done g
    have hands := goes_offerPage offers
    by_cases late : request.stop < request.start
    · have rejected : historyPage b request =
          .done (.error (.rejected (.times request.start request.stop))) := if_pos late
      rw [rejected] at asks
      obtain ⟨rfl, ended⟩ := Program.Goes.of_done asks
      cases ended
      cases hands
      show if request.start ≤ request.stop then _ else _
      rw [if_neg (Int.not_le.2 late)]
      rfl
    · have ordered := Int.not_lt.1 late
      show if request.start ≤ request.stop then _ else _
      rw [if_pos ordered]
      obtain ⟨outages, h, rfl, read⟩ := Query.goes_history ordered asks
      have same : h.store = found.store := store _ List.mem_cons_self
      refine ⟨_, Query.run_history ordered, showsHistory_exported ascending b request, ?_⟩
      rcases read with ⟨failed, e, rfl⟩ | ⟨healthy, rfl⟩
      · cases hands
        rw [List.append_nil]
        exact .inr ⟨rfl, failed⟩
      · cases hands with
        | page _ outages' h' =>
          rw [← same]
          exact offers_of_read rfl healthy outages' h'

end Gateway

end NotificationRelay
