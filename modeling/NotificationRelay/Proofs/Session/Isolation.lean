/-
# What one session and the far end of the topic cannot do

A session may refuse what it is offered, and the far end of the topic what is handed to it. Both
are counted, and told to whoever has asked for a feed to be processed; that is all that comes of
it. Here two courses are compared that differ in what befalls the far end of the topic and the
queue of one session `k`, at any time and in any way. Their hubs are alike but for those two
(`Hub.SameBut`), since no other part of a hub can tell (`Hub.SameBut.perform`). Offers and messages
are the only calls with answers that can differ, and no program goes on differently for them
(`Processing.matches_process` and the lemmas around it).

So the courses have the same stores throughout, hand over the same messages and serve every other
session alike, and no act fails in one of them and succeeds in the other (`Errand.isolated`).
-/
import NotificationRelay.Proofs.Broadcast.Order
import NotificationRelay.Proofs.Flow.Indifference

namespace NotificationRelay

/-! ## Hubs that differ in little -/

/-- Hubs that differ at most in the far end of the topic and in the queue of one session. -/
structure Hub.SameBut (k : SessionId) (h h' : Hub) : Prop where
  store : h.store = h'.store
  cache : h.cache = h'.cache
  registry : h.registry = h'.registry
  called : h.called = h'.called
  length : h.queues.length = h'.queues.length
  queues : ∀ j, j ≠ k → h.queues[j]? = h'.queues[j]?

namespace Hub.SameBut

variable {k : SessionId} {h h' h'' : Hub}

theorem refl (k : SessionId) (h : Hub) : SameBut k h h := ⟨rfl, rfl, rfl, rfl, rfl, fun _ _ => rfl⟩

/-- If one hub is as another but for a session, so is the other as the first. -/
theorem symm (hh : SameBut k h h') : SameBut k h' h :=
  ⟨hh.store.symm, hh.cache.symm, hh.registry.symm, hh.called.symm, hh.length.symm,
    fun j hj => (hh.queues j hj).symm⟩

theorem trans (hh : SameBut k h h') (hh' : SameBut k h' h'') : SameBut k h h'' :=
  ⟨hh.store.trans hh'.store, hh.cache.trans hh'.cache, hh.registry.trans hh'.registry,
    hh.called.trans hh'.called, hh.length.trans hh'.length,
    fun j hj => (hh.queues j hj).trans (hh'.queues j hj)⟩

/-- A session has a queue in both hubs or in neither, and another session than `k` the same. -/
theorem queue? (hh : SameBut k h h') (id : SessionId) :
    h.queues[id]? = none ∧ h'.queues[id]? = none ∨
      ∃ q q', h.queues[id]? = some q ∧ h'.queues[id]? = some q' ∧ (id ≠ k → q = q') := by
  cases hq : h.queues[id]? with
  | none =>
    refine .inl ⟨rfl, ?_⟩
    rw [List.getElem?_eq_none_iff] at hq ⊢
    exact hh.length ▸ hq
  | some q =>
    have inside : id < h'.queues.length := hh.length ▸ (List.getElem?_eq_some_iff.1 hq).1
    have hq' : h'.queues[id]? = some h'.queues[id] := List.getElem?_eq_getElem inside
    refine .inr ⟨q, h'.queues[id], rfl, hq', fun hid => ?_⟩
    have same := hh.queues id hid
    rw [hq, hq'] at same
    exact Option.some.inj same

/-- Giving a session the same queue on both hubs, or any two queues if it is the one that is left
out. -/
theorem setQueue (hh : SameBut k h h') {id : SessionId} {q q' : EventQueue}
    (same : id ≠ k → q = q') : SameBut k (h.setQueue id q) (h'.setQueue id q') := by
  refine ⟨hh.store, hh.cache, hh.registry, hh.called, ?_, fun j hj => ?_⟩
  · simpa [Hub.setQueue] using hh.length
  · by_cases hid : id = j
    · subst hid
      rw [same hj]
      simp [Hub.setQueue, List.getElem?_set, hh.length]
    · simpa [Hub.setQueue, List.getElem?_set_ne hid] using hh.queues j hj

/-- What befalls the queue of `k` alone is no difference. -/
theorem setQueue_left (hh : SameBut k h h') (q : EventQueue) : SameBut k (h.setQueue k q) h' := by
  refine ⟨hh.store, hh.cache, hh.registry, hh.called, ?_, fun j hj => ?_⟩
  · simpa [Hub.setQueue] using hh.length
  · simpa [Hub.setQueue, List.getElem?_set_ne (Ne.symm hj)] using hh.queues j hj

/-- A queue is opened under the same number on both hubs. -/
theorem openQueue (hh : SameBut k h h') (capacity : Nat) :
    SameBut k (h.openQueue capacity).2 (h'.openQueue capacity).2 ∧
      (h.openQueue capacity).1 = (h'.openQueue capacity).1 := by
  unfold Hub.openQueue
  split
  · refine ⟨⟨hh.store, hh.cache, hh.registry, hh.called, ?_, fun j hj => ?_⟩, by rw [hh.length]⟩
    · simpa using hh.length
    · simp only [List.getElem?_append, hh.length, hh.queues j hj]
  · exact ⟨hh, rfl⟩

/-- A queue is closed on both hubs. -/
theorem closeQueue (hh : SameBut k h h') (id : SessionId) :
    SameBut k (h.closeQueue id) (h'.closeQueue id) := by
  unfold Hub.closeQueue
  rcases hh.queue? id with ⟨hq, hq'⟩ | ⟨q, q', hq, hq', same⟩
  · rw [hq, hq']
    exact hh
  · rw [hq, hq']
    exact hh.setQueue fun hid => by rw [same hid]

/-- A reader takes events on both hubs. -/
theorem take (hh : SameBut k h h') (id : SessionId) (most : Nat) :
    SameBut k (h.take id most).2 (h'.take id most).2 := by
  unfold Hub.take
  rcases hh.queue? id with ⟨hq, hq'⟩ | ⟨q, q', hq, hq', same⟩
  · rw [hq, hq']
    exact hh
  · rw [hq, hq']
    exact hh.setQueue fun hid => by rw [same hid]

/-- An event is offered on both hubs, and any other session answers it in the same way on both. -/
theorem offer (hh : SameBut k h h') (id : SessionId) (e : Event) :
    SameBut k (h.offer id e).2 (h'.offer id e).2 ∧
      (id ≠ k → (h.offer id e).1 = (h'.offer id e).1) := by
  unfold Hub.offer
  rcases hh.queue? id with ⟨hq, hq'⟩ | ⟨q, q', hq, hq', same⟩
  · rw [hq, hq']
    exact ⟨hh, fun _ => rfl⟩
  · rw [hq, hq']
    exact ⟨hh.setQueue fun hid => by rw [same hid], fun hid => by rw [same hid]⟩

/-- What the store is asked comes to the same on both hubs. -/
theorem guard {α : Type} (hh : SameBut k h h') (outages : Outages) (c : Call)
    (operation : Stored α × Store) :
    SameBut k (outages.guard c h operation).2 (outages.guard c h' operation).2 ∧
      (outages.guard c h operation).1 = (outages.guard c h' operation).1 := by
  unfold Outages.guard
  split
  · exact ⟨hh, rfl⟩
  · exact ⟨{ hh with store := rfl }, rfl⟩

end Hub.SameBut

/-- A call whose answer depends on the far end of the topic or the queue of one session. -/
def Call.tells (k : SessionId) : Call → Bool
  | .post _ => true
  | .offer id _ => decide (id = k)
  | _ => false

/-- **No other part of a hub can tell**, nor can the answer to any other call. -/
theorem Hub.SameBut.perform {k : SessionId} {h h' : Hub} (hh : SameBut k h h') (c : Call)
    (outages : Outages) :
    SameBut k (c.perform outages h).2 (c.perform outages h').2 ∧
      (c.tells k = false → (c.perform outages h).1 = (c.perform outages h').1) := by
  cases c with
  | cached subscriber => exact ⟨hh, fun _ => by simp only [Call.perform, hh.cache]⟩
  | remember subscriber found =>
    exact ⟨{ hh with cache := by simp only [Call.perform, hh.cache] }, fun _ => rfl⟩
  | openQueue capacity =>
    obtain ⟨after, same⟩ := hh.openQueue capacity
    exact ⟨after, fun _ => same⟩
  | closeQueue id => exact ⟨hh.closeQueue id, fun _ => rfl⟩
  | registerClient address id =>
    simp only [Call.perform, hh.registry]
    exact ⟨{ hh with registry := rfl }, fun _ => trivial⟩
  | registerNode id =>
    exact ⟨{ hh with registry := by simp only [Call.perform, hh.registry] }, fun _ => rfl⟩
  | unregister id =>
    exact ⟨{ hh with registry := by simp only [Call.perform, hh.registry] }, fun _ => rfl⟩
  | clientsFor addresses => exact ⟨hh, fun _ => by simp only [Call.perform, hh.registry]⟩
  | nodes => exact ⟨hh, fun _ => by simp only [Call.perform, hh.registry]⟩
  | offer id e =>
    obtain ⟨after, same⟩ := hh.offer id e
    exact ⟨after, fun hid => same (of_decide_eq_false hid)⟩
  | post m => exact ⟨{ hh with }, by rintro ⟨⟩⟩
  | wake => exact ⟨{ hh with called := rfl }, fun _ => rfl⟩
  | note => exact ⟨hh, fun _ => rfl⟩
  | _ =>
    simp only [Call.perform, hh.store]
    obtain ⟨after, same⟩ := hh.guard outages _ _
    exact ⟨after, fun _ => same⟩

/-- Hubs that differ in little are alike. -/
def Likeness.but (k : SessionId) : Likeness where
  like := Hub.SameBut k
  perform c outages _ _ hh := (hh.perform c outages).1

/-- A call that does not tell the session anything makes no difference between such hubs. -/
theorem Call.blind {k : SessionId} {c : Call} (hc : c.tells k = false) :
    (Likeness.but k).Blind c := fun outages _ _ hh =>
  (Hub.SameBut.perform hh c outages).2 hc

/-- A query tells no session anything. -/
theorem Call.not_tells_of_isQuery {k : SessionId} {c : Call} (hc : c.isQuery = true) :
    c.tells k = false := by
  cases c <;> first | rfl | cases hc

/-! ## Scripts that differ in little -/

/-- Whether something befalls the far end of the topic or one session. -/
def Stir.befalls (k : SessionId) : Stir → Bool
  | .read id _ => decide (id = k)
  | .leave id => decide (id = k)
  | .turn _ _ => true
  | .refit id _ => decide (id = k)

/-- The same calls fail, and the same happens but for what befalls the far end of the topic and one
session. The queue of that session may become any other, such as one with more room. -/
def Script.SameBut (k : SessionId) (script script' : Script) : Prop :=
  ∀ n, (script n).outages = (script' n).outages ∧
    (script n).stirs.filter (fun x => !x.befalls k) =
      (script' n).stirs.filter fun x => !x.befalls k

namespace Hub.SameBut

variable {k : SessionId} {h h' : Hub}

/-- What befalls the session on one hub only leaves the hubs alike but for it. -/
theorem stir_left (hh : SameBut k h h') {x : Stir} (hx : x.befalls k = true) :
    SameBut k (x.perform h) h' := by
  cases x with
  | turn => exact { hh with }
  | read id most =>
    obtain rfl : id = k := of_decide_eq_true hx
    show SameBut id (h.take id most).2 h'
    unfold Hub.take
    split
    · exact hh.setQueue_left _
    · exact hh
  | leave id =>
    obtain rfl : id = k := of_decide_eq_true hx
    show SameBut id (h.closeQueue id) h'
    unfold Hub.closeQueue
    split
    · exact hh.setQueue_left _
    · exact hh
  | refit id queue =>
    obtain rfl : id = k := of_decide_eq_true hx
    exact hh.setQueue_left queue

/-- What befalls another session on both hubs leaves them alike but for the first. -/
theorem stir (hh : SameBut k h h') {x : Stir} (hx : x.befalls k = false) :
    SameBut k (x.perform h) (x.perform h') := by
  cases x with
  | turn => cases hx
  | read id most => exact hh.take id most
  | leave id => exact hh.closeQueue id
  | refit id queue => exact hh.setQueue fun _ => rfl

/-- What befalls neither is all that counts. -/
theorem stirs (hh : SameBut k h h') (xs : List Stir) :
    SameBut k (xs.foldl Stir.perform h)
      ((xs.filter fun x => !x.befalls k).foldl Stir.perform h') := by
  induction xs generalizing h h' with
  | nil => exact hh
  | cons x rest ih =>
    cases hx : x.befalls k with
    | true =>
      rw [List.filter_cons_of_neg (by simp [hx])]
      exact ih (hh.stir_left hx)
    | false =>
      rw [List.filter_cons_of_pos (by simp [hx])]
      exact ih (hh.stir hx)

end Hub.SameBut

/-- Scripts that differ in what befalls the session run alike but for it. -/
theorem Script.SameBut.alike {k : SessionId} {script script' : Script}
    (hs : script.SameBut k script') : script.Alike (.but k) script' := by
  intro n
  obtain ⟨outages, same⟩ := hs n
  refine ⟨outages, fun {h h'} hh => ?_⟩
  have left := Hub.SameBut.stirs (Hub.SameBut.refl k h) (script n).stirs
  have right := Hub.SameBut.stirs (Hub.SameBut.symm hh) (script' n).stirs
  rw [← same] at right
  exact left.trans right.symm

/-! ## Programs that go on alike -/

/-- Calls that are about records make no difference between such hubs. -/
theorem Likeness.sparesRecords_but (k : SessionId) : (Likeness.but k).SparesRecords := fun c hc =>
  Call.blind (by cases c <;> first | rfl | cases hc)

namespace Outbox

/-- A pass over the outbox runs alike on such hubs if its entries are handled alike. -/
theorem matches_drainBy (k : SessionId) {handle : List FeedId → Program (List Bool)} (batch : Nat)
    (hm : ∀ ids, (handle ids).Matches (.but k) Eq (handle ids)) :
    (drainBy handle batch).Matches (.but k) Eq (drainBy handle batch) := by
  refine .blind (Call.blind rfl) fun answer => ?_
  match answer with
  | .error _ => exact .done rfl
  | .ok ids =>
    show Program.Matches _ _ ((handle ids).bind _) ((handle ids).bind _)
    refine Program.Matches.bind (hm ids) fun acknowledged acknowledged' same => ?_
    rw [same]
    exact .done rfl

end Outbox

namespace Retry

/-- A retry pass runs alike on such hubs if its feeds are handled alike. -/
theorem matches_passBy (k : SessionId)
    {handle : List Feed → Program (List (Except FeedError Processing.Report))} (cap batch : Nat)
    (hm : ∀ feeds, (handle feeds).Matches (.but k) (List.Forall₂ Processing.Agree)
      (handle feeds)) :
    (passBy handle cap batch).Matches (.but k) Eq (passBy handle cap batch) := by
  refine .blind (Call.blind rfl) fun answer => ?_
  match answer with
  | .error _ => exact .done rfl
  | .ok feeds =>
    show Program.Matches _ _ ((handle feeds).bind _) ((handle feeds).bind _)
    refine Program.Matches.bind (hm feeds) fun results results' agree => ?_
    have same : results.countP Processing.failed = results'.countP Processing.failed := by
      induction agree with
      | nil => rfl
      | cons first _ ih => rw [List.countP_cons, List.countP_cons, ih, first.failed_eq]
    dsimp only
    rw [same]
    exact .done rfl

end Retry

namespace Gateway

/-- A page is offered alike on such hubs. -/
theorem matches_offerPage {α : Type} (k id : SessionId) (event : α → Event)
    (answer : Except FeedError α) :
    (offerPage id event answer).Matches (.but k) Eq (offerPage id event answer) := by
  cases answer with
  | error => exact .done rfl
  | ok page => exact .anyhow fun _ _ => .done rfl

/-- A program that only asks runs alike on such hubs. -/
theorem matches_asking {α : Type} (k : SessionId) {p : Program α} (hp : p.Asking) :
    p.Matches (.but k) Eq p :=
  .of_only (hp.mono fun _ hc => Call.blind (Call.not_tells_of_isQuery hc))

/-- A snapshot is offered alike on such hubs. -/
theorem matches_snapshot (k : SessionId) (b : Bounds) (address : String) (id : SessionId) :
    (snapshot b address id).Matches (.but k) Eq (snapshot b address id) := by
  refine (matches_asking k (Query.asking_recipientPage ..)).bind fun normal _ same => ?_
  subst same
  refine (matches_offerPage k id _ normal).bind fun _ _ _ => ?_
  refine (matches_asking k (Query.asking_recipientPage ..)).bind fun spam _ same => ?_
  subst same
  exact matches_offerPage k id _ spam

/-- A session is admitted alike on such hubs. -/
theorem matches_connect (k : SessionId) (b : Bounds) (mode : SessionMode)
    (address : Option String) :
    (connect b mode address).Matches (.but k) Eq (connect b mode address) := by
  have refused : ∀ id e, (refuse id e).Matches (.but k) Eq (refuse id e) := fun id e =>
    .blind (Call.blind rfl) fun _ => .done rfl
  refine .blind (Call.blind rfl) fun answer => ?_
  cases answer with
  | none => exact .done rfl
  | some id =>
    cases mode with
    | delivery => exact .blind (Call.blind rfl) fun _ => .done rfl
    | client =>
      dsimp only
      cases Address.normalize (address.getD "") with
      | none => exact refused id _
      | some canonical =>
        refine .blind (Call.blind rfl) fun registered => ?_
        cases registered with
        | error e => exact refused id e
        | ok => exact (matches_snapshot k b _ id).bind fun _ _ _ => .done rfl

/-- What a session sends is taken in alike on such hubs. -/
theorem matches_receive (k : SessionId) (b : Bounds) (mode : SessionMode) (id : SessionId)
    (frame : Frame) :
    (receive b mode id frame).Matches (.but k) Eq (receive b mode id frame) := by
  match frame, mode with
  | .text content, .delivery =>
    show (answer b id content).Matches (.but k) Eq (answer b id content)
    unfold answer
    split
    · exact .done rfl
    · refine (matches_asking k (Query.asking_history ..)).bind fun page _ same => ?_
      subst same
      exact matches_offerPage k id _ page
  | .text _, .client => exact .done rfl
  | .binary, _ => exact .done rfl
  | .closed, _ => exact .blind (Call.blind rfl) fun _ => .done rfl

end Gateway

/-- When what comes of an act twice agrees: it is the same, except for the reports of what the
sessions and the far end have answered when a feed was processed. -/
def Act.Agree : (a : Act) → a.Result → a.Result → Prop
  | .process _ => Processing.Agree
  | _ => Eq

/-- **The program of every act goes on alike.** -/
theorem Act.matches_program (k : SessionId) (s : Settings) (order : List Nat) (a : Act) :
    (a.program s order).Matches (.but k) a.Agree (a.program s order) := by
  have added : ∀ d, (Intake.add d).Matches (.but k) Eq (Intake.add d) := fun d =>
    .of_only ((Intake.only_add d).mono fun c hc => Call.blind (by
      cases hc with
      | insert => rfl
      | index hc => cases hc <;> rfl))
  cases a with
  | submit x epoch =>
    show (Intake.submit x epoch).Matches (.but k) Eq (Intake.submit x epoch)
    unfold Intake.submit
    split
    · exact .done rfl
    · exact added _
  | add d => exact added d
  | drain =>
    refine Outbox.matches_drainBy k _ fun ids => ?_
    have each : List.Forall₂ (Program.Matches (.but k) Eq) (ids.map (Outbox.relayOne s.topic))
        (ids.map (Outbox.relayOne s.topic)) := by
      rw [List.forall₂_map_left_iff, List.forall₂_map_right_iff, List.forall₂_same]
      exact fun id _ => Outbox.matches_relayOne (Likeness.sparesRecords_but k) s.topic id
    refine (Program.Matches.interleave order each).mono fun as bs same => ?_
    rwa [List.forall₂_eq_eq_eq] at same
  | retry =>
    refine Retry.matches_passBy k _ _ fun feeds => Program.Matches.interleave order ?_
    rw [List.forall₂_map_left_iff, List.forall₂_map_right_iff, List.forall₂_same]
    exact fun f _ => Processing.matches_process (Likeness.sparesRecords_but k) s.topic f
  | process f => exact Processing.matches_process (Likeness.sparesRecords_but k) s.topic f
  | sweep now =>
    exact .of_only ((Expiry.only_sweep now).mono fun c hc => Call.blind (by cases hc <;> rfl))
  | connect mode address => exact Gateway.matches_connect k _ mode address
  | receive mode id frame => exact Gateway.matches_receive k _ mode id frame
  | disconnect id => exact .blind (Call.blind rfl) fun _ => .done rfl
  | feeds => exact Gateway.matches_asking k (Query.asking_recipientPage ..)
  | channelFeeds => exact Gateway.matches_asking k (Query.asking_recipientPage ..)
  | spamSenders => exact Gateway.matches_asking k (Query.asking_spamSenders ..)
  | senderFeeds => exact Gateway.matches_asking k (Query.asking_senderFeeds ..)
  | history => exact Gateway.matches_asking k (Query.asking_history ..)
  | search => exact Gateway.matches_asking k (Query.asking_search ..)

/-! ## Courses that differ in little -/

/-- The event that a session has taken into its queue. -/
def Turn.received? (id : SessionId) (t : Turn) : Option Event :=
  match t.call, t.answer with
  | .offer other e, .ok () => if other = id then some e else none
  | _, _ => none

/-- The same act with results that agree. -/
inductive Deed.Agree : Deed → Deed → Prop
  | mk (a : Act) (ts ts' : List Turn) {r r' : a.Result} (results : a.Agree r r') :
      Agree ⟨a, ts, r⟩ ⟨a, ts', r'⟩

/-- The same act, whose feeds take turns in the same order, and the same script but for what
befalls the far end of the topic and one session. -/
inductive Errand.SameBut (k : SessionId) : Errand → Errand → Prop
  | mk (a : Act) (order : List Nat) {script script' : Script} (hs : script.SameBut k script') :
      SameBut k ⟨a, order, script⟩ ⟨a, order, script'⟩

namespace Turn.Alike

variable {k : SessionId} {t t' : Turn}

/-- Turns that are alike fail alike. -/
theorem failed_iff (ht : t.Alike (.but k) t') : t.failed ↔ t'.failed := by
  obtain ⟨c, outages, hh⟩ := ht
  cases hc : c.tells k with
  | false =>
    have same := Call.blind hc outages hh
    unfold Turn.failed Call.turn
    dsimp only
    rw [same]
  | true => cases c <;> first | exact Iff.rfl | cases hc

/-- Turns that are alike hand over the same message. -/
theorem posted?_eq (ht : t.Alike (.but k) t') : t.posted? = t'.posted? := by
  obtain ⟨c, outages, hh⟩ := ht
  rfl

/-- Turns that are alike let any other session receive the same. -/
theorem received?_eq (ht : t.Alike (.but k) t') {id : SessionId} (hid : id ≠ k) :
    t.received? id = t'.received? id := by
  obtain ⟨c, outages, hh⟩ := ht
  cases c with
  | offer other e =>
    by_cases ho : other = id
    · have other' : (Call.offer other e).tells k = false := decide_eq_false (ho ▸ hid)
      have same := Call.blind other' outages hh
      unfold Turn.received? Call.turn
      dsimp only
      rw [same]
    · have silent : ∀ g, ((Call.offer other e).turn outages g).received? id = none := by
        intro g
        unfold Turn.received? Call.turn
        dsimp only
        split
        · next heq _ =>
          cases heq
          exact if_neg ho
        · rfl
      rw [silent, silent]
  | _ => rfl

end Turn.Alike

/-- **The failures of one session and of the far end of the topic are isolated.** Two courses of the
same errands start on hubs that differ at most in the far end of the topic and in the queue of one
session, and differ in nothing but what befalls these. Then the same calls are made on the same
stores, and fail or succeed together; every act has the same result, or at least succeeds or fails
with the same error; the same messages are handed over; and every other session takes the same
events and has the same queue in the end. -/
theorem Errand.isolated {s : Settings} {k : SessionId} {es es' : List Errand} {h h' : Hub}
    (hes : List.Forall₂ (Errand.SameBut k) es es') (hh : h.SameBut k h') :
    let done := deeds s es h
    let done' := deeds s es' h'
    done.2.store = done'.2.store ∧
    List.Forall₂ Deed.Agree done.1 done'.1 ∧
    List.Forall₂ (fun t t' => t.call = t'.call ∧ (t.failed ↔ t'.failed) ∧
        t.before.store = t'.before.store ∧ t.after.store = t'.after.store)
      (Deed.turnsOf done.1) (Deed.turnsOf done'.1) ∧
    (Deed.turnsOf done.1).filterMap Turn.posted? =
      (Deed.turnsOf done'.1).filterMap Turn.posted? ∧
    ∀ id, id ≠ k → done.2.queues[id]? = done'.2.queues[id]? ∧
      (Deed.turnsOf done.1).filterMap (Turn.received? id) =
        (Deed.turnsOf done'.1).filterMap (Turn.received? id) := by
  have alike : List.Forall₂ (Errand.Alike (.but k)) es es' := by
    refine hes.imp fun e e' he => ?_
    obtain ⟨a, order, hs⟩ := he
    exact .mk a order hs.alike
  obtain ⟨deeds, last⟩ := Errand.alike_deeds (s := s) (fun order a => a.matches_program k s order)
    alike (show (Likeness.but k).like h h' from hh)
  have turns := Deed.alike_turnsOf deeds
  refine ⟨last.store, deeds.imp fun d d' hd => ?_, turns.imp fun t t' ht => ?_,
    Turn.filterMap_eq_of_alike turns fun t t' ht => ht.posted?_eq, fun id hid =>
    ⟨last.queues id hid, Turn.filterMap_eq_of_alike turns fun t t' ht => ht.received?_eq hid⟩⟩
  · obtain ⟨a, -, agree⟩ := hd
    exact .mk a _ _ agree
  · refine ⟨?_, ht.failed_iff, ?_⟩
    all_goals obtain ⟨c, outages, hh⟩ := ht
    · rfl
    · exact ⟨hh.store, (Hub.SameBut.perform hh c outages).1.store⟩

/-- The topic is lost, and so is the reader of the first session. -/
def Script.lost : Script := .next ⟨[.turn false [], .leave 0], .none⟩ .calm

/-- Two clients connect, both are sent a notification, and it is processed by a script. -/
def Errand.forTwo (script : Script) : List Errand :=
  [⟨.connect .client (some "solana:alice"), [], .calm⟩,
    ⟨.connect .client (some "solana:bob"), [], .calm⟩,
    ⟨.add (.sample "p" ["solana:alice", "solana:bob"] 5), [], .calm⟩, ⟨.drain, [], script⟩]

/-- If the first client and the topic are lost, they miss the notification; the second client has
it, and the store is the same. -/
theorem Errand.isolated_of_lost :
    let done := deeds .sample (forTwo .calm) .sample
    let done' := deeds .sample (forTwo .lost) .sample
    done.2.queues.map (·.events.length) = [3, 3] ∧ done.2.sink.log.length = 1 ∧
      done'.2.queues.map (·.events.length) = [0, 3] ∧ done'.2.sink.log.length = 0 ∧
      done.2.store = done'.2.store ∧ done.2.queues[1]? = done'.2.queues[1]? := by
  have calm : Script.calm.SameBut 0 Script.calm := fun _ => ⟨rfl, rfl⟩
  have lost : Script.calm.SameBut 0 Script.lost := by
    rintro (_ | n)
    · exact ⟨rfl, rfl⟩
    · exact ⟨rfl, rfl⟩
  have hes : List.Forall₂ (Errand.SameBut 0) (forTwo .calm) (forTwo .lost) :=
    .cons (.mk _ _ calm) (.cons (.mk _ _ calm) (.cons (.mk _ _ calm)
      (.cons (.mk _ _ lost) .nil)))
  obtain ⟨store, -, -, -, others⟩ :=
    isolated (s := .sample) hes (Hub.SameBut.refl 0 .sample)
  exact ⟨by decide +kernel, by decide +kernel, by decide +kernel, by decide +kernel, store,
    (others 1 (by decide)).1⟩

end NotificationRelay
