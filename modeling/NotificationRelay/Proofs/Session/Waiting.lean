/-
# What waits for a session

The queue of a session takes what the session is offered, oldest first, while it is open and has
room. Over any errands two things are kept. No call takes a queue away, changes its capacity or
puts more into it than that (`Hub.KeepsQueues`). And what goes into the queue comes out at the other
end in the same order (`Hub.Passage`): what was waiting and what has been taken in since is what
the reader has taken, followed by what was left when the queue was closed, followed by what is
waiting now. Both are said of one call or one thing that happens outside first and put together
from there, to `Course.queues_kept` and `Errand.passage_deeds`.
-/
import NotificationRelay.Proofs.Run.Script
import NotificationRelay.Proofs.Session.Binding

namespace NotificationRelay

/-! ## What sessions are offered -/

/-- The event that a call offers to a session. -/
def Call.offeredTo? (k : SessionId) : Call → Option Event
  | .offer j e => if j = k then some e else none
  | _ => none

/-- The events that a session is offered in turns, in order. -/
def Turn.offersTo (k : SessionId) (ts : List Turn) : List Event :=
  ts.filterMap fun t => t.call.offeredTo? k

theorem Turn.offersTo_append (k : SessionId) (ts us : List Turn) :
    offersTo k (ts ++ us) = offersTo k ts ++ offersTo k us :=
  List.filterMap_append

/-! ## Queues of a hub -/

/-- An event goes behind the others if the queue is open and not full, and nowhere otherwise. -/
theorem EventQueue.events_offer (q : EventQueue) (e : Event) : (q.offer e).2.events = q.events ++
    if (!q.closed && decide (q.events.length < q.capacity)) = true then [e] else [] := by
  unfold offer
  by_cases closed : q.closed = true
  · simp [closed]
  · by_cases room : q.events.length < q.capacity <;> simp [closed, room]

namespace Hub

variable {k : SessionId} {h h' h'' : Hub}

/-- What waits for the reader of a session. -/
def waiting (k : SessionId) (h : Hub) : List Event := (h.queues[k]?.map (·.events)).getD []

/-- Whether a session takes an event: it has a queue, which is open and not full. -/
def hasRoom (k : SessionId) (h : Hub) : Bool :=
  match h.queues[k]? with
  | some q => !q.closed && decide (q.events.length < q.capacity)
  | none => false

/-- The queue of a session is closed, and nothing waits in it. -/
def Shut (k : SessionId) (h : Hub) : Prop :=
  ∃ q, h.queues[k]? = some q ∧ q.closed = true ∧ q.events = []

/-- What waits for a session is in its queue. -/
theorem waiting_of_some {q : EventQueue} (hq : h.queues[k]? = some q) : h.waiting k = q.events := by
  rw [waiting, hq]
  rfl

/-- Nothing waits for a session without a queue. -/
theorem waiting_of_none (hq : h.queues[k]? = none) : h.waiting k = [] := by
  rw [waiting, hq]
  rfl

/-- A queue that is shut has no room. -/
theorem not_hasRoom_of_shut (shut : h.Shut k) : h.hasRoom k = false := by
  obtain ⟨q, hq, closed, -⟩ := shut
  rw [hasRoom, hq]
  simp [closed]

/-- A session has the queue that it was given. -/
theorem queue?_setQueue {q : EventQueue} (hq : h.queues[k]? = some q) (q' : EventQueue) :
    (h.setQueue k q').queues[k]? = some q' :=
  List.getElem?_set_self (List.getElem?_eq_some_iff.1 hq).1

/-- Giving a session a queue leaves those of others alone. -/
theorem queue?_setQueue_of_ne {j : SessionId} (hj : j ≠ k) (q : EventQueue) :
    (h.setQueue j q).queues[k]? = h.queues[k]? :=
  List.getElem?_set_ne hj

/-- Reading from one queue leaves the others alone. -/
theorem queue?_take_of_ne {j : SessionId} (hj : j ≠ k) (most : Nat) :
    (h.take j most).2.queues[k]? = h.queues[k]? := by
  unfold take
  split
  · exact queue?_setQueue_of_ne hj _
  · rfl

/-- Closing one queue leaves the others alone. -/
theorem queue?_closeQueue_of_ne {j : SessionId} (hj : j ≠ k) :
    (h.closeQueue j).queues[k]? = h.queues[k]? := by
  unfold closeQueue
  split
  · exact queue?_setQueue_of_ne hj _
  · rfl

/-- An offer to one session leaves the queues of others alone. -/
theorem queue?_offer_of_ne {j : SessionId} (hj : j ≠ k) (e : Event) :
    (h.offer j e).2.queues[k]? = h.queues[k]? := by
  unfold offer
  split
  · exact queue?_setQueue_of_ne hj _
  · rfl

/-! ## Bounds -/

/-- Queues stay, each with its capacity, and hold no more than that if they did not before. -/
structure KeepsQueues (h h' : Hub) : Prop where
  capacity : ∀ (k : SessionId) (q : EventQueue), h.queues[k]? = some q →
    ∃ q', h'.queues[k]? = some q' ∧ q'.capacity = q.capacity
  bounded : (∀ q ∈ h.queues, q.events.length ≤ q.capacity) →
    ∀ q ∈ h'.queues, q.events.length ≤ q.capacity

namespace KeepsQueues

theorem of_same (same : h'.queues = h.queues) : KeepsQueues h h' := by
  refine ⟨fun k q hq => ⟨q, ?_, rfl⟩, ?_⟩
  · rwa [same]
  · rw [same]
    exact id

theorem trans (first : KeepsQueues h h') (rest : KeepsQueues h' h'') : KeepsQueues h h'' := by
  refine ⟨fun k q hq => ?_, rest.bounded ∘ first.bounded⟩
  obtain ⟨q', hq', same⟩ := first.capacity k q hq
  obtain ⟨q'', hq'', same'⟩ := rest.capacity k q' hq'
  exact ⟨q'', hq'', same'.trans same⟩

/-- A queue may be replaced by one of the same capacity that is not too full. -/
theorem setQueue {q q' : EventQueue} (hq : h.queues[k]? = some q)
    (capacity : q'.capacity = q.capacity)
    (bounded : q.events.length ≤ q.capacity → q'.events.length ≤ q'.capacity) :
    KeepsQueues h (h.setQueue k q') := by
  refine ⟨fun j p hp => ?_, fun within p hp => ?_⟩
  · by_cases hj : k = j
    · subst hj
      obtain rfl := Option.some.inj (hq.symm.trans hp)
      exact ⟨q', queue?_setQueue hq q', capacity⟩
    · exact ⟨p, (queue?_setQueue_of_ne hj q').trans hp, rfl⟩
  · rcases List.mem_or_eq_of_mem_set hp with hp | rfl
    · exact within p hp
    · exact bounded (within q (List.mem_of_getElem? hq))

/-- A reader who takes events keeps the queues. -/
theorem take (h : Hub) (k : SessionId) (most : Nat) : KeepsQueues h (h.take k most).2 := by
  unfold Hub.take
  split
  · next q hq =>
    refine setQueue hq rfl fun within => ?_
    exact Nat.le_trans (List.length_drop ▸ Nat.sub_le _ _) within
  · exact of_same rfl

/-- Closing a queue keeps the queues. -/
theorem closeQueue (h : Hub) (k : SessionId) : KeepsQueues h (h.closeQueue k) := by
  unfold Hub.closeQueue
  split
  · next q hq => exact setQueue hq rfl fun _ => Nat.zero_le _
  · exact of_same rfl

/-- An offer keeps the queues, for it is refused by a full one. -/
theorem offer (h : Hub) (k : SessionId) (e : Event) : KeepsQueues h (h.offer k e).2 := by
  unfold Hub.offer
  split
  · next q hq =>
    refine setQueue hq ?_ fun within => ?_
    · unfold EventQueue.offer
      split
      · rfl
      · split <;> rfl
    · unfold EventQueue.offer
      split
      · exact within
      · split
        · next room =>
          rw [List.length_append]
          exact room
        · exact within
  · exact of_same rfl

/-- Opening a queue keeps those that are there. -/
theorem openQueue (h : Hub) (capacity : Nat) : KeepsQueues h (h.openQueue capacity).2 := by
  unfold Hub.openQueue
  split
  · next queue opened =>
    refine ⟨fun k q hq => ⟨q, ?_, rfl⟩, fun within q hq => ?_⟩
    · exact (List.getElem?_append_left (List.getElem?_eq_some_iff.1 hq).1).trans hq
    · rcases List.mem_append.1 hq with hq | hq
      · exact within q hq
      · obtain rfl := List.mem_singleton.1 hq
        unfold EventQueue.open? at opened
        split at opened
        · cases opened
        · obtain rfl := Option.some.inj opened
          exact Nat.zero_le _
  · exact of_same rfl

/-- What happens outside keeps the queues. -/
theorem outside (o : h.Outside h') : KeepsQueues h h' := by
  cases o with
  | read k most => exact take h k most
  | leave k => exact closeQueue h k
  | turn => exact of_same rfl

end KeepsQueues
end Hub

/-- **Every call keeps queues** within their capacities. -/
theorem Call.keepsQueues_perform (c : Call) (outages : Outages) (h : Hub) :
    h.KeepsQueues (c.perform outages h).2 := by
  cases c with
  | openQueue capacity => exact .openQueue h capacity
  | closeQueue k => exact .closeQueue h k
  | offer k e => exact .offer h k e
  | cached | remember | registerClient | registerNode | unregister | clientsFor | nodes | post
  | wake | note => exact .of_same rfl
  | _ => exact .of_same (Call.sessions_perform rfl outages h).2

/-- So does a run, from its start to any of its calls and from there to its end. -/
theorem Program.Runs.queues_kept {α : Type} {p : Program α} {h h' : Hub} {ts : List Turn} {a : α}
    (r : p.Runs h ts a h') : h.KeepsQueues h' ∧ ∀ t ∈ ts, h.KeepsQueues t.before ∧
      t.before.KeepsQueues t.after ∧ t.after.KeepsQueues h' := by
  induction r with
  | done => exact ⟨.of_same rfl, fun _ ht => nomatch ht⟩
  | @call outages c next h h' ts a _ ih =>
    obtain ⟨last, turns⟩ := ih
    have first := c.keepsQueues_perform outages h
    refine ⟨first.trans last, fun t ht => ?_⟩
    rcases List.mem_cons.1 ht with rfl | ht
    · exact ⟨.of_same rfl, first, last⟩
    · obtain ⟨before, here, after⟩ := turns t ht
      exact ⟨first.trans before, here, after⟩
  | outside o _ ih =>
    obtain ⟨last, turns⟩ := ih
    have first := Hub.KeepsQueues.outside o
    exact ⟨first.trans last, fun t ht =>
      ⟨first.trans (turns t ht).1, (turns t ht).2⟩⟩

/-- **So does a course.** -/
theorem Course.queues_kept {s : Settings} {h h' : Hub} {ds : List Deed} (c : Course s h ds h') :
    h.KeepsQueues h' ∧ ∀ t ∈ Deed.turnsOf ds, h.KeepsQueues t.before ∧
      t.before.KeepsQueues t.after ∧ t.after.KeepsQueues h' := by
  induction c with
  | stop => exact ⟨.of_same rfl, fun _ ht => nomatch ht⟩
  | outside o _ ih =>
    obtain ⟨last, turns⟩ := ih
    have first := Hub.KeepsQueues.outside o
    exact ⟨first.trans last, fun t ht => ⟨first.trans (turns t ht).1, (turns t ht).2⟩⟩
  | deed hp run _ ih =>
    obtain ⟨last, later⟩ := ih
    obtain ⟨first, turns⟩ := run.queues_kept
    refine ⟨first.trans last, fun t ht => ?_⟩
    rcases List.mem_append.1 ht with ht | ht
    · obtain ⟨before, here, after⟩ := turns t ht
      exact ⟨before, here, after.trans last⟩
    · exact ⟨first.trans (later t ht).1, (later t ht).2⟩

/-! ## What comes out of a queue -/

/-- What a session has taken in, taken out and lost on the way from one hub to another. What was
waiting and what it has taken in is what it has taken out and lost and what is waiting now, in this
order; a queue that is shut stays shut, and it is shut when something is lost. -/
structure Hub.Passage (k : SessionId) (h : Hub) (taken left accepted : List Event) (h' : Hub) :
    Prop where
  balance : h.waiting k ++ accepted = taken ++ left ++ h'.waiting k
  still : h.Shut k → taken = [] ∧ left = [] ∧ accepted = [] ∧ h'.Shut k
  lost : left ≠ [] → h'.Shut k

namespace Hub.Passage

variable {k : SessionId} {h h' h'' : Hub} {taken left accepted more less new : List Event}

theorem of_same (same : h'.queues[k]? = h.queues[k]?) : Passage k h [] [] [] h' := by
  refine ⟨?_, fun shut => ⟨rfl, rfl, rfl, ?_⟩, fun lost => absurd rfl lost⟩
  · rw [List.append_nil, waiting, waiting, same]
    rfl
  · unfold Shut
    rwa [same]

theorem trans (first : Passage k h taken left accepted h')
    (rest : Passage k h' more less new h'') :
    Passage k h (taken ++ more) (left ++ less) (accepted ++ new) h'' := by
  refine ⟨?_, fun shut => ?_, fun lost => ?_⟩
  · -- whoever has lost something takes nothing more
    have swap : left ++ more = more ++ left := by
      by_cases lost : left = []
      · rw [lost, List.append_nil]
        rfl
      · rw [(rest.still (first.lost lost)).1, List.append_nil]
        rfl
    calc h.waiting k ++ (accepted ++ new)
        = taken ++ left ++ (h'.waiting k ++ new) := by
          rw [← List.append_assoc, first.balance, List.append_assoc]
      _ = taken ++ (left ++ more) ++ less ++ h''.waiting k := by
          rw [rest.balance]
          simp only [List.append_assoc]
      _ = taken ++ more ++ (left ++ less) ++ h''.waiting k := by
          rw [swap]
          simp only [List.append_assoc]
  · obtain ⟨rfl, rfl, rfl, shut⟩ := first.still shut
    exact rest.still shut
  · by_cases early : left = []
    · subst early
      exact rest.lost lost
    · exact (rest.still (first.lost early)).2.2.2

/-- A reader takes the oldest events. -/
theorem take (h : Hub) (k : SessionId) (most : Nat) :
    Passage k h (h.take k most).1 [] [] (h.take k most).2 := by
  unfold Hub.take
  cases hq : h.queues[k]? with
  | none => exact of_same rfl
  | some q =>
    have after := queue?_setQueue hq (q.take most).2
    refine ⟨?_, ?_, fun lost => absurd rfl lost⟩
    · rw [waiting_of_some hq, waiting_of_some after, List.append_nil, List.append_nil]
      exact (List.take_append_drop most q.events).symm
    · rintro ⟨p, hp, closed, empty⟩
      obtain rfl := Option.some.inj (hq.symm.trans hp)
      refine ⟨?_, rfl, rfl, _, after, closed, ?_⟩
      · show q.events.take most = []
        rw [empty, List.take_nil]
      · show q.events.drop most = []
        rw [empty, List.drop_nil]

/-- What waits in a queue that is closed is lost. -/
theorem closeQueue (h : Hub) (k : SessionId) :
    Passage k h [] (h.waiting k) [] (h.closeQueue k) := by
  unfold Hub.closeQueue
  cases hq : h.queues[k]? with
  | none =>
    rw [waiting_of_none hq]
    exact of_same rfl
  | some q =>
    have after := queue?_setQueue hq q.close
    refine ⟨?_, ?_, fun _ => ⟨_, after, rfl, rfl⟩⟩
    · rw [waiting_of_some after]
      rfl
    · rintro ⟨p, hp, closed, empty⟩
      obtain rfl := Option.some.inj (hq.symm.trans hp)
      rw [waiting_of_some hq]
      exact ⟨rfl, empty, rfl, _, after, rfl, rfl⟩

/-- What is offered waits behind everything else, if there is room. -/
theorem offer (h : Hub) (k : SessionId) (e : Event) :
    Passage k h [] [] (if h.hasRoom k then [e] else []) (h.offer k e).2 := by
  unfold Hub.offer
  cases hq : h.queues[k]? with
  | none =>
    rw [hasRoom, hq]
    exact of_same rfl
  | some q =>
    have after := queue?_setQueue hq (q.offer e).2
    refine ⟨?_, fun shut => ?_, fun lost => absurd rfl lost⟩
    · rw [waiting_of_some hq, waiting_of_some after, hasRoom, hq, EventQueue.events_offer]
      rfl
    · rw [not_hasRoom_of_shut shut]
      obtain ⟨p, hp, closed, empty⟩ := shut
      obtain rfl := Option.some.inj (hq.symm.trans hp)
      refine ⟨rfl, rfl, rfl, _, after, ?_, ?_⟩ <;> unfold EventQueue.offer <;> rw [if_pos closed]
      · exact closed
      · exact empty

/-- A queue that is opened is empty. -/
theorem openQueue (h : Hub) (k : SessionId) (capacity : Nat) :
    Passage k h [] [] [] (h.openQueue capacity).2 := by
  unfold Hub.openQueue
  split
  · next queue opened =>
    have empty : queue.events = [] := by
      unfold EventQueue.open? at opened
      split at opened
      · cases opened
      · obtain rfl := Option.some.inj opened
        rfl
    cases hq : h.queues[k]? with
    | some q =>
      exact of_same (List.getElem?_append_left (List.getElem?_eq_some_iff.1 hq).1)
    | none =>
      refine ⟨?_, ?_, fun lost => absurd rfl lost⟩
      · rw [waiting_of_none hq, waiting, List.getElem?_append_right
          (List.getElem?_eq_none_iff.1 hq), List.getElem?_singleton]
        split
        · exact empty.symm
        · rfl
      · rintro ⟨q, hq', -⟩
        rw [hq] at hq'
        cases hq'
  · exact of_same rfl

end Hub.Passage

/-! ## Over errands -/

/-- What the reader of a session takes when something happens outside. -/
def Stir.taken (k : SessionId) (h : Hub) : Stir → List Event
  | .read j most => if j = k then (h.take k most).1 else []
  | _ => []

/-- What is lost to a session because its reader goes away. -/
def Stir.left (k : SessionId) (h : Hub) : Stir → List Event
  | .leave j => if j = k then h.waiting k else []
  | _ => []

/-- What is lost to a session because its queue is given up. -/
def Call.left (k : SessionId) (h : Hub) : Call → List Event
  | .closeQueue j => if j = k then h.waiting k else []
  | _ => []

/-- What passes through a queue when something happens outside is what is taken out of it or lost
from it. -/
theorem Stir.passage {x : Stir} (hx : x.isOutside = true) (k : SessionId) (h : Hub) :
    h.Passage k (x.taken k h) (x.left k h) [] (x.perform h) := by
  cases x with
  | read j most =>
    by_cases hj : j = k
    · subst hj
      rw [taken, if_pos rfl]
      exact .take h j most
    · rw [taken, if_neg hj]
      exact .of_same (Hub.queue?_take_of_ne hj most)
  | leave j =>
    by_cases hj : j = k
    · subst hj
      rw [left, if_pos rfl]
      exact .closeQueue h j
    · rw [left, if_neg hj]
      exact .of_same (Hub.queue?_closeQueue_of_ne hj)
  | turn => exact .of_same rfl
  | refit => cases hx

/-- A call gives a session what it offers, if there is room. -/
theorem Call.passage (c : Call) (outages : Outages) (k : SessionId) (h : Hub) :
    h.Passage k [] (c.left k h) (if h.hasRoom k then (c.offeredTo? k).toList else [])
      (c.perform outages h).2 := by
  have silent : c.offeredTo? k = none → c.left k h = [] →
      (c.perform outages h).2.queues[k]? = h.queues[k]? → h.Passage k [] (c.left k h)
        (if h.hasRoom k then (c.offeredTo? k).toList else []) (c.perform outages h).2 := by
    intro unoffered unlost same
    rw [unoffered, unlost, Option.toList_none, ite_self]
    exact .of_same same
  cases c with
  | openQueue capacity =>
    rw [show Call.offeredTo? k (.openQueue capacity) = none from rfl, Option.toList_none, ite_self]
    exact .openQueue h k capacity
  | closeQueue j =>
    by_cases hj : j = k
    · subst hj
      rw [left, if_pos rfl, show Call.offeredTo? j (.closeQueue j) = none from rfl,
        Option.toList_none, ite_self]
      exact .closeQueue h j
    · exact silent rfl (if_neg hj) (Hub.queue?_closeQueue_of_ne hj)
  | offer j e =>
    by_cases hj : j = k
    · subst hj
      rw [offeredTo?, if_pos rfl, Option.toList_some]
      exact .offer h j e
    · exact silent (if_neg hj) rfl (Hub.queue?_offer_of_ne hj e)
  | cached | remember | registerClient | registerNode | unregister | clientsFor | nodes | post
  | wake | note => exact silent rfl rfl rfl
  | _ =>
    refine silent rfl rfl ?_
    rw [(Call.sessions_perform rfl outages h).2]

/-- What is seen of things that happen outside one after another. -/
def Stir.gather (look : Hub → Stir → List Event) : List Stir → Hub → List Event
  | [], _ => []
  | x :: rest, h => look h x ++ gather look rest (x.perform h)

/-- What is seen outside and in the calls while a program is played. -/
def Program.gather {α : Type} (look : Hub → Stir → List Event) (watch : Hub → Call → List Event) :
    Program α → Script → Hub → List Event
  | .done _, script, h => Stir.gather look (script 0).stirs h
  | .call c next, script, h =>
    let found := (script 0).stir h
    let made := c.perform (script 0).outages found
    Stir.gather look (script 0).stirs h ++
      (watch found c ++ (next made.1).gather look watch script.later made.2)

/-- What is seen outside and in the calls while errands are done. -/
def Errand.gather (s : Settings) (look : Hub → Stir → List Event)
    (watch : Hub → Call → List Event) : List Errand → Hub → List Event
  | [], _ => []
  | e :: rest, h => (e.act.program s e.order).gather look watch e.script h ++
      gather s look watch rest (e.played s h).hub

/-- What the reader of a session takes while errands are done. -/
def Errand.taken (s : Settings) (k : SessionId) : List Errand → Hub → List Event :=
  gather s (Stir.taken k) fun _ _ => []

/-- What waits for a session when its queue is closed while errands are done, and is lost. -/
def Errand.left (s : Settings) (k : SessionId) : List Errand → Hub → List Event :=
  gather s (Stir.left k) (Call.left k)

/-- The events that a session takes into its queue in turns: those that it is offered while there is
room for them. -/
def Turn.acceptedBy (k : SessionId) (ts : List Turn) : List Event :=
  offersTo k (ts.filter fun t => t.before.hasRoom k)

namespace Turn

variable {k : SessionId} {t : Turn} {ts us : List Turn}

theorem acceptedBy_append : acceptedBy k (ts ++ us) = acceptedBy k ts ++ acceptedBy k us := by
  unfold acceptedBy
  rw [List.filter_append, offersTo_append]

/-- What a session accepts in a turn is what it is offered, if its queue has room. -/
theorem acceptedBy_cons : acceptedBy k (t :: ts) =
    (if t.before.hasRoom k then (t.call.offeredTo? k).toList else []) ++ acceptedBy k ts := by
  rw [← List.singleton_append, acceptedBy_append]
  congr 1
  unfold acceptedBy offersTo
  by_cases room : t.before.hasRoom k = true
  · cases hc : t.call.offeredTo? k <;> simp [room, hc]
  · simp [room]

end Turn

section Passages

variable (k : SessionId)

/-- What passes through a queue while several things happen outside, one after another. -/
theorem Stir.passage_foldl {xs : List Stir} (natural : ∀ x ∈ xs, x.isOutside = true) (h : Hub) :
    h.Passage k (gather (taken k) xs h) (gather (left k) xs h) [] (xs.foldl perform h) := by
  induction xs generalizing h with
  | nil => exact .of_same rfl
  | cons x rest ih =>
    obtain ⟨first, natural⟩ := List.forall_mem_cons.1 natural
    exact (x.passage first k h).trans (ih natural _)

/-- What passes through a queue while a program is played. -/
theorem Program.passage_play {α : Type} (p : Program α) {script : Script}
    (natural : ∀ n, (script n).Natural) (h : Hub) :
    h.Passage k (p.gather (Stir.taken k) (fun _ _ => []) script h)
      (p.gather (Stir.left k) (Call.left k) script h) (Turn.acceptedBy k (p.play script h).turns)
      (p.play script h).hub := by
  induction p generalizing script h with
  | done a => exact Stir.passage_foldl k (natural 0) h
  | call c next ih =>
    have before := Stir.passage_foldl k (natural 0) h
    have here := c.passage (script 0).outages k ((script 0).stir h)
    have after := ih (c.perform (script 0).outages ((script 0).stir h)).1
      (fun n => natural (n + 1)) (c.perform (script 0).outages ((script 0).stir h)).2
    have whole := before.trans (here.trans after)
    unfold Program.play Program.gather
    rw [Turn.acceptedBy_cons]
    exact whole

/-- **What goes into a queue comes out of it** in the same order, over any errands. -/
theorem Errand.passage_deeds (s : Settings) {es : List Errand}
    (natural : ∀ e ∈ es, ∀ n, (e.script n).Natural) (h : Hub) :
    h.Passage k (taken s k es h) (left s k es h)
      (Turn.acceptedBy k (Deed.turnsOf (deeds s es h).1)) (deeds s es h).2 := by
  induction es generalizing h with
  | nil => exact .of_same rfl
  | cons e rest ih =>
    obtain ⟨first, natural⟩ := List.forall_mem_cons.1 natural
    have here := (e.act.program s e.order).passage_play k first h
    have after := ih natural (e.played s h).hub
    have whole := here.trans after
    rw [← Turn.acceptedBy_append] at whole
    exact whole

end Passages

end NotificationRelay
