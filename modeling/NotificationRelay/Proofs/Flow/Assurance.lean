/-
# What a pass over the outbox is sure to do

A pass is taken by itself here, whatever is done beside it. It asks for the waiting feeds and
handles each of them (`Outbox.goes_drainBy`); a feed that it acknowledges it has processed, or found
processed, or not found (`Outbox.goes_relayOne`).

Once it has begun to process a feed it goes on to tell every session that is connected under one of
its recipients by then: that is a promise that its programs make from the smallest one up
(`Processing.promises_process`, `Outbox.promises_drainBy`).
-/
import NotificationRelay.Proofs.Query.Drawing
import NotificationRelay.Proofs.Run.Promise

namespace NotificationRelay

/-! ## Which calls a pass has made -/

namespace Outbox

variable {t : Broadcast.Topic} {us : List Turn}

/-- An entry is loaded; then its feed is processed, or the entry is only acknowledged, the feed
being processed already or not there. -/
theorem goes_relayOne {i : FeedId} {b : Bool} (g : (relayOne t i).Goes us (.done b)) :
    ∃ outages h rest, us = (Call.load i).turn outages h :: rest ∧
      ((∃ n ∈ rest, n.call = .note i) ∨ (∀ u ∈ rest, u.call = .acknowledge i) ∧
        (¬ ((Call.load i).turn outages h).failed →
          ∀ f, h.store.feed? i = some f → f.processed = true)) := by
  rcases Program.Goes.of_call g with ⟨-, ended⟩ | ⟨outages, h, us, rfl, rest⟩
  · cases ended
  refine ⟨outages, h, us, rfl, ?_⟩
  have acknowledged : ∀ {us : List Turn}, (acknowledge i).Goes us (.done b) →
      ∀ u ∈ us, u.call = .acknowledge i := fun g => by
    have only : (acknowledge i).Only (· = .acknowledge i) :=
      Program.Only.bind_except (Program.only_perform rfl) (fun _ => trivial) fun _ => trivial
    exact (g.only only).1
  by_cases hf : ((Call.load i).turn outages h).failed
  · obtain ⟨reason, ho⟩ := Call.outage_of_failed _ outages h hf
    simp only [Call.perform, Outages.guard, ho] at rest
    obtain ⟨rfl, -⟩ := Program.Goes.of_done rest
    exact .inr ⟨fun _ hu => absurd hu List.not_mem_nil, fun healthy => absurd hf healthy⟩
  simp only [Call.perform, Outages.guard, Call.no_outage _ outages h rfl hf, readFrom] at rest
  cases found : h.store.feed? i with
  | none =>
    rw [found] at rest
    refine .inr ⟨acknowledged rest, fun _ _ hf => ?_⟩
    cases hf
  | some f =>
    rw [found] at rest
    replace rest : (if f.processed then acknowledge i else
      (Processing.process t f).bind fun _ => acknowledge i).Goes us (.done b) := rest
    split at rest
    · next done =>
      refine .inr ⟨acknowledged rest, fun _ g hg => ?_⟩
      obtain rfl := Option.some.inj hg
      exact done
    · obtain ⟨vs, ws, _, rfl, processing, -⟩ := Program.Goes.of_bind_done rest
      rw [Processing.process_eq] at processing
      obtain ⟨xs, ys, _, rfl, noting, -⟩ := Program.Goes.of_bind_done processing
      obtain ⟨outages', h', rfl, -⟩ := noting.of_perform
      refine .inl ⟨_, List.mem_append_left _ List.mem_cons_self, ?_⟩
      rw [← Store.id_of_feed? found]
      rfl

/-- A pass asks for the waiting feeds, and every other call of it is one of those that handle one
of these feeds. -/
theorem goes_drainBy {limit batch : Nat} {handle : List FeedId → Program (List Bool)}
    (sideBySide : ∀ ids, Program.Weave limit (ids.map (relayOne t)) (handle ids))
    {result : Stored Nat} (g : (drainBy handle batch).Goes us (.done result)) :
    ∃ outages h rest, us = (Call.pending batch).turn outages h :: rest ∧
      ∀ u ∈ rest, ∃ i ∈ h.store.outbox, ∃ vs b, (relayOne t i).Goes vs (.done b) ∧ vs ⊆ rest ∧
        u ∈ vs := by
  rcases Program.Goes.of_call g with ⟨-, ended⟩ | ⟨outages, h, us, rfl, rest⟩
  · cases ended
  refine ⟨outages, h, us, rfl, fun u hu => ?_⟩
  by_cases hf : ((Call.pending batch).turn outages h).failed
  · obtain ⟨reason, ho⟩ := Call.outage_of_failed _ outages h hf
    simp only [Call.perform, Outages.guard, ho] at rest
    obtain ⟨rfl, -⟩ := Program.Goes.of_done rest
    cases hu
  simp only [Call.perform, Outages.guard, Call.no_outage _ outages h rfl hf] at rest
  replace rest : ((handle (h.store.pending batch)).bind fun acknowledged =>
    .done (.ok (acknowledged.countP id))).Goes us (.done result) := rest
  obtain ⟨vs, ws, results, rfl, handling, last⟩ := Program.Goes.of_bind_done rest
  obtain ⟨rfl, -⟩ := last.of_done
  rw [List.append_nil] at hu ⊢
  obtain ⟨p, hp, xs, b, goes, sub, hux⟩ := (sideBySide _).exists_owner handling hu
  obtain ⟨i, hi, rfl⟩ := List.mem_map.1 hp
  exact ⟨i, List.mem_of_mem_take hi, xs, b, goes, sub, hux⟩

end Outbox

/-! ## Who is told -/

/-- A call that tells a session of a feed by a live event. -/
def Call.Tells (i : FeedId) (k : SessionId) (c : Call) : Prop :=
  ∃ e, c = .offer k e ∧ e.live? = some i

/-- A session is found whenever clients of its address are looked up. -/
def Hub.Finds (address : String) (k : SessionId) (h : Hub) : Prop :=
  ∀ addresses, address ∈ addresses → k ∈ h.registry.clientsFor addresses

/-- A feed has an address among its recipients, if it is there. -/
def Store.Addresses (i : FeedId) (address : String) (s : Store) : Prop :=
  ∀ f, s.feed? i = some f → address ∈ f.recipients

section Assurance

variable {address : String} {k : SessionId}

/-- A session that is found for a feed is told of it. -/
theorem Dispatch.certain_dispatch {f : Feed} (ha : address ∈ f.recipients) :
    (dispatch f f.enriched).Certain (Hub.Finds address k) (Call.Tells f.id k) := by
  refine .later fun outages h finds => .later fun outages' h' _ => ?_
  refine Program.Certain.bind (p := offerAll (h.registry.clientsFor f.recipients)
    (Event.forClient f f.enriched)) ?_ _
  exact (Program.Certain.forEach (finds f.recipients ha)
    (.now ⟨_, rfl, Event.live?_forClient f f.enriched⟩)).bind _

/-- **Whoever begins to process a feed tells every session that is found for it by then.** -/
theorem Processing.promises_process (t : Broadcast.Topic) {f : Feed}
    (ha : address ∈ f.recipients) (known : Hub → Prop) :
    (process t f).Promises known (Hub.Finds address k) (· = .note f.id)
      (Call.Tells f.id k) := by
  rw [process_eq]
  intro outages h _
  refine ⟨fun _ => (Dispatch.certain_dispatch ha).bind _, .of_only ?_⟩
  show ((Dispatch.dispatch f f.enriched).bind fun dispatch =>
    (Broadcast.publish t f f.enriched).bind (settle f dispatch)).Only _
  refine Program.Only.bind ((Dispatch.only_makes f).mono fun c hc => ?_) fun _ =>
    Program.Only.bind ((Broadcast.only_publish t f).mono fun c hc => ?_) fun outcome => ?_
  · cases hc <;> exact nofun
  · cases hc <;> exact nofun
  · exact only_settle f nofun nofun _ outcome

namespace Outbox

variable {i : FeedId}

/-- Handling any entry keeps the promise: if it is the one of the feed, the client is told. -/
theorem promises_relayOne (t : Broadcast.Topic) (j : FeedId) :
    (relayOne t j).Promises (fun h => h.store.Addresses i address) (Hub.Finds address k)
      (· = .note i) (Call.Tells i k) := by
  have acknowledging : (acknowledge j).Promises (fun h => h.store.Addresses i address)
      (Hub.Finds address k) (· = .note i) (Call.Tells i k) :=
    .of_only (Program.Only.bind_except (Program.only_perform nofun) (fun _ => trivial)
      fun _ => trivial)
  by_cases hj : j = i
  · subst hj
    intro outages h known
    refine ⟨nofun, ?_⟩
    show (Program.bind (.done (outages.guard (.load j) h (readFrom h.store
      (h.store.feed? j))).1) _).Promises _ _ _ _
    unfold Outages.guard
    split
    · trivial
    · cases found : h.store.feed? j with
      | none => exact acknowledging
      | some f =>
        show (if f.processed then acknowledge j else _ : Program Bool).Promises _ _ _ _
        split
        · exact acknowledging
        · refine Program.Promises.bind ?_ fun _ => acknowledging
          obtain rfl := Store.id_of_feed? found
          exact Processing.promises_process t (known f found) _
  · refine .of_only ((only_relayOne t j).mono fun c hc => ?_)
    rintro rfl
    cases hc with
    | passive hc => cases hc
    | processing hid hc =>
      cases hc with
      | note => exact hj hid.symm
      | passive hc => cases hc
      | broadcast hc => cases hc

/-- A pass tells every session that is found for a feed by the time the pass begins to process
it. -/
theorem promises_drainBy {t : Broadcast.Topic} {limit batch : Nat}
    {handle : List FeedId → Program (List Bool)}
    (sideBySide : ∀ ids, Program.Weave limit (ids.map (relayOne t)) (handle ids)) :
    (drainBy handle batch).Promises (fun h => h.store.Addresses i address)
      (Hub.Finds address k) (· = .note i) (Call.Tells i k) := by
  refine Program.Promises.bind (.of_only (Program.only_perform nofun)) fun answer => ?_
  match answer with
  | .error _ => trivial
  | .ok ids =>
    refine Program.Promises.bind (.weave (sideBySide ids) fun p hp => ?_) fun _ => trivial
    obtain ⟨j, -, rfl⟩ := List.mem_map.1 hp
    exact promises_relayOne t j

end Outbox

end Assurance

end NotificationRelay
