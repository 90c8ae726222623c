/-
# Refusals make no difference

While feeds are processed, only two kinds of call are answered by somebody else than the store and
the registry: sessions may refuse what they are offered, and the far end of the topic what is handed
to it. No program that processes feeds goes on differently for these answers. It makes the same
calls on any two hubs that are alike, as long as the store and the registry answer alike on them
(`Processing.matches_process`, `Outbox.matches_relayOne`).

Hubs with the same store and the same registry are alike in this sense (`Likeness.records`),
whatever readers do to their queues and whatever becomes of the far end. So where no call to the
store fails, two runs of such a program from hubs with the same records make the same calls and
leave the same records (`Program.Matches.healthy`).
-/
import NotificationRelay.Proofs.Run.Likeness
import NotificationRelay.Proofs.Session.Roster

namespace NotificationRelay

/-- A call that is answered from the store or from the registry, or not at all. -/
def Call.asksRecords : Call → Bool
  | .clientsFor _ => true
  | .nodes => true
  | .note _ => true
  | c => c.asksStore

/-- Hubs that are alike have stores and registries that answer alike. -/
def Likeness.SparesRecords (L : Likeness) : Prop := ∀ c, c.asksRecords = true → L.Blind c

/-! ## Programs that go on alike -/

section Alike

variable {L : Likeness} (spares : L.SparesRecords) (t : Broadcast.Topic) (f : Feed)

namespace Broadcast

include spares in
/-- A feed is skipped, held back or handed over whatever the far end answers. -/
theorem matches_publish (payload : Payload) :
    (publish t f payload).Matches L
      (fun o o' => o = .watermarkUnavailable ↔ o' = .watermarkUnavailable)
      (publish t f payload) := by
  unfold publish
  split
  · refine .blind (spares _ rfl) fun answer => ?_
    match answer with
    | .error _ => exact .done Iff.rfl
    | .ok false => exact .done Iff.rfl
    | .ok true =>
      refine .anyhow fun accepted accepted' => ?_
      cases accepted <;> cases accepted' <;> exact .done (by decide)
  · exact .done Iff.rfl

end Broadcast

namespace Dispatch

/-- An event is offered on any hub by the same calls. -/
theorem matches_offerAll (L : Likeness) (ids : List SessionId) (e : Event) :
    (offerAll ids e).Matches L (fun _ _ => True) (offerAll ids e) := by
  have offers : (Program.forEach ids fun id => Program.perform (.offer id e)).Matches L
      (List.Forall₂ fun _ _ => True)
      (Program.forEach ids fun id => Program.perform (.offer id e)) :=
    .forEach fun _ _ => .anyhow fun _ _ => .done trivial
  exact offers.bind fun _ _ _ => .done trivial

include spares in
/-- The same sessions are offered the same, whatever they answer. -/
theorem matches_dispatch (payload : Payload) :
    (dispatch f payload).Matches L (fun _ _ => True) (dispatch f payload) := by
  refine .blind (spares _ rfl) fun clients => .blind (spares _ rfl) fun nodes => ?_
  refine (matches_offerAll L clients _).bind fun _ _ _ => ?_
  exact (matches_offerAll L nodes _).bind fun _ _ _ => .done trivial

end Dispatch

namespace Processing

/-- Both succeed, with whatever reports, or both fail for the same reason. -/
def Agree : Except FeedError Report → Except FeedError Report → Prop
  | .ok _, .ok _ => True
  | .error e, .error e' => e = e'
  | _, _ => False

include spares in
/-- A feed is completed or counted whatever the sessions and the far end answer. -/
theorem matches_process : (process t f).Matches L Agree (process t f) := by
  refine .blind (spares _ rfl) fun _ => ?_
  refine (Dispatch.matches_dispatch spares f f.enriched).bind fun report report' _ => ?_
  refine (Broadcast.matches_publish spares t f f.enriched).bind fun outcome outcome' same => ?_
  have left : ∀ (o : Broadcast.Outcome), o = .watermarkUnavailable ∨ o ≠ .watermarkUnavailable :=
    fun o => Decidable.em _
  rcases left outcome with lost | reached
  · rw [if_pos lost, if_pos (same.1 lost)]
    exact .blind (spares _ rfl) fun _ => .done rfl
  · rw [if_neg reached, if_neg (mt same.2 reached)]
    refine .blind (spares _ rfl) fun answer => ?_
    match answer with
    | .ok () => exact .done trivial
    | .error e => exact .blind (spares _ rfl) fun _ => .done rfl

/-- Results that agree report a failure or none. -/
theorem Agree.failed_eq {r r' : Except FeedError Report} (h : Agree r r') :
    failed r = failed r' := by
  cases r <;> cases r' <;> first | rfl | cases h

end Processing

namespace Outbox

variable (id : FeedId)

include spares

/-- An entry is taken out on hubs that are alike with the same result. -/
theorem matches_acknowledge : (acknowledge id).Matches L Eq (acknowledge id) := by
  refine .blind (spares _ rfl) fun answer => ?_
  cases answer <;> exact .done rfl

/-- An entry is handled on hubs that are alike with the same result. -/
theorem matches_relayOne : (relayOne t id).Matches L Eq (relayOne t id) := by
  refine .blind (spares _ rfl) fun answer => ?_
  match answer with
  | .error _ => exact .done rfl
  | .ok none => exact matches_acknowledge spares id
  | .ok (some f) =>
    show Program.Matches _ _ (if f.processed then acknowledge id else _)
      (if f.processed then acknowledge id else _)
    split
    · exact matches_acknowledge spares id
    · exact (Processing.matches_process spares t f).bind fun _ _ _ =>
        matches_acknowledge spares id

end Outbox

end Alike

/-! ## Hubs with the same records -/

/-- Hubs with the same store and the same registry. -/
structure Hub.SameRecords (h h' : Hub) : Prop where
  store : h.store = h'.store
  registry : h.registry = h'.registry

namespace Hub.SameRecords

variable {h h' : Hub}

theorem refl (h : Hub) : h.SameRecords h := ⟨rfl, rfl⟩

/-- The records are out of reach from outside. -/
theorem of_outside {g g' : Hub} (hh : h.SameRecords h')
    (out : Relation.ReflTransGen Hub.Outside h g) (out' : Relation.ReflTransGen Hub.Outside h' g') :
    g.SameRecords g' where
  store := by rw [Hub.store_eq_of_outside out, Hub.store_eq_of_outside out', hh.store]
  registry := by
    rw [Hub.registry_eq_of_outside out, Hub.registry_eq_of_outside out', hh.registry]

/-- What the store is asked comes to the same on hubs with the same records. -/
theorem guard {α : Type} (hh : h.SameRecords h') (outages : Outages) (c : Call)
    (operation : Stored α × Store) :
    SameRecords (outages.guard c h operation).2 (outages.guard c h' operation).2 ∧
      (outages.guard c h operation).1 = (outages.guard c h' operation).1 := by
  unfold Outages.guard
  split
  · exact ⟨hh, rfl⟩
  · exact ⟨⟨rfl, hh.registry⟩, rfl⟩

/-- Neither records nor answers from them depend on anything else. -/
theorem perform (hh : h.SameRecords h') (c : Call) (outages : Outages) :
    SameRecords (c.perform outages h).2 (c.perform outages h').2 ∧
      (c.asksRecords = true → (c.perform outages h).1 = (c.perform outages h').1) := by
  have seated : c.reseats = false → (c.perform outages h).2.registry =
      (c.perform outages h').2.registry := fun hc => by
    rw [Call.registry_perform hc, Call.registry_perform hc, hh.registry]
  have elsewhere : c.asksRecords = false →
      c.asksRecords = true → (c.perform outages h).1 = (c.perform outages h').1 := fun hc asks =>
    absurd (hc.symm.trans asks) Bool.false_ne_true
  cases c with
  | cached | remember | post | wake => exact ⟨⟨hh.store, hh.registry⟩, elsewhere rfl⟩
  | note => exact ⟨hh, fun _ => rfl⟩
  | clientsFor addresses => exact ⟨hh, fun _ => by simp only [Call.perform, hh.registry]⟩
  | nodes => exact ⟨hh, fun _ => by simp only [Call.perform, hh.registry]⟩
  | registerClient | registerNode | unregister =>
    refine ⟨⟨hh.store, ?_⟩, elsewhere rfl⟩
    simp only [Call.perform, hh.registry]
  | openQueue capacity =>
    exact ⟨⟨by simp only [Call.perform, Hub.store_openQueue, hh.store], seated rfl⟩,
      elsewhere rfl⟩
  | closeQueue id =>
    exact ⟨⟨by simp only [Call.perform, Hub.store_closeQueue, hh.store], seated rfl⟩,
      elsewhere rfl⟩
  | offer id e =>
    exact ⟨⟨by simp only [Call.perform, Hub.store_offer, hh.store], seated rfl⟩,
      elsewhere rfl⟩
  | _ =>
    simp only [Call.perform, hh.store]
    obtain ⟨after, same⟩ := hh.guard outages _ _
    exact ⟨after, fun _ => same⟩

end Hub.SameRecords

/-- Hubs with the same records are alike. -/
def Likeness.records : Likeness where
  like := Hub.SameRecords
  perform c outages _ _ hh := (hh.perform c outages).1

/-- Calls that are not about records make no difference to them. -/
theorem Likeness.sparesRecords_records : Likeness.records.SparesRecords :=
  fun c hc outages _ _ hh => (Hub.SameRecords.perform hh c outages).2 hc

/-- A call that does not fail goes as it does without outages. -/
theorem Call.perform_of_not_failed {c : Call} {outages : Outages} {h : Hub}
    (reached : ¬ (c.turn outages h).failed) : c.perform outages h = c.perform .none h := by
  cases c with
  | cached | remember | openQueue | closeQueue | registerClient | registerNode | unregister
  | clientsFor | nodes | offer | post | wake | note => rfl
  | _ => simp only [perform, Outages.guard, no_outage _ outages h rfl reached, Outages.none]

/-- **Where nothing fails, the records alone decide.** Runs of programs that match, on hubs with the
same records, make the same calls and leave the same records. -/
theorem Program.Matches.healthy {α β : Type} {R : α → β → Prop} {p : Program α} {q : Program β}
    (hm : p.Matches .records R q) {h h' g g' : Hub} {ts us : List Turn} {a : α} {b : β}
    (hh : h.SameRecords h') (run : p.Runs h ts a g) (run' : q.Runs h' us b g')
    (reached : ∀ t ∈ ts, ¬ t.failed) (reached' : ∀ u ∈ us, ¬ u.failed) :
    ts.map (·.call) = us.map (·.call) ∧ R a b ∧ g.SameRecords g' := by
  induction hm generalizing h h' ts us with
  | done hr =>
    obtain ⟨rfl, rfl, out⟩ := run.of_done
    obtain ⟨rfl, rfl, out'⟩ := run'.of_done
    exact ⟨rfl, hr, hh.of_outside out out'⟩
  | @call c _ _ _ ih =>
    obtain ⟨h₁, outages, ts, out, rfl, rest⟩ := run.of_call
    obtain ⟨h₁', outages', us, out', rfl, rest'⟩ := run'.of_call
    have found := hh.of_outside out out'
    rw [Call.perform_of_not_failed (reached _ List.mem_cons_self)] at rest
    rw [Call.perform_of_not_failed (reached' _ List.mem_cons_self)] at rest'
    obtain ⟨calls, agree, last⟩ := ih .none h₁ h₁' found (found.perform c .none).1 rest rest'
      (fun t ht => reached t (List.mem_cons_of_mem _ ht))
      fun u hu => reached' u (List.mem_cons_of_mem _ hu)
    refine ⟨?_, agree, last⟩
    rw [List.map_cons, List.map_cons, calls]
    rfl

end NotificationRelay
