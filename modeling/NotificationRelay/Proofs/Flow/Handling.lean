/-
# Handling an entry when nothing fails

Where no call to the store fails, an entry of the outbox is handled by a fixed series of calls
if its feed has not been processed yet and the watermark admits its epoch: the feed is loaded and
noted, offered to everybody whom the registry finds for it (`Dispatch.calls`), let through, handed
over and marked as processed (`Processing.calls`), and taken out of the outbox
(`Outbox.calls_of_relayOne`). Sessions and the far end of the topic may refuse what they like.
`Store.handled` is what becomes of the store.
-/
import NotificationRelay.Proofs.Broadcast.Order
import NotificationRelay.Proofs.Session.Roster

namespace NotificationRelay

/-- The feed that a call has marked as processed. -/
def Call.completed? : (c : Call) → c.Answer → Option FeedId
  | .complete i _, .ok () => some i
  | _, _ => none

/-- The feeds that were marked as processed in turns, in order. -/
def Turn.completed (ts : List Turn) : List FeedId :=
  ts.filterMap fun t => t.call.completed? t.answer

theorem Turn.completed_append (ts us : List Turn) :
    completed (ts ++ us) = completed ts ++ completed us :=
  List.filterMap_append

/-- Only a call that is meant to marks a feed as processed. -/
theorem Turn.completed_eq_nil {ts : List Turn} (silent : ∀ t ∈ ts, ∀ i p, t.call ≠ .complete i p) :
    completed ts = [] := by
  refine List.filterMap_eq_nil_iff.2 fun t ht => ?_
  have other := silent t ht
  obtain ⟨before, call, answer, after⟩ := t
  cases call with
  | complete i p => exact absurd rfl (other i p)
  | _ => rfl

/-- A program that is not meant to marks no feed as processed. -/
theorem Program.Runs.completed_eq_nil {α : Type} {p : Program α} {h h' : Hub} {ts : List Turn}
    {a : α} {sort : Call → Prop} (r : p.Runs h ts a h') (hp : p.Only sort)
    (silent : ∀ i payload, ¬ sort (.complete i payload)) : Turn.completed ts = [] :=
  Turn.completed_eq_nil fun t ht i payload hc => silent i payload (hc ▸ r.only hp t ht)

/-! ## What becomes of the store -/

namespace Store

variable (s : Store)

/-- The watermarks are all that moves when a watermark does. -/
theorem advance_snd (key : String) (value : Int) :
    ∃ watermarks, (s.advance key value).2 = { s with watermarks := watermarks } := by
  unfold advance setWatermark
  split
  · split <;> exact ⟨_, rfl⟩
  · exact ⟨_, rfl⟩

/-- The store after a feed has been let through, marked as processed and taken out of the
outbox. -/
def handled (f : Feed) : Store :=
  ((s.advance Broadcast.watermarkKey f.epoch).2.complete f.id f.enriched).2.acknowledge f.id

variable (f : Feed)

/-- When an entry has been handled its feed is marked as processed. -/
theorem feeds_handled : (s.handled f).feeds =
    s.feeds.map fun g => if g.id = f.id then g.completed f.enriched else g := by
  obtain ⟨_, advanced⟩ := s.advance_snd Broadcast.watermarkKey f.epoch
  rw [handled, complete, update_snd, advanced]
  rfl

/-- When an entry has been handled it is out of the outbox. -/
theorem outbox_handled : (s.handled f).outbox = s.outbox.filter fun n => decide (n ≠ f.id) := by
  obtain ⟨_, advanced⟩ := s.advance_snd Broadcast.watermarkKey f.epoch
  rw [handled, complete, update_snd, advanced]
  rfl

/-- Handling an entry gives no identifier. -/
theorem lastId_handled : (s.handled f).lastId = s.lastId := by
  obtain ⟨_, advanced⟩ := s.advance_snd Broadcast.watermarkKey f.epoch
  rw [handled, complete, update_snd, advanced]
  rfl

/-- When a feed has been let through the watermark is at its epoch. -/
theorem mark_handled (admits : s.Admits f.epoch) : (s.handled f).mark = some f.epoch := by
  have passed := s.mark_advance_of_passed f.epoch ((s.advance_fst_iff f.epoch).2 admits)
  rw [handled, complete, update_snd]
  exact passed

/-- Handling an entry keeps the store coherent. -/
theorem Coherent.handled {s : Store} (hs : s.Coherent) (f : Feed) : (s.handled f).Coherent :=
  ((hs.advance _ _).complete _ _).acknowledge _

end Store

/-! ## Which calls are made -/

section Calls

variable {t : Broadcast.Topic} {f : Feed} {h h' : Hub} {ts : List Turn}

namespace Dispatch

/-- The calls by which sessions are told of a feed. -/
def calls (r : Registry) (f : Feed) (payload : Payload) : List Call :=
  .clientsFor f.recipients :: .nodes ::
    ((r.clientsFor f.recipients).map (fun k => .offer k (Event.forClient f payload)) ++
      r.nodes.map fun k => .offer k (Event.forNode f payload))

/-- An event is offered to one session after another. -/
theorem calls_of_offerAll {ids : List SessionId} {e : Event} {n : Nat}
    (r : (offerAll ids e).Runs h ts n h') :
    ts.map (·.call) = ids.map fun k => .offer k e := by
  obtain ⟨us, vs, _, _, rfl, offers, last⟩ := Program.Runs.of_bind r
  obtain ⟨rfl, -, -⟩ := last.of_done
  rw [List.append_nil]
  refine offers.calls_of_forEach fun k g us a g' one => ?_
  obtain ⟨g₀, outages, -, rfl, -, -⟩ := one.of_perform
  rfl

/-- Sessions are told of a feed as the registry has them. -/
theorem calls_of_dispatch {payload : Payload} {report : Report}
    (r : (dispatch f payload).Runs h ts report h') :
    ts.map (·.call) = calls h.registry f payload := by
  obtain ⟨h₁, outages₁, us, out₁, rfl, rest⟩ := Program.Runs.of_call r
  obtain ⟨h₂, outages₂, us, out₂, rfl, more⟩ := Program.Runs.of_call rest
  have found : (Call.perform outages₁ (.clientsFor f.recipients) h₁).1 =
      h.registry.clientsFor f.recipients := by
    rw [← Hub.registry_eq_of_outside out₁]
    rfl
  have nodes : (Call.perform outages₂ .nodes h₂).1 = h.registry.nodes := by
    rw [← Hub.registry_eq_of_outside out₁]
    exact congrArg Registry.nodes (Hub.registry_eq_of_outside out₂)
  rw [found, nodes] at more
  replace more : ((offerAll (h.registry.clientsFor f.recipients) _).bind _).Runs _ us _ h' := more
  obtain ⟨us₁, us, _, h₃, rfl, clients, more⟩ := more.of_bind
  replace more : ((offerAll h.registry.nodes _).bind _).Runs _ us _ h' := more
  obtain ⟨us₂, us, _, h₄, rfl, others, last⟩ := more.of_bind
  obtain ⟨rfl, -, -⟩ := last.of_done
  simp only [List.map_cons, List.map_append, calls_of_offerAll clients, calls_of_offerAll others,
    List.append_nil]
  rfl

end Dispatch

/-- A feed that the watermark admits is let through and handed over. -/
theorem Broadcast.calls_of_publish {payload : Payload} {outcome : Outcome}
    (r : (publish t f payload).Runs h ts outcome h') (on : t.enabled = true)
    (reached : ∀ u ∈ ts, ¬ u.failed) (admits : h.store.Admits f.epoch) :
    ts.map (·.call) = [.advance f.id f.epoch, .post (t.message f payload)] ∧
      outcome ≠ .watermarkUnavailable ∧
      h'.store = (h.store.advance watermarkKey f.epoch).2 := by
  unfold publish at r
  rw [if_pos on] at r
  obtain ⟨h₁, outages₁, us, out₁, rfl, rest⟩ := Program.Runs.of_call r
  have same := Hub.store_eq_of_outside out₁
  have asked := reached _ List.mem_cons_self
  have answer : (Call.perform outages₁ (.advance f.id f.epoch) h₁).1 = .ok true := by
    rw [Call.answer_advance asked, same, (h.store.advance_fst_iff f.epoch).2 admits]
  have moved := Call.store_perform_of_not_failed _ outages₁ h₁ asked
  rw [answer] at rest
  obtain ⟨h₂, outages₂, us, out₂, rfl, more⟩ := Program.Runs.of_call rest
  have still := Hub.store_eq_of_outside out₂
  cases accepted : (Call.perform outages₂ (.post (t.message f payload)) h₂).1 with
  | _ =>
    rw [accepted] at more
    obtain ⟨rfl, rfl, out₃⟩ := Program.Runs.of_done more
    refine ⟨rfl, nofun, (Hub.store_eq_of_outside out₃).trans ?_⟩
    rw [← same]
    exact still.trans moved

namespace Processing

/-- The calls by which a feed that the watermark admits is processed. -/
def calls (t : Broadcast.Topic) (r : Registry) (f : Feed) : List Call :=
  .note f.id :: (Dispatch.calls r f f.enriched ++
    [.advance f.id f.epoch, .post (t.message f f.enriched), .complete f.id f.enriched])

/-- **A feed that the watermark admits is processed** if it is stored and no call fails. -/
theorem calls_of_process {result : Except FeedError Report}
    (r : (process t f).Runs h ts result h') (on : t.enabled = true)
    (reached : ∀ u ∈ ts, ¬ u.failed) (there : (h.store.feed? f.id).isSome)
    (admits : h.store.Admits f.epoch) :
    ts.map (·.call) = calls t h.registry f ∧ Turn.completed ts = [f.id] ∧
      h'.store =
        ((h.store.advance Broadcast.watermarkKey f.epoch).2.complete f.id f.enriched).2 := by
  obtain ⟨h₀, outages₀, us, out₀, rfl, rest⟩ := Program.Runs.of_call r
  replace rest : ((Dispatch.dispatch f f.enriched).bind _).Runs h₀ us result h' := rest
  obtain ⟨us₁, us, _, h₁, rfl, dispatched, rest⟩ := rest.of_bind
  replace rest : ((Broadcast.publish t f f.enriched).bind _).Runs h₁ us result h' := rest
  obtain ⟨us₂, us, outcome, h₂, rfl, published, rest⟩ := rest.of_bind
  have passive := Dispatch.passive_dispatch f f.enriched
  have same : h₁.store = h.store :=
    (dispatched.store_of_passive passive).trans (Hub.store_eq_of_outside out₀)
  have told := Dispatch.calls_of_dispatch dispatched
  rw [Hub.registry_eq_of_outside out₀] at told
  obtain ⟨broadcast, available, advanced⟩ := Broadcast.calls_of_publish published on
    (fun u hu => reached u (by simp [hu])) (same ▸ admits)
  rw [same] at advanced
  replace rest : (if outcome = .watermarkUnavailable then _ else _ :
      Program (Except FeedError Report)).Runs h₂ us result h' := rest
  rw [if_neg available] at rest
  obtain ⟨h₃, outages₃, us, out₃, rfl, last⟩ := Program.Runs.of_call rest
  have found := Hub.store_eq_of_outside out₃
  have marked := reached ((Call.complete f.id f.enriched).turn outages₃ h₃) (by simp)
  have answer : (Call.perform outages₃ (.complete f.id f.enriched) h₃).1 = .ok () := by
    refine Call.answer_complete ?_ marked
    obtain ⟨_, moved⟩ := h.store.advance_snd Broadcast.watermarkKey f.epoch
    rw [found, advanced, moved]
    exact there
  have left := Call.store_perform_of_not_failed _ outages₃ h₃ marked
  rw [answer] at last
  obtain ⟨rfl, -, out₄⟩ := Program.Runs.of_done last
  refine ⟨?_, ?_, ?_⟩
  · simp only [List.map_cons, List.map_append, told, broadcast, List.map_nil]
    rfl
  · have silent₁ : Turn.completed us₁ = [] := dispatched.completed_eq_nil passive fun _ _ => nofun
    have silent₂ : Turn.completed us₂ = [] :=
      published.completed_eq_nil (Broadcast.only_publish t f) fun _ _ => nofun
    have first : Turn.completed [(Call.note f.id).turn outages₀ h₀] = [] := rfl
    have final : Turn.completed [(Call.complete f.id f.enriched).turn outages₃ h₃] = [f.id] := by
      simp only [Turn.completed, List.filterMap_cons, Call.turn, answer]
      rfl
    rw [← List.singleton_append, Turn.completed_append, Turn.completed_append,
      Turn.completed_append, first, silent₁, silent₂, final]
    rfl
  · rw [Hub.store_eq_of_outside out₄, left, found, advanced]
    rfl

end Processing

namespace Outbox

/-- The calls by which an entry is handled whose feed the watermark admits. -/
def calls (t : Broadcast.Topic) (r : Registry) (f : Feed) : List Call :=
  .load f.id :: (Processing.calls t r f ++ [.acknowledge f.id])

/-- **An entry whose feed waits to be processed is handled** if no call fails. -/
theorem calls_of_relayOne {b : Bool} (hf : h.store.feed? f.id = some f)
    (todo : f.processed = false) (r : (relayOne t f.id).Runs h ts b h') (on : t.enabled = true)
    (reached : ∀ u ∈ ts, ¬ u.failed) (admits : h.store.Admits f.epoch) :
    b = true ∧ ts.map (·.call) = calls t h.registry f ∧ Turn.completed ts = [f.id] ∧
      h'.store = h.store.handled f := by
  obtain ⟨h₀, outages₀, us, out₀, rfl, rest⟩ := Program.Runs.of_call r
  have loaded := reached _ List.mem_cons_self
  have answer : (Call.perform outages₀ (.load f.id) h₀).1 = .ok (some f) := by
    simp only [Call.perform, Outages.guard, Call.no_outage _ _ _ rfl loaded, readFrom,
      Hub.store_eq_of_outside out₀, hf]
  have same : (Call.perform outages₀ (.load f.id) h₀).2 = h₀ := by
    simp only [Call.perform, Outages.guard, Call.no_outage _ _ _ rfl loaded, readFrom]
  rw [answer, same] at rest
  replace rest : (if f.processed then acknowledge f.id else _ : Program Bool).Runs h₀ us b h' :=
    rest
  rw [if_neg (by rw [todo]; exact Bool.false_ne_true)] at rest
  replace rest : ((Processing.process t f).bind _).Runs h₀ us b h' := rest
  obtain ⟨us, vs, _, h₁, rfl, processed, rest⟩ := rest.of_bind
  have store := Hub.store_eq_of_outside out₀
  obtain ⟨made, completed, left⟩ := Processing.calls_of_process processed on
    (fun u hu => reached u (by simp [hu])) (by rw [store, hf]; rfl) (store ▸ admits)
  rw [Hub.registry_eq_of_outside out₀] at made
  rw [store] at left
  obtain ⟨h₂, outages₂, ws, out₂, rfl, last⟩ := Program.Runs.of_call rest
  have taken := reached ((Call.acknowledge f.id).turn outages₂ h₂) (by simp)
  have removed := Call.store_perform_of_not_failed _ outages₂ h₂ taken
  have out : (Call.perform outages₂ (.acknowledge f.id) h₂).1 = .ok () := by
    simp only [Call.perform, Outages.guard, Call.no_outage _ _ _ rfl taken]
  rw [out] at last
  obtain ⟨rfl, rfl, out₃⟩ := Program.Runs.of_done last
  refine ⟨rfl, ?_, ?_, ?_⟩
  · simp only [List.map_cons, List.map_append, made, List.map_nil]
    rfl
  · have first : Turn.completed [(Call.load f.id).turn outages₀ h₀] = [] := rfl
    have final : Turn.completed [(Call.acknowledge f.id).turn outages₂ h₂] = [] := rfl
    rw [← List.singleton_append, Turn.completed_append, Turn.completed_append, first, completed,
      final]
    rfl
  · rw [Hub.store_eq_of_outside out₃, removed, Hub.store_eq_of_outside out₂, left]
    rfl

end Outbox

end Calls

end NotificationRelay
