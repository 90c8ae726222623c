/-
# Deleted feeds stay away

A sweep deletes a feed in one step and takes it out of the index in another, which may fail; and
its payload identifier is free again, so the same draft may come back as another feed. What is
left of the deleted feed is its identifier, in the index.

Nobody acts on it. A feed that is gone stays gone (`Standing.gone_of_chain`), and a store without
it does not answer with its identifier when a draft is stored (`Standing.insert_of_gone`), selects
it for no pass (`Turn.Genuine.selected_of_gone`) and draws no page from it
(`Turn.drawn_of_gone`); and what is not selected is not announced
(`Act.PerformedBy.silent_of_gone`). Together this is `Deed.Forgets`, and every deed after the
deletion forgets the feed (`Course.deletion_final`).
-/
import NotificationRelay.Proofs.Flow.Abandonment
import NotificationRelay.Proofs.Flow.Flight
import NotificationRelay.Proofs.Query.Drawing

namespace NotificationRelay

/-! ## A store from which a feed is gone -/

namespace Standing

variable {i : FeedId} {s : Store}

/-- A feed that is gone does not wait in the outbox. -/
theorem not_mem_outbox_of_gone (hx : s.standing i = gone) : i ∉ s.outbox := fun waits => by
  have out : s.outbox.contains i = false := congrArg Standing.waiting hx
  rw [List.contains_iff_mem.2 waits] at out
  cases out

/-- No stored feed has the identifier of one that is gone. -/
theorem id_ne_of_gone (hs : s.Coherent) (hx : s.standing i = gone) {f : Feed}
    (hf : f ∈ s.feeds) : f.id ≠ i := by
  rintro rfl
  have none : s.feed? f.id = none := congrArg Standing.feed hx
  rw [hs.feed?_eq_some_iff.2 ⟨hf, rfl⟩] at none
  cases none

/-- A draft is not answered with a feed that is gone: it is given to a feed that is stored, or
becomes a new one. -/
theorem insert_of_gone (hs : s.Coherent) (hx : s.standing i = gone) (d : Draft) :
    (s.insert d).1.id ≠ i := by
  unfold Store.insert
  cases hd : Table.get? d.payloadId s.payloadIds with
  | some j =>
    obtain ⟨f, hf, named⟩ := List.mem_map.1 ((hs.named _ _).1 hd)
    obtain ⟨-, rfl⟩ := Prod.mk.inj named
    exact id_ne_of_gone hs hx hf
  | none =>
    have given : i ≤ s.lastId := of_decide_eq_true (congrArg Standing.given hx)
    exact Ne.symm (Int.ne_of_lt (Int.lt_add_one_of_le given))

end Standing

/-- The feeds that a call has selected to be processed. -/
def Call.selected : (c : Call) → c.Answer → List FeedId
  | .pending _, .ok ids => ids
  | .candidates _ _, .ok feeds => feeds.map (·.id)
  | _, _ => []

/-- The feeds that were selected in a turn to be processed. -/
def Turn.selected (t : Turn) : List FeedId := t.call.selected t.answer

section Turns

variable {i : FeedId} {t : Turn}

/-- A feed that is gone is selected for neither pass. -/
theorem Turn.Genuine.selected_of_gone (ht : t.Genuine) (hs : t.before.store.Coherent)
    (hx : t.before.store.standing i = Standing.gone) : i ∉ t.selected := by
  obtain ⟨outages, ht⟩ := ht
  rw [congrArg Turn.selected ht]
  show i ∉ t.call.selected (t.call.perform outages t.before).1
  cases t.call with
  | pending limit =>
    simp only [Call.perform, Outages.guard]
    split
    · exact List.not_mem_nil
    · exact fun selected => Standing.not_mem_outbox_of_gone hx (List.mem_of_mem_take selected)
  | candidates cap limit =>
    simp only [Call.perform, Outages.guard]
    split
    · exact List.not_mem_nil
    · intro selected
      obtain ⟨f, hf, rfl⟩ := List.mem_map.1 selected
      exact Standing.id_ne_of_gone hs hx (Store.mem_candidates hf).1 rfl
  | _ => exact List.not_mem_nil

/-- Nothing is drawn from a feed that is gone, whatever the index lists. -/
theorem Turn.drawn_of_gone (hs : t.before.store.Coherent)
    (hx : t.before.store.standing i = Standing.gone) : i ∉ t.drawn.map (·.id) := by
  intro drawn
  obtain ⟨f, hf, rfl⟩ := List.mem_map.1 drawn
  exact Standing.id_ne_of_gone hs hx (Call.mem_feeds_of_mem_drawn hf) rfl

end Turns

/-! ## What each act has to do with a feed that is gone -/

/-- What comes of an act that stores a draft. -/
def Act.reported? : (a : Act) → a.Result → Option Inserted
  | .submit _ _, .ok r => some r
  | .add _, .ok r => some r
  | _, _ => none

/-- Adding a draft reports what the store has answered. -/
theorem Intake.reported_of_add {d : Draft} {h h' : Hub} {ts : List Turn} {r : Inserted}
    (run : (add d).Runs h ts (.ok r) h') : r = (h.store.insert d).1 := by
  obtain ⟨h₀, outages, us, o, rfl, rest⟩ := Program.Runs.of_call run
  simp only [Call.perform, Outages.guard, Hub.store_eq_of_outside o] at rest
  cases ho : outages (.insert d) with
  | some reason =>
    rw [ho] at rest
    cases rest.of_done.2.1
  | none =>
    rw [ho] at rest
    replace rest : (if (h.store.insert d).1.created then _ else _ :
      Program (Except FeedError Inserted)).Runs _ us (.ok r) h' := rest
    split at rest
    · obtain ⟨vs, ws, _, h₁, rfl, -, last⟩ := Program.Runs.of_bind rest
      exact Except.ok.inj last.of_done.2.1
    · exact Except.ok.inj rest.of_done.2.1

/-- While a feed is processed no other is announced. -/
theorem Processing.only_announces (t : Broadcast.Topic) {f : Feed} {i : FeedId} (hf : f.id ≠ i) :
    (process t f).Only fun c => c.announces i = false := by
  have own : ∀ c : Call, c.AnnouncesOnly f.id → c.announces i = false := fun c hc =>
    Bool.eq_false_iff.2 fun announced => hf (hc.own i announced)
  rw [process_eq]
  refine Program.Only.bind (Program.only_perform (decide_eq_false hf)) fun _ => ?_
  refine ((Dispatch.announcesOnly_dispatch f).mono own).bind fun dispatch => ?_
  refine ((Broadcast.only_publish t f).mono fun c hc => own c hc.announcesOnly).bind
    fun outcome => ?_
  refine only_settle f ?_ ?_ dispatch outcome <;> rfl

/-- **A feed that is gone is announced by no act** but one that is handed the feed itself. -/
theorem Act.PerformedBy.silent_of_gone {s : Settings} {a : Act} {α : Type} {p : Program α}
    {result : α} {h h' : Hub} {ts : List Turn} {i : FeedId} (hp : a.PerformedBy s p)
    (run : p.Runs h ts result h') (coherent : h.store.Coherent)
    (hx : h.store.standing i = Standing.gone) (other : ∀ f, a = .process f → f.id ≠ i) :
    ∀ u ∈ ts, u.call.announces i = false := by
  have quiet : a.processes = false → ∀ u ∈ ts, u.call.announces i = false := fun ha u hu => by
    refine Bool.eq_false_iff.2 fun announced => ?_
    have silent := run.only (hp.quiet ha) u hu
    rw [Call.delivers_of_announces announced] at silent
    cases silent
  cases a with
  | drain =>
    intro u hu
    refine Bool.eq_false_iff.2 fun announced => ?_
    exact Standing.not_mem_outbox_of_gone hx
      (Outbox.announced_of_drain hp coherent run hu announced).1
  | retry =>
    intro u hu
    refine Bool.eq_false_iff.2 fun announced => ?_
    obtain ⟨⟨f, hf, -⟩, -⟩ := Retry.announced_of_retry hp coherent run hu announced
    exact Standing.id_ne_of_gone coherent hx (Store.mem_of_feed? hf) (Store.id_of_feed? hf)
  | process f =>
    cases hp with
    | process => exact run.only (Processing.only_announces s.topic (other f rfl))
  | _ => exact quiet rfl

/-- A deed in which a feed does not occur: it is not reported, selected or announced, no page lists
it or counts it, and no sender is returned because of it. -/
structure Deed.Forgets (i : FeedId) (E : Deed) : Prop where
  reported : ∀ r, E.act.reported? E.result = some r → r.id ≠ i
  selected : ∀ t ∈ E.turns, i ∉ t.selected
  silent : ∀ t ∈ E.turns, t.call.announces i = false
  /-- Every page is cut from feeds among which the feed is not, and their number is the total. -/
  shown : ∀ x ∈ E.shown, i ∉ x.ids ∧ (x = ⟨[], 0⟩ ∨
    ∃ t ∈ E.turns, ∃ p, x = .page p t.drawn ∧ i ∉ t.drawn.map (·.id))
  /-- Every sender is that of a feed among which the feed is not. -/
  senders : ∀ xs, E.act.senders? E.result = some xs → xs = [] ∨
    ∃ t ∈ E.turns, xs = firstMentions (t.drawn.map (·.sender)) ∧ i ∉ t.drawn.map (·.id)

/-- A page of feeds lists some of them. -/
theorem Shown.ids_page_subset (p : Paging) (feeds : List Feed) :
    (Shown.page p feeds).ids ⊆ feeds.map (·.id) := by
  refine List.map_subset _ fun f hf => ?_
  exact List.mem_of_mem_drop (List.mem_of_mem_take hf)

/-- **A deed that finds a feed gone forgets it.** -/
theorem Deed.forgets_of_gone {s : Settings} {E : Deed} {p : Program E.act.Result} {h h' : Hub}
    {i : FeedId} (hp : E.act.PerformedBy s p) (run : p.Runs h E.turns E.result h')
    (coherent : h.store.Coherent) (hx : h.store.standing i = Standing.gone)
    (other : ∀ f, E.act = .process f → f.id ≠ i) : E.Forgets i := by
  have before : ∀ t ∈ E.turns, t.before.store.Coherent ∧
      t.before.store.standing i = Standing.gone := fun t ht => by
    obtain ⟨us, vs, split⟩ := List.append_of_mem ht
    have chain := run.chain
    rw [split] at chain
    obtain ⟨s', first, rest⟩ := chain.of_append
    obtain ⟨rfl, -⟩ := rest.of_cons
    exact ⟨run.coherent_before coherent ht, (Standing.gone_of_chain first coherent hx).1⟩
  have undrawn : ∀ t ∈ E.turns, i ∉ t.drawn.map (·.id) := fun t ht =>
    Turn.drawn_of_gone (before t ht).1 (before t ht).2
  refine ⟨fun r hr => ?_, fun t ht => ?_, hp.silent_of_gone run coherent hx other,
    fun x hshown => ?_, fun xs hxs => ?_⟩
  · have added : ∀ {d : Draft} {result : Except FeedError Inserted}, result = .ok r →
        (Intake.add d).Runs h E.turns result h' → r.id ≠ i := by
      rintro d _ rfl run
      rw [Intake.reported_of_add run]
      exact Standing.insert_of_gone coherent hx d
    obtain ⟨a, ts, result⟩ := E
    cases hp with
    | submit x epoch =>
      cases result with
      | error => cases hr
      | ok r' =>
        cases hr
        unfold Intake.submit at run
        split at run
        · cases run.of_done.2.1
        · exact added rfl run
    | add d =>
      cases result with
      | error => cases hr
      | ok r' =>
        cases hr
        exact added rfl run
    | _ => cases hr
  · exact (run.chain.genuine t ht).selected_of_gone (before t ht).1 (before t ht).2
  · rcases hp.shown_drawn run x hshown with rfl | ⟨t, ht, p, rfl⟩
    · exact ⟨List.not_mem_nil, .inl rfl⟩
    · exact ⟨fun listed => undrawn t ht (Shown.ids_page_subset p _ listed),
        .inr ⟨t, ht, p, rfl, undrawn t ht⟩⟩
  · refine (hp.senders_drawn run hxs).imp_right ?_
    rintro ⟨t, ht, same⟩
    exact ⟨t, ht, same, undrawn t ht⟩

/-! ## After the deletion -/

/-- **A deleted feed stays away.** In a course over a store that can come about, whatever fails in
it, let a feed be deleted by one of the deeds. Then every later deed forgets it, unless it is one
that processes this very feed by hand: no add reports it, no pass selects it, no live event or
message of it is sent, no page lists or counts it, and no sender is returned because of it. This
holds although the index may still list it and its payload identifier may have come back. -/
theorem Course.deletion_final {s : Settings} {start h : Hub} {past later : List Deed} {D : Deed}
    {i : FeedId} (c : Course s start (past ++ D :: later) h) (reachable : start.store.Reachable)
    (deleted : ∃ t ∈ D.turns, i ∈ t.deleted) :
    ∀ E ∈ later, (∀ f, E.act = .process f → f.id ≠ i) → E.Forgets i := by
  intro E hE other
  obtain ⟨t, ht, deleted⟩ := deleted
  obtain ⟨between, after, rfl⟩ := List.append_of_mem hE
  obtain ⟨h₁, first, rest⟩ := c.of_append
  obtain ⟨p, h₂, -, run, rest⟩ := rest.of_cons
  obtain ⟨h₃, mid, rest⟩ := rest.of_append
  obtain ⟨q, h₄, hq, finds, -⟩ := rest.of_cons
  have coherent₁ := (first.history.coherent reachable.coherent).1
  have coherent₂ := run.coherent coherent₁
  have coherent₃ := (mid.history.coherent coherent₂).1
  -- gone right after the call that has deleted it, and from then on
  have gone₂ : h₂.store.standing i = Standing.gone := by
    obtain ⟨us, vs, split⟩ := List.append_of_mem ht
    have chain := run.chain
    have genuine := chain.genuine t ht
    have found := run.coherent_before coherent₁ ht
    rw [split] at chain
    obtain ⟨s', -, chain⟩ := chain.of_append
    obtain ⟨-, chain⟩ := chain.of_cons
    exact (Standing.gone_of_chain chain (genuine.coherent found)
      (Standing.gone_of_deleted genuine found deleted)).1
  have gone₃ := (Standing.gone_of_chain mid.history.chain coherent₂ gone₂).1
  exact Deed.forgets_of_gone hq finds coherent₃ gone₃ other

/-- Feeds that are deleted cannot be taken out of the index. -/
def Outages.ofUnindexing : Outages
  | .unindex _ => some "unreachable"
  | _ => Option.none

/-- A feed was deleted and left behind in the index, and its draft has come back. -/
def Hub.comeback : Hub :=
  ((Intake.add (Draft.expiring "p" 30)).run .none ((Expiry.sweep 15).run .ofUnindexing
    ((Intake.add (Draft.expiring "p" 10)).run .none .sample).2).2).2

/-- The draft is stored as another feed, and a listing shows and counts that one alone, although the
index lists both. -/
theorem Course.deletion_final_of_comeback :
    Hub.comeback.store.indexed "solana:alice" false = [1, 2] ∧
      ∃ ts page, (⟨.feeds "solana:alice" false false ⟨1, 10⟩, ts, .ok page⟩ : Deed).Forgets 1 ∧
        page.shown = ⟨[2], 1⟩ := by
  have c : Course .sample .sample ([_] ++ _ :: [_, _]) _ :=
    .alone (.add (.expiring "p" 10)) .none (.alone (.sweep 15) .ofUnindexing
      (.alone (.add (.expiring "p" 30)) .none
        (.alone (.feeds "solana:alice" false false ⟨1, 10⟩) .none (.stop _))))
  have deleted : ∃ t ∈ (Expiry.sweep 15).turns .ofUnindexing
      ((Intake.add (Draft.expiring "p" 10)).run .none .sample).2, (1 : FeedId) ∈ t.deleted :=
    ⟨_, List.mem_cons_self, by decide +kernel⟩
  have forgotten := deletion_final c Store.reachable_empty deleted _
    (List.mem_cons_of_mem _ List.mem_cons_self) (by rintro f ⟨⟩)
  have listed : Hub.comeback.store.indexed "solana:alice" false = [1, 2] := by decide +kernel
  have answered : ((Query.feeds Settings.sample.query.maxPageSize "solana:alice" false false
      ⟨1, 10⟩).run .none Hub.comeback).1.toOption.map FeedPage.shown = some ⟨[2], 1⟩ := by
    decide +kernel
  change Deed.Forgets 1 ⟨.feeds "solana:alice" false false ⟨1, 10⟩, _,
    ((Query.feeds _ _ _ _ _).run .none Hub.comeback).1⟩ at forgotten
  cases hpage : ((Query.feeds Settings.sample.query.maxPageSize "solana:alice" false false
      ⟨1, 10⟩).run .none Hub.comeback).1 with
  | error e =>
    rw [hpage] at answered
    cases answered
  | ok page =>
    rw [hpage] at answered forgotten
    exact ⟨listed, _, page, forgotten, Option.some.inj answered⟩

end NotificationRelay
