/-
# Spellings of an address

Two spellings of one address have the same canonical form (`Address.Respelled`), and a relay never
looks at more than that: a submission with other spellings is checked to the same end
(`Submission.Respelled.validate_eq`), and an act that is given an address in another spelling has
the same program (`Act.Respelled.program_heq`). So nothing that is done, answered or kept depends on
how addresses are spelled (`Errand.deeds_respelled`).

Several spellings of one address in one submission come to one recipient
(`Submission.recipients_of_validate`). The feed is filed once for it (`Intake.creates_of_add`), and
a client of this address is offered one live event whenever the feed is processed
(`Processing.offered_of_process`).
-/
import Mathlib.Data.List.Nodup
import NotificationRelay.Proofs.Address.NormalForm
import NotificationRelay.Proofs.Flow.Filing
import NotificationRelay.Proofs.Flow.Repetition
import NotificationRelay.Proofs.Flow.Telling
import NotificationRelay.Proofs.Run.Script

namespace NotificationRelay

/-! ## Addresses and submissions -/

/-- The same text, or another spelling of the same address. -/
def Address.Respelled (raw raw' : String) : Prop :=
  raw = raw' ∨ ∃ address, normalize raw = some address ∧ normalize raw' = some address

namespace Submission

variable {raws raws' : List String} {x x' : Submission}

/-- Addresses that are spelled in another way have the same canonical forms. -/
theorem canonicalForms_eq (h : List.Forall₂ Address.Respelled raws raws') :
    canonicalForms raws = canonicalForms raws' := by
  induction h with
  | nil => rfl
  | cons first _ ih =>
    unfold canonicalForms
    rcases first with rfl | ⟨address, ha, ha'⟩
    · rw [ih]
    · rw [ha, ha', ih]

/-- The same submission but for the spelling of its recipients. -/
structure Respelled (x x' : Submission) : Prop where
  recipients : List.Forall₂ Address.Respelled x.recipients x'.recipients
  others : x' = { x with recipients := x'.recipients }

/-- **The spelling of recipients makes no difference to a submission.** -/
theorem Respelled.validate_eq (h : x.Respelled x') (epoch : Int) :
    x'.validate epoch = x.validate epoch := by
  obtain ⟨recipients, others⟩ := h
  have same : canonicalRecipients x'.recipients = canonicalRecipients x.recipients := by
    unfold canonicalRecipients
    rw [canonicalForms_eq recipients]
  rw [others]
  unfold validate
  rw [same]

end Submission

/-! ## Acts -/

/-- The same act but for the spelling of the addresses that it is given. -/
inductive Act.Respelled : Act → Act → Prop
  | same (a : Act) : Respelled a a
  | submit {x x' : Submission} (hx : x.Respelled x') (epoch : Int) :
      Respelled (.submit x epoch) (.submit x' epoch)
  | connect (mode : SessionMode) {raw raw' : String} (h : Address.Respelled raw raw') :
      Respelled (.connect mode (some raw)) (.connect mode (some raw'))
  | feeds {raw raw' : String} (h : Address.Respelled raw raw') (isSpam includeHidden : Bool)
      (p : Paging) :
      Respelled (.feeds raw isSpam includeHidden p) (.feeds raw' isSpam includeHidden p)
  | channelFeeds {raw raw' : String} (h : Address.Respelled raw raw') (isSpam : Bool)
      (channel : String) (p : Paging) :
      Respelled (.channelFeeds raw isSpam channel p) (.channelFeeds raw' isSpam channel p)
  | spamSenders {raw raw' : String} (h : Address.Respelled raw raw') :
      Respelled (.spamSenders raw) (.spamSenders raw')
  | search (request : Query.SearchRequest) {raw' : String}
      (h : Address.Respelled request.subscriber raw') :
      Respelled (.search request) (.search { request with subscriber := raw' })

namespace Query

variable {raw raw' : String}

/-- A recipient is looked up under the same key, however it is spelled. -/
theorem recipientKey_eq (h : Address.Respelled raw raw') :
    recipientKey raw' = recipientKey raw := by
  rcases h with rfl | ⟨address, ha, ha'⟩
  · rfl
  · rw [recipientKey, recipientKey, ha, ha']

/-- A recipient is listed the same feeds, however it is spelled. -/
theorem recipientPage_eq (h : Address.Respelled raw raw') (bound : Nat) (isSpam : Bool)
    (listing : Listing) (p : Paging) :
    recipientPage bound raw' isSpam listing p = recipientPage bound raw isSpam listing p := by
  rw [recipientPage, recipientKey_eq h]
  rfl

/-- A recipient is listed the same senders of spam, however it is spelled. -/
theorem spamSenders_eq (h : Address.Respelled raw raw') : spamSenders raw' = spamSenders raw := by
  rw [spamSenders, recipientKey_eq h]
  rfl

/-- A search is the same, however its subscriber is spelled. -/
theorem search_eq {request : SearchRequest} (h : Address.Respelled request.subscriber raw')
    (bound : Nat) : search bound { request with subscriber := raw' } = search bound request := by
  refine search_congr ?_ ?_ ?_ ?_ ?_ bound
  · rw [senders, recipientKey_eq h]
    rfl
  all_goals rfl

end Query

/-- A session is admitted in the same way, however its address is spelled. -/
theorem Gateway.connect_eq {raw raw' : String} (h : Address.Respelled raw raw') (b : Bounds)
    (mode : SessionMode) : connect b mode (some raw') = connect b mode (some raw) := by
  rcases h with rfl | ⟨address, ha, ha'⟩
  · rfl
  · simp only [connect, Option.getD_some, ha, ha']

namespace Act.Respelled

variable {a a' : Act}

/-- An act has the same kind of result, however its addresses are spelled. -/
theorem result_eq (ha : a.Respelled a') : a'.Result = a.Result := by
  cases ha <;> rfl

/-- **Acts that differ in the spelling of addresses have the same programs.** -/
theorem program_heq (ha : a.Respelled a') (s : Settings) (order : List Nat) :
    HEq (a'.program s order) (a.program s order) := by
  cases ha with
  | same => rfl
  | submit hx epoch =>
    simp only [Act.program, Intake.submit, hx.validate_eq]
    rfl
  | connect mode h => exact heq_of_eq (Gateway.connect_eq h s.bounds mode)
  | feeds h => exact heq_of_eq (Query.recipientPage_eq h ..)
  | channelFeeds h => exact heq_of_eq (Query.recipientPage_eq h ..)
  | spamSenders h => exact heq_of_eq (Query.spamSenders_eq h)
  | search request h => exact heq_of_eq (Query.search_eq h _)

end Act.Respelled

/-- The same errand but for the spelling of the addresses that its act is given. -/
inductive Errand.Respelled : Errand → Errand → Prop
  | mk {a a' : Act} (ha : a.Respelled a') (order : List Nat) (script : Script) :
      Respelled ⟨a, order, script⟩ ⟨a', order, script⟩

/-- The same deed but for the spelling of the addresses that its act was given. -/
structure Deed.Respelled (d d' : Deed) : Prop where
  act : d.act.Respelled d'.act
  turns : d'.turns = d.turns
  result : HEq d'.result d.result

/-- The same program is played in the same way. -/
theorem Program.play_of_heq {α β : Type} {p : Program α} {q : Program β} (types : β = α)
    (same : HEq q p) (script : Script) (h : Hub) :
    (q.play script h).turns = (p.play script h).turns ∧
      HEq (q.play script h).result (p.play script h).result ∧
      (q.play script h).hub = (p.play script h).hub := by
  subst types
  cases same
  exact ⟨rfl, .rfl, rfl⟩

/-- **Errands that differ in the spelling of addresses come to the same**: to the same calls on the
same hubs, the same results and the same hub at the end. -/
theorem Errand.deeds_respelled (s : Settings) {es es' : List Errand}
    (hes : List.Forall₂ Respelled es es') (h : Hub) :
    List.Forall₂ Deed.Respelled (deeds s es h).1 (deeds s es' h).1 ∧
      (deeds s es' h).2 = (deeds s es h).2 := by
  induction hes generalizing h with
  | nil => exact ⟨.nil, rfl⟩
  | cons first _ ih =>
    obtain ⟨ha, order, script⟩ := first
    obtain ⟨turns, result, hub⟩ :=
      Program.play_of_heq ha.result_eq (ha.program_heq s order) script h
    obtain ⟨rest, last⟩ := ih ((Errand.mk _ order script).played s h).hub
    simp only [deeds]
    rw [show ((Errand.mk _ order script).played s h).hub = _ from hub]
    exact ⟨.cons ⟨ha, turns, result⟩ rest, last⟩

/-! ## Several spellings of one address -/

/-- A draft that becomes a new feed is filed once under each of its recipients. -/
theorem Intake.creates_of_add {d : Draft} {i : FeedId} {h h' : Hub} {ts : List Turn}
    (r : (add d).Runs h ts (.ok ⟨i, true⟩) h') :
    (i, d) ∈ Turn.created ts ∧ ts.map (·.call) =
      .insert d :: (d.recipients.map fun a => .append a i d.isSpam) ++ [.wake] := by
  obtain ⟨h₀, outages, us, -, rfl, rest⟩ := Program.Runs.of_call r
  cases answer : (Call.perform outages (.insert d) h₀).1 with
  | error e =>
    rw [answer] at rest
    cases (Program.Runs.of_done rest).2.1
  | ok inserted =>
    rw [answer] at rest
    replace rest : (if inserted.created then _ else _ :
      Program (Except FeedError Inserted)).Runs _ us (.ok ⟨i, true⟩) h' := rest
    split at rest
    · obtain ⟨us, vs, _, h₁, rfl, indexed, last⟩ := Program.Runs.of_bind rest
      obtain ⟨rfl, same, -⟩ := last.of_done
      obtain rfl := Except.ok.inj same
      refine ⟨List.mem_filterMap.2 ⟨_, List.mem_cons_self, ?_⟩, ?_⟩
      · simp only [Turn.created?, Call.turn, answer]
        rfl
      · rw [List.append_nil, List.map_cons, calls_of_index indexed]
        rfl
    · next old =>
      obtain rfl := Except.ok.inj (Program.Runs.of_done rest).2.1
      exact absurd rfl old

/-- A program that offers nothing of a feed to a session. -/
theorem Program.Runs.offered_eq_nil {α : Type} {p : Program α} {h h' : Hub} {ts : List Turn} {a : α}
    {i : FeedId} {k : SessionId} (r : p.Runs h ts a h')
    (hp : p.Only fun c => c.offered? i k = none) : offered i k ts = [] :=
  List.filterMap_eq_nil_iff.2 fun t ht => r.only hp t ht

/-- **A feed is offered as the registry has it** whenever it is processed, whatever fails. -/
theorem Processing.offered_of_process {t : Broadcast.Topic} {f : Feed} {h h' : Hub} {ts : List Turn}
    {result : Except FeedError Report} (r : (process t f).Runs h ts result h') (k : SessionId) :
    offered f.id k ts = f.sent h.registry k := by
  rw [process_eq] at r
  obtain ⟨us₀, vs, _, h₁, rfl, noted, rest⟩ := r.of_bind
  obtain ⟨us₁, vs, dispatch, h₂, rfl, dispatched, rest⟩ := rest.of_bind
  obtain ⟨us₂, us₃, outcome, h₃, rfl, published, settled⟩ := rest.of_bind
  have none₀ : offered f.id k us₀ = [] := noted.offered_eq_nil (Program.only_perform rfl)
  have none₂ : offered f.id k us₂ = [] :=
    published.offered_eq_nil ((Broadcast.only_publish t f).mono fun c hc => by cases hc <;> rfl)
  have none₃ : offered f.id k us₃ = [] := settled.offered_eq_nil <| by
    refine only_settle f ?_ ?_ dispatch outcome <;> rfl
  have registry : h₁.registry = h.registry := by
    obtain ⟨h₀, outages, before, -, -, after⟩ := noted.of_perform
    rw [Hub.registry_eq_of_outside after, ← Hub.registry_eq_of_outside before]
    rfl
  have told := Dispatch.calls_of_dispatch dispatched
  rw [registry] at told
  have clients := Outbox.offered_offers f (h.registry.clientsFor f.recipients)
    (Event.live?_forClient f f.enriched) f.id k
  have nodes := Outbox.offered_offers f h.registry.nodes (e := Event.forNode f f.enriched) rfl
    f.id k
  have told : offered f.id k us₁ = f.sent h.registry k := by
    rw [offered_eq, told]
    simp only [Dispatch.calls, List.filterMap_cons, Call.offered?, List.filterMap_append, clients,
      nodes, if_true]
    rfl
  simp only [offered_append, none₀, told, none₂, none₃, List.nil_append, List.append_nil]

/-- Of a feed that is stored at the end of a course, the draft that it was created from. -/
theorem Course.recipients_of_created {s : Settings} {limit : Nat} {sink : Broadcast.Sink}
    {ds : List Deed} {h : Hub} (c : Course s (.empty limit sink) ds h) {D : Deed} (hD : D ∈ ds)
    {i : FeedId} {d : Draft} (created : (i, d) ∈ Turn.created D.turns) {f : Feed}
    (hf : h.store.feed? i = some f) : f.recipients = d.recipients := by
  have filing : Filing ds h.store := by
    refine c.keeps (fun ds h => Filing ds h.store) (fun _ _ _ o hf => ?_)
      (fun _ _ _ _ _ hp run hf => hf.deed hp run) Filing.empty
    rwa [o.store_eq]
  obtain rfl := Store.id_of_feed? hf
  obtain ⟨D', hD', d', creates, recipients, -, -⟩ := filing.stored f.id f.recipients f.isSpam
    (List.mem_map_of_mem (Store.mem_of_feed? hf))
  -- no identifier is given twice
  have once : ((Turn.created (Deed.turnsOf ds)).map (·.1)).Nodup :=
    filing.numbered.imp fun below => Int.ne_of_lt below
  have same : ((f.id, d') : FeedId × Draft) = (f.id, d) :=
    List.inj_on_of_nodup_map once (Filing.mem_created hD' creates.created)
      (Filing.mem_created hD created) rfl
  obtain ⟨-, rfl⟩ := Prod.mk.inj same
  exact recipients.symm

/-- **How addresses are spelled cannot be observed.** Acts that differ only in the spelling of
addresses are performed by the same programs, so that errands in which addresses are spelled in
another way come to the same calls on the same hubs, with the same results and the same hub at the
end. And several spellings of one address in a submission count as one: the draft has the canonical
forms of its recipients, each once; the feed that is created is filed once under each; and whenever
it is processed, a client that is connected under one of them is offered one live event of it, and
other clients none. -/
theorem Errand.spelling_unobservable (s : Settings) :
    (∀ a a' : Act, a.Respelled a' → ∀ order, HEq (a'.program s order) (a.program s order)) ∧
    (∀ es es', List.Forall₂ Errand.Respelled es es' → ∀ h,
      List.Forall₂ Deed.Respelled (deeds s es h).1 (deeds s es' h).1 ∧
        (deeds s es' h).2 = (deeds s es h).2) ∧
    ∀ limit sink ds h, Course s (.empty limit sink) ds h → ∀ x epoch ts i,
      ⟨.submit x epoch, ts, .ok ⟨i, true⟩⟩ ∈ ds → ∃ d, x.validate epoch = .ok d ∧
        d.recipients = firstMentions (x.recipients.filterMap Address.normalize) ∧
        d.recipients.Nodup ∧
        ts.map (·.call) =
          .insert d :: (d.recipients.map fun a => .append a i d.isSpam) ++ [.wake] ∧
        ∀ f, h.store.feed? i = some f → f.recipients = d.recipients ∧
          ∀ us result h', (Processing.process s.topic f).Runs h us result h' →
            ∀ k a, Turn.seats (Deed.turnsOf ds) k = some (.client a) →
              f.toDraft.Due i (some (.client a)) (offered i k us) := by
  refine ⟨fun _ _ ha order => ha.program_heq s order,
    fun _ _ hes h => Errand.deeds_respelled s hes h, fun limit sink ds h c x epoch ts i hD => ?_⟩
  obtain ⟨before, after, rfl⟩ := List.append_of_mem hD
  obtain ⟨h₁, -, later⟩ := c.of_append
  obtain ⟨p, h₂, hp, run, -⟩ := later.of_cons
  cases hp
  change (Intake.submit x epoch).Runs h₁ ts (.ok ⟨i, true⟩) h₂ at run
  unfold Intake.submit at run
  split at run
  · cases run.of_done.2.1
  next d hd =>
  obtain ⟨created, calls⟩ := Intake.creates_of_add run
  have recipients := Submission.recipients_of_validate hd
  refine ⟨d, hd, recipients, recipients ▸ nodup_firstMentions _, calls, fun f hf => ?_⟩
  have same := c.recipients_of_created hD created hf
  refine ⟨same, fun us result h' processed k a seated => ?_⟩
  obtain rfl := Store.id_of_feed? hf
  obtain ⟨-, last, -⟩ := @Course.follows s seating _ _ _ [] (fun _ _ _ => True) c
    (fun _ _ _ _ _ _ hp _ => hp.follows_seating) (.empty limit sink)
  rw [List.nil_append] at last
  rw [Processing.offered_of_process processed, last.seats.sent_eq, seated]
  exact f.due_of_draft _

/-- A request that names alice in two ways. -/
def Submission.toAlice (first second : String) : Submission :=
  { Submission.sample "p" with recipients := [first, second] }

/-- Alice comes, and something is to be stored for her. -/
def Errand.forAlice (name first second : String) : List Errand :=
  [⟨.connect .client (some name), [], .calm⟩, ⟨.submit (.toAlice first second) 5, [], .calm⟩]

/-- The hub on which she has come, and something has been stored for her. -/
def Hub.forAlice : Hub :=
  (Errand.deeds .sample (Errand.forAlice "solana:alice" " Solana:alice" "solana:ALICE") .sample).2

/-- Two requests that name alice in their own ways. -/
theorem Submission.respelled_toAlice : (toAlice " Solana:alice" "solana:ALICE").Respelled
    (toAlice "solana:alice" "Solana:Alice") where
  recipients := .cons (.inr ⟨"solana:alice", by decide +kernel, by decide +kernel⟩)
    (.cons (.inr ⟨"solana:alice", by decide +kernel, by decide +kernel⟩) .nil)
  others := rfl

/-- However alice is named, the hub is the same. What names her twice is for one recipient, of which
she is told once. -/
theorem Errand.spelling_unobservable_of_alice :
    (deeds .sample (Errand.forAlice "SOLANA:Alice " "solana:alice" "Solana:Alice") .sample).2 =
        .forAlice ∧
      ∃ f result h' us, Hub.forAlice.store.feed? 1 = some f ∧ f.recipients = ["solana:alice"] ∧
        (Processing.process Settings.sample.topic f).Runs .forAlice us result h' ∧
        ∃ e, offered 1 0 us = [e] ∧ e.TellsClient 1 f.toDraft := by
  obtain ⟨-, played, spelled⟩ := spelling_unobservable .sample
  have name : Address.Respelled "solana:alice" "SOLANA:Alice " :=
    .inr ⟨"solana:alice", by decide +kernel, by decide +kernel⟩
  refine ⟨(played _ _ (.cons (.mk (.connect .client name) _ _)
    (.cons (.mk (.submit Submission.respelled_toAlice 5) _ _) .nil)) .sample).2, ?_⟩
  let done := Errand.forAlice "solana:alice" " Solana:alice" "solana:ALICE"
  have c : Course .sample .sample (deeds .sample done .sample).1 .forAlice := by
    refine course_deeds .sample (by decide) (fun e he n => ?_) .sample
    rcases List.mem_pair.1 he with rfl | rfl <;> exact Script.natural_calm n
  have stored : (Hub.forAlice.store.feed? 1).map (·.recipients) = some ["solana:alice"] := by
    decide +kernel
  obtain ⟨f, hf, recipients⟩ := Option.map_eq_some_iff.1 stored
  obtain ⟨d, -, -, -, -, told⟩ := spelled 10 ⟨true, [], []⟩ _ _ c
    (.toAlice " Solana:alice" "solana:ALICE") 5 _ 1 (List.mem_cons_of_mem _ List.mem_cons_self)
  obtain ⟨-, told⟩ := told f hf
  have run := (Processing.process Settings.sample.topic f).runs_run .none .forAlice
  refine ⟨f, _, _, _, hf, recipients, run, ?_⟩
  have due := told _ _ _ run 0 "solana:alice" (by decide +kernel)
  generalize offered 1 0 _ = events at due
  cases due with
  | client addressed tells => exact ⟨_, rfl, tells⟩
  | elsewhere strange =>
    have among : "solana:alice" ∈ f.recipients := recipients ▸ List.mem_cons_self
    exact absurd among strange

end NotificationRelay
