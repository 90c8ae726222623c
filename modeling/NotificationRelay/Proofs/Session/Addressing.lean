/-
# What a client is sent

A client session is sent what is addressed to it. Three parts of the relay see to that: the
registry, which finds the sessions of a feed; the index, which finds the feeds of a recipient;
and the query behind a connect snapshot, which leaves out what is hidden. That they agree is a
matter of everything done before, so it is stated for traces: `Addressing.Kept` says what holds
of the hub after a trace, and `addressing` is the discipline that every offer is suitable
(`Event.Suits`) for an address with which its session has joined.

Each act follows the discipline (`Act.PerformedBy.follows`), from its smallest programs up.
Hence no client is sent a feed that is not addressed to it (`Course.sessions_addressed`).
-/
import NotificationRelay.Proofs.Address.NormalForm
import NotificationRelay.Proofs.Query.Scan
import NotificationRelay.Proofs.Run.Discipline
import NotificationRelay.Proofs.Session.Binding
import NotificationRelay.Proofs.Store.Origin

namespace NotificationRelay

/-! ## What may be sent to a client -/

/-- A feed pushed to a client was created for its address, as spam or not. -/
def Feed.Live.AddressedTo (address : String) (isSpam : Bool) (past : List Turn)
    (feed : Feed.Live) : Prop :=
  ∃ d, (feed.id, d) ∈ Turn.created past ∧ address ∈ d.recipients ∧ d.isSpam = isSpam

/-- Every entry of a page is a feed of the store that is not hidden and has the address as a
recipient, as spam or not. -/
def FeedPage.AddressedTo (address : String) (isSpam : Bool) (s : Store) (page : FeedPage) : Prop :=
  ∀ v ∈ page.feeds, ∃ f ∈ s.feeds, v = f.view ∧ f.hidden = false ∧ address ∈ f.recipients ∧
    f.isSpam = isSpam

namespace Event

/-- An event that may be sent to a client of an address, after a trace and while the store is as
given. -/
def Suits (address : String) (past : List Turn) (s : Store) : Event → Prop
  | .userFeed feed => feed.AddressedTo address false past
  | .userSpamFeed feed => feed.AddressedTo address true past
  | .snapshot page => page.AddressedTo address false s
  | .spamSnapshot page => page.AddressedTo address true s
  | .liveFeed _ => True
  | .history _ => True

/-- An event that is only sent to clients. -/
def isPersonal : Event → Bool
  | .liveFeed _ => false
  | .history _ => false
  | _ => true

/-- An event that is not personal suits everybody. -/
theorem suits_of_not_isPersonal {e : Event} (he : e.isPersonal = false) (address : String)
    (past : List Turn) (s : Store) : e.Suits address past s := by
  cases e with
  | liveFeed | history => trivial
  | _ => cases he

end Event

/-- What a feed says of itself is what the draft said that it was created from. -/
def Feed.Known (past : List Turn) (f : Feed) : Prop :=
  ∃ d, (f.id, d) ∈ Turn.created past ∧ d.recipients = f.recipients ∧ d.isSpam = f.isSpam

/-- A feed that is known stays known. -/
theorem Feed.Known.later {past : List Turn} {f : Feed} (hf : f.Known past) (us : List Turn) :
    f.Known (past ++ us) := by
  obtain ⟨d, hd, same⟩ := hf
  refine ⟨d, ?_, same⟩
  rw [Turn.created_append]
  exact List.mem_append_left _ hd

/-- The event that tells a client of a feed suits each of its recipients. -/
theorem Feed.Known.suits {past : List Turn} {f : Feed} (hf : f.Known past) (payload : Payload)
    {address : String} (ha : address ∈ f.recipients) (s : Store) :
    (Event.forClient f payload).Suits address past s := by
  obtain ⟨d, hd, recipients, isSpam⟩ := hf
  rw [← recipients] at ha
  unfold Event.forClient
  split
  · next spam => exact ⟨d, hd, ha, isSpam.trans spam⟩
  · next normal => exact ⟨d, hd, ha, isSpam.trans (Bool.eq_false_iff.2 normal)⟩

/-! ## The discipline -/

namespace Addressing

/-- What holds of the hub after a trace: its store and its sessions agree with what was created
and who has joined, the feeds that were ever there are known, and the hub is as its last call
has left it but for what the world outside does. -/
structure Kept (past : List Turn) (h : Hub) : Prop where
  traced : h.store.Traced (Turn.created past)
  bound : h.Bound (Turn.joined past)
  known : ∀ t ∈ past, ∀ f ∈ t.after.store.feeds, f.Known past
  current : ∀ us t, past = us ++ [t] →
    h.store = t.after.store ∧ h.queues.length = t.after.queues.length

/-- What a call has to mind: a feed is filed as it was created, a client joins with a new
session, and an event that is sent to a client suits its address. -/
def Minds (past : List Turn) (h : Hub) : Call → Prop
  | .append recipient id isSpam =>
    ∃ d, (id, d) ∈ Turn.created past ∧ recipient ∈ d.recipients ∧ d.isSpam = isSpam
  | .registerClient _ id => (∀ a, (id, a) ∉ Turn.joined past) ∧ id < h.queues.length
  | .offer id e =>
    e.isPersonal = false ∨ ∃ a, (id, a) ∈ Turn.joined past ∧ e.Suits a past h.store
  | _ => True

/-- A call that has nothing to mind. -/
def isFree : Call → Bool
  | .append _ _ _ => false
  | .registerClient _ _ => false
  | .offer _ _ => false
  | _ => true

variable {past : List Turn} {h : Hub}

/-- A call that is free to be made at any time minds who it is made for. -/
theorem minds_of_isFree {c : Call} (hc : isFree c = true) : Minds past h c := by
  cases c with
  | append | registerClient | offer => cases hc
  | _ => trivial

/-- A query may be made at any time. -/
theorem isFree_of_isQuery {c : Call} (hc : c.isQuery = true) : isFree c = true := by
  cases c <;> first | rfl | cases hc

/-- A stored feed is known. -/
theorem Kept.of_mem (hk : Kept past h) {f : Feed} (hf : f ∈ h.store.feeds) : f.Known past :=
  hk.traced.of_mem hf

/-- Nothing is stored or offered on the empty hub that would have to be known. -/
theorem kept_empty (limit : Nat) (sink : Broadcast.Sink) : Kept [] (.empty limit sink) where
  traced := .empty
  bound := .empty limit sink
  known _ ht := by cases ht
  current us t hpast := by simp at hpast

/-- What happens outside stores and offers nothing. -/
theorem Kept.outside {h' : Hub} (o : h.Outside h') (hk : Kept past h) : Kept past h' := by
  obtain ⟨registry, queues⟩ := o.sessions_eq
  refine ⟨?_, hk.bound.of_same registry (Nat.le_of_eq queues.symm), hk.known, fun us t hpast => ?_⟩
  · rw [o.store_eq]
    exact hk.traced
  · rw [o.store_eq, queues]
    exact hk.current us t hpast

/-- A call that minds who it is made for keeps the addressing right. -/
theorem Kept.step (c : Call) (outages : Outages) (hk : Kept past h) (hc : Minds past h c) :
    Kept (past ++ [c.turn outages h]) (c.perform outages h).2 := by
  have traced :
      (c.perform outages h).2.store.Traced (Turn.created (past ++ [c.turn outages h])) := by
    rw [Turn.created_append, Turn.created_singleton]
    refine c.traced_perform outages hk.traced fun r i b happ => ?_
    subst happ
    exact hc
  refine ⟨traced, ?_, fun t ht f hf => ?_, fun us t hpast => ?_⟩
  · rw [Turn.joined_append, Turn.joined_singleton]
    refine c.bound_perform outages hk.bound fun a id hreg => ?_
    subst hreg
    exact hc
  · rcases List.mem_append.1 ht with ht | ht
    · exact (hk.known t ht f hf).later _
    · rw [List.mem_singleton.1 ht] at hf
      exact traced.of_mem hf
  · obtain ⟨-, heq⟩ := List.append_inj' hpast rfl
    rw [← List.singleton_inj.1 heq]
    exact ⟨rfl, rfl⟩

end Addressing

/-- Every event that a client is sent suits an address with which it has joined. -/
def addressing : Discipline where
  inv := Addressing.Kept
  rule := Addressing.Minds
  outside := Addressing.Kept.outside
  step := Addressing.Kept.step

namespace Program

variable {α : Type} {others : Prop} {past : List Turn}

/-- A program of calls that have nothing to mind. -/
theorem follows_of_isFree {p : Program α} {sort : Call → Prop} (hp : p.Only sort)
    (free : ∀ c, sort c → Addressing.isFree c = true) :
    p.Follows addressing others (fun _ _ => True) past :=
  .of_only hp (fun _ _ c hc _ => Addressing.minds_of_isFree (free c hc)) fun _ _ => trivial

/-- A call that may be made at any time keeps the addressing right. -/
theorem follows_perform {c : Call} (hc : Addressing.isFree c = true) :
    (perform c).Follows addressing others (fun _ _ => True) past :=
  fun _ _ _ _ => ⟨Addressing.minds_of_isFree hc, fun _ => trivial⟩

/-- A program that only asks keeps the addressing right. -/
theorem Asking.follows {p : Program α} (hp : p.Asking) :
    p.Follows addressing others (fun _ _ => True) past :=
  follows_of_isFree hp fun _ => Addressing.isFree_of_isQuery

end Program

/-! ## Storing and processing -/

namespace Intake

variable {past : List Turn}

/-- A feed that has been created may be filed under its recipients. -/
theorem follows_index {d : Draft} {id : FeedId} (hd : (id, d) ∈ Turn.created past) :
    (index d id).Follows addressing False (fun _ _ => True) past := by
  unfold index
  refine Program.Follows.andThen (.forEach fun recipient hr us => ?_) fun _ us =>
    Program.follows_perform rfl
  refine .call fun h _ => ⟨⟨d, ?_, hr, rfl⟩, fun _ => trivial⟩
  rw [Turn.created_append]
  exact List.mem_append_left _ hd

/-- Adding a draft keeps the addressing right, as its feed is known then. -/
theorem follows_add (d : Draft) : (add d).Follows addressing False (fun _ _ => True) past := by
  unfold add
  refine Program.Follows.perform_bind_alone fun h _ => ⟨trivial, fun outages => ?_⟩
  have made : ∀ r, (Call.perform outages (.insert d) h).1 = .ok r → r.created = true →
      (r.id, d) ∈ Turn.created (past ++ [Call.turn (.insert d) outages h]) := by
    intro r answer created
    rw [Turn.created_append, Turn.created_singleton]
    refine List.mem_append_right _ (Option.mem_toList.2 ?_)
    simp only [Turn.created?, Call.turn, Call.created?, answer, created]
    rfl
  generalize (Call.perform outages (.insert d) h).1 = answer at made ⊢
  cases answer with
  | error e => trivial
  | ok r =>
    show (if r.created = true then _ else _ : Program _).Follows addressing False _ _
    split
    · next created => exact (follows_index (made r rfl created)).andThen fun _ _ => trivial
    · trivial

end Intake

namespace Dispatch

variable {past : List Turn}

/-- Sessions that were found for a feed may be told of it. -/
theorem follows_dispatch {f : Feed} (hf : f.Known past) (payload : Payload) :
    (dispatch f payload).Follows addressing True (fun _ _ => True) past := by
  unfold dispatch
  refine Program.Follows.perform_bind fun us h _ hk => ⟨trivial, fun outages => ?_⟩
  have found : ∀ id ∈ h.registry.clientsFor f.recipients,
      ∃ a ∈ f.recipients, (id, a) ∈ Turn.joined (past ++ us) := fun id hid =>
    Addressing.Kept.bound hk |>.of_mem_clientsFor hid
  refine Program.Follows.andThen (Program.follows_perform rfl) fun nodes vs => ?_
  refine Program.Follows.andThen (Program.Follows.andThen (.forEach fun id hid ws => ?_)
    fun _ _ => trivial) fun _ _ => ?_
  · obtain ⟨a, ha, hjoined⟩ := found id hid
    intro xs h' _ _
    refine ⟨.inr ⟨a, ?_, ?_⟩, fun _ => trivial⟩
    · simp only [Turn.joined_append] at hjoined ⊢
      simp only [List.mem_append] at hjoined ⊢
      tauto
    · simp only [List.append_assoc]
      exact (hf.later _).suits payload ha h'.store
  · refine Program.Follows.andThen (Program.Follows.andThen (.forEach fun id _ ws => ?_)
      fun _ _ => trivial) fun _ _ => trivial
    exact fun xs h' _ _ => ⟨.inl rfl, fun _ => trivial⟩

end Dispatch

namespace Processing

variable {past : List Turn}

/-- Processing a known feed keeps the addressing right. -/
theorem follows_process (t : Broadcast.Topic) {f : Feed} (hf : f.Known past) :
    (process t f).Follows addressing True (fun _ _ => True) past := by
  unfold process
  refine Program.Follows.andThen (Program.follows_perform rfl) fun _ us => ?_
  refine Program.Follows.andThen (Dispatch.follows_dispatch (hf.later us) _) fun report vs => ?_
  refine Program.Follows.andThen ?_ fun outcome ws => ?_
  · exact Program.follows_of_isFree (Broadcast.only_publish t f) fun c hc => by cases hc <;> rfl
  · have bumped : ∀ {past} result, (Program.bind (Program.perform (.bump f.id)) fun _ =>
        (.done result : Program (Except FeedError Report))).Follows addressing True
          (fun _ _ => True) past := fun result =>
      Program.Follows.andThen (Program.follows_perform rfl) fun _ _ => trivial
    split
    · exact bumped _
    · refine Program.Follows.andThen (Program.follows_perform rfl) fun answer _ => ?_
      cases answer with
      | ok => trivial
      | error e => exact bumped _

end Processing

namespace Outbox

variable {past : List Turn}

/-- Taking an entry out of the outbox keeps the addressing right. -/
theorem follows_acknowledge (id : FeedId) :
    (acknowledge id).Follows addressing True (fun _ _ => True) past := by
  refine Program.Follows.andThen (Program.follows_perform rfl) fun answer _ => ?_
  cases answer <;> trivial

/-- Handling an entry of the outbox keeps the addressing right, as its feed is known. -/
theorem follows_relayOne (t : Broadcast.Topic) (id : FeedId) :
    (relayOne t id).Follows addressing True (fun _ _ => True) past := by
  unfold relayOne
  refine Program.Follows.perform_bind fun us h _ hk => ⟨trivial, fun outages => ?_⟩
  have loaded : ∀ f, (Call.perform outages (.load id) h).1 = .ok (some f) →
      f.Known (past ++ us) := fun f hf => by
    simp only [Call.perform, Outages.guard] at hf
    split at hf
    · cases hf
    · exact Addressing.Kept.of_mem hk (Store.mem_of_feed? (Except.ok.inj hf))
  generalize (Call.perform outages (.load id) h).1 = answer at loaded ⊢
  cases answer with
  | error e => trivial
  | ok found =>
    cases found with
    | none => exact follows_acknowledge id
    | some f =>
      show (if f.processed = true then acknowledge id else _ : Program Bool).Follows addressing
        True _ _
      split
      · exact follows_acknowledge id
      · refine Program.Follows.andThen (Processing.follows_process t ?_) fun _ _ =>
          follows_acknowledge id
        exact (loaded f rfl).later _

/-- A pass over the outbox, whatever turns its entries take. -/
theorem follows_drainBy {t : Broadcast.Topic} {limit : Nat}
    {handle : List FeedId → Program (List Bool)}
    (sideBySide : ∀ ids, Program.Weave limit (ids.map (relayOne t)) (handle ids)) (batch : Nat) :
    (drainBy handle batch).Follows addressing False (fun _ _ => True) past := by
  refine Program.Follows.andThen (Program.follows_perform rfl) fun answer us => ?_
  cases answer with
  | error e => trivial
  | ok ids =>
    refine Program.Follows.andThen ((sideBySide ids).follows fun p hp => ?_) fun _ _ => trivial
    obtain ⟨id, -, rfl⟩ := List.mem_map.1 hp
    exact follows_relayOne t id

end Outbox

/-- A retry pass, whatever turns its feeds take. -/
theorem Retry.follows_passBy {past : List Turn} {t : Broadcast.Topic} {limit : Nat}
    {handle : List Feed → Program (List (Except FeedError Processing.Report))}
    (sideBySide : ∀ feeds, Program.Weave limit (feeds.map (Processing.process t)) (handle feeds))
    (cap batch : Nat) :
    (passBy handle cap batch).Follows addressing False (fun _ _ => True) past := by
  refine Program.Follows.perform_bind_alone fun h hk => ⟨trivial, fun outages => ?_⟩
  have selected : ∀ feeds, (Call.perform outages (.candidates cap batch) h).1 = .ok feeds →
      ∀ f ∈ feeds, f.Known past := fun feeds hfeeds f hf => by
    simp only [Call.perform, Outages.guard] at hfeeds
    split at hfeeds
    · cases hfeeds
    · rw [← Except.ok.inj hfeeds] at hf
      exact Addressing.Kept.of_mem hk (Store.mem_candidates hf).1
  generalize (Call.perform outages (.candidates cap batch) h).1 = answer at selected ⊢
  cases answer with
  | error e => trivial
  | ok feeds =>
    refine Program.Follows.andThen ((sideBySide feeds).follows fun p hp => ?_) fun _ _ => trivial
    obtain ⟨f, hf, rfl⟩ := List.mem_map.1 hp
    exact Processing.follows_process t ((selected feeds rfl f hf).later _)

/-! ## Connecting -/

/-- A page that was read for a client: whatever the world outside has done meanwhile, its feeds
are those of the store. -/
def Addressing.Read (address : String) (isSpam : Bool) (past : List Turn)
    (page : FeedPage) : Prop :=
  ∀ h, Kept past h → page.AddressedTo address isSpam h.store

/-- A page that lists feeds of the store under identifiers which the index has for an address. -/
theorem Addressing.Kept.addressedTo {past : List Turn} {h : Hub} (hk : Kept past h)
    (address : String) (isSpam : Bool) (p : Paging) :
    (Query.listed (h.store.pageByIds (h.store.indexed address isSpam) ⟨false, none, none⟩
      p)).AddressedTo address isSpam h.store := by
  intro v hv
  obtain ⟨f, hf, rfl⟩ := List.mem_map.1 hv
  have listed := List.mem_of_mem_drop (List.mem_of_mem_take hf)
  obtain ⟨there, picked⟩ := List.mem_filter.1 (List.mem_reverse.1 listed)
  rw [Bool.and_eq_true, List.contains_iff_mem] at picked
  obtain ⟨recipient, spam⟩ := hk.traced.of_mem_indexed there picked.1
  refine ⟨f, there, rfl, ?_, recipient, spam⟩
  simpa [Listing.accepts, absentOr] using picked.2

/-- What a client finds in its normal or its spam feeds may be sent to it. -/
theorem Query.follows_feeds {past : List Turn} {address : String}
    (ha : Address.normalize address = some address) (bound : Nat) (isSpam : Bool) (p : Paging) :
    (feeds bound address isSpam false p).Follows addressing False
      (fun result past' => past <+: past' ∧
        ∀ page, result = .ok page → Addressing.Read address isSpam past' page) past := by
  unfold feeds recipientPage
  rw [recipientKey_of_normalize ha]
  refine Program.Follows.perform_bind_alone fun h hk => ⟨trivial, fun outages => ?_⟩
  have asked : (Call.perform outages (.indexed address isSpam) h).2.store = h.store := by
    simp only [Call.perform, Outages.guard]
    split <;> rfl
  have found : ∀ ids, (Call.perform outages (.indexed address isSpam) h).1 = .ok ids →
      ids = h.store.indexed address isSpam := fun ids hids => by
    simp only [Call.perform, Outages.guard] at hids
    split at hids
    · cases hids
    · exact (Except.ok.inj hids).symm
  generalize (Call.perform outages (.indexed address isSpam) h).1 = answer at found ⊢
  cases answer with
  | error e => exact ⟨List.prefix_append _ _, fun page hpage => by cases hpage⟩
  | ok ids =>
    obtain rfl := found ids rfl
    show (if (h.store.indexed address isSpam).isEmpty = true then _ else _ :
      Program _).Follows addressing False _ _
    split
    · refine ⟨List.prefix_append _ _, fun page hpage h' _ v hv => ?_⟩
      cases hpage
      cases hv
    · refine Program.Follows.perform_bind_alone fun h' hk' => ⟨trivial, fun outages' => ?_⟩
      -- between the two calls only the world outside was at work, and the store is the same
      have same : h'.store = h.store := (hk'.current past _ rfl).1.trans asked
      have paged : ∀ r, (Call.perform outages' (.pageByIds (h.store.indexed address isSpam)
          ⟨false, none, none⟩ (p.clamp bound)) h').1 = .ok r →
          (Query.listed r).AddressedTo address isSpam h'.store := fun r hr => by
        simp only [Call.perform, Outages.guard] at hr
        split at hr
        · cases hr
        · rw [← Except.ok.inj hr, ← same]
          exact hk'.addressedTo address isSpam _
      have kept : (Call.perform outages' (.pageByIds (h.store.indexed address isSpam)
          ⟨false, none, none⟩ (p.clamp bound)) h').2.store = h'.store := by
        simp only [Call.perform, Outages.guard]
        split <;> rfl
      have longer : past <+: past ++ [Call.turn (.indexed address isSpam) outages h] ++
          [Call.turn (.pageByIds (h.store.indexed address isSpam) ⟨false, none, none⟩
            (p.clamp bound)) outages' h'] := by
        rw [List.append_assoc]
        exact List.prefix_append _ _
      generalize (Call.perform outages' (.pageByIds (h.store.indexed address isSpam)
          ⟨false, none, none⟩ (p.clamp bound)) h').1 = answer at paged ⊢
      cases answer with
      | error e => exact ⟨longer, fun page hpage => by cases hpage⟩
      | ok r =>
        refine ⟨longer, fun page hpage h'' hk'' => ?_⟩
        cases hpage
        rw [(hk''.current _ _ rfl).1, Call.turn, kept]
        exact paged r rfl

namespace Gateway

variable {past : List Turn}

/-- A page that was read for a client may be sent to it. -/
theorem follows_offerPage {address : String} {id : SessionId} {isSpam : Bool}
    {event : FeedPage → Event} {result : Except FeedError FeedPage}
    (hid : (id, address) ∈ Turn.joined past)
    (suits : ∀ page (h : Hub), page.AddressedTo address isSpam h.store →
      (event page).Suits address past h.store)
    (read : ∀ page, result = .ok page → Addressing.Read address isSpam past page) :
    (offerPage id event result).Follows addressing False (fun _ _ => True) past := by
  cases result with
  | error e => trivial
  | ok page =>
    refine Program.Follows.perform_bind_alone fun h hk =>
      ⟨.inr ⟨address, hid, ?_⟩, fun _ => trivial⟩
    exact suits page h (read page rfl h hk)

/-- A client at an address is shown feeds of this address. -/
theorem follows_snapshot {address : String} {id : SessionId}
    (ha : Address.normalize address = some address) (hid : (id, address) ∈ Turn.joined past)
    (b : Bounds) :
    (snapshot b address id).Follows addressing False (fun _ _ => True) past := by
  have still : ∀ {past'}, past <+: past' → (id, address) ∈ Turn.joined past' := by
    rintro _ ⟨us, rfl⟩
    rw [Turn.joined_append]
    exact List.mem_append_left _ hid
  unfold snapshot
  refine Program.Follows.bind ((Query.follows_feeds ha _ false _).mono fun normal past₁ h₁ => ?_)
  have offered : (offerPage id Event.snapshot normal).Follows addressing False (fun _ _ => True)
      past₁ := follows_offerPage (still h₁.1) (fun page h hp => hp) h₁.2
  refine Program.Follows.bind (offered.lengthens.mono fun _ past₂ h₂ => ?_)
  refine Program.Follows.bind ((Query.follows_feeds ha _ true _).mono fun spam past₃ h₃ => ?_)
  exact follows_offerPage (still (h₁.1.trans (h₂.2.trans h₃.1))) (fun page h hp => hp) h₃.2

/-- A client that is admitted has joined with the canonical form of its address. -/
def Joins (mode : SessionMode) (raw : Option String) (result : Admission) (past : List Turn) :
    Prop :=
  ∀ id address, mode = .client → result = .admitted id →
    Address.normalize (raw.getD "") = some address → (id, address) ∈ Turn.joined past

/-- A session that is turned away joins nobody. -/
theorem follows_refuse {mode : SessionMode} {raw : Option String} (id : SessionId)
    (e : SessionError) : (refuse id e).Follows addressing False (Joins mode raw) past :=
  Program.Follows.perform_bind_alone fun _ _ =>
    ⟨trivial, fun _ _ _ _ hresult => by cases hresult⟩

/-- A session that is admitted joins at its own address, and is shown feeds of it. -/
theorem follows_connect (b : Bounds) (mode : SessionMode) (raw : Option String) :
    (connect b mode raw).Follows addressing False (Joins mode raw) past := by
  unfold connect
  refine Program.Follows.perform_bind_alone fun h hk => ⟨trivial, fun outages => ?_⟩
  -- the new session has a number that was not given before, and a queue
  have opened : ∀ id, (Call.perform outages (.openQueue b.queueCapacity) h).1 = some id →
      h.queues.length = id ∧
        id < (Call.turn (.openQueue b.queueCapacity) outages h).after.queues.length :=
    fun id hid => ⟨(Hub.of_openQueue hid).1.symm, (Hub.of_openQueue hid).2⟩
  generalize (Call.perform outages (.openQueue b.queueCapacity) h).1 = answer at opened ⊢
  match answer, mode with
  | none, _ => exact fun _ _ _ hresult => by cases hresult
  | some id, .delivery =>
    exact Program.Follows.perform_bind_alone fun _ _ =>
      ⟨trivial, fun _ _ _ hmode => by cases hmode⟩
  | some id, .client =>
    obtain ⟨new, there⟩ := opened id rfl
    dsimp only
    split
    · exact follows_refuse id _
    · next canonical hcanonical =>
      refine Program.Follows.perform_bind_alone fun h' hk' =>
        ⟨⟨fun a => ?_, ?_⟩, fun outages' => ?_⟩
      · rw [Turn.joined_append]
        have silent : Turn.joined [Call.turn (.openQueue b.queueCapacity) outages h] = [] := rfl
        rw [silent, List.append_nil]
        exact hk.bound.fresh (Nat.le_of_eq new) a
      · rw [(hk'.current past _ rfl).2]
        exact there
      · have joins : ∀ u, (Call.perform outages' (.registerClient canonical id) h').1 = .ok u →
            (id, canonical) ∈
              Turn.joined [Call.turn (.registerClient canonical id) outages' h'] := by
          intro u hu
          rw [Turn.joined_singleton, Option.mem_toList]
          simp only [Turn.joined?, Call.turn, hu]
          rfl
        generalize (Call.perform outages' (.registerClient canonical id) h').1 = answer at joins ⊢
        cases answer with
        | error e => exact follows_refuse id e
        | ok u =>
          have joined : (id, canonical) ∈ Turn.joined (past ++
              [Call.turn (.openQueue b.queueCapacity) outages h] ++
              [Call.turn (.registerClient canonical id) outages' h']) := by
            rw [Turn.joined_append]
            exact List.mem_append_right _ (joins u rfl)
          refine (follows_snapshot (Address.normalize_normalize hcanonical) joined b).andThen
            fun _ us id' address _ hresult haddress => ?_
          obtain rfl := Admission.admitted.inj hresult
          obtain rfl : canonical = address := Option.some.inj (hcanonical.symm.trans haddress)
          rw [Turn.joined_append]
          exact List.mem_append_left _ joined

/-- What a session sends is taken in with the addressing right. -/
theorem follows_receive (b : Bounds) (mode : SessionMode) (id : SessionId) (frame : Frame) :
    (receive b mode id frame).Follows addressing False (fun _ _ => True) past := by
  match frame, mode with
  | .text content, .delivery =>
    show (answer b id content).Follows addressing False _ _
    unfold answer
    split
    · trivial
    · refine Program.Follows.andThen (Query.asking_history ..).follows fun page us => ?_
      cases page with
      | error e => trivial
      | ok page => exact Program.Follows.perform_bind_alone fun _ _ => ⟨.inl rfl, fun _ => trivial⟩
  | .text _, .client => trivial
  | .binary, _ => trivial
  | .closed, _ => exact Program.follows_perform rfl

end Gateway

/-! ## Every act follows the discipline -/

/-- What is known after an act: a client that was admitted has joined. -/
def Act.Ends : (a : Act) → a.Result → List Turn → Prop
  | .connect mode raw, result, past => Gateway.Joins mode raw result past
  | _, _, _ => True

/-- **Every act follows the discipline**, if a feed that is processed directly is known. -/
theorem Act.PerformedBy.follows {s : Settings} {a : Act} {p : Program a.Result}
    (hp : a.PerformedBy s p) {past : List Turn} (known : ∀ f, a = .process f → f.Known past) :
    p.Follows addressing False (Act.Ends a) past := by
  cases hp with
  | submit x epoch =>
    show (Intake.submit x epoch).Follows addressing False (fun _ _ => True) past
    unfold Intake.submit
    split
    · trivial
    · exact Intake.follows_add _
  | add d => exact Intake.follows_add d
  | drain sideBySide => exact Outbox.follows_drainBy sideBySide _
  | retry sideBySide => exact Retry.follows_passBy sideBySide _ _
  | process f => exact (Processing.follows_process _ (known f rfl)).alone
  | sweep now =>
    exact Program.follows_of_isFree (Expiry.only_sweep now) fun c hc => by cases hc <;> rfl
  | connect mode raw => exact Gateway.follows_connect _ mode raw
  | receive mode id frame => exact Gateway.follows_receive _ mode id frame
  | disconnect id => exact Program.follows_perform rfl
  | feeds => exact (Query.asking_recipientPage ..).follows
  | channelFeeds => exact (Query.asking_recipientPage ..).follows
  | spamSenders => exact (Query.asking_spamSenders ..).follows
  | senderFeeds => exact (Query.asking_senderFeeds ..).follows
  | history => exact (Query.asking_history ..).follows
  | search => exact (Query.asking_search ..).follows

/-- **No client is sent what is not addressed to it.** Over every course from an empty hub, in
which directly processed feeds were in the store at some time, every event that is offered to
a client which was admitted with an address suits this address: a live feed was created for
it, as spam or not as the event says, and all entries of a snapshot are feeds that are in the
store then, are not hidden, have it as a recipient, and are spam or not. -/
theorem Course.sessions_addressed {s : Settings} {limit : Nat} {sink : Broadcast.Sink}
    {ds : List Deed} {h : Hub} (c : Course s (.empty limit sink) ds h)
    (stored : ∀ before f ts result after, ds = before ++ ⟨.process f, ts, result⟩ :: after →
      ∃ t ∈ Deed.turnsOf before, f ∈ t.after.store.feeds)
    {raw : Option String} {us : List Turn} {id : SessionId} {address : String}
    (admitted : ⟨.connect .client raw, us, .admitted id⟩ ∈ ds)
    (ha : Address.normalize (raw.getD "") = some address) {past rest : List Turn} {t : Turn}
    (split : Deed.turnsOf ds = past ++ t :: rest) {e : Event} (offer : t.call = .offer id e) :
    e.Suits address past t.before.store := by
  have follows : ∀ before d after, ds = before ++ d :: after →
      ∀ (p : Program d.act.Result) (h₁ : Hub), d.act.PerformedBy s p →
        addressing.inv ([] ++ Deed.turnsOf before) h₁ →
        p.Follows addressing False (Act.Ends d.act) ([] ++ Deed.turnsOf before) := by
    rintro before ⟨a, ts, result⟩ after hsplit p h₁ hp hk
    refine hp.follows fun f hf => ?_
    obtain rfl : a = .process f := hf
    obtain ⟨t, ht, hmem⟩ := stored before f ts result after hsplit
    exact hk.known t ht f hmem
  obtain ⟨ends, last, minds⟩ := c.follows follows (Addressing.kept_empty limit sink)
  have joined : (id, address) ∈ Turn.joined (Deed.turnsOf ds) := by
    obtain ⟨before, after, rfl⟩ := List.append_of_mem admitted
    have here := ends before _ after rfl id address rfl rfl ha
    simp only [Deed.turnsOf, List.flatMap_append, List.flatMap_cons, List.nil_append] at here ⊢
    rw [← List.append_assoc, Turn.joined_append]
    exact List.mem_append_left _ here
  obtain ⟨-, rule⟩ := minds past t rest split
  rw [offer] at rule
  rcases rule with forNodes | ⟨a, hjoined, suits⟩
  · exact Event.suits_of_not_isPersonal forNodes _ _ _
  · -- the session has joined only once, so the event suits the address it was admitted with
    have total : (id, a) ∈ Turn.joined (Deed.turnsOf ds) := by
      rw [split, Turn.joined_append]
      exact List.mem_append_left _ hjoined
    rwa [last.bound.alone id address a joined total]

/-! ## A client that is told of a feed -/

/-- A client asks for admission. -/
def Gateway.admission : Program Gateway.Admission :=
  Gateway.connect Settings.sample.bounds .client (some " Solana:ALICE")

/-- A feed for this client. -/
def Draft.addressed : Draft := .sample "p" ["solana:alice"] 5

/-- The hub with the client. -/
def Hub.admitting : Hub := (Gateway.admission.run .none .sample).2

/-- The hub when the feed has been stored. -/
def Hub.addressing : Hub := ((Intake.add .addressed).run .none .admitting).2

/-- The client is admitted, the feed is stored, and then it is processed. -/
def Deed.addressing : List Deed :=
  [⟨.connect .client (some " Solana:ALICE"), Gateway.admission.turns .none .sample, .admitted 0⟩,
    ⟨.add .addressed, (Intake.add .addressed).turns .none .admitting, .ok ⟨1, true⟩⟩,
    ⟨.process (.ofDraft 1 .addressed), (Processing.process Settings.sample.topic
      (.ofDraft 1 .addressed)).turns .none .addressing, .ok ⟨⟨1, 0, 0, 0⟩, .published⟩⟩]

/-- The client is told of the feed, which was created for the canonical form of its address. -/
theorem Course.sessions_addressed_of_admission :
    ∃ past t rest, Deed.turnsOf Deed.addressing = past ++ t :: rest ∧
      t.call = .offer 0 (.forClient (.ofDraft 1 .addressed) (Feed.ofDraft 1 .addressed).enriched) ∧
      (Event.forClient (.ofDraft 1 .addressed) (Feed.ofDraft 1 .addressed).enriched).Suits
        "solana:alice" past t.before.store := by
  have c : Course .sample .sample Deed.addressing _ :=
    .deed (.connect .client _) (Program.runs_run .none _ _) <|
      .deed (.add _) (Program.runs_run .none _ _) <|
        .deed (.process _) (Program.runs_run .none _ _) (.stop _)
  have stored : ∀ before f ts result after, Deed.addressing = before ++ ⟨.process f, ts, result⟩ ::
      after → ∃ t ∈ Deed.turnsOf before, f ∈ t.after.store.feeds := by
    intro before f ts result after hsplit
    match before, hsplit with
    | [], h => cases h
    | [_], h => cases h
    | [_, _], h =>
      cases h
      exact ⟨_, List.mem_of_getElem? (i := 8) rfl, List.mem_singleton_self _⟩
    | _ :: _ :: _ :: before, h => cases before <;> cases h
  refine ⟨(Deed.turnsOf Deed.addressing).take 12, (Deed.turnsOf Deed.addressing)[12],
    (Deed.turnsOf Deed.addressing).drop 13, ?_, rfl, ?_⟩
  · exact (List.take_append_drop 12 _).symm
  · refine c.sessions_addressed stored List.mem_cons_self ?_
      (List.take_append_drop 12 _).symm rfl
    decide +kernel

end NotificationRelay
