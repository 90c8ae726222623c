/-
# Histories

What a relay has done is a sequence of acts (`Act`): submissions, passes over the outbox,
retry passes, sweeps, sessions that come, speak and go, and queries. `Act.PerformedBy`
says which programs perform an act. For most acts there is one; for the two passes there
is one for each way in which the feeds of a batch can be processed side by side within the
bound of the settings. The pass that handles one feed after another is always among them
(`Act.performedBy_drain`, `Act.performedBy_retry`), and if the bound is one it is
alone (`Act.PerformedBy.eq_drain`, `Act.PerformedBy.eq_retry`).

A `History` lines up runs of such programs, with every call under outages of its own and
the world outside at work within and between the acts.
-/
import NotificationRelay.Proofs.Run.Calls
import NotificationRelay.Proofs.Run.Weave

namespace NotificationRelay

/-- Something that a relay is asked to do. -/
inductive Act where
  | submit (submission : Submission) (epoch : Int)
  /-- Store a draft that has been checked already. -/
  | add (draft : Draft)
  | drain
  | retry
  /-- Process a feed outside the two passes. -/
  | process (feed : Feed)
  | sweep (now : Int)
  | connect (mode : SessionMode) (address : Option String)
  | receive (mode : SessionMode) (id : SessionId) (frame : Gateway.Frame)
  | disconnect (id : SessionId)
  | feeds (raw : String) (isSpam includeHidden : Bool) (paging : Paging)
  | channelFeeds (raw : String) (isSpam : Bool) (channel : String) (paging : Paging)
  | spamSenders (raw : String)
  | senderFeeds (sender : String) (kind : Option Kind) (paging : Paging)
  | history (start stop : Int) (paging : Paging)
  | search (request : Query.SearchRequest)

namespace Act

/-- An act that processes feeds. -/
def processes : Act → Bool
  | .drain => true
  | .retry => true
  | .process _ => true
  | _ => false

/-- The programs that perform an act under given settings. -/
inductive PerformedBy (s : Settings) : Act → {α : Type} → Program α → Prop
  | submit (x : Submission) (epoch : Int) :
      PerformedBy s (.submit x epoch) (Intake.submit x epoch)
  | add (d : Draft) : PerformedBy s (.add d) (Intake.add d)
  | drain {handle : List FeedId → Program (List Bool)}
      (sideBySide : ∀ ids, Program.Weave s.pipeline.concurrency
        (ids.map (Outbox.relayOne s.topic)) (handle ids)) :
      PerformedBy s .drain (Outbox.drainBy handle s.pipeline.relayBatchSize)
  | retry {handle : List Feed → Program (List (Except FeedError Processing.Report))}
      (sideBySide : ∀ feeds, Program.Weave s.pipeline.concurrency
        (feeds.map (Processing.process s.topic)) (handle feeds)) :
      PerformedBy s .retry
        (Retry.passBy handle s.pipeline.maxAttempts s.pipeline.retryBatchSize)
  | process (f : Feed) : PerformedBy s (.process f) (Processing.process s.topic f)
  | sweep (now : Int) : PerformedBy s (.sweep now) (Expiry.sweep now)
  | connect (mode : SessionMode) (address : Option String) :
      PerformedBy s (.connect mode address) (Gateway.connect s.bounds mode address)
  | receive (mode : SessionMode) (id : SessionId) (frame : Gateway.Frame) :
      PerformedBy s (.receive mode id frame) (Gateway.receive s.bounds mode id frame)
  | disconnect (id : SessionId) :
      PerformedBy s (.disconnect id) (Program.perform (.unregister id))
  | feeds (raw : String) (isSpam includeHidden : Bool) (p : Paging) :
      PerformedBy s (.feeds raw isSpam includeHidden p)
        (Query.feeds s.query.maxPageSize raw isSpam includeHidden p)
  | channelFeeds (raw : String) (isSpam : Bool) (channel : String) (p : Paging) :
      PerformedBy s (.channelFeeds raw isSpam channel p)
        (Query.channelFeeds s.query.maxPageSize raw isSpam channel p)
  | spamSenders (raw : String) : PerformedBy s (.spamSenders raw) (Query.spamSenders raw)
  | senderFeeds (sender : String) (kind : Option Kind) (p : Paging) :
      PerformedBy s (.senderFeeds sender kind p)
        (Query.senderFeeds s.query.maxPageSize sender kind p)
  | history (start stop : Int) (p : Paging) :
      PerformedBy s (.history start stop p) (Query.history s.query.maxPageSize start stop p)
  | search (request : Query.SearchRequest) :
      PerformedBy s (.search request) (Query.search s.query.maxPageSize request)

variable {s : Settings}

/-- A pass over the outbox without a script is performed one entry after another. -/
theorem performedBy_drain (hc : 1 ≤ s.pipeline.concurrency) :
    PerformedBy s .drain (Outbox.drain s.topic s.pipeline.relayBatchSize) :=
  .drain fun ids => Program.weave_forEach hc ids _

/-- A retry pass without a script is performed one feed after another. -/
theorem performedBy_retry (hc : 1 ≤ s.pipeline.concurrency) :
    PerformedBy s .retry
      (Retry.pass s.topic s.pipeline.maxAttempts s.pipeline.retryBatchSize) :=
  .retry fun feeds => Program.weave_forEach hc feeds _

/-- **Alone under way.** If no two feeds of a batch may be under way together, a pass over
the outbox handles one entry after another. -/
theorem PerformedBy.eq_drain {p : Program (Stored Nat)} (hp : PerformedBy s .drain p)
    (hc : s.pipeline.concurrency = 1) : p = Outbox.drain s.topic s.pipeline.relayBatchSize := by
  cases hp with
  | drain sideBySide =>
    rw [hc] at sideBySide
    rw [Program.Weave.eq_forEach_of_one sideBySide, Outbox.drain]

/-- Where feeds are handled one after another there is one retry pass. -/
theorem PerformedBy.eq_retry {p : Program (Stored Retry.Report)} (hp : PerformedBy s .retry p)
    (hc : s.pipeline.concurrency = 1) :
    p = Retry.pass s.topic s.pipeline.maxAttempts s.pipeline.retryBatchSize := by
  cases hp with
  | retry sideBySide =>
    rw [hc] at sideBySide
    rw [Program.Weave.eq_forEach_of_one sideBySide, Retry.pass]

/-- The calls that can be made for an act. -/
def Makes (s : Settings) : Act → Call → Prop
  | .submit x epoch => fun c => ∃ d, x.validate epoch = .ok d ∧ Intake.Makes d c
  | .add d => Intake.Makes d
  | .drain => fun c => ∃ id, Outbox.Makes s.topic id c
  | .retry => fun c => c.isPassive = true ∨ ∃ f, Processing.Makes s.topic f c
  | .process f => Processing.Makes s.topic f
  | .sweep now => Expiry.Makes now
  | _ => fun c => c.isPassive = true

/-- An act makes its own calls only, however its programs take turns. -/
theorem PerformedBy.only {a : Act} {α : Type} {p : Program α} (hp : PerformedBy s a p) :
    p.Only (a.Makes s) := by
  cases hp with
  | submit x epoch =>
    show (Intake.submit x epoch).Only _
    unfold Intake.submit
    split
    · trivial
    · next d hd => exact (Intake.only_add d).mono fun c hc => ⟨d, hd, hc⟩
  | add d => exact Intake.only_add d
  | drain sideBySide =>
    refine Program.Only.bind_except (Program.only_perform ⟨0, .passive rfl⟩) (fun _ => trivial)
      fun ids => Program.Only.bind ((sideBySide ids).only fun p hp => ?_) fun _ => trivial
    obtain ⟨id, _, rfl⟩ := List.mem_map.1 hp
    exact (Outbox.only_relayOne s.topic id).mono fun c hc => ⟨id, hc⟩
  | retry sideBySide =>
    refine Program.Only.bind_except (Program.only_perform (.inl rfl)) (fun _ => trivial)
      fun feeds => Program.Only.bind ((sideBySide feeds).only fun p hp => ?_) fun _ => trivial
    obtain ⟨f, _, rfl⟩ := List.mem_map.1 hp
    exact (Processing.only_process s.topic f).mono fun c hc => .inr ⟨f, hc⟩
  | process f => exact Processing.only_process s.topic f
  | sweep now => exact Expiry.only_sweep now
  | connect mode address => exact Gateway.passive_connect ..
  | receive mode id frame => exact Gateway.passive_receive ..
  | disconnect id => exact Program.passive_perform rfl
  | feeds => exact (Query.asking_recipientPage ..).passive
  | channelFeeds => exact (Query.asking_recipientPage ..).passive
  | spamSenders => exact (Query.asking_spamSenders ..).passive
  | senderFeeds => exact (Query.asking_senderFeeds ..).passive
  | history => exact (Query.asking_history ..).passive
  | search => exact (Query.asking_search ..).passive

end Act

/-- What a relay has done on a hub: the calls it made, and the hub it left. -/
inductive History (s : Settings) (allowed : Act → Prop) (start : Hub) :
    List Turn → Hub → Prop
  | start : History s allowed start [] start
  | act {a : Act} {α : Type} {p : Program α} {result : α} {ts us : List Turn} {h h' : Hub}
      (before : History s allowed start ts h) (ha : allowed a) (hp : a.PerformedBy s p)
      (run : p.Runs h us result h') : History s allowed start (ts ++ us) h'
  | outside {ts : List Turn} {h h' : Hub} (before : History s allowed start ts h)
      (o : h.Outside h') : History s allowed start ts h'

/-- A history goes on with an act that is performed alone. -/
theorem History.andThen {s : Settings} {allowed : Act → Prop} {start h : Hub} {ts : List Turn}
    {a : Act} {α : Type} {p : Program α} (before : History s allowed start ts h) (ha : allowed a)
    (hp : a.PerformedBy s p) (outages : Outages) :
    History s allowed start (ts ++ p.turns outages h) (p.run outages h).2 :=
  .act before ha hp (p.runs_run outages h)

/-- A property of the hub that outlasts the world outside, and every call of the acts that
are allowed, holds at every turn of a history and after it. -/
theorem History.keeps {s : Settings} {allowed : Act → Prop} {start h : Hub} {ts : List Turn}
    (inv : Hub → Prop) (hist : History s allowed start ts h)
    (hout : ∀ g g' : Hub, g.Outside g' → inv g → inv g')
    (hcall : ∀ a c outages g, allowed a → Act.Makes s a c → inv g → inv (c.perform outages g).2)
    (hs : inv start) : inv h ∧ ∀ t ∈ ts, inv t.before ∧ inv t.after := by
  induction hist with
  | start => exact ⟨hs, fun t ht => by cases ht⟩
  | act _ ha hp run ih =>
    obtain ⟨hlast, hturns⟩ := run.keeps inv hp.only hout (fun c o g => hcall _ c o g ha) ih.1
    refine ⟨hlast, fun t ht => ?_⟩
    rcases List.mem_append.1 ht with ht | ht
    · exact ih.2 t ht
    · exact hturns t ht
  | outside _ o ih => exact ⟨hout _ _ o ih.1, ih.2⟩

/-- The turns of a history are a chain from its first store to its last. -/
theorem History.chain {s : Settings} {allowed : Act → Prop} {start h : Hub} {ts : List Turn}
    (hist : History s allowed start ts h) : Turn.Chain start.store ts h.store := by
  induction hist with
  | start => exact .nil start.store
  | act _ _ _ run ih => exact ih.append run.chain
  | outside _ o ih => rwa [o.store_eq]

/-- A rule that the programs of all acts keep every history keeps. -/
theorem History.obeys {s : Settings} {allowed : Act → Prop} {start h : Hub} {ts : List Turn}
    {rule : Turn → Prop} (hist : History s allowed start ts h)
    (hrule : ∀ (a : Act) {α : Type} (p : Program α), a.PerformedBy s p → p.Obeys rule) :
    ∀ t ∈ ts, rule t := by
  induction hist with
  | start => exact fun t ht => by cases ht
  | act _ _ hp run ih =>
    intro t ht
    rcases List.mem_append.1 ht with ht | ht
    · exact ih t ht
    · exact hrule _ _ hp _ _ _ _ run t ht
  | outside _ _ ih => exact ih

/-! ## Material for small histories -/

/-- Settings as they come, with a topic. -/
def Settings.sample : Settings where
  gateway := ⟨"127.0.0.1", 8080⟩
  broadcast := { enabled := true, endpoint := some "http://127.0.0.1:9000" }

/-- A notification to given recipients. -/
def Draft.sample (payloadId : String) (recipients : List String) (epoch : Int) : Draft where
  payloadId := payloadId
  sender := "eip155:0x00000000000000000000000000000000000000aa"
  channel := none
  senderType := .channel
  recipients := recipients
  payload := ⟨⟨.broadcast, none, none, "subject", "message", []⟩, ⟨"title", "body"⟩,
    .many recipients, ""⟩
  source := "ETH_MAINNET"
  isSpam := false
  hidden := false
  epoch := epoch
  expiry := none
  delegate := none

/-- The watermark cannot be reached. -/
def Outages.ofWatermark : Outages
  | .advance _ _ => some "unreachable"
  | _ => Option.none

/-- Nothing can be marked as processed. -/
def Outages.ofCompletion : Outages
  | .complete _ _ => some "unreachable"
  | _ => Option.none

/-- A hub on which nothing has happened, with a topic that can be reached. -/
def Hub.sample : Hub := .empty 10 ⟨true, [], []⟩

end NotificationRelay
