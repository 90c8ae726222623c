/-
# What pages are drawn from

Whatever is shown of feeds comes from one call to the store, and the store draws the answer from
feeds that it keeps at that moment (`Call.drawn`). A page lists some of them and counts all of
them (`Shown.DrawnIn`).

Pages come out of the relay in two ways: a query returns one, and a session is offered one when it
connects or asks for history (`Deed.shown`). Each query is followed to the call that it ends with
(`Program.Runs.of_asking`), a session is offered nothing but what such a query has answered
(`Shown.Honest`), and while feeds are processed only live events are offered
(`Dispatch.only_makes`). So every page that comes of a deed is drawn from the store in one of its
turns (`Act.PerformedBy.shown_drawn`), and so are the senders of spam
(`Act.PerformedBy.senders_drawn`).
-/
import NotificationRelay.Proofs.Flow.Telling
import NotificationRelay.Proofs.Run.Course

namespace NotificationRelay

/-! ## What the store draws an answer from -/

/-- The feeds from which the answer to a call is drawn, in their order. -/
def Call.drawn : Call → Store → List Feed
  | .pageByIds ids listing _, s => s.newest fun f => ids.contains f.id && listing.accepts f
  | .pageBySender sender kind _, s => s.newest (Store.isOfSender sender kind)
  | .search criteria _, s => s.newest criteria.accepts
  | .pageBetween start stop _, s => s.feeds.filter (Store.isExported start stop)
  | .distinctSenders ids, s => ids.filterMap s.feed?
  | _, _ => []

/-- The feeds from which the answer was drawn in a turn. -/
def Turn.drawn (t : Turn) : List Feed := t.call.drawn t.before.store

/-- What is picked out of a store is stored in it. -/
theorem Store.mem_of_mem_newest {s : Store} {condition : Feed → Bool} {f : Feed}
    (hf : f ∈ s.newest condition) : f ∈ s.feeds :=
  (List.mem_filter.1 (List.mem_reverse.1 hf)).1

/-- Only feeds that are stored are drawn. -/
theorem Call.mem_feeds_of_mem_drawn {c : Call} {s : Store} {f : Feed} (hf : f ∈ c.drawn s) :
    f ∈ s.feeds := by
  cases c with
  | pageByIds | pageBySender | search => exact Store.mem_of_mem_newest hf
  | pageBetween => exact (List.mem_filter.1 hf).1
  | distinctSenders ids =>
    obtain ⟨i, -, hi⟩ := List.mem_filterMap.1 hf
    exact Store.mem_of_feed? hi
  | _ => cases hf

/-- What a page tells of which feeds there are: those that it lists, and how many it counts. -/
structure Shown where
  ids : List FeedId
  total : Nat
  deriving DecidableEq

/-- The part of feeds that lies on a page, and their number. -/
def Shown.page (p : Paging) (feeds : List Feed) : Shown := ⟨(p.slice feeds).map (·.id), feeds.length⟩

/-- What is shown is a page of the feeds that were drawn in one of the turns, unless nothing is
shown. -/
def Shown.DrawnIn (ts : List Turn) (x : Shown) : Prop :=
  x = ⟨[], 0⟩ ∨ ∃ t ∈ ts, ∃ p : Paging, x = .page p t.drawn

/-- What is drawn in some turns is drawn in any turns with them among them. -/
theorem Shown.DrawnIn.mono {ts us : List Turn} {x : Shown} (hx : x.DrawnIn ts) (sub : ts ⊆ us) :
    x.DrawnIn us :=
  hx.imp_right fun ⟨t, ht, p, hp⟩ => ⟨t, sub ht, p, hp⟩

/-! ## Pages that come out of the relay -/

/-- What a page of a listing shows. -/
def FeedPage.shown (p : FeedPage) : Shown := ⟨p.feeds.map (·.id), p.total⟩

/-- What a page of an export shows. -/
def ExportPage.shown (p : ExportPage) : Shown := ⟨p.feeds.map (·.id), p.total⟩

/-- What an event shows if it is a page. -/
def Event.shown? : Event → Option Shown
  | .snapshot page => some page.shown
  | .spamSnapshot page => some page.shown
  | .history page => some page.shown
  | _ => none

/-- What is shown to a session by a call. -/
def Call.shown? : Call → Option Shown
  | .offer _ e => e.shown?
  | _ => none

/-- What comes of an act that returns a page. -/
def Act.shown? : (a : Act) → a.Result → Option Shown
  | .feeds _ _ _ _, .ok page => some page.shown
  | .channelFeeds _ _ _ _, .ok page => some page.shown
  | .senderFeeds _ _ _, .ok page => some page.shown
  | .history _ _ _, .ok page => some page.shown
  | .search _, .ok page => some page.shown
  | _, _ => none

/-- The senders that come of an act which returns some. -/
def Act.senders? : (a : Act) → a.Result → Option (List String)
  | .spamSenders _, .ok senders => some senders
  | _, _ => none

/-- The pages that come of a deed: the one that it returns, and those that sessions are offered. -/
def Deed.shown (D : Deed) : List Shown :=
  (D.act.shown? D.result).toList ++ D.turns.filterMap (·.call.shown?)

/-- A page of a listing shows what was cut out. -/
theorem FeedPage.shown_listed (p : Paging) (feeds : List Feed) :
    (Query.listed (Store.page p feeds)).shown = .page p feeds := by
  simp only [shown, Query.listed, Store.page, Shown.page, List.map_map]
  rfl

/-- A page of an export shows what was cut out. -/
theorem ExportPage.shown_exported (p : Paging) (feeds : List Feed) :
    shown ⟨(Store.page p feeds).feeds.map Feed.exported, (Store.page p feeds).total⟩ =
      .page p feeds := by
  simp only [shown, Store.page, Shown.page, List.map_map]
  rfl

/-! ## Queries -/

/-- A query that ends with one call to the store fails, or answers with what it has read. -/
theorem Program.Runs.of_asking {ε α : Type} {c : Call} {next : c.Answer → Program (Except ε α)}
    {h h' : Hub} {ts : List Turn} {result : Except ε α}
    (r : (Program.call c next).Runs h ts result h') (read : Store → α)
    (ends : ∀ outages g, (∃ e, next (c.perform outages g).1 = .done (.error e)) ∨
      next (c.perform outages g).1 = .done (.ok (read g.store))) :
    (∃ e, result = .error e) ∨ ∃ t ∈ ts, t.call = c ∧ result = .ok (read t.before.store) := by
  obtain ⟨h₁, outages, us, -, rfl, rest⟩ := r.of_call
  rcases ends outages h₁ with ⟨e, ended⟩ | ended
  · rw [ended] at rest
    exact .inl ⟨e, rest.of_done.2.1⟩
  · rw [ended] at rest
    exact .inr ⟨_, List.mem_cons_self, rfl, rest.of_done.2.1⟩

namespace Query

variable {h h' : Hub} {ts : List Turn} {bound : Nat} {page : FeedPage}

/-- What a listing of a recipient shows was drawn from the store in its turns. -/
theorem drawn_recipientPage {raw : String} {isSpam : Bool} {listing : Listing} {p : Paging}
    (r : (recipientPage bound raw isSpam listing p).Runs h ts (.ok page) h') :
    page.shown.DrawnIn ts := by
  unfold recipientPage at r
  split at r
  · cases r.of_done.2.1
  · obtain ⟨h₁, outages, us, -, rfl, rest⟩ := Program.Runs.of_call r
    generalize (Call.perform outages _ h₁).1 = answer at rest
    cases answer with
    | error => cases (Program.Runs.of_done rest).2.1
    | ok ids =>
      replace rest : (if ids.isEmpty then _ else _ :
        Program (Except FeedError FeedPage)).Runs _ us (.ok page) h' := rest
      split at rest
      · cases rest.of_done.2.1
        exact .inl rfl
      · obtain ⟨e, failed⟩ | ⟨t, ht, call, answered⟩ := rest.of_asking
          (fun s => listed (s.pageByIds ids listing (p.clamp bound))) fun outages g => by
            simp only [Call.perform, Outages.guard]
            split
            · exact .inl ⟨_, rfl⟩
            · exact .inr rfl
        · cases failed
        · cases answered
          refine .inr ⟨t, List.mem_cons_of_mem _ ht, p.clamp bound, ?_⟩
          rw [Turn.drawn, call]
          exact FeedPage.shown_listed _ _

/-- What a listing of a sender shows was drawn from the store in its turns. -/
theorem drawn_senderFeeds {sender : String} {kind : Option Kind} {p : Paging}
    (r : (senderFeeds bound sender kind p).Runs h ts (.ok page) h') : page.shown.DrawnIn ts := by
  obtain ⟨e, failed⟩ | ⟨t, ht, call, answered⟩ := Program.Runs.of_asking r
    (fun s => listed (s.pageBySender sender kind (p.clamp bound))) fun outages g => by
      simp only [Call.perform, Outages.guard]
      split
      · exact .inl ⟨_, rfl⟩
      · exact .inr rfl
  · cases failed
  · cases answered
    refine .inr ⟨t, ht, p.clamp bound, ?_⟩
    rw [Turn.drawn, call]
    exact FeedPage.shown_listed _ _

/-- What a search shows was drawn from the store in its turns. -/
theorem drawn_search {request : SearchRequest}
    (r : (search bound request).Runs h ts (.ok page) h') : page.shown.DrawnIn ts := by
  unfold search at r
  split at r
  · cases r.of_done.2.1
  · obtain ⟨us, vs, found, h₁, rfl, -, rest⟩ := Program.Runs.of_bind r
    match found with
    | .error e => cases (Program.Runs.of_done rest).2.1
    | .ok [] =>
      cases (Program.Runs.of_done rest).2.1
      exact .inl rfl
    | .ok (sender :: others) =>
      next window _ =>
      obtain ⟨e, failed⟩ | ⟨t, ht, call, answered⟩ := Program.Runs.of_asking rest
        (fun s => listed (s.search
          ⟨sender :: others, searchTerm request.term, request.isSpam, window⟩
          (request.paging.clamp bound))) fun outages g => by
          simp only [Call.perform, Outages.guard]
          split
          · exact .inl ⟨_, rfl⟩
          · exact .inr rfl
      · cases failed
      · cases answered
        refine .inr ⟨t, List.mem_append_right _ ht, request.paging.clamp bound, ?_⟩
        rw [Turn.drawn, call]
        exact FeedPage.shown_listed _ _

/-- What an export shows was drawn from the store in its turns. -/
theorem drawn_history {start stop : Int} {p : Paging} {page : ExportPage}
    (r : (history bound start stop p).Runs h ts (.ok page) h') : page.shown.DrawnIn ts := by
  unfold history at r
  split at r
  · cases r.of_done.2.1
  · obtain ⟨e, failed⟩ | ⟨t, ht, call, answered⟩ := Program.Runs.of_asking r
      (fun s => ⟨(s.pageBetween start stop (p.clamp bound)).feeds.map Feed.exported,
        (s.pageBetween start stop (p.clamp bound)).total⟩) fun outages g => by
        simp only [Call.perform, Outages.guard]
        split
        · exact .inl ⟨_, rfl⟩
        · exact .inr rfl
    · cases failed
    · cases answered
      refine .inr ⟨t, ht, p.clamp bound, ?_⟩
      rw [Turn.drawn, call]
      exact ExportPage.shown_exported _ _

/-- The senders of spam are those of the feeds that are listed and stored. -/
theorem drawn_spamSenders {raw : String} {senders : List String}
    (r : (spamSenders raw).Runs h ts (.ok senders) h') :
    senders = [] ∨ ∃ t ∈ ts, senders = firstMentions (t.drawn.map (·.sender)) := by
  unfold spamSenders at r
  split at r
  · cases r.of_done.2.1
  · obtain ⟨h₁, outages, us, -, rfl, rest⟩ := Program.Runs.of_call r
    generalize (Call.perform outages _ h₁).1 = answer at rest
    cases answer with
    | error => cases (Program.Runs.of_done rest).2.1
    | ok ids =>
      replace rest : (if ids.isEmpty then _ else _ :
        Program (Except FeedError (List String))).Runs _ us (.ok senders) h' := rest
      split at rest
      · cases rest.of_done.2.1
        exact .inl rfl
      · obtain ⟨e, failed⟩ | ⟨t, ht, call, answered⟩ := rest.of_asking
          (fun s => s.distinctSenders ids) fun outages g => by
            simp only [Call.perform, Outages.guard]
            split
            · exact .inl ⟨_, rfl⟩
            · exact .inr rfl
        · cases failed
        · cases answered
          refine .inr ⟨t, List.mem_cons_of_mem _ ht, ?_⟩
          rw [Turn.drawn, call]
          rfl

end Query

/-! ## Sessions -/

/-- A program that shows nothing to a session. -/
abbrev Program.ShowsNothing {α : Type} (p : Program α) : Prop := p.Only fun c => c.shown? = none

/-- A program that only asks shows nobody anything. -/
theorem Program.Asking.showsNothing {α : Type} {p : Program α} (hp : p.Asking) : p.ShowsNothing :=
  hp.mono fun c hc => by cases c <;> first | rfl | cases hc

/-- Everything that was shown to a session in turns was drawn in one of them. -/
def Shown.Honest (ts : List Turn) : Prop := ∀ x ∈ ts.filterMap (·.call.shown?), x.DrawnIn ts

namespace Shown.Honest

variable {ts us : List Turn}

/-- Turns that are honest, followed by others that are. -/
theorem append (ht : Honest ts) (hu : Honest us) : Honest (ts ++ us) := by
  intro x hx
  rw [List.filterMap_append, List.mem_append] at hx
  rcases hx with hx | hx
  · exact (ht x hx).mono (List.subset_append_left ts us)
  · exact (hu x hx).mono (List.subset_append_right ts us)

/-- A run that shows nobody anything is honest. -/
theorem of_runs {α : Type} {p : Program α} {h h' : Hub} {a : α} (r : p.Runs h ts a h')
    (hp : p.ShowsNothing) : Honest ts := by
  intro x hx
  obtain ⟨t, ht, shown⟩ := List.mem_filterMap.1 hx
  rw [r.only hp t ht] at shown
  cases shown

/-- A session is offered the page that a query has answered with. -/
theorem of_offerPage {α : Type} {p : Program (Except FeedError α)} {event : α → Event}
    {shown : α → Shown} {id : SessionId} {h h' : Hub} {a : Unit}
    (r : (p.bind (Gateway.offerPage id event)).Runs h ts a h') (asking : p.Asking)
    (event_shown : ∀ page, (event page).shown? = some (shown page))
    (drawn : ∀ {us page h₁}, p.Runs h us (.ok page) h₁ → (shown page).DrawnIn us) : Honest ts := by
  obtain ⟨us, vs, answer, h₁, rfl, query, rest⟩ := r.of_bind
  have silent : us.filterMap (·.call.shown?) = [] := List.filterMap_eq_nil_iff.2 fun t ht =>
    query.only (Program.Asking.showsNothing asking) t ht
  cases answer with
  | error e =>
    obtain ⟨rfl, -, -⟩ := Program.Runs.of_done rest
    rw [List.append_nil]
    exact of_runs query (Program.Asking.showsNothing asking)
  | ok page =>
    obtain ⟨h₂, outages, ws, -, rfl, last⟩ := Program.Runs.of_call rest
    obtain ⟨rfl, -, -⟩ := Program.Runs.of_done last
    intro x hx
    rw [List.filterMap_append, silent, List.nil_append] at hx
    obtain ⟨t, ht, same⟩ := List.mem_filterMap.1 hx
    rw [List.mem_singleton.1 ht] at same
    obtain rfl : shown page = x := Option.some.inj ((event_shown page).symm.trans same)
    exact (drawn query).mono (List.subset_append_left us _)

end Shown.Honest

namespace Gateway

variable {h h' : Hub} {ts : List Turn} {b : Bounds} {id : SessionId}

/-- A snapshot is honest. -/
theorem honest_snapshot {address : String} {a : Unit}
    (r : (snapshot b address id).Runs h ts a h') : Shown.Honest ts := by
  replace r : ((Query.feeds b.maxPageSize address false false (.make 1 b.snapshotSize)).bind
    fun normal => (offerPage id .snapshot normal).bind fun _ =>
      (Query.feeds b.maxPageSize address true false (.make 1 b.snapshotSize)).bind
        (offerPage id .spamSnapshot)).Runs h ts a h' := r
  rw [← Program.bind_assoc] at r
  obtain ⟨us, vs, _, h₁, rfl, normal, spam⟩ := r.of_bind
  exact (Shown.Honest.of_offerPage normal (Query.asking_recipientPage ..) (fun _ => rfl)
    Query.drawn_recipientPage).append
      (.of_offerPage spam (Query.asking_recipientPage ..) (fun _ => rfl) Query.drawn_recipientPage)

/-- The admission of a session is honest. -/
theorem honest_connect {mode : SessionMode} {raw : Option String} {a : Admission}
    (r : (connect b mode raw).Runs h ts a h') : Shown.Honest ts := by
  have refused : ∀ id e, (refuse id e).ShowsNothing := fun id e =>
    Program.Only.bind (Program.only_perform rfl) fun _ => trivial
  have later : ∀ {t : Turn} {us : List Turn}, t.call.shown? = none → Shown.Honest us →
      Shown.Honest (t :: us) := fun {t us} silent honest x hx => by
    rw [List.filterMap_cons_none (f := fun t : Turn => t.call.shown?) silent] at hx
    exact (honest x hx).mono (List.subset_cons_self t us)
  obtain ⟨h₁, outages, us, -, rfl, rest⟩ := Program.Runs.of_call r
  refine later rfl ?_
  generalize (Call.perform outages _ h₁).1 = answer at rest
  match answer, mode with
  | none, _ =>
    obtain ⟨rfl, -, -⟩ := Program.Runs.of_done rest
    exact fun x hx => nomatch hx
  | some id, .delivery =>
    obtain ⟨h₂, outages, vs, -, rfl, last⟩ := Program.Runs.of_call rest
    obtain ⟨rfl, -, -⟩ := Program.Runs.of_done last
    exact later rfl fun x hx => nomatch hx
  | some id, .client =>
    dsimp only at rest
    split at rest
    · exact .of_runs rest (refused id _)
    · obtain ⟨h₂, outages, vs, -, rfl, admits⟩ := Program.Runs.of_call rest
      refine later rfl ?_
      generalize (Call.perform outages _ h₂).1 = answer at admits
      cases answer with
      | error e => exact .of_runs admits (refused id e)
      | ok =>
        replace admits : ((snapshot b _ id).bind _).Runs _ vs a h' := admits
        obtain ⟨us, vs, _, h₃, rfl, offers, last⟩ := admits.of_bind
        obtain ⟨rfl, -, -⟩ := last.of_done
        rw [List.append_nil]
        exact honest_snapshot offers

/-- What a session sends is taken in honestly. -/
theorem honest_receive {mode : SessionMode} {frame : Frame} {a : Unit}
    (r : (receive b mode id frame).Runs h ts a h') : Shown.Honest ts := by
  match frame, mode with
  | .text content, .delivery =>
    replace r : (answer b id content).Runs h ts a h' := r
    unfold answer at r
    split at r
    · obtain ⟨rfl, -, -⟩ := r.of_done
      exact fun x hx => nomatch hx
    · exact .of_offerPage r (Query.asking_history ..) (fun _ => rfl) Query.drawn_history
  | .text _, .client => exact .of_runs r trivial
  | .binary, _ => exact .of_runs r trivial
  | .closed, _ => exact .of_runs r (Program.only_perform rfl)

end Gateway

/-! ## Feeds that are processed -/

/-- The calls by which a feed is offered to sessions. -/
inductive Dispatch.Makes (f : Feed) : Call → Prop
  | clients : Makes f (.clientsFor f.recipients)
  | nodes : Makes f .nodes
  | toClient (k : SessionId) : Makes f (.offer k (Event.forClient f f.enriched))
  | toNode (k : SessionId) : Makes f (.offer k (Event.forNode f f.enriched))

/-- A feed is told of by live events, and nothing else is offered. -/
theorem Dispatch.only_makes (f : Feed) : (dispatch f f.enriched).Only (Makes f) := by
  have offers : ∀ ids e, (∀ k, Makes f (.offer k e)) → (offerAll ids e).Only (Makes f) :=
    fun ids e makes => Program.Only.bind
      (Program.only_forEach fun k _ => Program.only_perform (makes k)) fun _ => trivial
  refine (Program.only_perform .clients).bind fun clients => ?_
  refine Program.Only.bind (Program.only_perform .nodes) fun nodes => ?_
  exact (offers _ _ .toClient).bind fun _ => (offers _ _ .toNode).bind fun _ => trivial

/-- A live event shows no page. -/
theorem Event.shown?_forClient (f : Feed) (payload : Payload) :
    (forClient f payload).shown? = none := by
  unfold forClient
  split <;> rfl

/-- The calls by which sessions are told of a feed show no page. -/
theorem Dispatch.Makes.shown? {f : Feed} {c : Call} (hc : Makes f c) : c.shown? = none := by
  cases hc with
  | toClient => exact Event.shown?_forClient f _
  | _ => rfl

/-- Processing a feed shows nobody a page. -/
theorem Processing.showsNothing_process (t : Broadcast.Topic) (f : Feed) :
    (process t f).ShowsNothing := by
  rw [process_eq]
  refine Program.Only.bind (Program.only_perform rfl) fun _ => ?_
  refine ((Dispatch.only_makes f).mono fun c hc => hc.shown?).bind fun dispatch => ?_
  refine ((Broadcast.only_publish t f).mono fun c hc => ?_).bind fun outcome => ?_
  · cases hc <;> rfl
  · refine only_settle f ?_ ?_ dispatch outcome <;> rfl

/-- Handling an entry of the outbox shows nobody a page. -/
theorem Outbox.showsNothing_relayOne (t : Broadcast.Topic) (i : FeedId) :
    (relayOne t i).ShowsNothing := by
  have acknowledge : (acknowledge i).ShowsNothing :=
    Program.Only.bind_except (Program.only_perform rfl) (fun _ => trivial) fun _ => trivial
  refine only_load_bind i rfl (fun _ => trivial) acknowledge fun f _ => ?_
  show (if f.processed then Outbox.acknowledge i else _ : Program _).Only _
  split
  · exact acknowledge
  · exact Program.Only.bind (Processing.showsNothing_process t f) fun _ => acknowledge

/-! ## All acts -/

namespace Act.PerformedBy

variable {s : Settings} {D : Deed} {p : Program D.act.Result} {h h' : Hub}

/-- Whatever sessions are shown was drawn for them. -/
theorem honest {a : Act} {α : Type} {p : Program α} (hp : a.PerformedBy s p) {ts : List Turn}
    {result : α} (run : p.Runs h ts result h') : Shown.Honest ts := by
  have added : ∀ d, (Intake.add d).ShowsNothing := fun d => (Intake.only_add d).mono fun c hc => by
    cases hc with
    | insert => rfl
    | index hc => cases hc <;> rfl
  cases hp with
  | submit x epoch =>
    unfold Intake.submit at run
    split at run
    · exact .of_runs run trivial
    · exact .of_runs run (added _)
  | add d => exact .of_runs run (added d)
  | drain sideBySide =>
    refine .of_runs run (Program.Only.bind_except (Program.only_perform rfl) (fun _ => trivial)
      fun ids => Program.Only.bind ((sideBySide ids).only fun q hq => ?_) fun _ => trivial)
    obtain ⟨i, -, rfl⟩ := List.mem_map.1 hq
    exact Outbox.showsNothing_relayOne s.topic i
  | retry sideBySide =>
    refine .of_runs run (Program.Only.bind_except (Program.only_perform rfl) (fun _ => trivial)
      fun feeds => Program.Only.bind ((sideBySide feeds).only fun q hq => ?_) fun _ => trivial)
    obtain ⟨f, -, rfl⟩ := List.mem_map.1 hq
    exact Processing.showsNothing_process s.topic f
  | process f => exact .of_runs run (Processing.showsNothing_process s.topic f)
  | sweep now =>
    exact .of_runs run ((Expiry.only_sweep now).mono fun c hc => by cases hc <;> rfl)
  | connect mode raw => exact Gateway.honest_connect run
  | receive mode id frame => exact Gateway.honest_receive run
  | disconnect id => exact .of_runs run (Program.only_perform rfl)
  | feeds | channelFeeds =>
    exact .of_runs run (Program.Asking.showsNothing (Query.asking_recipientPage ..))
  | spamSenders => exact .of_runs run (Program.Asking.showsNothing (Query.asking_spamSenders ..))
  | senderFeeds => exact .of_runs run (Program.Asking.showsNothing (Query.asking_senderFeeds ..))
  | history => exact .of_runs run (Program.Asking.showsNothing (Query.asking_history ..))
  | search => exact .of_runs run (Program.Asking.showsNothing (Query.asking_search ..))

/-- **Every page that comes of a deed is drawn from the store** in one of its turns. -/
theorem shown_drawn (hp : D.act.PerformedBy s p) (run : p.Runs h D.turns D.result h') :
    ∀ x ∈ D.shown, x.DrawnIn D.turns := by
  intro x hx
  rcases List.mem_append.1 hx with returned | offered
  · obtain ⟨a, ts, result⟩ := D
    rw [Option.mem_toList] at returned
    cases hp with
    | feeds | channelFeeds =>
      cases result with
      | error => cases returned
      | ok page =>
        cases returned
        exact Query.drawn_recipientPage run
    | senderFeeds =>
      cases result with
      | error => cases returned
      | ok page =>
        cases returned
        exact Query.drawn_senderFeeds run
    | history =>
      cases result with
      | error => cases returned
      | ok page =>
        cases returned
        exact Query.drawn_history run
    | search =>
      cases result with
      | error => cases returned
      | ok page =>
        cases returned
        exact Query.drawn_search run
    | _ => cases returned
  · exact hp.honest run x offered

/-- **The senders of spam are those of feeds drawn from the store** in one of the turns. -/
theorem senders_drawn (hp : D.act.PerformedBy s p) (run : p.Runs h D.turns D.result h')
    {senders : List String} (returned : D.act.senders? D.result = some senders) :
    senders = [] ∨ ∃ t ∈ D.turns, senders = firstMentions (t.drawn.map (·.sender)) := by
  obtain ⟨a, ts, result⟩ := D
  cases hp with
  | spamSenders =>
    cases result with
    | error => cases returned
    | ok senders =>
      cases returned
      exact Query.drawn_spamSenders run
  | _ => cases returned

end Act.PerformedBy

end NotificationRelay
