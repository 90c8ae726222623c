/-
# Listings that are read page by page

Every listing can be read page by page, always with the same size (`Query.browse`). While the store
stays as it is, each page is cut out of one and the same list: of the feeds that the query is about
(`PagedQuery.Picks`), each once and newest first, or oldest first for an export. A search is not
quite without effects, since it keeps the channels of the subscriber in the cache; but then it finds
there what it has looked up before (`SearchRequest.Seeks.again`).

So the pages tile that list as they do any other (`Paging.tiles`): nothing that matches is missed or
shown twice, and every page counts all of it (`Query.pages_tile`).
-/
import NotificationRelay.Proofs.Query.Export
import NotificationRelay.Proofs.Query.Searching

namespace NotificationRelay

/-- If every item is answered while something holds, and it goes on to hold, then all of them are
answered. -/
theorem Program.run_forEach {α β : Type} {outages : Outages} {body : α → Program β} {answer : α → β}
    {steady : Hub → Prop}
    (step : ∀ a g, steady g → ((body a).run outages g).1 = answer a ∧
      steady ((body a).run outages g).2) (items : List α) {h : Hub} (hh : steady h) :
    ((forEach items body).run outages h).1 = items.map answer ∧
      steady ((forEach items body).run outages h).2 := by
  induction items generalizing h with
  | nil => exact ⟨rfl, hh⟩
  | cons a rest ih =>
    obtain ⟨first, hh'⟩ := step a h hh
    obtain ⟨others, after⟩ := ih hh'
    have run : (forEach (a :: rest) body).run outages h =
        ((((body a).run outages h).1 :: ((forEach rest body).run outages
          ((body a).run outages h).2).1), ((forEach rest body).run outages
          ((body a).run outages h).2).2) :=
      (run_bind ..).trans (run_bind ..)
    rw [run, first, others]
    exact ⟨rfl, after⟩

namespace Query

/-! ## Pages that are asked for one after another -/

section

variable {Row Answer : Type} (ask : Paging → Program (Except FeedError Answer))

/-- Pages of one size are asked for one after another. -/
def browse (size : Nat) (pages : List Nat) : Program (List (Except FeedError Answer)) :=
  Program.forEach pages fun page => ask (.make page size)

/-- Some rows can be read page by page. Whatever pages are asked for, in whatever order, each
answers with the rows at its positions and with the number of all rows, and the store stays as it
is. If the pages are asked for from one on, until there are enough of them, their parts make up all
rows. -/
structure Browses (answer : List Row → Nat → Answer) (bound size : Nat) (h : Hub)
    (rows : List Row) : Prop where
  each : ∀ pages, ((browse ask size pages).run .none h).1 = pages.map fun page =>
    .ok (answer (((Paging.make page size).clamp bound).slice rows) rows.length)
  kept : ∀ pages, ((browse ask size pages).run .none h).2.store = h.store
  whole : ∀ pages, pageCount bound size rows.length ≤ pages → ∃ parts : List (List Row),
    ((browse ask size (List.range' 1 pages)).run .none h).1 =
        parts.map (fun part => .ok (answer part rows.length)) ∧
      parts.flatten = rows ∧ ∀ part ∈ parts, part.length ≤ pageSize bound size

/-- No page can be read, and the reason is always the same. -/
def Refuses (size : Nat) (h : Hub) : Prop :=
  ∃ e, ∀ pages, (browse ask size pages).run .none h = (pages.map fun _ => .error e, h)

variable {ask} {answer : List Row → Nat → Answer} {bound size : Nat} {h : Hub} {rows : List Row}

/-- Rows can be read page by page if every page is answered while something holds of which the store
is a part, and it goes on to hold. -/
theorem Browses.of_steady (few : rows.length ≤ Text.maxWord) {steady : Hub → Prop} (hh : steady h)
    (store : ∀ g, steady g → g.store = h.store)
    (step : ∀ page g, steady g → ((ask (.make page size)).run .none g).1 =
        .ok (answer (((Paging.make page size).clamp bound).slice rows) rows.length) ∧
      steady ((ask (.make page size)).run .none g).2) :
    Browses ask answer bound size h rows where
  each pages := (Program.run_forEach step pages hh).1
  kept pages := store _ (Program.run_forEach step pages hh).2
  whole pages enough := by
    refine ⟨(List.range' 1 pages).map fun page =>
      ((Paging.make page size).clamp bound).slice rows, ?_, ?_, ?_⟩
    · rw [List.map_map]
      exact (Program.run_forEach step _ hh).1
    · rw [← List.flatMap_def]
      exact Paging.flatMap_slice_of_le few enough
    · rintro part there
      obtain ⟨page, -, rfl⟩ := List.mem_map.1 there
      exact Paging.length_slice_le _ rows

/-- Rows can be read page by page if asking for a page changes nothing. -/
theorem Browses.of_run (few : rows.length ≤ Text.maxWord)
    (run : ∀ page, (ask (.make page size)).run .none h =
      (.ok (answer (((Paging.make page size).clamp bound).slice rows) rows.length), h)) :
    Browses ask answer bound size h rows := by
  have start : h = h := rfl
  refine .of_steady few start (fun _ same => congrArg Hub.store same.symm) fun page g same => ?_
  rw [← same, run page]
  exact ⟨rfl, rfl⟩

/-- Pages are refused if every page is, for the same reason. -/
theorem Refuses.of_run {e : FeedError}
    (run : ∀ page, (ask (.make page size)).run .none h = (.error e, h)) : Refuses ask size h := by
  have step : ∀ page g, g = h → ((ask (.make page size)).run .none g).1 = .error e ∧
      ((ask (.make page size)).run .none g).2 = h := fun page g same => by
    rw [same, run page]
    exact ⟨rfl, rfl⟩
  refine ⟨e, fun pages => ?_⟩
  obtain ⟨answers, same⟩ := Program.run_forEach step pages rfl
  exact Prod.ext answers same

end

end Query

/-! ## What a query is about -/

/-- A query that lists feeds page by page. A search comes with a page, which does not matter: it is
made for every page anew. -/
inductive PagedQuery where
  | feeds (raw : String) (isSpam includeHidden : Bool)
  | channelFeeds (raw : String) (isSpam : Bool) (channel : String)
  | senderFeeds (sender : String) (kind : Option Kind)
  | search (request : Query.SearchRequest)

namespace PagedQuery

/-- The query for one page. -/
def ask (bound : Nat) : PagedQuery → Paging → Program (Except FeedError FeedPage)
  | .feeds raw isSpam includeHidden, p => Query.feeds bound raw isSpam includeHidden p
  | .channelFeeds raw isSpam channel, p => Query.channelFeeds bound raw isSpam channel p
  | .senderFeeds sender kind, p => Query.senderFeeds bound sender kind p
  | .search request, p => Query.search bound { request with paging := p }

/-- The feeds of a hub that a query is about. What the index lists under a recipient is taken as it
stands, and so are the channels in which a search looks. -/
inductive Picks (h : Hub) : PagedQuery → (Feed → Prop) → Prop
  | feeds {raw address : String} {isSpam includeHidden : Bool}
      (key : Address.normalize raw = some address) :
      Picks h (.feeds raw isSpam includeHidden) fun f =>
        f.id ∈ h.store.indexed address isSpam ∧ (includeHidden = true ∨ f.hidden = false)
  | channelFeeds {raw address channel : String} {isSpam : Bool}
      (key : Address.normalize raw = some address) :
      Picks h (.channelFeeds raw isSpam channel) fun f =>
        f.id ∈ h.store.indexed address isSpam ∧ f.hidden = false ∧ f.sender = channel ∧
          f.isSpam = isSpam
  | senderFeeds {sender : String} {kind : Option Kind} :
      Picks h (.senderFeeds sender kind) fun f =>
        f.sender = sender ∧ f.hidden = false ∧ ∀ k, kind = some k → f.payload.data.kind = k
  | search {request : Query.SearchRequest} {senders : List String}
      (ordered : ∀ low high, ¬ request.filter.Inverted low high)
      (seeks : request.Seeks .none h (.ok senders)) :
      Picks h (.search request) (request.Finds senders)

end PagedQuery

namespace Query

variable {h : Hub} {bound size : Nat}

/-- A page of a listing is cut out of what is shown of the feeds. -/
theorem listed_page (p : Paging) (feeds : List Feed) : listed (Store.page p feeds) =
    ⟨p.slice (feeds.map Feed.view), (feeds.map Feed.view).length⟩ := by
  rw [← Paging.map_slice, List.length_map]
  rfl

/-- A page of an export is cut out of what is exported of the feeds. -/
theorem exported_page (p : Paging) (feeds : List Feed) : exported (Store.page p feeds) =
    ⟨p.slice (feeds.map Feed.exported), (feeds.map Feed.exported).length⟩ := by
  rw [← Paging.map_slice, List.length_map]
  rfl

/-- No more feeds are picked than there are. -/
theorem few_newest (few : h.store.feeds.length ≤ Text.maxWord) (test : Feed → Bool) :
    ((h.store.newest test).map Feed.view).length ≤ Text.maxWord := by
  rw [List.length_map, Store.newest, List.length_reverse]
  exact Nat.le_trans (List.length_filter_le _ _) few

/-- What a recipient is listed can be read page by page. -/
theorem browses_recipientPage {raw address : String} (few : h.store.feeds.length ≤ Text.maxWord)
    (key : Address.normalize raw = some address) (isSpam : Bool) (listing : Listing) :
    Browses (recipientPage bound raw isSpam listing) FeedPage.mk bound size h
      ((h.store.newest fun f =>
        (h.store.indexed address isSpam).contains f.id && listing.accepts f).map Feed.view) :=
  .of_run (few_newest few _) fun page => by
    rw [← listed_page]
    exact run_listing key ..

/-- What is shown under a sender can be read page by page. -/
theorem browses_senderFeeds (few : h.store.feeds.length ≤ Text.maxWord) (sender : String)
    (kind : Option Kind) : Browses (senderFeeds bound sender kind) FeedPage.mk bound size h
      ((h.store.newest (Store.isOfSender sender kind)).map Feed.view) :=
  .of_run (few_newest few _) fun page => by
    rw [← listed_page]
    rfl

/-- The export of a window can be read page by page. -/
theorem browses_history {start stop : Int} (few : h.store.feeds.length ≤ Text.maxWord)
    (ordered : start ≤ stop) : Browses (history bound start stop) ExportPage.mk bound size h
      ((within h start stop).map Feed.exported) := by
  have fewer : ((within h start stop).map Feed.exported).length ≤ Text.maxWord := by
    rw [List.length_map]
    exact Nat.le_trans (List.length_filter_le _ _) few
  exact .of_run fewer fun page => by
    rw [← exported_page]
    exact run_history ordered

/-! ## Searches -/

namespace SearchRequest

variable {request : SearchRequest} {outages : Outages}

/-- Where a search looks does not depend on its page. -/
theorem Seeks.paged {sought : Except FeedError (List String)}
    (seeks : request.Seeks outages h sought) (p : Paging) : Seeks { request with paging := p } outages h sought := by
  cases seeks with
  | named hc any => exact .named hc any
  | unknown left bad => exact .unknown left bad
  | cached left key known => exact .cached left key known
  | lookedUp left key new reached => exact .lookedUp left key new reached
  | unreached left key new outage => exact .unreached left key new outage

/-- Channels that have been found are in the cache from then on. -/
theorem cached_of_run_channels {subscriber : String} {channels : List String}
    (found : ((Query.channels subscriber).run outages h).1 = .ok channels) :
    Table.get? subscriber ((Query.channels subscriber).run outages h).2.cache = some channels := by
  rw [(run_channels ..).1] at found
  rw [run_channels_hub]
  cases known : Table.get? subscriber h.cache with
  | some channels' =>
    rw [known] at found
    exact known.trans (congrArg some (Except.ok.inj found))
  | none =>
    cases outage : outages (.channels subscriber) with
    | some reason =>
      rw [known, outage] at found
      cases found
    | none =>
      rw [known, outage] at found
      exact (Table.get?_put ..).trans ((if_pos rfl).trans (congrArg some (Except.ok.inj found)))

/-- **A search looks again where it has looked before.** -/
theorem Seeks.again {senders : List String} (seeks : request.Seeks outages h (.ok senders)) :
    request.Seeks outages ((Query.senders request).run outages h).2 (.ok senders) := by
  have later : ∀ {subscriber}, request.Open →
      Address.normalize request.subscriber = some subscriber →
      ((Query.channels subscriber).run outages h).1 = .ok senders →
        request.Seeks outages ((Query.senders request).run outages h).2 (.ok senders) :=
    fun left key found => by
      rw [run_senders_of_open left key]
      exact .cached left key (cached_of_run_channels found)
  cases seeks with
  | named hc any => exact .named hc any
  | cached left key known =>
    refine later left key ?_
    rw [(run_channels ..).1, known]
  | lookedUp left key new reached =>
    refine later left key ?_
    rw [(run_channels ..).1, new, reached]

/-- A search that cannot settle where to look, though no call fails, leaves everything as it is. -/
theorem Seeks.run_search_refused {e : FeedError} (seeks : request.Seeks .none h (.error e))
    (ordered : ∀ low high, ¬ request.filter.Inverted low high) (bound : Nat) :
    (Query.search bound request).run .none h = (.error e, h) := by
  cases seeks with
  | unknown left bad =>
    have unsought : Query.senders request =
        .done (.error (.rejected (.address request.subscriber))) := by
      rw [senders_of_open left, recipientKey, bad]
    unfold Query.search
    rw [Search.Filter.window_of_ordered ordered, unsought]
    rfl
  | unreached left key new outage => cases outage

end SearchRequest

/-- What a search finds can be read page by page. -/
theorem browses_search {request : SearchRequest} {senders : List String}
    (ascending : h.store.ids.Pairwise (· < ·)) (few : h.store.feeds.length ≤ Text.maxWord)
    (ordered : ∀ low high, ¬ request.filter.Inverted low high)
    (seeks : request.Seeks .none h (.ok senders)) :
    Browses ((PagedQuery.search request).ask bound) FeedPage.mk bound size h
      ((h.store.newest (request.criteria senders).accepts).map Feed.view) := by
  -- The hub may change, as the cache is filled; what stays is the store and where to look.
  let Steady (g : Hub) : Prop := g.store = h.store ∧ request.Seeks .none g (.ok senders)
  have start : Steady h := ⟨rfl, seeks⟩
  refine .of_steady (few_newest few _) start (fun _ steady => steady.1)
    fun page g ⟨same, sought⟩ => ?_
  let request' : SearchRequest := { request with paging := .make page size }
  have ordered' : ∀ low high, ¬ request'.filter.Inverted low high := ordered
  have sought' : request'.Seeks .none g (.ok senders) := sought.paged _
  have accepts : ∀ f, (request'.criteria senders).accepts f = true ↔ request'.Finds senders f :=
    fun _ => SearchRequest.accepts_criteria
  have scan : g.store.Scan (request'.Finds senders)
      (h.store.newest (request.criteria senders).accepts) := by
    rw [same]
    exact Store.scan_newest ascending fun f _ => accepts f
  show ((search bound request').run .none g).1 = _ ∧ Steady ((search bound request').run .none g).2
  rw [SearchRequest.run_search_hub ordered']
  refine ⟨?_, sought'.run.2.trans same, sought'.again.paged request.paging⟩
  rw [← Paging.map_slice, List.length_map]
  exact (SearchRequest.Answers.found ordered' sought' (fun _ => rfl) scan
    (Paging.shows_slice _ _ _)).run (same ▸ ascending)

end Query

namespace PagedQuery

open Query

variable {h : Hub} {q : PagedQuery} {P : Feed → Prop}

/-- **What a query is about can be read page by page.** -/
theorem Picks.browses (picks : q.Picks h P) (ascending : h.store.ids.Pairwise (· < ·))
    (few : h.store.feeds.length ≤ Text.maxWord) (bound size : Nat) :
    ∃ found, h.store.Scan P found ∧
      Browses (q.ask bound) FeedPage.mk bound size h (found.map Feed.view) := by
  cases picks with
  | feeds key =>
    refine ⟨_, Store.scan_newest ascending fun f _ => ?_, browses_recipientPage few key _ _⟩
    simp [Listing.accepts, absentOr]
  | channelFeeds key =>
    refine ⟨_, Store.scan_newest ascending fun f _ => ?_, browses_recipientPage few key _ _⟩
    simp [Listing.accepts, absentOr, and_assoc]
  | @senderFeeds sender kind =>
    refine ⟨_, Store.scan_newest ascending fun f _ => ?_, browses_senderFeeds few sender kind⟩
    cases kind <;> simp [Store.isOfSender, absentOr, and_assoc]
  | search ordered seeks =>
    exact ⟨_, Store.scan_newest ascending fun f _ => SearchRequest.accepts_criteria,
      browses_search ascending few ordered seeks⟩

/-- A query that is about nothing is turned down. -/
theorem refuses (nothing : ∀ P, ¬ q.Picks h P) (bound size : Nat) :
    Refuses (q.ask bound) size h := by
  have unlisted : ∀ {raw}, (∀ address, Address.normalize raw ≠ some address) →
      ∀ isSpam listing, Refuses (recipientPage bound raw isSpam listing) size h :=
    fun {raw} bad isSpam listing => .of_run fun page => by
      rw [recipientPage, recipientKey, Option.eq_none_iff_forall_ne_some.2 bad]
      rfl
  cases q with
  | feeds raw => exact unlisted (fun address key => nothing _ (.feeds key)) ..
  | channelFeeds raw => exact unlisted (fun address key => nothing _ (.channelFeeds key)) ..
  | senderFeeds => exact absurd .senderFeeds (nothing _)
  | search request =>
    obtain ⟨low, high, inverted⟩ | ordered := request.filter.inverted_or_ordered
    · refine .of_run (e := .rejected (.dates low high)) fun page => ?_
      have late : ({ request with paging := .make page size } : SearchRequest).filter.Inverted low
        high := inverted
      exact congrArg (Program.run .none · h) (search_of_inverted late bound)
    · obtain ⟨e | senders, seeks⟩ := SearchRequest.exists_seeks request .none h
      · exact .of_run fun page => (seeks.paged (.make page size)).run_search_refused ordered bound
      · exact absurd (.search ordered seeks) (nothing _)

end PagedQuery

/-- **Pages tile every listing.** Let pages be made of any numbers and cut to any bound.

* On every list that 64 bits can count, though offsets saturate, a page holds exactly the items at
  its positions; the pages from one on, as many as the length makes necessary, are the whole list;
  any later page is empty; and none is longer than the size that the bound leaves.
* Whatever a query is about, over any hub with feeds that 64 bits can count, there is a list of
  exactly these feeds, each once and newest first, out of which every page that is asked for is cut;
  so the pages from one on make it up, and each of them gives its length as the total. A query that
  is about nothing, because it is not a sensible one, is turned down on every page.
* The same holds of an export, whose feeds are those between two moments that are not spam, oldest
  first; and one that ends before it begins is turned down. -/
theorem Query.pages_tile {h : Hub} (ascending : h.store.ids.Pairwise (· < ·))
    (few : h.store.feeds.length ≤ Text.maxWord) (bound size : Nat) :
    (∀ {α : Type} (items : List α), items.length ≤ Text.maxWord → Paging.Tiles bound size items) ∧
      (∀ (q : PagedQuery) P, q.Picks h P → ∃ found, h.store.Scan P found ∧
        Browses (q.ask bound) FeedPage.mk bound size h (found.map Feed.view)) ∧
      (∀ q : PagedQuery, (∀ P, ¬ q.Picks h P) → Refuses (q.ask bound) size h) ∧
      (∀ start stop, start ≤ stop → ∃ found : List Feed,
        found.Pairwise (fun f g => f.id < g.id) ∧
        (∀ f, f ∈ found ↔
          f ∈ h.store.feeds ∧ f.isSpam = false ∧ start ≤ f.epoch ∧ f.epoch ≤ stop) ∧
        Browses (history bound start stop) ExportPage.mk bound size h (found.map Feed.exported)) ∧
      (∀ start stop, stop < start → Refuses (history bound start stop) size h) := by
  refine ⟨fun items short => Paging.tiles short bound size,
    fun q P picks => picks.browses ascending few bound size,
    fun q nothing => PagedQuery.refuses nothing bound size, fun start stop ordered => ?_,
    fun start stop late => ?_⟩
  · refine ⟨within h start stop, (List.pairwise_map.1 ascending).filter _, fun f => ?_,
      browses_history few ordered⟩
    simp [within, Store.isExported, and_assoc]
  · refine .of_run (e := .rejected (.times start stop)) fun page => ?_
    rw [history, if_pos late]
    rfl

/-- Three feeds of a recipient are read on two pages, since the size is cut to two. -/
theorem Query.pages_tile_of_fourFeeds :
    ∃ found : List Feed, found.map (·.id) = [4, 2, 1] ∧
      pageCount 2 5 (found.map Feed.view).length = 2 ∧
      Browses ((PagedQuery.feeds " Solana:X" false false).ask 2) FeedPage.mk 2 5 ofFourFeeds
        (found.map Feed.view) := by
  have ids : ofFourFeeds.store.ids = [1, 2, 3, 4] := by rfl
  have ascending : ofFourFeeds.store.ids.Pairwise (· < ·) := by rw [ids]; decide
  have few : ofFourFeeds.store.feeds.length ≤ Text.maxWord := by decide
  have key : Address.normalize " Solana:X" = some "solana:x" := by decide +kernel
  obtain ⟨found, scan, browses⟩ := (pages_tile ascending few 2 5).2.1
    (.feeds " Solana:X" false false) _ (.feeds key)
  have same : found = ofFourFeeds.store.newest fun f =>
      (ofFourFeeds.store.indexed "solana:x" false).contains f.id && !f.hidden :=
    scan.unique (Store.scan_newest ascending fun f _ => by simp)
  refine ⟨found, ?_, ?_, browses⟩
  · rw [same]
    decide +kernel
  · rw [same]
    decide +kernel

end NotificationRelay
