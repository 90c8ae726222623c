/-
# Letter case and what a search finds

Two relays hold the same feeds, but the texts that are searched are written with other capitals, and
they are searched for terms that are written with other capitals as well. Only ASCII letters are
meant: with these a text may be rewritten at will and has the same lower-case form
(`Text.lowerChars_asciiLower`), whatever other letters stand beside them. So the searches are the
same program (`Query.search_eq_of_recased`), the same feeds meet the criteria
(`Criteria.accepts_recased`), and what is shown of them is the same (`Query.search_recased`).
-/
import NotificationRelay.Proofs.Query.Drawing
import NotificationRelay.Proofs.Query.Searching
import NotificationRelay.Proofs.Query.Slicing
import NotificationRelay.Proofs.Text.Casing

namespace NotificationRelay

/-! ## The same but for capitals -/

/-- The same payload but for the case of ASCII letters in the texts that are searched. -/
structure Payload.Recased (p p' : Payload) : Prop where
  title : Text.Recased p.caption.title p'.caption.title
  body : Text.Recased p.caption.body p'.caption.body
  asub : Text.Recased p.data.asub p'.data.asub
  amsg : Text.Recased p.data.amsg p'.data.amsg
  others : p' = { p with
    caption := p'.caption
    data := { p.data with asub := p'.data.asub, amsg := p'.data.amsg } }

/-- The same feed but for the case of ASCII letters in the texts that are searched. -/
structure Feed.Recased (f f' : Feed) : Prop where
  payload : f.payload.Recased f'.payload
  others : f' = { f with payload := f'.payload }

/-- The same hub but for the case of ASCII letters in the texts of feeds that are searched. -/
structure Hub.Recased (h h' : Hub) : Prop where
  feeds : List.Forall₂ Feed.Recased h.store.feeds h'.store.feeds
  others : h' = { h with store := { h.store with feeds := h'.store.feeds } }

/-- The same request but for the case of ASCII letters in its term. -/
structure Query.SearchRequest.Recased (request request' : SearchRequest) : Prop where
  term : Option.Rel Text.Recased request.term request'.term
  others : request' = { request with term := request'.term }

/-! ## What is found -/

/-- Payloads that differ in ASCII case match the same terms. -/
theorem Payload.Recased.matchesTerm_eq {p p' : Payload} (h : p.Recased p') (term : String) :
    p'.matchesTerm term = p.matchesTerm term := by
  have same : ∀ {s s' : String}, Text.Recased s s' →
      Text.lowerChars s'.toList = Text.lowerChars s.toList := Text.Recased.lowerChars_eq
  simp only [matchesTerm, searchable, List.any_cons, same h.title, same h.body, same h.asub,
    same h.amsg]

/-- Feeds that differ in ASCII case have the same identifier. -/
theorem Feed.Recased.id_eq {f f' : Feed} (h : f.Recased f') : f'.id = f.id := by
  rw [h.others]

/-- **Criteria take no notice of capitals.** -/
theorem Criteria.accepts_recased {f f' : Feed} (h : f.Recased f') (c : Criteria) :
    c.accepts f' = c.accepts f := by
  have isSpam : f'.isSpam = f.isSpam := by rw [h.others]
  have sender : f'.sender = f.sender := by rw [h.others]
  have term : c.acceptsTerm f' = c.acceptsTerm f := by
    unfold acceptsTerm
    cases c.term with
    | none => rfl
    | some term => exact h.payload.matchesTerm_eq term
  have day : c.acceptsDay f' = c.acceptsDay f := by rw [h.others]; rfl
  rw [accepts, accepts, isSpam, sender, term, day]

/-- Feeds that are picked by criteria have the same identifiers in the same order. -/
theorem Store.ids_newest_recased {s s' : Store}
    (recased : List.Forall₂ Feed.Recased s.feeds s'.feeds) (c : Criteria) :
    (s'.newest c.accepts).map (·.id) = (s.newest c.accepts).map (·.id) := by
  unfold newest
  rw [List.map_reverse, List.map_reverse]
  congr 1
  generalize s.feeds = feeds, s'.feeds = feeds' at recased
  induction recased with
  | nil => rfl
  | cons first _ ih =>
    rw [List.filter_cons, List.filter_cons, Criteria.accepts_recased first]
    split
    · rw [List.map_cons, List.map_cons, ih, first.id_eq]
    · exact ih

/-- What is shown of feeds depends on their identifiers only. -/
theorem Shown.page_congr {feeds feeds' : List Feed} (ids : feeds'.map (·.id) = feeds.map (·.id))
    (p : Paging) : page p feeds' = page p feeds := by
  have length : feeds'.length = feeds.length := by
    simpa using congrArg List.length ids
  unfold page
  rw [p.map_slice, p.map_slice, ids, length]

namespace Query

variable {request request' : SearchRequest} {h h' : Hub} {bound : Nat} {outages : Outages}

/-- Terms that differ in ASCII case are searched for in the same form. -/
theorem searchTerm_recased {term term' : Option String}
    (h : Option.Rel Text.Recased term term') : searchTerm term' = searchTerm term := by
  cases h with
  | none => rfl
  | some same =>
    unfold searchTerm
    rw [Option.map_some, Option.map_some, same.trim.lower_eq]

/-- Requests that differ in ASCII case come to the same criteria. -/
theorem SearchRequest.Recased.criteria_eq (h : request.Recased request') (senders : List String) :
    request'.criteria senders = request.criteria senders := by
  have term := searchTerm_recased h.term
  unfold criteria
  rw [term, h.others]

/-- **Requests that differ in capitals of the term are searched by one program.** -/
theorem search_eq_of_recased (requests : request.Recased request') (bound : Nat) :
    search bound request' = search bound request := by
  refine search_congr ?_ (searchTerm_recased requests.term) ?_ ?_ ?_ bound
  all_goals rw [requests.others]
  rfl

namespace SearchRequest

/-- Where a search looks does not depend on the feeds. -/
theorem Seeks.recased {sought : Except FeedError (List String)} (hubs : h.Recased h')
    (seeks : request.Seeks outages h sought) : request.Seeks outages h' sought := by
  have cache : h'.cache = h.cache := by rw [hubs.others]
  have channels : ∀ subscriber, h'.store.channels subscriber = h.store.channels subscriber :=
    fun subscriber => by
      rw [hubs.others]
      rfl
  cases seeks with
  | named hc any => exact .named hc any
  | unknown left bad => exact .unknown left bad
  | cached left key known => exact .cached left key (cache ▸ known)
  | lookedUp left key new reached =>
    rw [← channels]
    exact .lookedUp left key (cache ▸ new) reached
  | unreached left key new outage => exact .unreached left key (cache ▸ new) outage

/-- A search that has settled where to look shows the same of feeds that differ in capitals. -/
theorem Seeks.shown_recased {sought : Except FeedError (List String)} (hubs : h.Recased h')
    (ordered : ∀ low high, ¬ request.filter.Inverted low high)
    (seeks : request.Seeks outages h sought) (bound : Nat) :
    ((search bound request).run outages h').1.map FeedPage.shown =
      ((search bound request).run outages h).1.map FeedPage.shown := by
  cases sought with
  | error e =>
    rw [run_search_unsought ordered seeks, run_search_unsought ordered (seeks.recased hubs)]
  | ok senders =>
    rw [run_search ordered seeks, run_search ordered (seeks.recased hubs)]
    split
    · rfl
    · cases outages (request.asking bound senders) with
      | some reason => rfl
      | none =>
        have ids := Store.ids_newest_recased hubs.feeds (request.criteria senders)
        show Except.ok _ = Except.ok _
        rw [Store.search, Store.search, FeedPage.shown_listed, FeedPage.shown_listed,
          Shown.page_congr ids]

end SearchRequest

/-- **A search takes no notice of the case of ASCII letters.** Let a hub and a request be written
with other ASCII capitals, the request in its term and any feeds of the hub in their titles, bodies,
subjects and messages; whatever else the texts are made of stays as it is. In whatever senders is
looked, the feeds that meet the criteria have the same identifiers in the same order. And whatever
calls fail, the search fails for the same reason or shows a page with the same identifiers and the
same count. -/
theorem search_recased (hubs : h.Recased h') (requests : request.Recased request') (bound : Nat)
    (outages : Outages) :
    (∀ senders, (h'.store.newest (request'.criteria senders).accepts).map (·.id) =
        (h.store.newest (request.criteria senders).accepts).map (·.id)) ∧
      ((search bound request').run outages h').1.map FeedPage.shown =
        ((search bound request).run outages h).1.map FeedPage.shown := by
  refine ⟨fun senders => ?_, ?_⟩
  · rw [requests.criteria_eq]
    exact Store.ids_newest_recased hubs.feeds _
  · rw [search_eq_of_recased requests]
    obtain ⟨low, high, inverted⟩ | ordered := request.filter.inverted_or_ordered
    · rw [search_of_inverted inverted]
      rfl
    · obtain ⟨sought, seeks⟩ := SearchRequest.exists_seeks request outages h
      exact seeks.shown_recased hubs ordered bound

/-- A hub in which one feed is stored, with a title. -/
def titled (title : String) : Hub :=
  let draft := Draft.sample "p" ["solana:alice"] 5
  ((Intake.add { draft with payload := { draft.payload with caption := ⟨title, ""⟩ } }).run .none
    .sample).2

/-- A search in the channel of the feed. -/
def inTitles (term : String) : SearchRequest where
  subscriber := "solana:alice"
  term := some term
  isSpam := false
  filter := ⟨some [(Draft.sample "p" [] 5).sender], none⟩
  paging := ⟨1, 10⟩

/-- The feed is found beside a capital sigma, and it is found with other letters in capitals. -/
theorem search_recased_of_titled :
    (∀ senders, ((titled "oΣX").store.newest ((inTitles "ΣX ").criteria senders).accepts).map
        (·.id) =
      ((titled "OΣx").store.newest ((inTitles "Σx ").criteria senders).accepts).map (·.id)) ∧
    (((search 10 (inTitles "ΣX ")).run .none (titled "oΣX")).1.map FeedPage.shown).toOption =
      some ⟨[1], 1⟩ := by
  have payloads : Payload.Recased
      { (Draft.sample "p" ["solana:alice"] 5).payload with caption := ⟨"OΣx", ""⟩ }
      { (Draft.sample "p" ["solana:alice"] 5).payload with caption := ⟨"oΣX", ""⟩ } :=
    ⟨by decide +kernel, rfl, rfl, rfl, rfl⟩
  have hubs : (titled "OΣx").Recased (titled "oΣX") := ⟨.cons ⟨payloads, rfl⟩ .nil, rfl⟩
  have requests : (inTitles "Σx ").Recased (inTitles "ΣX ") := ⟨.some (by decide +kernel), rfl⟩
  have shown : (((search 10 (inTitles "Σx ")).run .none (titled "OΣx")).1.map
      FeedPage.shown).toOption = some ⟨[1], 1⟩ := by decide +kernel
  obtain ⟨matching, same⟩ := search_recased hubs requests 10 .none
  exact ⟨matching, (congrArg Except.toOption same).trans shown⟩

end Query
end NotificationRelay
