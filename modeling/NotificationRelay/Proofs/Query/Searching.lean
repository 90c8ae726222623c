/-
# What a search answers

A search checks the dates of its filter, settles on the senders that it looks in, and then asks the
store once. Each step may decide the answer: `SearchRequest.Seeks` is what becomes of the senders,
and `SearchRequest.Answers` is what becomes of the whole, with one case for each end that a search
can come to. Both say what they ask for in terms of the request, of the cache and of the feeds as
they stand in the store, and what a search finds of them is `SearchRequest.Finds`.

The cases leave no room: in every state one of them holds (`SearchRequest.exists_answers`), and it
is what the search comes to (`SearchRequest.Answers.run`). So a search answers exactly as they say
(`Query.search_exact`).
-/
import NotificationRelay.Proofs.Query.Scan
import NotificationRelay.Proofs.Text.Lowering
import NotificationRelay.Query.Search

namespace NotificationRelay

/-! ## Days and dates -/

/-- The epoch of a feed lies within a day. No second outside the calendar does. -/
def Feed.LiesOn (f : Feed) (day : Day) : Prop :=
  leastSecond ≤ f.epoch ∧ f.epoch ≤ greatestSecond ∧
    day.number * 86400 ≤ f.epoch ∧ f.epoch < (day.number + 1) * 86400

/-- The day of a feed is the one on which it lies. -/
theorem Feed.day?_eq_some_iff {f : Feed} {day : Day} : f.day? = some day ↔ f.LiesOn day := by
  obtain ⟨number⟩ := day
  have quotient : f.epoch / 86400 = number ↔
      number * 86400 ≤ f.epoch ∧ f.epoch < (number + 1) * 86400 := by omega
  unfold day? Day.ofSeconds? isRepresentable LiesOn
  by_cases inside : leastSecond ≤ f.epoch ∧ f.epoch ≤ greatestSecond
  · simp [inside, quotient]
  · have outside : ¬ (decide (leastSecond ≤ f.epoch) && decide (f.epoch ≤ greatestSecond)) = true :=
      fun within => inside (by simpa using within)
    rw [if_neg outside]
    exact iff_of_false nofun fun lies => inside ⟨lies.1, lies.2.1⟩

namespace Search

/-- The dates of a filter take in a day. The first day of a range is left out. -/
def DateChoice.Includes : DateChoice → Day → Prop
  | .single day, d => d = day
  | .range low high, d => low.number < d.number ∧ d.number ≤ high.number

/-- The window that is handed to the store for dates. -/
def DateChoice.window : DateChoice → DateWindow
  | .single day => .on day
  | .range low high => .between low high

/-- The window that is handed to the store contains the days that the dates take in. -/
theorem DateChoice.contains_window {dates : DateChoice} {day : Day} :
    dates.window.contains day = true ↔ dates.Includes day := by
  cases dates with
  | single d =>
    obtain ⟨n⟩ := d
    obtain ⟨m⟩ := day
    simp [window, DateWindow.contains, Includes]
  | range => simp [window, DateWindow.contains, Includes]

namespace Filter

variable {f : Filter} {low high : Day}

/-- The range of dates ends before it begins. -/
def Inverted (f : Filter) (low high : Day) : Prop :=
  f.dates = some (.range low high) ∧ high.number < low.number

/-- An inverted range of dates has no window, and the reason names both days. -/
theorem window_of_inverted (inverted : f.Inverted low high) :
    f.window = .error (.dates low high) := by
  obtain ⟨dates, before⟩ := inverted
  rw [window, dates]
  exact if_pos before

/-- Dates that are not inverted have a window. -/
theorem window_of_ordered (ordered : ∀ low high, ¬ f.Inverted low high) :
    f.window = .ok (f.dates.map DateChoice.window) := by
  unfold window
  split
  · next none => rw [none]; rfl
  · next single => rw [single]; rfl
  · next low high range =>
    rw [if_neg fun before => ordered low high ⟨range, before⟩, range]
    rfl

/-- A range of dates is inverted or not. -/
theorem inverted_or_ordered (f : Filter) :
    (∃ low high, f.Inverted low high) ∨ ∀ low high, ¬ f.Inverted low high := by
  by_cases inverted : ∃ low high, f.Inverted low high
  · exact .inl inverted
  · exact .inr fun low high is => inverted ⟨low, high, is⟩

end Filter
end Search

/-- A range of dates that ends before it begins is turned down before anything else. -/
theorem Query.search_of_inverted {request : SearchRequest} {low high : Day}
    (inverted : request.filter.Inverted low high) (bound : Nat) :
    search bound request = .done (.error (.rejected (.dates low high))) := by
  rw [search, Search.Filter.window_of_inverted inverted]

/-! ## Terms -/

/-- One of the texts of a payload contains a term, the blanks around the term and letter case
aside. -/
def Payload.Mentions (p : Payload) (term : String) : Prop :=
  ∃ text ∈ [p.caption.title, p.caption.body, p.data.asub, p.data.amsg],
    (Text.lower (Text.trim term)).toList <:+: (Text.lower text).toList

/-- A payload matches a term in lower case if it mentions the term. -/
theorem Payload.matchesTerm_iff {p : Payload} {term : String} :
    p.matchesTerm (Text.lower (Text.trim term)) = true ↔ p.Mentions term := by
  unfold matchesTerm Mentions searchable
  rw [List.any_eq_true]
  refine exists_congr fun text => and_congr_right fun _ => ?_
  rw [Text.occursIn_iff, Text.lower, Text.lower, String.toList_ofList, String.toList_ofList]

/-- A term of blanks only is no condition, and any other is looked for without the blanks around it
and in lower case. -/
theorem Query.searchTerm_some (term : String) : searchTerm (some term) =
    if Text.isAllBlank term then none else some (Text.lower (Text.trim term)) := by
  have blank : (Text.lower (Text.trim term)).isEmpty = Text.isAllBlank term := by
    rw [Bool.eq_iff_iff, String.isEmpty_iff, ← String.toList_eq_nil_iff, Text.lower,
      String.toList_ofList, Text.lowerChars_eq_nil_iff, Text.trim, String.toList_ofList,
      Text.trimChars_eq_nil_iff, Text.isAllBlank, List.all_eq_true]
  rw [searchTerm, Option.map_some, Option.filter_some, blank]
  cases Text.isAllBlank term <;> rfl

/-! ## What a search finds -/

namespace Query.SearchRequest

open Search (DateChoice)

/-- What a search in certain senders finds. -/
structure Finds (request : SearchRequest) (senders : List String) (f : Feed) : Prop where
  spam : f.isSpam = request.isSpam
  sender : f.sender ∈ senders
  mentions : ∀ term, request.term = some term → (∃ c ∈ term.toList, Text.isBlank c = false) →
    f.payload.Mentions term
  dated : ∀ dates, request.filter.dates = some dates → ∃ day, f.LiesOn day ∧ dates.Includes day

/-- The criteria that are handed to the store for a request. -/
def criteria (request : SearchRequest) (senders : List String) : Criteria :=
  ⟨senders, searchTerm request.term, request.isSpam, request.filter.dates.map DateChoice.window⟩

variable {request : SearchRequest} {senders : List String} {f : Feed}

/-- The criteria of a request pick by term what mentions it, unless it is blank or absent. -/
theorem acceptsTerm_criteria : (request.criteria senders).acceptsTerm f = true ↔
    ∀ term, request.term = some term → (∃ c ∈ term.toList, Text.isBlank c = false) →
      f.payload.Mentions term := by
  unfold Criteria.acceptsTerm criteria
  cases request.term with
  | none => simp [searchTerm]
  | some term =>
    rw [searchTerm_some]
    have worded : (∃ c ∈ term.toList, Text.isBlank c = false) ↔ Text.isAllBlank term = false := by
      rw [Text.isAllBlank, List.all_eq_false]
      simp only [Bool.not_eq_true]
    simp only [Option.some.injEq, forall_eq', worded]
    cases Text.isAllBlank term with
    | true => simp
    | false => simp [Payload.matchesTerm_iff]

/-- The criteria of a request pick by date what lies on one of the days. -/
theorem acceptsDay_criteria : (request.criteria senders).acceptsDay f = true ↔
    ∀ dates, request.filter.dates = some dates → ∃ day, f.LiesOn day ∧ dates.Includes day := by
  unfold Criteria.acceptsDay criteria
  cases request.filter.dates with
  | none => simp
  | some dates =>
    simp only [Option.map_some, Option.some.injEq, forall_eq', ← Feed.day?_eq_some_iff,
      ← DateChoice.contains_window]
    cases f.day? <;> simp

/-- **The criteria of a request pick what it finds.** -/
theorem accepts_criteria :
    (request.criteria senders).accepts f = true ↔ request.Finds senders f := by
  rw [Criteria.accepts, Bool.and_eq_true, Bool.and_eq_true, Bool.and_eq_true, acceptsTerm_criteria,
    acceptsDay_criteria, decide_eq_true_eq, List.contains_iff_mem]
  exact ⟨fun ⟨⟨⟨spam, sender⟩, mentions⟩, dated⟩ => ⟨spam, sender, mentions, dated⟩,
    fun ⟨spam, sender, mentions, dated⟩ => ⟨⟨⟨spam, sender⟩, mentions⟩, dated⟩⟩

/-! ## What a search comes to -/

/-- The channels of a filter leave it to the subscriptions where to look. -/
def Open (request : SearchRequest) : Prop := ∀ channels, request.filter.channels = some channels →
  channels = []

/-- What becomes of the senders of a search: the channels of the filter if it names any, else those
of the subscriber, from the cache if it knows them and else from the store. -/
inductive Seeks (request : SearchRequest) (outages : Outages) (h : Hub) :
    Except FeedError (List String) → Prop
  | named {channels : List String} (hc : request.filter.channels = some channels)
      (any : channels ≠ []) : Seeks request outages h (.ok channels)
  | unknown (left : request.Open) (bad : Address.normalize request.subscriber = none) :
      Seeks request outages h (.error (.rejected (.address request.subscriber)))
  | cached {subscriber : String} {channels : List String} (left : request.Open)
      (key : Address.normalize request.subscriber = some subscriber)
      (known : Table.get? subscriber h.cache = some channels) :
      Seeks request outages h (.ok channels)
  | lookedUp {subscriber : String} (left : request.Open)
      (key : Address.normalize request.subscriber = some subscriber)
      (new : Table.get? subscriber h.cache = none)
      (reached : outages (.channels subscriber) = none) :
      Seeks request outages h (.ok (h.store.channels subscriber))
  | unreached {subscriber reason : String} (left : request.Open)
      (key : Address.normalize request.subscriber = some subscriber)
      (new : Table.get? subscriber h.cache = none)
      (outage : outages (.channels subscriber) = some reason) :
      Seeks request outages h (.error (.store (.unavailable reason)))

/-- The call by which the store is searched. -/
def asking (request : SearchRequest) (bound : Nat) (senders : List String) : Call :=
  .search (request.criteria senders) (request.paging.clamp bound)

/-- What a search answers: an inverted range of dates is turned down before anything else; then it
is settled where to look; and then a page shows the items at its positions among what is found
there, with the number of all that is found, unless the store cannot be searched. -/
inductive Answers (request : SearchRequest) (bound : Nat) (outages : Outages) (h : Hub) :
    Except FeedError FeedPage → Prop
  | inverted {low high : Day} (inverted : request.filter.Inverted low high) :
      Answers request bound outages h (.error (.rejected (.dates low high)))
  | unsought {e : FeedError} (ordered : ∀ low high, ¬ request.filter.Inverted low high)
      (seeks : request.Seeks outages h (.error e)) : Answers request bound outages h (.error e)
  | unreached {senders : List String} {reason : String}
      (ordered : ∀ low high, ¬ request.filter.Inverted low high)
      (seeks : request.Seeks outages h (.ok senders)) (any : senders ≠ [])
      (outage : outages (request.asking bound senders) = some reason) :
      Answers request bound outages h (.error (.store (.unavailable reason)))
  | found {senders : List String} {found shown : List Feed}
      (ordered : ∀ low high, ¬ request.filter.Inverted low high)
      (seeks : request.Seeks outages h (.ok senders))
      (reached : senders ≠ [] → outages (request.asking bound senders) = none)
      (scan : h.store.Scan (request.Finds senders) found)
      (shows : request.paging.Shows bound found shown) :
      Answers request bound outages h (.ok ⟨shown.map Feed.view, found.length⟩)

variable {bound : Nat} {outages : Outages} {h : Hub}

/-- Where the filter names no channel the senders are those of the subscriber. -/
theorem senders_of_open (left : request.Open) : Query.senders request =
    match recipientKey request.subscriber with
    | .error e => .done (.error e)
    | .ok subscriber => (Query.channels subscriber).bind fun
      | .error e => .done (.error (.store e))
      | .ok found => .done (.ok found) := by
  unfold Query.senders
  split
  · next named => cases left _ named
  · rfl

/-- The channels of a subscriber come from the cache, and else from the store, which may fail. -/
theorem run_channels (subscriber : String) (outages : Outages) (h : Hub) :
    ((Query.channels subscriber).run outages h).1 =
        (match Table.get? subscriber h.cache, outages (.channels subscriber) with
        | some found, _ => .ok found
        | none, some reason => .error (.unavailable reason)
        | none, none => .ok (h.store.channels subscriber)) ∧
      ((Query.channels subscriber).run outages h).2.store = h.store := by
  unfold Query.channels
  rw [Program.run_bind, Program.run_perform]
  simp only [Call.perform]
  cases Table.get? subscriber h.cache with
  | some found => exact ⟨rfl, rfl⟩
  | none =>
    dsimp only
    rw [Program.run_bind, Program.run_perform]
    simp only [Call.perform, Outages.guard]
    cases outages (.channels subscriber) <;> exact ⟨rfl, rfl⟩

/-- What is looked up is put into the cache, if the cache does not know it and it is found. -/
theorem run_channels_hub (subscriber : String) (outages : Outages) (h : Hub) :
    ((Query.channels subscriber).run outages h).2 =
      match Table.get? subscriber h.cache, outages (.channels subscriber) with
      | none, none => { h with cache := Table.put subscriber (h.store.channels subscriber) h.cache }
      | _, _ => h := by
  unfold Query.channels
  rw [Program.run_bind, Program.run_perform]
  simp only [Call.perform]
  cases Table.get? subscriber h.cache with
  | some found => rfl
  | none =>
    dsimp only
    rw [Program.run_bind, Program.run_perform]
    simp only [Call.perform, Outages.guard]
    cases outages (.channels subscriber) <;> rfl

/-- Where the subscriber has a canonical form its channels are the senders. -/
theorem run_senders_of_open (left : request.Open) {subscriber : String}
    (key : Address.normalize request.subscriber = some subscriber) (outages : Outages) (h : Hub) :
    (Query.senders request).run outages h =
      ((((Query.channels subscriber).run outages h).1).mapError FeedError.store,
        ((Query.channels subscriber).run outages h).2) := by
  rw [senders_of_open left, recipientKey_of_normalize key]
  refine (Program.run_bind ..).trans ?_
  cases ((Query.channels subscriber).run outages h).1 <;> rfl

/-- What becomes of the senders of a search is what is said of them, and the store stays as it is.
-/
theorem Seeks.run {sought : Except FeedError (List String)}
    (seeks : request.Seeks outages h sought) :
    ((Query.senders request).run outages h).1 = sought ∧
      ((Query.senders request).run outages h).2.store = h.store := by
  cases seeks with
  | @named channels hc any =>
    obtain ⟨sender, rest, rfl⟩ := List.exists_cons_of_ne_nil any
    unfold Query.senders
    rw [hc]
    exact ⟨rfl, rfl⟩
  | unknown left bad =>
    rw [senders_of_open left, recipientKey, bad]
    exact ⟨rfl, rfl⟩
  | cached left key known =>
    obtain ⟨answer, same⟩ := run_channels _ outages h
    rw [run_senders_of_open left key, answer, same, known]
    exact ⟨rfl, rfl⟩
  | lookedUp left key new reached =>
    obtain ⟨answer, same⟩ := run_channels _ outages h
    rw [run_senders_of_open left key, answer, same, new, reached]
    exact ⟨rfl, rfl⟩
  | unreached left key new outage =>
    obtain ⟨answer, same⟩ := run_channels _ outages h
    rw [run_senders_of_open left key, answer, same, new, outage]
    exact ⟨rfl, rfl⟩

/-- Something becomes of the senders of every search. -/
theorem exists_seeks (request : SearchRequest) (outages : Outages) (h : Hub) :
    ∃ sought, request.Seeks outages h sought := by
  by_cases left : request.Open
  · cases key : Address.normalize request.subscriber with
    | none => exact ⟨_, .unknown left key⟩
    | some subscriber =>
      cases known : Table.get? subscriber h.cache with
      | some channels => exact ⟨_, .cached left key known⟩
      | none =>
        cases outage : outages (.channels subscriber) with
        | none => exact ⟨_, .lookedUp left key known outage⟩
        | some reason => exact ⟨_, .unreached left key known outage⟩
  · obtain ⟨channels, hc, any⟩ : ∃ channels, request.filter.channels = some channels ∧
        channels ≠ [] := by
      simpa [Open] using left
    exact ⟨_, .named hc any⟩

/-- In every state a search comes to one of these ends. -/
theorem exists_answers (ascending : h.store.ids.Pairwise (· < ·)) (request : SearchRequest)
    (bound : Nat) (outages : Outages) : ∃ answer, request.Answers bound outages h answer := by
  obtain ⟨low, high, inverted⟩ | ordered := request.filter.inverted_or_ordered
  · exact ⟨_, .inverted inverted⟩
  · obtain ⟨e | senders, seeks⟩ := exists_seeks request outages h
    · exact ⟨_, .unsought ordered seeks⟩
    · have scan : h.store.Scan (request.Finds senders)
          (h.store.newest (request.criteria senders).accepts) :=
        Store.scan_newest ascending fun f _ => accepts_criteria
      by_cases any : senders = []
      · exact ⟨_, .found ordered seeks (absurd any) scan (Paging.shows_slice _ _ _)⟩
      · cases outage : outages (request.asking bound senders) with
        | none => exact ⟨_, .found ordered seeks (fun _ => outage) scan (Paging.shows_slice _ _ _)⟩
        | some reason => exact ⟨_, .unreached ordered seeks any outage⟩

/-- Where no senders are found the store is not asked. -/
theorem run_search_unsought {e : FeedError}
    (ordered : ∀ low high, ¬ request.filter.Inverted low high)
    (seeks : request.Seeks outages h (.error e)) :
    ((Query.search bound request).run outages h).1 = .error e := by
  rw [Query.search, Search.Filter.window_of_ordered ordered]
  dsimp only
  rw [Program.run_bind, seeks.run.1]
  rfl

/-- Where senders are found the store is asked, if there are any. -/
theorem run_search (ordered : ∀ low high, ¬ request.filter.Inverted low high)
    (seeks : request.Seeks outages h (.ok senders)) :
    ((Query.search bound request).run outages h).1 =
      if senders = [] then .ok .empty
      else match outages (request.asking bound senders) with
        | some reason => .error (.store (.unavailable reason))
        | none => .ok (listed (h.store.search (request.criteria senders)
            (request.paging.clamp bound))) := by
  obtain ⟨sought, same⟩ := seeks.run
  unfold Query.search
  rw [Search.Filter.window_of_ordered ordered]
  dsimp only
  rw [Program.run_bind, sought]
  cases senders with
  | nil => rfl
  | cons sender rest =>
    rw [if_neg (List.cons_ne_nil _ _)]
    dsimp only
    rw [Program.run_bind, Program.run_perform]
    simp only [Call.perform, Outages.guard, same]
    unfold asking criteria
    cases outages (.search _ _) <;> rfl

/-- A search leaves what is left when its senders are settled. -/
theorem run_search_hub (ordered : ∀ low high, ¬ request.filter.Inverted low high) (bound : Nat)
    (outages : Outages) (h : Hub) :
    ((Query.search bound request).run outages h).2 = ((Query.senders request).run outages h).2 := by
  unfold Query.search
  rw [Search.Filter.window_of_ordered ordered]
  dsimp only
  rw [Program.run_bind]
  match ((Query.senders request).run outages h).1 with
  | .error _ => rfl
  | .ok [] => rfl
  | .ok (sender :: rest) =>
    dsimp only
    rw [Program.run_bind, Program.run_perform]
    simp only [Call.perform, Outages.guard]
    cases outages (.search _ _) <;> rfl

/-- **What a search comes to is its answer.** -/
theorem Answers.run (ascending : h.store.ids.Pairwise (· < ·))
    {answer : Except FeedError FeedPage} (answers : request.Answers bound outages h answer) :
    ((Query.search bound request).run outages h).1 = answer := by
  cases answers with
  | inverted inverted =>
    rw [search_of_inverted inverted]
    rfl
  | unsought ordered seeks => exact run_search_unsought ordered seeks
  | unreached ordered seeks any outage => rw [run_search ordered seeks, if_neg any, outage]
  | @found senders found shown ordered seeks reached scan shows =>
    obtain rfl := shows.eq_slice
    have same : h.store.newest (request.criteria senders).accepts = found :=
      (Store.scan_newest ascending fun f _ => accepts_criteria).unique scan
    rw [run_search ordered seeks]
    split
    -- Without senders the store is not asked; but then there is nothing to be found in it either.
    · next none =>
      have nothing : found = [] := List.eq_nil_iff_forall_not_mem.2 fun f hf =>
        List.not_mem_nil (none ▸ ((scan.members f).1 hf).2.sender)
      rw [nothing]
      simp [FeedPage.empty, Paging.slice]
    · next any =>
      rw [reached any]
      show Except.ok (listed (Store.page _ (h.store.newest _))) = _
      rw [same]
      rfl

end Query.SearchRequest

/-- **Search, from the request to the page.** Over any feeds, kept under ascending identifiers,
whatever the cache knows and whatever calls fail, a search answers as follows and not otherwise.

* It turns down a range of dates that ends before it begins, before anything else.
* It looks in the channels that the filter names. If it names none it looks in those of the
  subscriber, as the cache knows them or else as the store does. It turns down a subscriber without
  a canonical form, and hands on the failure if the channels cannot be looked up.
* It answers with the page asked for, its size cut to the bound, of all stored feeds that are of the
  kind asked for, spam or not, come from one of these senders, contain the term, unless it is absent
  or blank, and lie on one of the days of the filter, hidden ones included and newest first; and
  with the number of all of them. If the store cannot be searched it hands on that failure. -/
theorem Query.search_exact {h : Hub} (ascending : h.store.ids.Pairwise (· < ·)) (bound : Nat)
    (request : SearchRequest) (outages : Outages) (answer : Except FeedError FeedPage) :
    ((search bound request).run outages h).1 = answer ↔
      request.Answers bound outages h answer := by
  refine ⟨fun answered => ?_, fun answers => answers.run ascending⟩
  obtain ⟨answer', answers⟩ := SearchRequest.exists_answers ascending request bound outages
  rwa [← answered, answers.run ascending]

/-- A search for a term in capitals, in one channel and on the first of January 1970. -/
def Query.SearchRequest.sample : SearchRequest where
  subscriber := ""
  term := some " TITLE "
  isSpam := false
  filter := ⟨some ["eip155:0x00000000000000000000000000000000000000aa"], some (.single ⟨0⟩)⟩
  paging := ⟨1, 10⟩

/-- The search finds the one feed that is stored. -/
theorem Query.search_exact_of_oneFiled :
    ∃ page : FeedPage, page.total = 1 ∧
      SearchRequest.sample.Answers 5 .none .oneFiled (.ok page) := by
  have ascending : Hub.oneFiled.store.ids.Pairwise (· < ·) := by decide +kernel
  have one : (((search 5 .sample).run .none .oneFiled).1.toOption.map (·.total)) = some 1 := by
    decide +kernel
  cases answer : ((search 5 .sample).run .none .oneFiled).1 with
  | error =>
    rw [answer] at one
    cases one
  | ok page =>
    rw [answer] at one
    exact ⟨page, Option.some.inj one, (search_exact ascending 5 .sample .none _).1 answer⟩

end NotificationRelay
