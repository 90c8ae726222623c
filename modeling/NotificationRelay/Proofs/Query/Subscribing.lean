/-
# What is known of subscriptions

The channels of a subscriber are looked up in the cache first, and the directory of the store is
asked only if the cache does not know them; nothing leaves the cache again. So an answer depends on
all that was done before it. `Query.Step` lists what can be done, with the calls that fail, and
`Step.LooksUp` says whose channels a step looks up.

The directory lists what has been subscribed, each channel once (`Query.subscribed`). The cache
keeps what the directory held when a subscriber was looked up and the directory could be reached for
the first time (`Query.Remembers`). Each step keeps both (`Query.Known.perform`), so they hold after
any steps, and what a look-up answers is read off them. What is looked up for one subscriber makes
no difference to another (`Query.LikeFor.after`). `Query.channels_remembered` puts this together.
-/
import Mathlib.Data.List.Induction
import NotificationRelay.Proofs.Query.Searching
import NotificationRelay.Proofs.Store.Operations

namespace NotificationRelay

/-! ## The directory -/

namespace Store

/-- The channel to which an operation subscribes a subscriber. -/
def Op.channel? (subscriber : String) : Op → Option String
  | .subscribe who channel => if who = subscriber then some channel else none
  | _ => none

/-- An operation is a subscription, or it subscribes nobody and leaves the directory as it is. -/
theorem Op.directory_cases (op : Op) : (∃ who channel, op = .subscribe who channel) ∨
    (∀ subscriber, op.channel? subscriber = none) ∧
      ∀ s, (op.perform s).subscriptions = s.subscriptions := by
  cases op with
  | subscribe who channel => exact .inl ⟨who, channel, rfl⟩
  | insert d =>
    refine .inr ⟨fun _ => rfl, fun s => ?_⟩
    simp only [perform, Store.insert]
    split <;> rfl
  | complete id p =>
    exact .inr ⟨fun _ => rfl, fun s => by rw [perform, Store.complete, update_snd]; rfl⟩
  | bump id => exact .inr ⟨fun _ => rfl, fun s => by rw [perform, Store.bump, update_snd]; rfl⟩
  | setAttempts id n =>
    exact .inr ⟨fun _ => rfl, fun s => by rw [perform, Store.setAttempts, update_snd]; rfl⟩
  | advance key value =>
    refine .inr ⟨fun _ => rfl, fun s => ?_⟩
    simp only [perform, Store.advance]
    split
    · split <;> rfl
    · rfl
  | _ => exact .inr ⟨fun _ => rfl, fun _ => rfl⟩

/-- What is held under a subscriber after a subscription. -/
theorem channels_subscribe (s : Store) (who channel subscriber : String) :
    (s.subscribe who channel).channels subscriber =
      if who ≠ subscriber ∨ channel ∈ s.channels subscriber then s.channels subscriber
      else s.channels subscriber ++ [channel] := by
  show (Table.get? subscriber (Table.put who _ s.subscriptions)).getD [] = _
  rw [Table.get?_put]
  by_cases same : who = subscriber
  · subst same
    by_cases known : channel ∈ s.channels who <;> simp [known]
  · rw [if_neg same, if_pos (.inl same)]
    rfl

/-- **An operation adds the channel to which it subscribes**, if it is a new one. -/
theorem channels_perform {s : Store} {subscriber : String} {subscribed : List String}
    (held : s.channels subscriber = firstMentions subscribed) (op : Op) :
    (op.perform s).channels subscriber =
      firstMentions (subscribed ++ (op.channel? subscriber).toList) := by
  obtain ⟨who, channel, rfl⟩ | ⟨silent, same⟩ := op.directory_cases
  · show (s.subscribe who channel).channels subscriber = _
    rw [channels_subscribe, held]
    by_cases mine : who = subscriber
    · have told : (Op.subscribe who channel).channel? subscriber = some channel := if_pos mine
      rw [told, Option.toList_some, firstMentions_snoc]
      simp only [mine, ne_eq, not_true_eq_false, false_or, mem_firstMentions]
    · have silent : (Op.subscribe who channel).channel? subscriber = none := if_neg mine
      rw [silent, Option.toList_none, List.append_nil, if_pos (.inl mine)]
  · rw [silent, Option.toList_none, List.append_nil, ← held]
    show (Table.get? subscriber (op.perform s).subscriptions).getD [] = _
    rw [same]
    rfl

end Store

namespace Query

/-! ## Steps -/

/-- Something that is done: the store is asked for an operation, or channels are looked up, by
themselves or for a search. Which calls fail is settled for each step anew. -/
inductive Step where
  | ask (op : Store.Op)
  | lookUp (subscriber : String) (outages : Outages)
  | search (request : SearchRequest) (outages : Outages)

namespace Step

/-- The hub that a step leaves. -/
def perform (bound : Nat) (h : Hub) : Step → Hub
  | .ask op => { h with store := op.perform h.store }
  | .lookUp subscriber outages => ((channels subscriber).run outages h).2
  | .search request outages => ((Query.search bound request).run outages h).2

/-- The channel to which a step subscribes a subscriber. -/
def channel? (subscriber : String) : Step → Option String
  | .ask op => op.channel? subscriber
  | _ => none

/-- A step looks up the channels of a subscriber, in the course of which some calls fail. A search
does so if its dates are in order, its filter names no channels, and its subscriber has a canonical
form: it is this form that is looked up. -/
inductive LooksUp : Step → String → Outages → Prop
  | alone (subscriber : String) (outages : Outages) :
      LooksUp (.lookUp subscriber outages) subscriber outages
  | search {request : SearchRequest} {subscriber : String} (outages : Outages)
      (ordered : ∀ low high, ¬ request.filter.Inverted low high) (left : request.Open)
      (key : Address.normalize request.subscriber = some subscriber) :
      LooksUp (.search request outages) subscriber outages

/-- A step looks up the channels of a subscriber while the directory can be reached. -/
def Reaches (step : Step) (subscriber : String) : Prop :=
  ∃ outages, step.LooksUp subscriber outages ∧ outages (.channels subscriber) = none

end Step

/-- The hub after steps, one after another. -/
def after (bound : Nat) (h : Hub) (steps : List Step) : Hub := steps.foldl (Step.perform bound) h

/-- The channels to which steps subscribe a subscriber, each once, in the order of first
subscription. -/
def subscribed (subscriber : String) (steps : List Step) : List String :=
  firstMentions (steps.filterMap (Step.channel? subscriber))

/-- What is remembered of a subscriber after steps: nothing if none of them looked it up while the
directory could be reached, and else what had been subscribed by the first that did. Up to then
nothing is remembered, so that this is the first look-up that succeeds. -/
inductive Remembers (subscriber : String) (steps : List Step) : Option (List String) → Prop
  | nothing (unreached : ∀ step ∈ steps, ¬ step.Reaches subscriber) :
      Remembers subscriber steps none
  | first {past : List Step} {step : Step} {later : List Step}
      (split : steps = past ++ step :: later) (unreached : ∀ s ∈ past, ¬ s.Reaches subscriber)
      (reached : step.Reaches subscriber) :
      Remembers subscriber steps (some (subscribed subscriber past))

/-- What a look-up answers after steps: what is remembered, or else what has been subscribed by now,
or that the directory cannot be reached. -/
inductive Recalls (subscriber : String) (steps : List Step) (outages : Outages) :
    Stored (List String) → Prop
  | remembered {channels : List String} (known : Remembers subscriber steps (some channels)) :
      Recalls subscriber steps outages (.ok channels)
  | found (unknown : Remembers subscriber steps none)
      (reached : outages (.channels subscriber) = none) :
      Recalls subscriber steps outages (.ok (subscribed subscriber steps))
  | unreached {reason : String} (unknown : Remembers subscriber steps none)
      (outage : outages (.channels subscriber) = some reason) :
      Recalls subscriber steps outages (.error (.unavailable reason))

variable {bound : Nat} {h g : Hub} {step : Step} {steps : List Step} {subscriber other : String}
  {outages : Outages}

theorem after_snoc (bound : Nat) (h : Hub) (steps : List Step) (step : Step) :
    after bound h (steps ++ [step]) = step.perform bound (after bound h steps) :=
  List.foldl_concat ..

theorem after_append (bound : Nat) (h : Hub) (steps later : List Step) :
    after bound h (steps ++ later) = after bound (after bound h steps) later :=
  List.foldl_append

/-- The subscriptions after one more step are the old ones and what it adds. -/
theorem subscribed_snoc (subscriber : String) (steps : List Step) (step : Step) :
    subscribed subscriber (steps ++ [step]) =
      firstMentions (steps.filterMap (Step.channel? subscriber) ++
        (step.channel? subscriber).toList) := by
  unfold subscribed
  rw [List.filterMap_append]
  cases told : step.channel? subscriber <;> simp [told]

/-! ## What a step does -/

/-- A look-up tells the cache of its own subscriber only, and only what it has found out. -/
theorem cached_channels (who subscriber : String) (outages : Outages) (h : Hub) :
    Table.get? subscriber ((channels who).run outages h).2.cache =
      if who = subscriber ∧ Table.get? who h.cache = none ∧ outages (.channels who) = none then
        some (h.store.channels who)
      else Table.get? subscriber h.cache := by
  rw [SearchRequest.run_channels_hub]
  cases Table.get? who h.cache with
  | some found => simp
  | none =>
    cases outages (.channels who) with
    | some reason => simp
    | none => simp [Table.get?_put]

namespace Step

/-- A step looks up one subscriber at most. -/
theorem LooksUp.unique (looks : step.LooksUp subscriber outages) {outages' : Outages}
    (looks' : step.LooksUp other outages') : other = subscriber ∧ outages' = outages := by
  cases looks with
  | alone => cases looks'; exact ⟨rfl, rfl⟩
  | search outages ordered left key =>
    cases looks' with
    | search _ _ _ key' => exact ⟨Option.some.inj (key'.symm.trans key), rfl⟩

/-- Whatever looks up channels leaves what the look-up leaves. -/
theorem LooksUp.perform_eq (looks : step.LooksUp subscriber outages) (bound : Nat) (h : Hub) :
    step.perform bound h = ((channels subscriber).run outages h).2 := by
  cases looks with
  | alone => rfl
  | search outages ordered left key =>
    show ((Query.search bound _).run outages h).2 = _
    rw [SearchRequest.run_search_hub ordered, SearchRequest.run_senders_of_open left key]

/-- A search that does not look up channels changes nothing. -/
theorem perform_search {request : SearchRequest}
    (never : ∀ subscriber, ¬ (search request outages).LooksUp subscriber outages) (bound : Nat)
    (h : Hub) : (search request outages).perform bound h = h := by
  show ((Query.search bound request).run outages h).2 = h
  obtain ⟨low, high, inverted⟩ | ordered := request.filter.inverted_or_ordered
  · rw [search_of_inverted inverted]
    rfl
  · rw [SearchRequest.run_search_hub ordered]
    obtain ⟨sought, seeks⟩ := SearchRequest.exists_seeks request outages h
    cases seeks with
    | @named channels hc any =>
      obtain ⟨sender, rest, rfl⟩ := List.exists_cons_of_ne_nil any
      unfold Query.senders
      rw [hc]
      rfl
    | unknown left bad =>
      rw [SearchRequest.senders_of_open left, recipientKey, bad]
      rfl
    | cached left key | lookedUp left key | unreached left key =>
      exact absurd (.search outages ordered left key) (never _)

/-- A step is an operation, or it looks up channels, or it changes nothing. -/
theorem cases_perform (step : Step) : (∃ op, step = .ask op) ∨
    (∃ subscriber outages, step.LooksUp subscriber outages) ∨
      (∀ subscriber, step.channel? subscriber = none) ∧
        (∀ subscriber outages, ¬ step.LooksUp subscriber outages) ∧
          ∀ bound h, step.perform bound h = h := by
  cases step with
  | ask op => exact .inl ⟨op, rfl⟩
  | lookUp subscriber outages => exact .inr (.inl ⟨subscriber, outages, .alone ..⟩)
  | search request outages =>
    by_cases looks : ∃ subscriber outages', (search request outages).LooksUp subscriber outages'
    · exact .inr (.inl looks)
    · have never : ∀ subscriber outages',
          ¬ (search request outages).LooksUp subscriber outages' :=
        fun subscriber outages' here => looks ⟨subscriber, outages', here⟩
      have still := perform_search fun subscriber => never subscriber outages
      exact .inr (.inr ⟨fun _ => rfl, never, still⟩)

/-- Only an operation subscribes anybody. -/
theorem LooksUp.channel?_eq (looks : step.LooksUp subscriber outages) (other : String) :
    step.channel? other = none := by
  cases looks <;> rfl

/-- **What a step does to the directory.** -/
theorem directory_perform {subscribed : List String}
    (held : h.store.channels subscriber = firstMentions subscribed) (bound : Nat) (step : Step) :
    (step.perform bound h).store.channels subscriber =
      firstMentions (subscribed ++ (step.channel? subscriber).toList) := by
  obtain ⟨op, rfl⟩ | ⟨who, outages, looks⟩ | ⟨silent, -, idle⟩ := step.cases_perform
  · exact Store.channels_perform held op
  · rw [looks.perform_eq, (SearchRequest.run_channels ..).2, looks.channel?_eq, held,
      Option.toList_none, List.append_nil]
  · rw [idle, silent, held, Option.toList_none, List.append_nil]

/-- **What a step does to the cache.** A subscriber that is not known is put there if the step
reaches it, with what the directory holds. Nothing else changes. -/
theorem cache_perform (bound : Nat) (h : Hub) (step : Step) (subscriber : String) :
    (step.Reaches subscriber ∧ Table.get? subscriber h.cache = none ∧
        Table.get? subscriber (step.perform bound h).cache = some (h.store.channels subscriber)) ∨
      (step.Reaches subscriber → Table.get? subscriber h.cache ≠ none) ∧
        Table.get? subscriber (step.perform bound h).cache = Table.get? subscriber h.cache := by
  obtain ⟨op, rfl⟩ | ⟨who, outages, looks⟩ | ⟨-, never, idle⟩ := step.cases_perform
  · refine .inr ⟨?_, rfl⟩
    rintro ⟨_, looks, -⟩
    cases looks
  · rw [looks.perform_eq, cached_channels]
    by_cases put : who = subscriber ∧ Table.get? who h.cache = none ∧
        outages (.channels who) = none
    · rw [if_pos put]
      obtain ⟨rfl, new, reached⟩ := put
      exact .inl ⟨⟨outages, looks, reached⟩, new, rfl⟩
    · rw [if_neg put]
      refine .inr ⟨?_, rfl⟩
      rintro ⟨outages', looks', reached⟩ new
      obtain ⟨rfl, rfl⟩ := looks.unique looks'
      exact put ⟨rfl, new, reached⟩
  · exact .inr ⟨fun ⟨_, looks, _⟩ => absurd looks (never _ _), by rw [idle]⟩

end Step

/-! ## What is kept -/

/-- What is remembered stays remembered. -/
theorem Remembers.snoc_of_some {channels : List String}
    (known : Remembers subscriber steps (some channels)) (step : Step) :
    Remembers subscriber (steps ++ [step]) (some channels) := by
  cases known with
  | first split unreached reached =>
    exact .first (by rw [split, List.append_assoc, List.cons_append]) unreached reached

/-- What is not remembered yet is remembered once it is reached, and not before. -/
theorem Remembers.snoc_of_none (unknown : Remembers subscriber steps none) (step : Step) :
    (step.Reaches subscriber →
        Remembers subscriber (steps ++ [step]) (some (subscribed subscriber steps))) ∧
      (¬ step.Reaches subscriber → Remembers subscriber (steps ++ [step]) none) := by
  cases unknown with
  | nothing unreached =>
    refine ⟨.first rfl unreached, fun other => .nothing fun s hs => ?_⟩
    rcases List.mem_append.1 hs with hs | hs
    · exact unreached s hs
    · exact List.mem_singleton.1 hs ▸ other

/-- After steps the directory holds what has been subscribed, and the cache what is remembered. -/
structure Known (steps : List Step) (h : Hub) : Prop where
  directory : ∀ subscriber, h.store.channels subscriber = subscribed subscriber steps
  cache : ∀ subscriber, Remembers subscriber steps (Table.get? subscriber h.cache)

/-- Nothing is remembered on an empty hub. -/
theorem known_empty (clientLimit : Nat) (sink : Broadcast.Sink) :
    Known [] (.empty clientLimit sink) where
  directory _ := rfl
  cache _ := .nothing fun _ hs => absurd hs List.not_mem_nil

/-- **One step** keeps the directory and the cache as they should be. -/
theorem Known.perform (known : Known steps h) (bound : Nat) (step : Step) :
    Known (steps ++ [step]) (step.perform bound h) where
  directory subscriber := by
    rw [subscribed_snoc]
    exact Step.directory_perform (known.directory subscriber) bound step
  cache subscriber := by
    have before := known.cache subscriber
    obtain ⟨reaches, new, put⟩ | ⟨only, same⟩ := step.cache_perform bound h subscriber
    · rw [new] at before
      rw [put, known.directory]
      exact (before.snoc_of_none step).1 reaches
    · rw [same]
      cases kept : Table.get? subscriber h.cache with
      | none =>
        rw [kept] at before
        exact (before.snoc_of_none step).2 fun reaches => only reaches kept
      | some channels =>
        rw [kept] at before
        exact before.snoc_of_some step

/-- **Any steps** do. -/
theorem known_after (clientLimit : Nat) (sink : Broadcast.Sink) (bound : Nat)
    (steps : List Step) : Known steps (after bound (.empty clientLimit sink) steps) := by
  induction steps using List.reverseRecOn with
  | nil => exact known_empty clientLimit sink
  | append_singleton steps step ih =>
    rw [after_snoc]
    exact ih.perform bound step

/-! ## What a look-up answers -/

/-- First steps none of which reaches a subscriber end before any step that does. -/
theorem prefix_of_unreached {past past' later later' : List Step} {step' : Step}
    (same : past ++ step :: later = past' ++ step' :: later')
    (unreached : ∀ s ∈ past', ¬ s.Reaches subscriber) (reached : step.Reaches subscriber) :
    past' <+: past := by
  obtain ⟨more, rfl, rest⟩ | ⟨more, rfl, -⟩ := List.append_eq_append_iff.1 same
  · cases more with
    | nil => exact ⟨[], (List.append_nil _).trans (List.append_nil _)⟩
    | cons s more =>
      obtain ⟨rfl, -⟩ := List.cons.inj rest
      exact absurd reached (unreached _ (List.mem_append_right _ List.mem_cons_self))
  · exact List.prefix_append _ _

/-- What is remembered is determined by the steps. -/
theorem Remembers.unique {known known' : Option (List String)}
    (remembers : Remembers subscriber steps known)
    (remembers' : Remembers subscriber steps known') : known = known' := by
  cases remembers with
  | nothing unreached =>
    cases remembers' with
    | nothing => rfl
    | first split _ reached =>
      exact absurd reached (unreached _ (split ▸ List.mem_append_right _ List.mem_cons_self))
  | first split unreached reached =>
    cases remembers' with
    | nothing unreached' =>
      exact absurd reached (unreached' _ (split ▸ List.mem_append_right _ List.mem_cons_self))
    | first split' unreached' reached' =>
      have one := prefix_of_unreached (split.symm.trans split') unreached' reached
      have other := prefix_of_unreached (split'.symm.trans split) unreached reached'
      rw [one.eq_of_length_le other.length_le]

/-- What is recalled is determined. -/
theorem Recalls.unique {answer answer' : Stored (List String)}
    (recalls : Recalls subscriber steps outages answer)
    (recalls' : Recalls subscriber steps outages answer') : answer = answer' := by
  cases recalls with
  | remembered known =>
    cases recalls' with
    | remembered known' => exact congrArg _ (Option.some.inj (known.unique known'))
    | found unknown | unreached unknown => cases known.unique unknown
  | found unknown reached =>
    cases recalls' with
    | remembered known => cases known.unique unknown
    | found => rfl
    | unreached _ outage => cases reached.symm.trans outage
  | unreached unknown outage =>
    cases recalls' with
    | remembered known => cases known.unique unknown
    | found _ reached => cases reached.symm.trans outage
    | unreached _ outage' => rw [Option.some.inj (outage.symm.trans outage')]

/-- **A look-up answers with what is recalled.** -/
theorem Known.recalls (known : Known steps h) (subscriber : String) (outages : Outages) :
    Recalls subscriber steps outages ((channels subscriber).run outages h).1 := by
  have remembers := known.cache subscriber
  rw [(SearchRequest.run_channels ..).1, known.directory]
  cases kept : Table.get? subscriber h.cache with
  | some channels =>
    rw [kept] at remembers
    exact .remembered remembers
  | none =>
    rw [kept] at remembers
    cases outage : outages (.channels subscriber) with
    | some reason => exact .unreached remembers outage
    | none => exact .found remembers outage

/-- A look-up that fails changes nothing. -/
theorem run_channels_of_error {e : StoreError}
    (failed : ((channels subscriber).run outages h).1 = .error e) :
    ((channels subscriber).run outages h).2 = h := by
  rw [(SearchRequest.run_channels ..).1] at failed
  rw [SearchRequest.run_channels_hub]
  cases kept : Table.get? subscriber h.cache with
  | some channels => rfl
  | none =>
    cases outage : outages (.channels subscriber) with
    | some reason => rfl
    | none =>
      rw [kept, outage] at failed
      cases failed

/-! ## What one subscriber is to another -/

/-- Two hubs with one store, whose caches know the same of a subscriber. -/
structure LikeFor (subscriber : String) (h g : Hub) : Prop where
  store : g.store = h.store
  cache : Table.get? subscriber g.cache = Table.get? subscriber h.cache

/-- Looking up somebody else makes no difference. -/
theorem Step.LooksUp.likeFor (looks : step.LooksUp subscriber outages)
    (differ : other ≠ subscriber) (bound : Nat) (h : Hub) :
    LikeFor other h (step.perform bound h) where
  store := by rw [looks.perform_eq, (SearchRequest.run_channels ..).2]
  cache := by
    rw [looks.perform_eq, cached_channels]
    exact if_neg fun both => differ both.1.symm

/-- **One step** makes no difference either. -/
theorem LikeFor.perform (like : LikeFor subscriber h g) (bound : Nat) (step : Step) :
    LikeFor subscriber (step.perform bound h) (step.perform bound g) := by
  obtain ⟨op, rfl⟩ | ⟨who, outages, looks⟩ | ⟨-, -, idle⟩ := step.cases_perform
  · exact ⟨congrArg (Store.Op.perform · op) like.store, like.cache⟩
  · rw [looks.perform_eq, looks.perform_eq]
    constructor
    · rw [(SearchRequest.run_channels ..).2, (SearchRequest.run_channels ..).2, like.store]
    · rw [cached_channels, cached_channels]
      by_cases mine : who = subscriber
      · subst mine
        simp only [like.store, like.cache]
      · rw [if_neg fun both => mine both.1, if_neg fun both => mine both.1, like.cache]
  · rwa [idle, idle]

/-- **Any steps** leave it at that. -/
theorem LikeFor.after (like : LikeFor subscriber h g) (bound : Nat) (steps : List Step) :
    LikeFor subscriber (after bound h steps) (after bound g steps) := by
  induction steps generalizing h g with
  | nil => exact like
  | cons step steps ih => exact ih (like.perform bound step)

/-- What a subscriber is answered depends only on what hubs have in common for it. -/
theorem LikeFor.answer_eq (like : LikeFor subscriber h g) (outages : Outages) :
    ((channels subscriber).run outages g).1 = ((channels subscriber).run outages h).1 := by
  rw [(SearchRequest.run_channels ..).1, (SearchRequest.run_channels ..).1, like.store, like.cache]

/-- **The first answer of the directory is remembered.** Let anything be asked of the store of a new
hub, and channels be looked up by themselves or for searches, in any order and with any failures.

* The directory holds for every subscriber the channels to which it has been subscribed by now, each
  once, in the order of first subscription.
* A look-up answers, even in a failure of the directory, with what the directory held at the first
  look-up of the same subscriber at which it could be reached, though it was nothing. If there was
  none, it answers with what the directory holds now, or with its failure.
* A search that looks up channels for its subscriber, who is looked up in canonical form, looks in
  those, or hands on the failure.
* A look-up that fails, by itself or for a search, leaves everything as it is.
* Had some step not been taken that looks up a subscriber, no look-up of another would now be
  answered otherwise. -/
theorem channels_remembered (clientLimit : Nat) (sink : Broadcast.Sink) (bound : Nat)
    (steps : List Step) :
    let start := Hub.empty clientLimit sink
    let h := after bound start steps
    (∀ subscriber, h.store.channels subscriber = subscribed subscriber steps) ∧
      (∀ subscriber outages answer, ((channels subscriber).run outages h).1 = answer ↔
        Recalls subscriber steps outages answer) ∧
      (∀ request subscriber outages, (Step.search request outages).LooksUp subscriber outages →
        ((senders request).run outages h).1 =
          ((channels subscriber).run outages h).1.mapError FeedError.store) ∧
      (∀ (step : Step) subscriber outages e, step.LooksUp subscriber outages →
        ((channels subscriber).run outages h).1 = .error e → step.perform bound h = h) ∧
      (∀ past step later subscriber outages, steps = past ++ step :: later →
        step.LooksUp subscriber outages → ∀ other ≠ subscriber, ∀ outages',
          ((channels other).run outages' h).1 =
            ((channels other).run outages' (after bound start (past ++ later))).1) := by
  intro start h
  have known : Known steps h := known_after clientLimit sink bound steps
  refine ⟨known.directory, fun subscriber outages answer => ?_, ?_, ?_, ?_⟩
  · have recalls := known.recalls subscriber outages
    exact ⟨fun answered => answered ▸ recalls, recalls.unique⟩
  · rintro request subscriber outages looks
    cases looks with
    | search _ _ left key => rw [SearchRequest.run_senders_of_open left key]
  · intro step subscriber outages e looks failed
    rw [looks.perform_eq]
    exact run_channels_of_error failed
  · rintro past step later subscriber outages rfl looks other differ outages'
    have like := (looks.likeFor differ bound (after bound start past)).after bound later
    have taken : h = after bound (step.perform bound (after bound start past)) later :=
      after_append ..
    rw [taken, after_append, like.answer_eq]

/-- The directory cannot be reached. -/
def ofDirectory : Outages
  | .channels _ => some "unreachable"
  | _ => none

/-- A search in whatever its subscriber subscribes to. -/
def SearchRequest.ofAlice : SearchRequest where
  subscriber := " Solana:Alice"
  term := none
  isSpam := false
  filter := .unrestricted
  paging := ⟨1, 10⟩

/-- A subscriber searches in vain, searches before the first subscription, and subscribes; another
one subscribes as well. -/
def lateSubscription : List Step :=
  [.search .ofAlice ofDirectory, .search .ofAlice .none,
    .ask (.subscribe "solana:alice" "solana:news"), .ask (.subscribe "solana:bob" "solana:news")]

/-- The second search has found an empty list, which is remembered. To the other subscriber the
search makes no difference. -/
theorem channels_remembered_of_lateSubscription :
    let h := after 10 .sample lateSubscription
    h.store.channels "solana:alice" = ["solana:news"] ∧
      ((channels "solana:alice").run ofDirectory h).1 = .ok [] ∧
      ((channels "solana:bob").run .none h).1 = ((channels "solana:bob").run .none
        (after 10 .sample (lateSubscription.eraseIdx 1))).1 := by
  have key : Address.normalize " Solana:Alice" = some "solana:alice" := by decide +kernel
  have looks : ∀ outages, (Step.search .ofAlice outages).LooksUp "solana:alice" outages :=
    fun outages => .search outages (fun _ _ inverted => nomatch inverted.1)
      (fun _ named => nomatch named) key
  obtain ⟨directory, answers, -, -, others⟩ :=
    channels_remembered 10 ⟨true, [], []⟩ 10 lateSubscription
  refine ⟨(directory "solana:alice").trans (by decide), (answers ..).2 (.remembered ?_), ?_⟩
  · have split : lateSubscription = [.search .ofAlice ofDirectory] ++
        .search .ofAlice .none :: lateSubscription.drop 2 := rfl
    refine .first split (fun s hs => ?_) ⟨_, looks .none, rfl⟩
    rw [List.mem_singleton.1 hs]
    rintro ⟨outages, looks', reached⟩
    obtain ⟨-, rfl⟩ := (looks ofDirectory).unique looks'
    cases reached
  · exact others [_] _ [_, _] _ _ rfl (looks .none) "solana:bob" (by decide) .none

end Query
end NotificationRelay
