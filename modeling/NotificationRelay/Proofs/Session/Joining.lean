/-
# A client that connects while a feed is added

An add, passes over the outbox and the admission of a client take turns call by call
(`Program.arrivals`). The client can learn of the feed in two ways: its snapshot counts the feed, or
it is told of it by a live event. For the snapshot the feed has to be filed under the address of
the client before the index is asked (`Program.Interleaved.counted_of_filed`), for the live event
its processing has to begin after the client has been registered
(`Program.Interleaved.told_of_noted`); and it is processed at some time, since it has left the
outbox (`Program.Interleaved.exists_note`).

A feed waits in the outbox from the moment it is stored, though, and it is filed later. So there is
one order of calls in which neither happens, and it is the only one
(`Program.Interleaved.arrival_noticed`).
-/
import NotificationRelay.Proofs.Flow.Adding
import NotificationRelay.Proofs.Flow.Assurance
import NotificationRelay.Proofs.Flow.Lifetime
import NotificationRelay.Proofs.Session.Admission
import NotificationRelay.Proofs.Session.Roster

namespace NotificationRelay

/-- A client that has been registered is found under its address. -/
theorem Turn.Genuine.finds_of_joined {t : Turn} (ht : t.Genuine) {k : SessionId} {address : String}
    (joined : t.joined? = some (k, address)) : t.after.Finds address k := by
  obtain ⟨outages, ht⟩ := ht
  rw [congrArg Turn.joined? ht] at joined
  rw [congrArg Turn.after ht]
  change t.call.joined? (t.call.perform outages t.before).1 = _ at joined
  show (t.call.perform outages t.before).2.Finds address k
  generalize t.call = c at joined
  cases c with
  | registerClient a id =>
    intro addresses hmem
    simp only [Call.perform, Registry.registerClient] at joined ⊢
    split at joined
    · cases joined
    · next room =>
      obtain ⟨rfl, rfl⟩ : id = k ∧ a = address := by simpa [Call.joined?] using joined
      rw [if_neg room]
      unfold Registry.clientsFor
      refine List.mem_filter.2 ⟨mem_firstMentions.2 (List.mem_flatMap.2 ⟨a, hmem, ?_⟩), ?_⟩
      · simp [Registry.at?, Table.get?_put, Registry.mem_withMember_iff]
      · simp [Table.get?_put]
  | _ => cases joined

/-- A page that is cut from feeds among which is a given one, and counts them all. -/
def FeedPage.Counts (page : FeedPage) (i : FeedId) (feeds : List Feed) : Prop :=
  i ∈ feeds.map (·.id) ∧ ∃ p, page.shown = Shown.page p feeds

/-- A page of what is filed somewhere counts every feed there that is not hidden. -/
theorem FeedPage.counts_pageByIds {s : Store} {ids : List FeedId} {i : FeedId} {f : Feed}
    (stored : s.feed? i = some f) (filed : i ∈ ids) (visible : f.hidden = false) (p : Paging) :
    (Query.listed (s.pageByIds ids ⟨false, none, none⟩ p)).Counts i
      (Call.drawn (.pageByIds ids ⟨false, none, none⟩ p) s) := by
  refine ⟨List.mem_map.2 ⟨f, ?_, Store.id_of_feed? stored⟩, p, FeedPage.shown_listed p _⟩
  refine List.mem_reverse.2 (List.mem_filter.2 ⟨Store.mem_of_feed? stored, ?_⟩)
  rw [Store.id_of_feed? stored]
  simp [filed, Listing.accepts, visible, absentOr]

/-- An add, a client that asks for admission, and passes over the outbox. -/
def Program.arrivals (s : Settings) (adding : Program (Except FeedError Inserted))
    (raw : Option String) (passes : List (Program (Stored Nat))) : List (Program Unit) :=
  adding.discard :: (Gateway.connect s.bounds .client raw).discard :: passes.map Program.discard

/-- A session is told of a feed by a live event. -/
def Program.Told (i : FeedId) (k : SessionId) (moves : List (Nat × Turn)) : Prop :=
  ∃ m ∈ moves, m.2.call.Tells i k

/-- A client is offered a page of its snapshot, normal or spam, that counts a feed. -/
def Program.Counted (i : FeedId) (isSpam : Bool) (k : SessionId) (moves : List (Nat × Turn)) :
    Prop :=
  ∃ P w page, (1, P) ∈ moves ∧ (1, w) ∈ moves ∧ w.call = .offer k (Event.ofPage isSpam page) ∧
    page.Counts i P.drawn

/-- A feed is overlooked by a client if it begins to be processed only before the client is
registered, and is not filed under the address of the client before the client has asked the index
for that address. -/
def Program.Overlooked (i : FeedId) (isSpam : Bool) (address : String) (r : Turn)
    (moves : List (Nat × Turn)) : Prop :=
  ∃ A B L C, moves = A ++ (1, r) :: (B ++ (1, L) :: C) ∧ L.call = .indexed address isSpam ∧
    (∃ m ∈ A, m.2.call = .note i) ∧ (∀ m ∈ B ++ (1, L) :: C, m.2.call ≠ .note i) ∧
    ∀ m ∈ A ++ (1, r) :: B, m.2.call ≠ .append address i isSpam

/-- Only a deletion deletes feeds. -/
theorem Turn.deleted_eq_nil {t : Turn} (ht : ∀ now, t.call ≠ .deleteExpired now) :
    t.deleted = [] := by
  obtain ⟨_, c, _, _⟩ := t
  cases c with
  | deleteExpired now => exact absurd rfl (ht now)
  | _ => rfl

namespace Outbox

/-- Passes do not connect or disconnect anybody. -/
theorem sparesSeats_pass {s : Settings} {p : Program (Stored Nat)}
    (hp : Act.PerformedBy s .drain p) : p.SparesSeats := by
  cases hp with
  | drain sideBySide => exact sparesSeats_drainBy sideBySide _

/-- Whoever handles an entry acknowledges and marks no other feed. -/
theorem Makes.eq_of_settles {t : Broadcast.Topic} {i j : FeedId} {c : Call} (hc : Makes t j c)
    (settles : c = .acknowledge i ∨ ∃ p, c = .complete i p) : j = i := by
  rcases settles with rfl | ⟨p, rfl⟩
  · cases hc with
    | acknowledge => rfl
    | passive hc => cases hc
    | processing hid hc =>
      cases hc with
      | passive hc => cases hc
      | broadcast hc => cases hc
  · cases hc with
    | passive hc => cases hc
    | processing hid hc =>
      cases hc with
      | complete => exact hid.symm
      | passive hc => cases hc
      | broadcast hc => cases hc

end Outbox

namespace Program.Interleaved

section Arrivals

variable {s : Settings} {d : Draft} {adding : Program (Except FeedError Inserted)}
  {raw : Option String} {passes : List (Program (Stored Nat))} {qs : List (Program Unit)}
  {start h' : Hub} {moves : List (Nat × Turn)} {i : FeedId} {k : SessionId} {address : String}
  {r v : Turn}

/-- Who can have made which call. -/
theorem kinds_of_arrivals (adds : Intake.AddedBy d adding)
    (relays : ∀ p ∈ passes, Act.PerformedBy s .drain p)
    (run : Interleaved (arrivals s adding raw passes) start moves qs h') {m : Nat × Turn}
    (hm : m ∈ moves) : m.1 = 0 ∧ Intake.Makes d m.2.call ∨ m.1 = 1 ∧ m.2.call.isPassive = true ∨
      ∃ p ∈ passes, (arrivals s adding raw passes)[m.1]? = some p.discard ∧
        (∃ j, Outbox.Makes s.topic j m.2.call) ∧ m.2.call.reseats = false ∧ m.1 ≠ 1 := by
  obtain ⟨n, u⟩ := m
  obtain ⟨p, q, hp, -, goes, mine⟩ := run.exists_goes hm
  match n, hp with
  | 0, hp =>
    obtain rfl : adding.discard = p := Option.some.inj hp
    exact .inl ⟨rfl, (goes.only (adds.only.bind fun _ => trivial)).1 u mine⟩
  | 1, hp =>
    obtain rfl : (Gateway.connect s.bounds .client raw).discard = p := Option.some.inj hp
    exact .inr (.inl ⟨rfl, (goes.only (Program.Only.bind (Gateway.passive_connect ..)
      fun _ => trivial)).1 u mine⟩)
  | n + 2, hp =>
    have there : (passes.map Program.discard)[n]? = some p := hp
    rw [List.getElem?_map] at there
    obtain ⟨pass, hpass, rfl⟩ := Option.map_eq_some_iff.1 there
    have inside := List.mem_of_getElem? hpass
    refine .inr (.inr ⟨pass, inside, hp, ?_, ?_, by lia⟩)
    · exact (goes.only (Program.Only.bind (relays pass inside).only fun _ => trivial)).1 u mine
    · exact (goes.only (Program.Only.bind (Outbox.sparesSeats_pass (relays pass inside))
        fun _ => trivial)).1 u mine

variable (adds : Intake.AddedBy d adding) (relays : ∀ p ∈ passes, Act.PerformedBy s .drain p)
  (run : Interleaved (arrivals s adding raw passes) start moves qs h')

include adds relays run

/-- Nobody deletes a feed, takes one out of the index, or stores another draft. -/
theorem spared_of_arrivals : ∀ m ∈ moves, m.2.deleted = [] ∧ (∀ ids, m.2.call ≠ .unindex ids) ∧
    ∀ d', m.2.call = .insert d' → d' = d := by
  intro m hm
  suffices spared : (∀ now, m.2.call ≠ .deleteExpired now) ∧ (∀ ids, m.2.call ≠ .unindex ids) ∧
      ∀ d', m.2.call = .insert d' → d' = d from ⟨Turn.deleted_eq_nil spared.1, spared.2⟩
  rcases kinds_of_arrivals adds relays run hm with ⟨-, makes⟩ | ⟨-, passive⟩ | ⟨p, -, -, ⟨j, makes⟩, -, -⟩
  · generalize m.2.call = c at makes
    cases makes with
    | insert => exact ⟨nofun, nofun, fun d' same => (Call.insert.inj same).symm⟩
    | index hc => cases hc <;> refine ⟨?_, ?_, ?_⟩ <;> rintro _ ⟨⟩
  · exact ⟨fun _ same => by simp [same, Call.isPassive] at passive,
      fun _ same => by simp [same, Call.isPassive] at passive,
      fun _ same => by simp [same, Call.isPassive] at passive⟩
  · have still := makes.movesFeeds
    exact ⟨fun _ same => by simp [same, Call.movesFeeds] at still,
      fun _ same => by simp [same, Call.movesFeeds] at still,
      fun _ same => by simp [same, Call.movesFeeds] at still⟩

/-- What holds of the record of a feed when it is created, and goes on to hold when it is marked and
when an attempt is counted, holds whenever the feed is there. -/
theorem records_of_arrivals (R : Feed → Prop) (absent : start.store.feed? i = none)
    (new : R (.ofDraft i d))
    (marked : ∀ m ∈ moves, ∀ p, m.2.call = .complete i p → ∀ g, R g → R (g.completed p))
    (bumped : ∀ g, R g → R g.bumped) :
    ∀ m ∈ moves, ∀ f, m.2.before.store.feed? i = some f → R f := by
  have spared := spared_of_arrivals adds relays run
  refine (run.keeps (fun h => ∀ f, h.store.feed? i = some f → R f) (fun g g' o hg => ?_)
    (fun m hm outages genuine hg f hf => ?_) fun f hf => ?_).2
  · rwa [o.store_eq]
  · rw [congrArg Turn.after genuine] at hf
    rcases m.2.call.feed?_perform outages m.2.before hf with ⟨d', inserts, rfl⟩ |
      ⟨g, found, rfl | ⟨p, marks, rfl⟩ | rfl⟩
    · rw [(spared m hm).2.2 d' inserts]
      exact new
    · exact hg _ found
    · exact marked m hm p marks g (hg g found)
    · exact bumped g (hg g found)
  · rw [absent] at hf
    cases hf

/-- Before its feed is created there is none. -/
theorem absent_of_created (coherent : start.store.Coherent) (hv : (0, v) ∈ moves)
    (created : v.created? = some (i, d)) : start.store.feed? i = none := by
  refine Option.eq_none_iff_forall_ne_some.2 fun f found => ?_
  obtain ⟨A, B, rfl⟩ := List.append_of_mem hv
  have chain := run.chain
  rw [List.map_append, List.map_cons] at chain
  obtain ⟨s₁, first, rest⟩ := chain.of_append
  obtain ⟨-, -, -, next⟩ := (rest.genuine v List.mem_cons_self).exists_insert created
  obtain ⟨rfl, -⟩ := rest.of_cons
  have there := first.mem_ids_of_kept (Store.mem_ids_iff.2 ⟨f, found⟩) fun u hu deleted => by
    obtain ⟨m, hm, rfl⟩ := List.mem_map.1 hu
    rw [(spared_of_arrivals adds relays run m (List.mem_append_left _ hm)).1] at deleted
    cases deleted
  have known := ((first.coherent coherent).numbered i there).2
  lia

/-- A feed that is there after one of the calls is there when a later one is made. -/
theorem mem_ids_of_later {A B C : List (Nat × Turn)} {m n : Nat × Turn}
    (split : moves = A ++ m :: (B ++ n :: C)) (there : i ∈ m.2.after.store.ids) :
    i ∈ n.2.before.store.ids := by
  have spared := spared_of_arrivals adds relays run
  subst split
  have chain := run.chain
  simp only [List.map_append, List.map_cons] at chain
  obtain ⟨s₁, -, chain⟩ := chain.of_append
  obtain ⟨-, chain⟩ := chain.of_cons
  obtain ⟨s₂, between, chain⟩ := chain.of_append
  obtain ⟨rfl, -⟩ := chain.of_cons
  refine between.mem_ids_of_kept there fun x hx deleted => ?_
  obtain ⟨y, hy, rfl⟩ := List.mem_map.1 hx
  rw [(spared y (List.mem_append_right _ (List.mem_cons_of_mem _
    (List.mem_append_left _ hy)))).1] at deleted
  cases deleted

variable (ended : ∀ q ∈ qs, q = .done ())

include ended

/-- A pass that acknowledges or marks a feed handles its entry, and the feed is there meanwhile. -/
theorem exists_relayOne (coherent : start.store.Coherent) {m : Nat × Turn} (hm : m ∈ moves)
    (own : m.2.call = .acknowledge i ∨ ∃ p, m.2.call = .complete i p) :
    ∃ vs b, (Outbox.relayOne s.topic i).Goes vs (.done b) ∧ m.2 ∈ vs ∧
      ∀ w ∈ vs, (m.1, w) ∈ moves ∧ i ∈ w.before.store.ids := by
  obtain ⟨n, u⟩ := m
  replace own : u.call = .acknowledge i ∨ ∃ p, u.call = .complete i p := own
  rcases kinds_of_arrivals adds relays run hm with ⟨-, makes⟩ | ⟨-, passive⟩ | ⟨p, hp, there, -, -, -⟩
  · rcases own with own | ⟨_, own⟩ <;> rw [own] at makes <;> cases makes with
      | index hc => cases hc
  · rcases own with own | ⟨_, own⟩ <;> rw [own] at passive <;> cases passive
  obtain ⟨result, goes⟩ := run.ends ended there
  cases relays p hp with
  | drain sideBySide =>
    obtain ⟨outages, h, rest, share, handling⟩ := Outbox.goes_drainBy sideBySide goes
    have mine : u ∈ Turn.share n moves := Turn.mem_share.2 hm
    rw [share, List.mem_cons] at mine
    rcases mine with rfl | mine
    · rcases own with own | ⟨_, own⟩ <;> cases own
    obtain ⟨j, hj, vs, b, entry, sub, hu⟩ := handling u mine
    obtain rfl : j = i := ((entry.only (Outbox.only_relayOne s.topic j)).1 u hu).eq_of_settles own
    refine ⟨vs, b, entry, hu, fun w hw => ?_⟩
    -- the pass has found the feed waiting before it handled it
    rw [← List.nil_append (_ :: rest)] at share
    obtain ⟨A, B, rfl, -, rfl⟩ := Turn.exists_of_share share
    have later : (n, w) ∈ B := Turn.mem_share.1 (sub hw)
    refine ⟨List.mem_append_right _ (List.mem_cons_of_mem _ later), ?_⟩
    obtain ⟨B₁, B₂, rfl⟩ := List.append_of_mem later
    have chain := run.chain
    rw [List.map_append, List.map_cons] at chain
    obtain ⟨s₁, first, chain⟩ := chain.of_append
    have waiting := first.coherent coherent
    obtain ⟨rfl, -⟩ := chain.of_cons
    refine mem_ids_of_later adds relays run rfl ?_
    show j ∈ ((Call.pending s.pipeline.relayBatchSize).perform outages h).2.store.ids
    simp only [Call.perform, Outages.guard]
    split <;> exact waiting.stored _ hj

/-- **A feed that has left the outbox was processed.** -/
theorem exists_note (coherent : start.store.Coherent) (healthy : ∀ m ∈ moves, ¬ m.2.failed)
    (hv : (0, v) ∈ moves) (created : v.created? = some (i, d))
    (drained : i ∉ h'.store.outbox) : ∃ m ∈ moves, m.2.call = .note i := by
  by_contra unnoted
  have handled := fun {m : Nat × Turn} (hm : m ∈ moves) =>
    exists_relayOne (i := i) adds relays run ended coherent hm
  have unmarked : ∀ m ∈ moves, ∀ p, m.2.call ≠ .complete i p := fun m hm p marks => by
    obtain ⟨vs, b, entry, hu, mine⟩ := handled hm (.inr ⟨p, marks⟩)
    obtain ⟨outages, h, rest, rfl, ⟨n, hn, notes⟩ | ⟨acknowledges, -⟩⟩ := Outbox.goes_relayOne entry
    · exact unnoted ⟨_, (mine n (List.mem_cons_of_mem _ hn)).1, notes⟩
    · rcases List.mem_cons.1 hu with same | hu
      · rw [same] at marks
        cases marks
      · rw [acknowledges _ hu] at marks
        cases marks
  have unprocessed := records_of_arrivals adds relays run (fun f => f.processed = false)
    (absent_of_created adds relays run coherent hv created) rfl
    (fun m hm p marks => absurd marks (unmarked m hm p)) fun g hg => hg
  -- it waits from its creation on, so somebody has acknowledged it
  obtain ⟨m, hm, acknowledges⟩ : ∃ m ∈ moves, m.2.call = .acknowledge i := by
    obtain ⟨A, B, rfl⟩ := List.append_of_mem hv
    have chain := run.chain
    rw [List.map_append, List.map_cons] at chain
    obtain ⟨s₁, -, rest⟩ := chain.of_append
    obtain ⟨-, after, free, next⟩ := (rest.genuine v List.mem_cons_self).exists_insert created
    have waits : i ∈ v.after.store.outbox := by
      rw [after, next]
      simp only [Store.insert, free]
      exact Ascending.mem_insert.2 (.inl rfl)
    obtain ⟨u, hu, acknowledges⟩ := rest.of_cons.2.acknowledged_of_out waits drained
      fun u hu deleted => by
        obtain ⟨m, hm, rfl⟩ := List.mem_map.1 hu
        rw [(spared_of_arrivals adds relays run m
          (List.mem_append_right _ (List.mem_cons_of_mem _ hm))).1] at deleted
        cases deleted
    obtain ⟨m, hm, rfl⟩ := List.mem_map.1 hu
    exact ⟨m, List.mem_append_right _ (List.mem_cons_of_mem _ hm), acknowledges⟩
  obtain ⟨vs, b, entry, -, mine⟩ := handled hm (.inl acknowledges)
  obtain ⟨outages, h, rest, rfl, ⟨n, hn, notes⟩ | ⟨-, done⟩⟩ := Outbox.goes_relayOne entry
  · exact unnoted ⟨_, (mine n (List.mem_cons_of_mem _ hn)).1, notes⟩
  · obtain ⟨loads, there⟩ := mine _ List.mem_cons_self
    obtain ⟨f, found⟩ := Store.mem_ids_iff.1 there
    have processed := done (healthy _ loads) f found
    rw [unprocessed _ loads f found] at processed
    cases processed

omit adds relays in
/-- The client is registered first, and what it does from then on is its snapshot. -/
theorem snapshot_of_joined {A Y : List (Nat × Turn)} (split : moves = A ++ (1, r) :: Y)
    (joined : r.joined? = some (k, address)) : Address.normalize address = some address ∧
      (Gateway.snapshot s.bounds address k).Goes (Turn.share 1 Y) (.done ()) := by
  obtain ⟨result, goes⟩ := run.ends (k := 1) (p := Gateway.connect s.bounds .client raw) ended rfl
  have mine : r ∈ Turn.share 1 moves := Turn.mem_share.2 (split ▸
    List.mem_append_right _ List.mem_cons_self)
  have share : Turn.share 1 moves = Turn.share 1 A ++ r :: Turn.share 1 Y := by
    rw [split, Turn.share_append, Turn.share_cons_self]
  rcases Gateway.goes_connect goes with ⟨unjoined, -⟩ |
    ⟨k', address', o, r', vs, -, whole, opens, registers, joined', normal, shows⟩
  · rw [unjoined r mine] at joined
    cases joined
  have sends : ∀ w ∈ vs, w.joined? = none := fun w hw => by
    have sent := (shows.only (Gateway.only_snapshot s.bounds address' k')).1 w hw
    obtain ⟨_, c, _, _⟩ := w
    cases sent with
    | query hc =>
      change c.isQuery = true at hc
      cases c <;> first | rfl | cases hc
    | _ => rfl
  rw [whole] at share
  -- the registration is the second call of the client
  rcases List.cons_eq_append_iff.1 share with ⟨-, heq⟩ | ⟨A', first, rest⟩
  · obtain ⟨rfl, -⟩ := List.cons.inj heq
    obtain ⟨_, c, _, _⟩ := r
    cases opens
    cases joined
  rcases List.cons_eq_append_iff.1 rest with ⟨-, heq⟩ | ⟨A'', -, heq⟩
  · obtain ⟨rfl, later⟩ := List.cons.inj heq
    obtain ⟨rfl, rfl⟩ := Prod.mk.inj (Option.some.inj (joined'.symm.trans joined))
    rw [later]
    exact ⟨Address.normalize_normalize normal, shows⟩
  · rw [sends r (heq ▸ List.mem_append_right _ List.mem_cons_self)] at joined
    cases joined

/-- Nobody leaves, so the client is found at every time after it has been registered. -/
theorem finds_of_joined {A Y : List (Nat × Turn)} (split : moves = A ++ (1, r) :: Y)
    (joined : r.joined? = some (k, address)) : ∀ m ∈ Y, m.2.before.Finds address k := by
  obtain ⟨-, shows⟩ := snapshot_of_joined run ended split joined
  have genuine : r.Genuine := run.chain.genuine r
    (List.mem_map.2 ⟨(1, r), split ▸ List.mem_append_right _ List.mem_cons_self, rfl⟩)
  have kinds := fun {m : Nat × Turn} (hm : m ∈ moves) => kinds_of_arrivals adds relays run hm
  subst split
  obtain ⟨rs, h₁, -, later⟩ := run.of_append
  obtain ⟨q₁, later⟩ := later.of_cons
  refine (later.keeps (Hub.Finds address k) (fun g g' o hg => ?_)
    (fun m hm outages turn hg => ?_) (genuine.finds_of_joined joined)).2
  · unfold Hub.Finds
    rw [o.sessions_eq.1]
    exact hg
  · have spares : m.2.call.reseats = false := by
      rcases kinds (List.mem_append_right _ (List.mem_cons_of_mem _ hm)) with
        ⟨-, makes⟩ | ⟨mine, -⟩ | ⟨p, -, -, -, spares, -⟩
      · generalize m.2.call = c at makes
        cases makes with
        | insert => rfl
        | index hc => cases hc <;> rfl
      · obtain ⟨_, u⟩ := m
        cases mine
        have sent := (shows.only (Gateway.only_snapshot s.bounds address k)).1 u
          (Turn.mem_share.2 hm)
        exact sent.sparesSeats
      · exact spares
    unfold Hub.Finds
    rw [congrArg Turn.after turn]
    show ∀ addresses, address ∈ addresses →
      k ∈ (m.2.call.perform outages m.2.before).2.registry.clientsFor addresses
    rw [Call.registry_perform spares]
    exact hg

/-- If the feed is processed after the client has been registered, the client is told of it. -/
theorem told_of_noted (coherent : start.store.Coherent) (hv : (0, v) ∈ moves)
    (created : v.created? = some (i, d)) (addressed : address ∈ d.recipients)
    {A Y : List (Nat × Turn)} (split : moves = A ++ (1, r) :: Y)
    (joined : r.joined? = some (k, address)) {m : Nat × Turn} (hm : m ∈ Y)
    (notes : m.2.call = .note i) : Told i k moves := by
  have known := records_of_arrivals adds relays run (fun f => address ∈ f.recipients)
    (absent_of_created adds relays run coherent hv created) addressed
    (fun _ _ _ _ g hg => hg) fun g hg => hg
  have finds := finds_of_joined adds relays run ended split joined
  have kinds := fun {m : Nat × Turn} (hm : m ∈ moves) => kinds_of_arrivals adds relays run hm
  subst split
  have inY : ∀ {m}, m ∈ Y → m ∈ A ++ (1, r) :: Y := fun hm =>
    List.mem_append_right _ (List.mem_cons_of_mem _ hm)
  obtain ⟨rs, h₁, first, later⟩ := run.of_append
  obtain ⟨q₁, later⟩ := later.of_cons
  obtain ⟨n, u⟩ := m
  replace notes : u.call = .note i := notes
  rcases kinds (inY hm) with ⟨-, makes⟩ | ⟨-, passive⟩ | ⟨p, hp, there, -, -, other⟩
  · rw [notes] at makes
    cases makes with
    | index hc => cases hc
  · rw [notes] at passive
    cases passive
  -- what its pass has promised from the start, it promises when the client is registered
  obtain ⟨q, hq, goes⟩ := first.goes there
  obtain ⟨q', hq', goes'⟩ := later.goes (p := q) (k := n)
    (by rwa [List.getElem?_set_ne (Ne.symm other)])
  obtain rfl := ended q' (List.mem_of_getElem? hq')
  have promises : p.discard.Promises (fun h => h.store.Addresses i address)
      (Hub.Finds address k) (· = .note i) (Call.Tells i k) := by
    cases relays p hp with
    | drain sideBySide =>
      exact Program.Promises.bind (Outbox.promises_drainBy sideBySide) fun _ => trivial
  have promises := promises.goes goes fun w hw =>
    known (n, w) (List.mem_append_left _ (Turn.mem_share.1 hw))
  obtain ⟨w, hw, tells⟩ := promises.kept goes' (fun w hw =>
    ⟨known (n, w) (inY (Turn.mem_share.1 hw)), finds (n, w) (Turn.mem_share.1 hw)⟩)
    (Turn.mem_share.2 hm) notes
  exact ⟨(n, w), inY (Turn.mem_share.1 hw), tells⟩

omit ended in
/-- When something has been filed for a feed, the feed is there. -/
theorem mem_ids_of_filed {B C : List (Nat × Turn)} {m n : Nat × Turn} (split : moves = B ++ m :: C)
    (hn : n ∈ B) {b : Bool} (files : n.2.call = .append address i b) :
    i ∈ m.2.before.store.ids := by
  have mine : n.1 = 0 := by
    rcases kinds_of_arrivals adds relays run (split ▸ List.mem_append_left _ hn) with
      ⟨mine, -⟩ | ⟨-, passive⟩ | ⟨p, -, -, ⟨j, makes⟩, -, -⟩
    · exact mine
    · rw [files] at passive
      cases passive
    · have still := makes.movesFeeds
      rw [files] at still
      cases still
  obtain ⟨_, u⟩ := n
  cases mine
  subst split
  obtain ⟨rs, h₁, first, -⟩ := run.of_append
  obtain ⟨q, -, goes⟩ := first.goes (k := 0) (p := adding.discard) rfl
  obtain ⟨q', goes, -⟩ := goes.of_discard
  obtain ⟨v, hv, created⟩ := adds.created_of_append goes (Turn.mem_share.2 hn) files
  have genuine := run.chain.genuine v (List.mem_map.2
    ⟨(0, v), List.mem_append_left _ (Turn.mem_share.1 hv), rfl⟩)
  obtain ⟨B₁, B₂, rfl⟩ := List.append_of_mem (Turn.mem_share.1 hv)
  exact mem_ids_of_later adds relays run (List.append_assoc B₁ _ _)
    (genuine.mem_ids_of_created created)

/-- The client asks for what is filed under its address, and if the feed is filed there by then its
snapshot counts the feed. -/
theorem counted_of_filed (coherent : start.store.Coherent) (healthy : ∀ m ∈ moves, ¬ m.2.failed)
    (hv : (0, v) ∈ moves) (created : v.created? = some (i, d)) (visible : d.hidden = false)
    {A Y : List (Nat × Turn)} (split : moves = A ++ (1, r) :: Y)
    (joined : r.joined? = some (k, address)) :
    ∃ B L C, Y = B ++ (1, L) :: C ∧ L.call = .indexed address d.isSpam ∧
      ((∃ m ∈ A ++ (1, r) :: B, m.2.call = .append address i d.isSpam) →
        Counted i d.isSpam k moves) := by
  have spared := spared_of_arrivals adds relays run
  have record := records_of_arrivals adds relays run (fun f => f.hidden = false)
    (absent_of_created adds relays run coherent hv created) visible
    (fun _ _ _ _ g hg => hg) fun g hg => hg
  obtain ⟨canonical, shows⟩ := snapshot_of_joined run ended split joined
  obtain ⟨xs, vs, ws, ys, answer, share, reads, hands⟩ :=
    Gateway.goes_half canonical shows d.isSpam
  obtain ⟨outages, h, rest, asks, counting⟩ := hands.of_reads reads
  have mine : ∀ u ∈ vs, ¬ u.failed := fun u hu => healthy (1, u) <| by
    rw [split]
    refine List.mem_append_right _ (List.mem_cons_of_mem _ (Turn.mem_share.1 ?_))
    rw [share]
    exact List.mem_append_left _ (List.mem_append_right _ (List.mem_append_left _ hu))
  rw [asks, List.append_assoc, List.cons_append] at share
  obtain ⟨B, C, rfl, -, share⟩ := Turn.exists_of_share share
  refine ⟨B, _, C, rfl, rfl, fun ⟨m, hm, files⟩ => ?_⟩
  have whole : moves = (A ++ (1, r) :: B) ++ (1, (Call.indexed address d.isSpam).turn outages h) ::
      C := by
    rw [split, List.append_assoc, List.cons_append]
  have inside : ∀ {n}, n ∈ A ++ (1, r) :: B → n ∈ moves := fun hn => by
    rw [whole]
    exact List.mem_append_left _ hn
  have chain := run.chain
  rw [whole, List.map_append, List.map_cons] at chain
  obtain ⟨s₁, first, chain⟩ := chain.of_append
  obtain ⟨rfl, -⟩ := chain.of_cons
  have listed : i ∈ h.store.indexed address d.isSpam :=
    (first.mem_indexed_iff fun u hu => by
      obtain ⟨n, hn, rfl⟩ := List.mem_map.1 hu
      exact (spared n (inside hn)).2.1).2
        (.inr ⟨m.2, List.mem_map_of_mem hm, files, healthy m (inside hm)⟩)
  obtain ⟨outages', h', w, rfl, offers⟩ := counting mine (List.ne_nil_of_mem listed)
  rw [List.cons_append, List.cons_append, List.nil_append, ← List.nil_append (_ :: _ :: ys)]
    at share
  obtain ⟨B', C', rfl, -, share⟩ := Turn.exists_of_share share
  rw [← List.cons_append, ← List.append_assoc] at whole
  have later : ∀ {n}, n ∈ C' → n ∈ moves := fun hn => by
    rw [whole]
    exact List.mem_append_right _ (List.mem_cons_of_mem _ hn)
  have paged : (1, (Call.pageByIds (h.store.indexed address d.isSpam) ⟨false, none, none⟩
      ((Paging.make 1 s.bounds.snapshotSize).clamp s.bounds.maxPageSize)).turn outages' h') ∈
        moves := by
    rw [whole]
    exact List.mem_append_right _ List.mem_cons_self
  obtain ⟨f, stored⟩ := Store.mem_ids_iff.1
    (mem_ids_of_filed adds relays run whole (List.mem_append_left _ hm) files)
  refine ⟨_, w, _, paged, later (Turn.mem_share.1 ?_), offers,
    FeedPage.counts_pageByIds stored listed (record _ paged f stored) _⟩
  rw [share]
  exact List.mem_cons_self

/-- **Whether a client that connects notices a feed.** Let an add, the admission of a client and
passes over the outbox take turns call by call, none of which fails, over a store that can come
about; let all of them come to their ends. If the add has created a feed that is not hidden, the
client has been registered under one of its recipients, and the feed has left the outbox, then the
client is told of it by a live event, or its snapshot counts it, unless it has overlooked it in one
particular way: by being registered when the feed was processed already, and asking for its feeds
when this one was not filed yet. -/
theorem arrival_noticed (possible : start.store.Reachable) (healthy : ∀ m ∈ moves, ¬ m.2.failed)
    (hv : (0, v) ∈ moves) (created : v.created? = some (i, d)) (visible : d.hidden = false)
    (addressed : address ∈ d.recipients) (hr : (1, r) ∈ moves)
    (joined : r.joined? = some (k, address)) (drained : i ∉ h'.store.outbox) :
    Told i k moves ∨ Counted i d.isSpam k moves ∨ Overlooked i d.isSpam address r moves := by
  have coherent := possible.coherent
  obtain ⟨A, Y, split⟩ := List.append_of_mem hr
  by_cases late : ∃ m ∈ Y, m.2.call = .note i
  · obtain ⟨m, hm, notes⟩ := late
    exact .inl (told_of_noted adds relays run ended coherent hv created addressed split joined hm
      notes)
  obtain ⟨B, L, C, rfl, asks, counted⟩ :=
    counted_of_filed adds relays run ended coherent healthy hv created visible split joined
  by_cases early : ∃ m ∈ A ++ (1, r) :: B, m.2.call = .append address i d.isSpam
  · exact .inr (.inl (counted early))
  refine .inr (.inr ⟨A, B, L, C, split, asks, ?_, fun m hm notes => late ⟨m, hm, notes⟩,
    fun m hm files => early ⟨m, hm, files⟩⟩)
  obtain ⟨m, hm, notes⟩ := exists_note adds relays run ended coherent healthy hv created drained
  rw [split, List.mem_append, List.mem_cons] at hm
  rcases hm with hm | rfl | hm
  · exact ⟨m, hm, notes⟩
  · obtain ⟨_, c, _, _⟩ := r
    cases notes
    cases joined
  · exact absurd ⟨m, hm, notes⟩ late

end Arrivals

/-! ## A client that is too late for the one and too early for the other -/

/-- A feed is added for alice, who connects. Two passes over the outbox are made. -/
def arriving : List (Program Unit) :=
  arrivals .sample (Intake.add (.sample "p" ["solana:alice"] 5)) (some "solana:alice")
    [Outbox.drain Settings.sample.topic 100, Outbox.drain Settings.sample.topic 100]

/-- Both passes are passes over the outbox with the settings of the relay. -/
theorem relays_of_arriving :
    ∀ p ∈ [Outbox.drain Settings.sample.topic 100, Outbox.drain Settings.sample.topic 100],
      Act.PerformedBy .sample .drain p := by
  have pass : Act.PerformedBy .sample .drain (Outbox.drain Settings.sample.topic 100) :=
    Act.performedBy_drain (by decide)
  exact List.forall_mem_cons.2 ⟨pass, List.forall_mem_singleton.2 pass⟩

/-- The feed is stored and processed, alice connects and is sent her snapshot, and then the feed is
filed. -/
def late : List (Nat × Turn) × List (Program Unit) × Hub :=
  takeTurns .none ([0] ++ List.replicate 20 2 ++ List.replicate 20 1 ++ [0, 0] ++
    List.replicate 20 3) arriving .sample

/-- Alice is neither told of the feed nor sent a page that counts it. -/
theorem unnoticed_late : ¬ Told 1 0 late.1 ∧ ¬ Counted 1 false 0 late.1 := by
  constructor
  · rintro ⟨m, hm, e, offers, live⟩
    have silent : offered 1 0 (late.1.map (·.2)) = [] := rfl
    have told := List.filterMap_eq_nil_iff.1 silent m.2 (List.mem_map_of_mem hm)
    rw [offers, Call.offered?, if_pos ⟨rfl, live⟩] at told
    cases told
  · rintro ⟨P, w, page, -, hw, offers, ⟨inside, p, shown⟩⟩
    have empty : ∀ m ∈ late.1, ∀ x ∈ m.2.call.shown?, x.total = 0 := by decide +kernel
    have total := empty _ hw page.shown (by
      rw [offers]
      exact rfl)
    rw [shown] at total
    rw [List.length_eq_zero_iff.1 total] at inside
    cases inside

/-- She has overlooked it, since it was processed too early for her and filed too late. -/
theorem arrival_noticed_of_late : late.2.1 = arriving.map (fun _ => .done ()) ∧
    1 ∉ late.2.2.store.outbox ∧ (∀ m ∈ late.1, ¬ m.2.failed) ∧
      Overlooked 1 false "solana:alice" late.1[11].2 late.1 := by
  have ended : late.2.1 = arriving.map (fun _ => .done ()) := rfl
  have drained : 1 ∉ late.2.2.store.outbox := by decide +kernel
  have healthy : ∀ m ∈ late.1, ¬ m.2.failed := fun m hm => not_failed_of_takeTurns hm
  have run : Interleaved arriving .sample late.1 late.2.1 late.2.2 := of_takeTurns .none _ _ _
  rw [ended] at run
  have joined : late.1[11].2.joined? = some (0, "solana:alice") := by decide +kernel
  refine ⟨ended, drained, healthy, ?_⟩
  have noticed := arrival_noticed (Intake.addedBy_add _) relays_of_arriving run (by simp)
    Store.reachable_empty healthy (i := 1) (v := late.1[0].2) List.mem_cons_self rfl rfl
    List.mem_cons_self (List.mem_of_getElem? (i := 11) rfl) joined drained
  exact (noticed.resolve_left unnoticed_late.1).resolve_left unnoticed_late.2

/-- So it is not so that a client which connects while a feed is added for it always notices the
feed. -/
theorem arrival_missed_of_late :
    ¬ ∀ (s : Settings) (d : Draft) (adding : Program (Except FeedError Inserted))
      (raw : Option String) (passes : List (Program (Stored Nat))) (qs : List (Program Unit))
      (moves : List (Nat × Turn)) (h' : Hub) (i : FeedId) (k : SessionId) (address : String)
      (v r : Turn), Intake.AddedBy d adding → (∀ p ∈ passes, Act.PerformedBy s .drain p) →
        Interleaved (arrivals s adding raw passes) .sample moves qs h' →
        (∀ q ∈ qs, q = .done ()) → (∀ m ∈ moves, ¬ m.2.failed) → (0, v) ∈ moves →
        v.created? = some (i, d) → d.hidden = false → address ∈ d.recipients →
        (1, r) ∈ moves → r.joined? = some (k, address) → i ∉ h'.store.outbox →
          Told i k moves ∨ Counted i d.isSpam k moves := by
  intro claim
  have ended : late.2.1 = arriving.map (fun _ => .done ()) := rfl
  have run : Interleaved arriving .sample late.1 late.2.1 late.2.2 := of_takeTurns .none _ _ _
  rw [ended] at run
  have noticed := claim .sample (.sample "p" ["solana:alice"] 5) _ _ _ _ late.1 late.2.2 1 0
    "solana:alice" late.1[0].2 late.1[11].2 (Intake.addedBy_add _) relays_of_arriving run
    (by simp) (fun m hm => not_failed_of_takeTurns hm) List.mem_cons_self rfl rfl
    List.mem_cons_self (List.mem_of_getElem? (i := 11) rfl) (by decide +kernel)
    (by decide +kernel)
  exact noticed.elim unnoticed_late.1 unnoticed_late.2

end Program.Interleaved
end NotificationRelay
