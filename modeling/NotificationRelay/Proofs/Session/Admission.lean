/-
# What a new session is offered

A client that connects is registered first and sent its snapshot then: a page of its normal feeds
and a page of its spam feeds, each read by two calls at most (`Query.Reads`) and offered if it
could be read (`Gateway.Hands`). What else is done meanwhile does not matter for the order of these
calls, so it is read off the program alone (`Query.goes_recipientPage`,
`Gateway.goes_snapshot`, `Gateway.goes_connect`).
-/
import NotificationRelay.Proofs.Address.NormalForm
import NotificationRelay.Proofs.Query.Drawing
import NotificationRelay.Proofs.Run.Interleaving
import NotificationRelay.Proofs.Session.Binding

namespace NotificationRelay

namespace Query

/-- The calls by which a page of a recipient's feeds is read, and what comes of them: the index is
asked, and if it lists anything the page is. -/
inductive Reads (recipient : String) (isSpam : Bool) (listing : Listing) (p : Paging) :
    List Turn → Except FeedError FeedPage → Prop
  | unlisted {outages : Outages} {h : Hub} {e : FeedError}
      (hf : ((Call.indexed recipient isSpam).turn outages h).failed) :
      Reads recipient isSpam listing p [(Call.indexed recipient isSpam).turn outages h] (.error e)
  | none {outages : Outages} {h : Hub}
      (hf : ¬ ((Call.indexed recipient isSpam).turn outages h).failed)
      (empty : h.store.indexed recipient isSpam = []) :
      Reads recipient isSpam listing p [(Call.indexed recipient isSpam).turn outages h]
        (.ok .empty)
  | unread {outages outages' : Outages} {h h' : Hub} {e : FeedError}
      (hf : ¬ ((Call.indexed recipient isSpam).turn outages h).failed)
      (hf' : ((Call.pageByIds (h.store.indexed recipient isSpam) listing p).turn
        outages' h').failed) :
      Reads recipient isSpam listing p [(Call.indexed recipient isSpam).turn outages h,
        (Call.pageByIds (h.store.indexed recipient isSpam) listing p).turn outages' h'] (.error e)
  | page {outages outages' : Outages} {h h' : Hub}
      (hf : ¬ ((Call.indexed recipient isSpam).turn outages h).failed)
      (hf' : ¬ ((Call.pageByIds (h.store.indexed recipient isSpam) listing p).turn
        outages' h').failed) :
      Reads recipient isSpam listing p [(Call.indexed recipient isSpam).turn outages h,
        (Call.pageByIds (h.store.indexed recipient isSpam) listing p).turn outages' h']
        (.ok (listed (h'.store.pageByIds (h.store.indexed recipient isSpam) listing p)))

/-- A page of a recipient's feeds is read in this way. -/
theorem goes_recipientPage {bound : Nat} {recipient : String} {isSpam : Bool} {listing : Listing}
    {p : Paging} {us : List Turn} {result : Except FeedError FeedPage}
    (canonical : Address.normalize recipient = some recipient)
    (g : (recipientPage bound recipient isSpam listing p).Goes us (.done result)) :
    Reads recipient isSpam listing (p.clamp bound) us result := by
  have key : recipientKey recipient = .ok recipient := by
    unfold recipientKey
    rw [canonical]
  unfold recipientPage at g
  rw [key] at g
  rcases Program.Goes.of_call g with ⟨-, ended⟩ | ⟨outages, h, us, rfl, rest⟩
  · cases ended
  by_cases hf : ((Call.indexed recipient isSpam).turn outages h).failed
  · obtain ⟨reason, ho⟩ := Call.outage_of_failed _ outages h hf
    simp only [Call.perform, Outages.guard, ho] at rest
    obtain ⟨rfl, ended⟩ := Program.Goes.of_done rest
    cases ended
    exact .unlisted hf
  have answered : (Call.perform outages (.indexed recipient isSpam) h).1 =
      .ok (h.store.indexed recipient isSpam) := by
    simp only [Call.perform, Outages.guard, Call.no_outage _ outages h rfl hf]
    rfl
  rw [answered] at rest
  replace rest : (if (h.store.indexed recipient isSpam).isEmpty then _ else _ :
    Program (Except FeedError FeedPage)).Goes us (.done result) := rest
  split at rest
  · next empty =>
    obtain ⟨rfl, ended⟩ := Program.Goes.of_done rest
    cases ended
    exact .none hf (List.isEmpty_iff.1 empty)
  rcases Program.Goes.of_call rest with ⟨-, ended⟩ | ⟨outages', h', vs, rfl, last⟩
  · cases ended
  by_cases hf' : ((Call.pageByIds (h.store.indexed recipient isSpam) listing
      (p.clamp bound)).turn outages' h').failed
  · obtain ⟨reason, ho⟩ := Call.outage_of_failed _ outages' h' hf'
    simp only [Call.perform, Outages.guard, ho] at last
    obtain ⟨rfl, ended⟩ := Program.Goes.of_done last
    cases ended
    exact .unread hf hf'
  · simp only [Call.perform, Outages.guard, Call.no_outage _ outages' h' rfl hf'] at last
    obtain ⟨rfl, ended⟩ := Program.Goes.of_done last
    cases ended
    exact .page hf hf'

end Query

/-- The event of the half of a snapshot that is spam, or not. -/
def Event.ofPage (isSpam : Bool) : FeedPage → Event :=
  if isSpam then .spamSnapshot else .snapshot

namespace Gateway

/-- The calls by which an answer is handed to a session: a page is offered, and an error is not. -/
inductive Hands {α : Type} (id : SessionId) (event : α → Event) :
    Except FeedError α → List Turn → Prop
  | nothing (e : FeedError) : Hands id event (.error e) []
  | page (page : α) (outages : Outages) (h : Hub) :
      Hands id event (.ok page) [(Call.offer id (event page)).turn outages h]

/-- A page that is offered is handed over, if it could be read. -/
theorem goes_offerPage {α : Type} {id : SessionId} {event : α → Event}
    {answer : Except FeedError α} {us : List Turn}
    (g : (offerPage id event answer).Goes us (.done ())) : Hands id event answer us := by
  cases answer with
  | error e =>
    obtain ⟨rfl, -⟩ := Program.Goes.of_done g
    exact .nothing e
  | ok page =>
    rcases Program.Goes.of_call g with ⟨-, ended⟩ | ⟨outages, h, vs, rfl, last⟩
    · cases ended
    · obtain ⟨rfl, -⟩ := Program.Goes.of_done last
      exact .page page outages h

/-- **The snapshot of a client** is its normal page and then its spam page, each handed over if it
could be read. -/
theorem goes_snapshot {b : Bounds} {address : String} {id : SessionId} {us : List Turn}
    (canonical : Address.normalize address = some address)
    (g : (snapshot b address id).Goes us (.done ())) :
    ∃ normal spam us₁ us₂ us₃ us₄, us = us₁ ++ us₂ ++ (us₃ ++ us₄) ∧
      Query.Reads address false ⟨false, none, none⟩ ((Paging.make 1 b.snapshotSize).clamp
        b.maxPageSize) us₁ normal ∧ Hands id .snapshot normal us₂ ∧
      Query.Reads address true ⟨false, none, none⟩ ((Paging.make 1 b.snapshotSize).clamp
        b.maxPageSize) us₃ spam ∧ Hands id .spamSnapshot spam us₄ := by
  obtain ⟨us₁, rest, normal, rfl, first, g₁⟩ := Program.Goes.of_bind_done g
  obtain ⟨us₂, rest, _, rfl, offer, g₂⟩ := Program.Goes.of_bind_done g₁
  obtain ⟨us₃, us₄, spam, rfl, second, offer'⟩ := Program.Goes.of_bind_done g₂
  exact ⟨normal, spam, us₁, us₂, us₃, us₄, (List.append_assoc _ _ _).symm,
    Query.goes_recipientPage canonical first, goes_offerPage offer,
    Query.goes_recipientPage canonical second, goes_offerPage offer'⟩

/-- Reading a page for a session and handing it over begins with the index; if the index lists
anything and no call fails, the page is read next and is offered. -/
theorem Hands.of_reads {address : String} {isSpam : Bool} {listing : Listing} {p : Paging}
    {id : SessionId} {event : FeedPage → Event} {answer : Except FeedError FeedPage}
    {vs ws : List Turn} (hands : Hands id event answer ws)
    (reads : Query.Reads address isSpam listing p vs answer) :
    ∃ outages h rest, vs ++ ws = (Call.indexed address isSpam).turn outages h :: rest ∧
      ((∀ v ∈ vs, ¬ v.failed) → h.store.indexed address isSpam ≠ [] →
        ∃ outages' h' w, rest = [(Call.pageByIds (h.store.indexed address isSpam) listing p).turn
            outages' h', w] ∧
          w.call = .offer id (event (Query.listed
            (h'.store.pageByIds (h.store.indexed address isSpam) listing p)))) := by
  cases reads with
  | @unlisted outages h _ hf =>
    exact ⟨outages, h, ws, rfl, fun healthy => absurd hf (healthy _ List.mem_cons_self)⟩
  | @none outages h hf empty => exact ⟨outages, h, ws, rfl, fun _ found => absurd empty found⟩
  | @unread outages outages' h h' _ hf hf' =>
    exact ⟨outages, h, _ :: ws, rfl, fun healthy =>
      absurd hf' (healthy _ (List.mem_cons_of_mem _ List.mem_cons_self))⟩
  | @page outages outages' h h' hf hf' =>
    cases hands with
    | page _ outages₂ h₂ => exact ⟨outages, h, _, rfl, fun _ _ => ⟨outages', h', _, rfl, rfl⟩⟩

/-- Either half of a snapshot is read and handed over in this way. -/
theorem goes_half {b : Bounds} {address : String} {id : SessionId} {us : List Turn}
    (canonical : Address.normalize address = some address)
    (g : (snapshot b address id).Goes us (.done ())) (isSpam : Bool) :
    ∃ xs vs ws ys answer, us = xs ++ (vs ++ ws) ++ ys ∧
      Query.Reads address isSpam ⟨false, none, none⟩
        ((Paging.make 1 b.snapshotSize).clamp b.maxPageSize) vs answer ∧
      Hands id (Event.ofPage isSpam) answer ws := by
  obtain ⟨normal, spam, us₁, us₂, us₃, us₄, rfl, first, offer, second, offer'⟩ :=
    goes_snapshot canonical g
  cases isSpam with
  | false => exact ⟨[], us₁, us₂, us₃ ++ us₄, normal, rfl, first, offer⟩
  | true => exact ⟨us₁ ++ us₂, us₃, us₄, [], spam, (List.append_nil _).symm, second, offer'⟩

/-- A session that is turned away has not joined and is not admitted. -/
theorem joined_of_goes_refuse {id : SessionId} {e : SessionError} {us : List Turn}
    {result : Admission} (g : (refuse id e).Goes us (.done result)) :
    (∀ u ∈ us, u.joined? = none) ∧ ∀ k, result ≠ .admitted k := by
  rcases Program.Goes.of_call g with ⟨-, ended⟩ | ⟨outages, h, vs, rfl, last⟩
  · cases ended
  · obtain ⟨rfl, ended⟩ := Program.Goes.of_done last
    cases ended
    exact ⟨List.forall_mem_singleton.2 rfl, fun _ same => nomatch same⟩

/-- **A client that connects** is given a queue, is registered and is sent its snapshot, in this
order, or it is not admitted. -/
theorem goes_connect {b : Bounds} {raw : Option String} {us : List Turn} {result : Admission}
    (g : (connect b .client raw).Goes us (.done result)) :
    ((∀ u ∈ us, u.joined? = none) ∧ ∀ k, result ≠ .admitted k) ∨
      ∃ k address o r vs, result = .admitted k ∧ us = o :: r :: vs ∧
        o.call = .openQueue b.queueCapacity ∧ r.call = .registerClient address k ∧
        r.joined? = some (k, address) ∧ Address.normalize (raw.getD "") = some address ∧
        (snapshot b address k).Goes vs (.done ()) := by
  rcases Program.Goes.of_call g with ⟨-, ended⟩ | ⟨outages, h, us, rfl, rest⟩
  · cases ended
  have unjoined : ∀ {vs : List Turn}, (∀ v ∈ vs, v.joined? = none) →
      ∀ v ∈ (Call.openQueue b.queueCapacity).turn outages h :: vs, v.joined? = none :=
    fun hvs => List.forall_mem_cons.2 ⟨rfl, hvs⟩
  generalize (Call.perform outages (.openQueue b.queueCapacity) h).1 = answer at rest
  match answer with
  | none =>
    obtain ⟨rfl, ended⟩ := Program.Goes.of_done rest
    cases ended
    exact .inl ⟨unjoined fun _ hv => (nomatch hv), fun _ same => nomatch same⟩
  | some id =>
    dsimp only at rest
    split at rest
    · obtain ⟨none, refused⟩ := joined_of_goes_refuse rest
      exact .inl ⟨unjoined none, refused⟩
    next canonical hcanonical =>
    rcases Program.Goes.of_call rest with ⟨-, ended⟩ | ⟨outages', h', vs, rfl, last⟩
    · cases ended
    have joined : ((Call.registerClient canonical id).turn outages' h').joined? =
        Call.joined? (.registerClient canonical id)
          (Call.perform outages' (.registerClient canonical id) h').1 := rfl
    generalize (Call.perform outages' (.registerClient canonical id) h').1 = answer at last joined
    match answer with
    | .error e =>
      obtain ⟨none, refused⟩ := joined_of_goes_refuse last
      exact .inl ⟨unjoined (List.forall_mem_cons.2 ⟨joined, none⟩), refused⟩
    | .ok () =>
      replace last : ((snapshot b canonical id).bind _).Goes vs (.done result) := last
      obtain ⟨ws, xs, _, rfl, shows, ended⟩ := Program.Goes.of_bind_done last
      obtain ⟨rfl, ended⟩ := ended.of_done
      cases ended
      rw [List.append_nil]
      exact .inr ⟨id, canonical, _, _, ws, rfl, rfl, rfl, rfl, joined, hcanonical, shows⟩

end Gateway
end NotificationRelay
