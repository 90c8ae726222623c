/-
# Searching

A search looks in the channels that its filter names, or else in those the searcher
subscribes to. Subscriptions are looked up once: the first list found, even an empty
one, is kept and used from then on, while a failed lookup leaves nothing behind. Terms
are trimmed and put in lower case, and a blank term is no condition.
-/
import NotificationRelay.Query.Listing
import NotificationRelay.Search.Filter

namespace NotificationRelay
namespace Query

/-- A request to search. -/
structure SearchRequest where
  subscriber : String
  term : Option String
  isSpam : Bool
  filter : Search.Filter
  paging : Paging

/-- The channels of a subscriber, from the cache if it knows them. -/
def channels (subscriber : String) : Program (Stored (List String)) := do
  match ← Program.perform (.cached subscriber) with
  | some found => return .ok found
  | none =>
    match ← Program.perform (.channels subscriber) with
    | .error e => return .error e
    | .ok found =>
      Program.perform (.remember subscriber found)
      return .ok found

/-- The senders that a search looks in. -/
def senders (request : SearchRequest) : Program (Except FeedError (List String)) :=
  match request.filter.channels with
  | some (sender :: rest) => .done (.ok (sender :: rest))
  | _ =>
    match recipientKey request.subscriber with
    | .error e => .done (.error e)
    | .ok subscriber => do
      match ← channels subscriber with
      | .error e => return .error (.store e)
      | .ok found => return .ok found

/-- A term as it is looked for: trimmed, in lower case, and absent if it is blank. -/
def searchTerm (term : Option String) : Option String :=
  (term.map fun t => Text.lower (Text.trim t)).filter fun t => !t.isEmpty

/-- Searches the store. -/
def search (bound : Nat) (request : SearchRequest) : Program (Except FeedError FeedPage) :=
  match request.filter.window with
  | .error reason => .done (.error (.rejected reason))
  | .ok window => do
    match ← senders request with
    | .error e => return .error e
    | .ok [] => return .ok .empty
    | .ok (sender :: rest) =>
      let criteria : Criteria :=
        ⟨sender :: rest, searchTerm request.term, request.isSpam, window⟩
      match ← Program.perform (.search criteria (request.paging.clamp bound)) with
      | .error e => return .error (.store e)
      | .ok paged => return .ok (listed paged)

/-- Requests are searched by one program if it is settled by one program where to look, and if they
look for one term in one kind of feeds, with one filter and for one page. -/
theorem search_congr {request request' : SearchRequest}
    (sought : senders request' = senders request)
    (term : searchTerm request'.term = searchTerm request.term)
    (isSpam : request'.isSpam = request.isSpam) (filter : request'.filter = request.filter)
    (paging : request'.paging = request.paging) (bound : Nat) :
    search bound request' = search bound request := by
  unfold search
  rw [sought, filter]
  cases request.filter.window with
  | error => rfl
  | ok window =>
    -- what is done with an answer does not look at the request, but its form mentions it
    refine congrArg (Program.bind (senders request)) (funext fun answer => ?_)
    match answer with
    | .error _ => rfl
    | .ok [] => rfl
    | .ok (_ :: _) =>
      dsimp only
      rw [term, isSpam, paging]
      exact congrArg (Program.bind _) (funext fun | .error _ => rfl | .ok _ => rfl)

end Query
end NotificationRelay
