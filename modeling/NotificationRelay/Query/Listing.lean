/-
# Listings

A recipient's feeds are found through the index: its identifiers first, then the
page of those that belong to the listing, newest first. A recipient without feeds
has an empty page, and the feeds are not asked. Page sizes are cut to a bound, and
the total always counts the whole listing.
-/
import NotificationRelay.Address
import NotificationRelay.Feed.View
import NotificationRelay.Program

namespace NotificationRelay
namespace Query

/-- The canonical form of an address in a query. -/
def recipientKey (raw : String) : Except FeedError String :=
  match Address.normalize raw with
  | some address => .ok address
  | none => .error (.rejected (.address raw))

/-- The listed form of a page. -/
def listed (p : Paged) : FeedPage := ⟨p.feeds.map Feed.view, p.total⟩

/-- A page of a recipient's feeds that belong to a listing. -/
def recipientPage (bound : Nat) (raw : String) (isSpam : Bool) (listing : Listing) (p : Paging) :
    Program (Except FeedError FeedPage) :=
  match recipientKey raw with
  | .error e => .done (.error e)
  | .ok recipient => do
    match ← Program.perform (.indexed recipient isSpam) with
    | .error e => return .error (.store e)
    | .ok ids =>
      if ids.isEmpty then return .ok .empty
      else
        match ← Program.perform (.pageByIds ids listing (p.clamp bound)) with
        | .error e => return .error (.store e)
        | .ok paged => return .ok (listed paged)

/-- The normal or the spam feeds of a recipient. -/
def feeds (bound : Nat) (raw : String) (isSpam includeHidden : Bool) (p : Paging) :
    Program (Except FeedError FeedPage) :=
  recipientPage bound raw isSpam ⟨includeHidden, none, none⟩ p

/-- The normal or the spam feeds of a recipient from one channel, hidden ones left out. -/
def channelFeeds (bound : Nat) (raw : String) (isSpam : Bool) (channel : String) (p : Paging) :
    Program (Except FeedError FeedPage) :=
  recipientPage bound raw isSpam ⟨false, some channel, some isSpam⟩ p

/-- The senders of a recipient's spam feeds, each once. -/
def spamSenders (raw : String) : Program (Except FeedError (List String)) :=
  match recipientKey raw with
  | .error e => .done (.error e)
  | .ok recipient => do
    match ← Program.perform (.indexed recipient true) with
    | .error e => return .error (.store e)
    | .ok ids =>
      if ids.isEmpty then return .ok []
      else
        match ← Program.perform (.distinctSenders ids) with
        | .error e => return .error (.store e)
        | .ok senders => return .ok senders

/-- The feeds of a sender, of one kind if it is given. -/
def senderFeeds (bound : Nat) (sender : String) (kind : Option Kind) (p : Paging) :
    Program (Except FeedError FeedPage) := do
  match ← Program.perform (.pageBySender sender kind (p.clamp bound)) with
  | .error e => return .error (.store e)
  | .ok paged => return .ok (listed paged)

/-- The feeds of a time window, oldest first, for export. -/
def history (bound : Nat) (start stop : Int) (p : Paging) :
    Program (Except FeedError ExportPage) :=
  if stop < start then .done (.error (.rejected (.times start stop)))
  else do
    match ← Program.perform (.pageBetween start stop (p.clamp bound)) with
    | .error e => return .error (.store e)
    | .ok paged => return .ok ⟨paged.feeds.map Feed.exported, paged.total⟩

end Query
end NotificationRelay
