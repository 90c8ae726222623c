/-
# Errors

Every failure is a value that names its cause. The wording stands here, one function
per type, and so does the answer of the gateway: what the caller did wrong is told to
the caller, a crowded address and an unreachable store have an answer of their own,
and everything else is an internal error whose cause is not shown.
-/
import NotificationRelay.Calendar.DateText
import NotificationRelay.Feed.Basic

namespace NotificationRelay

/-- A failure of the store. -/
inductive StoreError where
  | notFound (id : FeedId)
  | unavailable (reason : String)
  /-- The database behind the store cannot be opened. -/
  | database (url : String)
  deriving DecidableEq, Repr, Inhabited

/-- The wording of a store failure. -/
def StoreError.message : StoreError → String
  | .notFound id => "feed " ++ toString id ++ " not found"
  | .unavailable reason => "store unavailable: " ++ reason
  | .database url => "database error: " ++ url

/-- Why a request was turned down. -/
inductive Rejection where
  | blankPayloadId
  | blankSender
  | blankSource
  | spamFlag (value : Nat)
  | recipient (raw : String)
  | payload (error : DecodeError)
  /-- A targeted notification that does not list exactly one recipient. -/
  | notSingle (count : Nat)
  /-- A subset notification without recipients. -/
  | emptySubset
  | expiry (seconds : Int)
  | address (raw : String)
  | searchFilter
  | dates (low high : Day)
  | times (start stop : Int)
  /-- A reason given in words. -/
  | stated (reason : String)

/-- The wording of a reason. -/
def Rejection.message : Rejection → String
  | .blankPayloadId => "payload id is empty"
  | .blankSender => "sender is empty"
  | .blankSource => "source is empty"
  | .spamFlag value => "is_spam must be 0 or 1, got " ++ toString value
  | .recipient raw => "invalid recipient: " ++ raw
  | .payload error =>
    match error.message? with
    | some detail => "malformed payload: " ++ detail
    | none => "malformed payload"
  | .notSingle count => "targeted notification needs exactly one recipient, got " ++ toString count
  | .emptySubset => "subset notification has no recipients"
  | .expiry seconds => "expiry " ++ toString seconds ++ " is out of range"
  | .address raw => "invalid address: " ++ raw
  | .searchFilter => "malformed search filter"
  | .dates low high => "date range " ++ low.text ++ ".." ++ high.text ++ " is inverted"
  | .times start stop => "time range " ++ toString start ++ ".." ++ toString stop ++ " is inverted"
  | .stated reason => reason

/-- A failure of ingestion, processing or a query. -/
inductive FeedError where
  /-- Turned down before anything was stored. -/
  | rejected (reason : Rejection)
  | store (error : StoreError)
  /-- An address is missing from the index of a stored feed. -/
  | index (error : StoreError)
  /-- The watermark could not be consulted; the feed stays unprocessed. -/
  | watermarkUnavailable (id : FeedId)
  /-- The feed could not be marked as processed. -/
  | completion (id : FeedId) (error : StoreError)

/-- The wording of a feed failure. -/
def FeedError.message : FeedError → String
  | .rejected reason => "invalid feed: " ++ reason.message
  | .store error => error.message
  | .index error => "recipient index update failed: " ++ error.message
  | .watermarkUnavailable id =>
    "feed " ++ toString id ++ " left unprocessed: broadcast watermark unavailable"
  | .completion id error => "failed to complete feed " ++ toString id ++ ": " ++ error.message

/-- A session that is not admitted. -/
inductive SessionError where
  | tooManyConnections (address : String) (limit : Nat)
  | invalidAddress (raw : String)
  deriving DecidableEq, Repr, Inhabited

/-- The wording of a refused session. -/
def SessionError.message : SessionError → String
  | .tooManyConnections address limit =>
    "address " ++ address ++ " already has " ++ toString limit ++ " open connections"
  | .invalidAddress raw => "invalid session address: " ++ raw

/-- A failure to broadcast. -/
inductive BroadcastError where
  | rejected (status : String)
  | watermark (error : StoreError)

/-- The wording of a failed broadcast. -/
def BroadcastError.message : BroadcastError → String
  | .rejected status => "broadcast endpoint rejected message: " ++ status
  | .watermark error => "broadcast watermark unavailable: " ++ error.message

/-- What is wrong with settings that can be read. -/
inductive SettingsProblem where
  | storeUrl
  | broadcastEndpoint
  | maxAttempts
  | batchSizes
  | intervals
  | sessionLimits
  | pageSize
  | listenAddress
  /-- A problem given in words. -/
  | stated (reason : String)
  deriving DecidableEq, Repr, Inhabited

/-- The wording of a problem with the settings. -/
def SettingsProblem.message : SettingsProblem → String
  | .storeUrl => "store.url is required when store.backend = \"postgres\""
  | .broadcastEndpoint => "broadcast.endpoint is required when broadcast.enabled = true"
  | .maxAttempts => "pipeline.max_attempts must be at least 1"
  | .batchSizes => "pipeline batch sizes and concurrency must be positive"
  | .intervals => "pipeline intervals must be at least one second"
  | .sessionLimits =>
    "sessions.queue_capacity and sessions.max_connections_per_address must be positive"
  | .pageSize => "query.max_page_size must be positive"
  | .listenAddress => "invalid gateway.host or gateway.port: invalid socket address syntax"
  | .stated reason => reason

/-- A failure to obtain settings. -/
inductive SettingsError where
  | unreadable (reason : String)
  | malformed
  | invalid (problem : SettingsProblem)
  deriving DecidableEq, Repr, Inhabited

/-- The wording of a failure to obtain settings. -/
def SettingsError.message : SettingsError → String
  | .unreadable reason => "Failed to read config file: " ++ reason
  | .malformed => "Failed to parse config"
  | .invalid problem => "Configuration error: " ++ problem.message

/-- Any failure of the relay. -/
inductive RelayError where
  | badRequest (reason : String)
  | io (reason : String)
  | settings (error : SettingsError)
  | store (error : StoreError)
  | feed (error : FeedError)
  | session (error : SessionError)
  | broadcast (error : BroadcastError)

namespace RelayError

/-- The wording of a failure. -/
def message : RelayError → String
  | .badRequest reason => "bad request: " ++ reason
  | .io reason => "IO error: " ++ reason
  | .settings error => "configuration error: " ++ error.message
  | .store error => error.message
  | .feed error => error.message
  | .session error => error.message
  | .broadcast error => error.message

/-- The status with which the gateway answers a failure. -/
def status : RelayError → Nat
  | .badRequest _ => 400
  | .feed (.rejected _) => 400
  | .session (.invalidAddress _) => 400
  | .session (.tooManyConnections _ _) => 429
  | .store (.unavailable _) => 503
  | _ => 500

/-- The text with which the gateway answers a failure. -/
def body (e : RelayError) : String :=
  if e.status = 503 then "Store unavailable"
  else if e.status = 500 then "Internal server error"
  else e.message

end RelayError
end NotificationRelay
