/-
# Settings

What an operator chooses: where the gateway listens, which store holds the feeds, how
the background work is paced, whether feeds are broadcast, and the bounds on sessions,
pages and the cache of subscriptions. Everything but the listener has a default. Not
every combination makes sense; `problem?` names the first thing that is wrong with one.
-/
import NotificationRelay.Error
import NotificationRelay.Text.Lower

namespace NotificationRelay

namespace Settings

/-- Where the gateway listens. -/
structure Listener where
  host : String
  port : Nat
  deriving DecidableEq, Repr

/-- What holds the feeds. -/
inductive Backend where
  /-- The process itself; nothing survives a restart. -/
  | memory
  /-- A database. -/
  | postgres
  deriving DecidableEq, Repr

/-- The choice of a store. -/
structure Storage where
  backend : Backend := .memory
  url : Option String := none
  maxConnections : Nat := 10
  acquireTimeoutMs : Nat := 5000
  deriving DecidableEq, Repr

/-- The pace of the background work. -/
structure Pipeline where
  /-- The attempts after which a feed is given up. -/
  maxAttempts : Nat := 3
  retryBatchSize : Nat := 50
  retryIntervalSeconds : Nat := 60
  relayBatchSize : Nat := 100
  relayPollSeconds : Nat := 5
  /-- The number of feeds of a batch that are processed side by side. -/
  concurrency : Nat := 16
  expirySweepSeconds : Nat := 3600
  deriving DecidableEq, Repr

/-- The topic that feeds are broadcast to. -/
structure Broadcasting where
  enabled : Bool := false
  endpoint : Option String := none
  topic : String := "Notification"
  subtopic : String := "Channel"
  timeoutSeconds : Nat := 10
  deriving DecidableEq, Repr

/-- The bounds on sessions. -/
structure Sessions where
  maxConnectionsPerAddress : Nat := 10
  queueCapacity : Nat := 64
  /-- The size of a page in a connect snapshot. -/
  initialPageSize : Nat := 10
  deriving DecidableEq, Repr

/-- The bounds on queries. -/
structure Queries where
  maxPageSize : Nat := 100
  deriving DecidableEq, Repr

/-- The cache of subscriptions. -/
structure Cache where
  subscriptionsTtlSeconds : Nat := 300
  maxSubscribers : Nat := 10000
  deriving DecidableEq, Repr

/-- The log. -/
structure Logging where
  format : String := "text"
  deriving DecidableEq, Repr

/-- Whether the log is structured. -/
def Logging.isJson (l : Logging) : Bool := Text.asciiLower l.format.toList == "json".toList

end Settings

/-- All settings. -/
structure Settings where
  gateway : Settings.Listener
  store : Settings.Storage := {}
  pipeline : Settings.Pipeline := {}
  broadcast : Settings.Broadcasting := {}
  sessions : Settings.Sessions := {}
  query : Settings.Queries := {}
  cache : Settings.Cache := {}
  logging : Settings.Logging := {}
  deriving DecidableEq, Repr

namespace Settings

/-- The first thing that is wrong with settings. -/
def problem? (s : Settings) : Option SettingsProblem :=
  if s.store.backend = .postgres ∧ s.store.url = none then some .storeUrl
  else if s.broadcast.enabled ∧ s.broadcast.endpoint = none then some .broadcastEndpoint
  else if s.pipeline.maxAttempts = 0 then some .maxAttempts
  else if s.pipeline.retryBatchSize = 0 ∨ s.pipeline.relayBatchSize = 0
      ∨ s.pipeline.concurrency = 0 then some .batchSizes
  else if s.pipeline.retryIntervalSeconds = 0 ∨ s.pipeline.relayPollSeconds = 0
      ∨ s.pipeline.expirySweepSeconds = 0 then some .intervals
  else if s.sessions.queueCapacity = 0 ∨ s.sessions.maxConnectionsPerAddress = 0 then
    some .sessionLimits
  else if s.query.maxPageSize = 0 then some .pageSize
  else none

/-- Settings with which nothing is wrong. -/
def validate (s : Settings) : Except SettingsError Settings :=
  match s.problem? with
  | some problem => .error (.invalid problem)
  | none => .ok s

/-- The name of a backend. -/
def Backend.name : Backend → String
  | .memory => "memory"
  | .postgres => "postgres"

/-- The backend with a name. -/
def Backend.ofName? (s : String) : Option Backend :=
  if s = "memory" then some .memory else if s = "postgres" then some .postgres else none

/-- Settings as a value. -/
def toJson (s : Settings) : Json :=
  .object [
    ("gateway", .object [("host", .string s.gateway.host), ("port", .nat s.gateway.port)]),
    ("store", .object [("backend", .string s.store.backend.name), ("url", .text? s.store.url),
      ("max_connections", .nat s.store.maxConnections),
      ("acquire_timeout_ms", .nat s.store.acquireTimeoutMs)]),
    ("pipeline", .object [("max_attempts", .nat s.pipeline.maxAttempts),
      ("retry_batch_size", .nat s.pipeline.retryBatchSize),
      ("retry_interval_seconds", .nat s.pipeline.retryIntervalSeconds),
      ("relay_batch_size", .nat s.pipeline.relayBatchSize),
      ("relay_poll_seconds", .nat s.pipeline.relayPollSeconds),
      ("concurrency", .nat s.pipeline.concurrency),
      ("expiry_sweep_seconds", .nat s.pipeline.expirySweepSeconds)]),
    ("broadcast", .object [("enabled", .bool s.broadcast.enabled),
      ("endpoint", .text? s.broadcast.endpoint), ("topic", .string s.broadcast.topic),
      ("subtopic", .string s.broadcast.subtopic),
      ("timeout_seconds", .nat s.broadcast.timeoutSeconds)]),
    ("sessions", .object [("max_connections_per_address", .nat s.sessions.maxConnectionsPerAddress),
      ("queue_capacity", .nat s.sessions.queueCapacity),
      ("initial_page_size", .nat s.sessions.initialPageSize)]),
    ("query", .object [("max_page_size", .nat s.query.maxPageSize)]),
    ("cache", .object [("subscriptions_ttl_seconds", .nat s.cache.subscriptionsTtlSeconds),
      ("max_subscribers", .nat s.cache.maxSubscribers)]),
    ("logging", .object [("format", .string s.logging.format), ("is_json", .bool s.logging.isJson)])]

end Settings
end NotificationRelay
