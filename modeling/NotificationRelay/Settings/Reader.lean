/-
# Reading settings

Settings are written in sections, one table each. A section may also be written as
the list of its values in the order of declaration; such a list may end early where
the values left out have a default, and what it has in excess is ignored, as are
names that mean nothing here. Whole numbers must fit the field that they are for.
-/
import NotificationRelay.Settings.Basic
import NotificationRelay.Toml.Reader

namespace NotificationRelay
namespace Settings

open Toml (Item Entries)

/-- A section as it is written. -/
structure Section where
  entries : Entries
  /-- Whether it is written as a table, and not as a list of values. -/
  named : Bool

namespace Section

/-- The section that an item writes. A moment stands for a table without any name that
means something here. -/
def ofItem? (names : List String) : Item → Option Section
  | .table _ entries => some ⟨entries, true⟩
  | .moment => some ⟨[], true⟩
  | .array items => some ⟨names.zip items, false⟩
  | .tables tables => some ⟨names.zip (tables.map (Item.table .header)), false⟩
  | _ => none

/-- A value that has no default. -/
def required {α : Type} (s : Section) (name : String) (read : Item → Option α) : Option α :=
  (Table.get? name s.entries).bind read

/-- A value with a default. -/
def withDefault {α : Type} (s : Section) (name : String) (absent : α) (read : Item → Option α) :
    Option α :=
  match Table.get? name s.entries with
  | some item => read item
  | none => some absent

/-- A value that may be absent from a table, though not from a list. -/
def optional {α : Type} (s : Section) (name : String) (read : Item → Option α) :
    Option (Option α) :=
  match Table.get? name s.entries with
  | some item => (read item).map some
  | none => if s.named then some none else none

end Section

/-- A text. -/
def asText : Item → Option String
  | .string s => some s
  | _ => none

/-- A truth value. -/
def asFlag : Item → Option Bool
  | .boolean b => some b
  | _ => none

/-- A whole number from zero to a bound. -/
def asCount (most : Nat) : Item → Option Nat
  | .integer n => if 0 ≤ n ∧ n ≤ most then some n.toNat else none
  | _ => none

/-- A port. -/
def asPort : Item → Option Nat := asCount 65535

/-- An unsigned 32-bit number. -/
def asHalfWord : Item → Option Nat := asCount 4294967295

/-- An unsigned 64-bit number. -/
def asWord : Item → Option Nat := asCount Text.maxWord

/-- A backend, by its name or by a table with its name as the only key and nothing
under it. -/
def asBackend : Item → Option Backend
  | .string s => Backend.ofName? s
  | .table _ [(name, .table _ [])] => Backend.ofName? name
  | .table _ [(name, .array [])] => Backend.ofName? name
  | _ => none

/-- Reads the section of the listener. -/
def Listener.ofItem? (item : Item) : Option Listener := do
  let s ← Section.ofItem? ["host", "port"] item
  let host ← s.required "host" asText
  let port ← s.required "port" asPort
  pure ⟨host, port⟩

/-- Reads the section of the store. -/
def Storage.ofItem? (item : Item) : Option Storage := do
  let s ← Section.ofItem? ["backend", "url", "max_connections", "acquire_timeout_ms"] item
  let absent : Storage := {}
  let backend ← s.withDefault "backend" absent.backend asBackend
  let url ← s.optional "url" asText
  let maxConnections ← s.withDefault "max_connections" absent.maxConnections asHalfWord
  let acquireTimeoutMs ← s.withDefault "acquire_timeout_ms" absent.acquireTimeoutMs asWord
  pure { backend, url, maxConnections, acquireTimeoutMs }

/-- Reads the section of the background work. -/
def Pipeline.ofItem? (item : Item) : Option Pipeline := do
  let s ← Section.ofItem? ["max_attempts", "retry_batch_size", "retry_interval_seconds",
    "relay_batch_size", "relay_poll_seconds", "concurrency", "expiry_sweep_seconds"] item
  let absent : Pipeline := {}
  let maxAttempts ← s.withDefault "max_attempts" absent.maxAttempts asHalfWord
  let retryBatchSize ← s.withDefault "retry_batch_size" absent.retryBatchSize asWord
  let retryIntervalSeconds ←
    s.withDefault "retry_interval_seconds" absent.retryIntervalSeconds asWord
  let relayBatchSize ← s.withDefault "relay_batch_size" absent.relayBatchSize asWord
  let relayPollSeconds ← s.withDefault "relay_poll_seconds" absent.relayPollSeconds asWord
  let concurrency ← s.withDefault "concurrency" absent.concurrency asWord
  let expirySweepSeconds ← s.withDefault "expiry_sweep_seconds" absent.expirySweepSeconds asWord
  pure { maxAttempts, retryBatchSize, retryIntervalSeconds, relayBatchSize, relayPollSeconds,
         concurrency, expirySweepSeconds }

/-- Reads the section of the broadcast. -/
def Broadcasting.ofItem? (item : Item) : Option Broadcasting := do
  let s ← Section.ofItem? ["enabled", "endpoint", "topic", "subtopic", "timeout_seconds"] item
  let absent : Broadcasting := {}
  let enabled ← s.withDefault "enabled" absent.enabled asFlag
  let endpoint ← s.optional "endpoint" asText
  let topic ← s.withDefault "topic" absent.topic asText
  let subtopic ← s.withDefault "subtopic" absent.subtopic asText
  let timeoutSeconds ← s.withDefault "timeout_seconds" absent.timeoutSeconds asWord
  pure { enabled, endpoint, topic, subtopic, timeoutSeconds }

/-- Reads the section of the sessions. -/
def Sessions.ofItem? (item : Item) : Option Sessions := do
  let s ← Section.ofItem?
    ["max_connections_per_address", "queue_capacity", "initial_page_size"] item
  let absent : Sessions := {}
  let maxConnectionsPerAddress ←
    s.withDefault "max_connections_per_address" absent.maxConnectionsPerAddress asWord
  let queueCapacity ← s.withDefault "queue_capacity" absent.queueCapacity asWord
  let initialPageSize ← s.withDefault "initial_page_size" absent.initialPageSize asWord
  pure { maxConnectionsPerAddress, queueCapacity, initialPageSize }

/-- Reads the section of the queries. -/
def Queries.ofItem? (item : Item) : Option Queries := do
  let s ← Section.ofItem? ["max_page_size"] item
  let absent : Queries := {}
  let maxPageSize ← s.withDefault "max_page_size" absent.maxPageSize asWord
  pure { maxPageSize }

/-- Reads the section of the cache. -/
def Cache.ofItem? (item : Item) : Option Cache := do
  let s ← Section.ofItem? ["subscriptions_ttl_seconds", "max_subscribers"] item
  let absent : Cache := {}
  let subscriptionsTtlSeconds ←
    s.withDefault "subscriptions_ttl_seconds" absent.subscriptionsTtlSeconds asWord
  let maxSubscribers ← s.withDefault "max_subscribers" absent.maxSubscribers asWord
  pure { subscriptionsTtlSeconds, maxSubscribers }

/-- Reads the section of the log. -/
def Logging.ofItem? (item : Item) : Option Logging := do
  let s ← Section.ofItem? ["format"] item
  let absent : Logging := {}
  let format ← s.withDefault "format" absent.format asText
  pure { format }

/-- Reads the sections of a document. -/
def ofEntries? (entries : Entries) : Option Settings := do
  let s : Section := ⟨entries, true⟩
  let gateway ← s.required "gateway" Listener.ofItem?
  let store ← s.withDefault "store" {} Storage.ofItem?
  let pipeline ← s.withDefault "pipeline" {} Pipeline.ofItem?
  let broadcast ← s.withDefault "broadcast" {} Broadcasting.ofItem?
  let sessions ← s.withDefault "sessions" {} Sessions.ofItem?
  let query ← s.withDefault "query" {} Queries.ofItem?
  let cache ← s.withDefault "cache" {} Cache.ofItem?
  let logging ← s.withDefault "logging" {} Logging.ofItem?
  pure { gateway, store, pipeline, broadcast, sessions, query, cache, logging }

/-- Reads settings without asking whether they make sense. -/
def read (text : String) : Except SettingsError Settings :=
  match (Toml.parse? text).bind ofEntries? with
  | some s => .ok s
  | none => .error .malformed

/-- Reads settings that make sense. -/
def ofText (text : String) : Except SettingsError Settings :=
  match read text with
  | .error e => .error e
  | .ok s => s.validate

end Settings
end NotificationRelay
