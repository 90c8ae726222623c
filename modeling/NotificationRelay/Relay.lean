/-
# The relay

A relay is put together from settings: they choose the store, the topic and the bounds
that its parts keep. Its background work consists of three loops. Each runs once when
it starts, by its clock. The outbox loop also runs when it is called, which every new
feed does; a call that came before the work started is not lost.
-/
import NotificationRelay.Flow.Expiry
import NotificationRelay.Flow.Intake
import NotificationRelay.Flow.Outbox
import NotificationRelay.Flow.Retry
import NotificationRelay.Gateway.Session
import NotificationRelay.Settings.Basic

namespace NotificationRelay

/-- Opens the store that was chosen. A store in memory is at hand; that of a database
has to be reached, which takes an address and is not possible from here. -/
def Settings.Storage.openStore (s : Settings.Storage) : Except StoreError Store :=
  match s.backend, s.url with
  | .memory, _ => .ok Store.empty
  | .postgres, none => .error (.unavailable "postgres url is not configured")
  | .postgres, some url => .error (.database url)

/-- The topic of settings; without an endpoint nothing is broadcast. -/
def Settings.topic (s : Settings) : Broadcast.Topic :=
  ⟨s.broadcast.enabled && s.broadcast.endpoint.isSome, s.broadcast.topic, s.broadcast.subtopic⟩

/-- The bounds of the gateway. -/
def Settings.bounds (s : Settings) : Gateway.Bounds :=
  ⟨s.sessions.queueCapacity, s.sessions.initialPageSize, s.query.maxPageSize⟩

/-- A relay: its settings and what its parts share. -/
structure Relay where
  settings : Settings
  hub : Hub

namespace Relay

/-- The number of loops of the background work: outbox, retry and expiry. -/
def loopCount : Nat := 3

/-- A relay over a store, with the far end of its topic. -/
def assemble (s : Settings) (store : Store) (sink : Broadcast.Sink) : Relay :=
  ⟨s, { Hub.empty s.sessions.maxConnectionsPerAddress sink with store := store }⟩

/-- Runs a program alone. -/
def run {α : Type} (r : Relay) (outages : Outages) (p : Program α) : α × Relay :=
  let (a, hub) := p.run outages r.hub
  (a, { r with hub := hub })

/-- Checks a submission and stores its draft. -/
def accept (r : Relay) (outages : Outages) (s : Submission) (epoch : Int) :
    Except FeedError Inserted × Relay :=
  r.run outages (Intake.submit s epoch)

/-- One pass over the outbox. -/
def drain (r : Relay) (outages : Outages) : Stored Nat × Relay :=
  r.run outages (Outbox.drain r.settings.topic r.settings.pipeline.relayBatchSize)

/-- One retry pass. -/
def retry (r : Relay) (outages : Outages) : Stored Retry.Report × Relay :=
  r.run outages
    (Retry.pass r.settings.topic r.settings.pipeline.maxAttempts r.settings.pipeline.retryBatchSize)

/-- One expiry sweep. -/
def sweep (r : Relay) (outages : Outages) (now : Int) : Stored Nat × Relay :=
  r.run outages (Expiry.sweep now)

/-- One run of the outbox loop, which ends when it has come to rest. -/
def settle (r : Relay) (outages : Outages) : Relay :=
  let settled := Outbox.settle outages r.settings.topic r.settings.pipeline.relayBatchSize r.hub
  { r with hub := settled.2 }

/-- The outbox loop wakes up if it has been called. -/
def wakeUp (r : Relay) (outages : Outages) : Relay :=
  if r.hub.called then settle { r with hub := { r.hub with called := false } } outages else r

/-- The background work as it starts: the outbox loop runs by its clock and once more if
it has been called, then feeds are tried again, and then those that have expired go. -/
def startWork (r : Relay) (outages : Outages) (now : Int) : Relay :=
  ((((r.settle outages).wakeUp outages).retry outages).2.sweep outages now).2

/-- A submission that comes in while the background work goes on. -/
def acceptAtWork (r : Relay) (outages : Outages) (s : Submission) (epoch : Int) : Relay :=
  (r.accept outages s epoch).2.wakeUp outages

end Relay
end NotificationRelay
