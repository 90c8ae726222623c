/-
# Command line

Reads the settings, opens the store, puts the relay together and connects one delivery
node to it over the standard streams: every line that comes in is a frame of the node,
and every event for it goes out as a line.
-/
import NotificationRelay.Gateway.HostAddress
import NotificationRelay.Options
import NotificationRelay.Relay
import NotificationRelay.Settings.Reader

namespace NotificationRelay
namespace CommandLine

/-- The relay of a settings text and the address of its gateway. -/
def assemble (text : String) : Except RelayError (String × Relay) := do
  let settings ← (Settings.ofText text).mapError .settings
  let store ← settings.store.openStore.mapError .store
  let address ← (Gateway.listenAddress settings.gateway).mapError .settings
  pure (address, Relay.assemble settings store ⟨false, [], []⟩)

/-- One frame of the node: the events that answer it, and the relay after it. -/
def exchange (r : Relay) (id : SessionId) (line : String) : List Event × Relay :=
  let frame : Gateway.Frame := .text (Text.trim line)
  let after := (r.run Outages.none (Gateway.receive r.settings.bounds .delivery id frame)).2
  let taken := after.hub.take id r.settings.sessions.queueCapacity
  (taken.1, { after with hub := taken.2 })

/-- Reads frames until the input ends. -/
partial def converse (input output : IO.FS.Stream) (r : Relay) (id : SessionId) : IO Unit := do
  let line ← input.getLine
  if line.isEmpty then return ()
  let (events, next) := exchange r id line
  for e in events do
    output.putStrLn e.toJson.compact
  output.flush
  converse input output next id

/-- The text of a file, if it can be read. -/
def contents? (path : String) : IO (Except RelayError String) := do
  try
    return .ok (← IO.FS.readFile path)
  catch e =>
    return .error (.settings (.unreadable (toString e)))

/-- Runs the relay on a list of arguments; the result is the exit status. -/
def run (arguments : List String) : IO UInt32 := do
  let errors ← IO.getStderr
  match Options.ofArguments? arguments with
  | none =>
    errors.putStrLn "usage: [-c|--config PATH] [-l|--log-level FILTER]"
    return 2
  | some options =>
    match (← contents? options.settingsPath).bind assemble with
    | .error e =>
      errors.putStrLn ("Error: " ++ e.message)
      return 1
    | .ok (address, relay) =>
      errors.putStrLn ("Gateway address: " ++ address)
      match relay.run Outages.none (Gateway.connect relay.settings.bounds .delivery none) with
      | (.admitted id, connected) =>
        converse (← IO.getStdin) (← IO.getStdout) connected id
        return 0
      | _ => return 1

end CommandLine
end NotificationRelay

/-- The command line program. -/
def main (arguments : List String) : IO UInt32 := NotificationRelay.CommandLine.run arguments
