/-
# Command line options

The relay is told where its settings stand, and which records its log keeps. An option
is written with its value behind it, or, in the long form, behind an equals sign; the
last one counts.
-/

namespace NotificationRelay

/-- The options of the command line. -/
structure Options where
  settingsPath : String := "config/default.toml"
  logFilter : Option String := none
  deriving DecidableEq, Repr

namespace Options

/-- The rest of a text after its beginning. -/
def after? (beginning text : String) : Option String :=
  if beginning.toList.isPrefixOf text.toList then
    some (String.ofList (text.toList.drop beginning.length))
  else none

/-- The options with those of a list of arguments; `none` if one is not understood. -/
def read (o : Options) : List String → Option Options
  | [] => some o
  | [argument] =>
    match after? "--config=" argument, after? "--log-level=" argument with
    | some path, _ => some { o with settingsPath := path }
    | none, some filter => some { o with logFilter := some filter }
    | none, none => none
  | argument :: value :: rest =>
    if argument = "-c" ∨ argument = "--config" then read { o with settingsPath := value } rest
    else if argument = "-l" ∨ argument = "--log-level" then
      read { o with logFilter := some value } rest
    else
      match after? "--config=" argument, after? "--log-level=" argument with
      | some path, _ => read { o with settingsPath := path } (value :: rest)
      | none, some filter => read { o with logFilter := some filter } (value :: rest)
      | none, none => none

/-- The options of a list of arguments. -/
def ofArguments? (arguments : List String) : Option Options := read {} arguments

end Options
end NotificationRelay
