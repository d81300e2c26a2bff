import OverloadResolution.Trace

/-!
# Settings

How much a resolution traces, and whether it tells a refused caller apart from any other lack of a
matching overload.  The environment may override either setting by a word; words are recognised in
either case of the ASCII letters, and a word that is not recognised overrides nothing.
-/

set_option autoImplicit false

namespace OverloadResolution

/-- What can be set about a resolution. -/
structure Settings where
  mode : TraceMode
  foldsReceiver : Bool
deriving DecidableEq, Repr

/-- What the environment says about the settings, as far as it says anything. -/
structure Environment where
  trace : Option String
  fold : Option String
deriving DecidableEq, Repr

/-- The switch that a word stands for. -/
def switch? (word : String) : Option Bool :=
  if word.toLower ∈ ["1", "true", "on"] then some true
  else if word.toLower ∈ ["0", "false", "off"] then some false
  else none

/-- The trace mode that a word stands for. -/
def TraceMode.ofWord? (word : String) : Option TraceMode :=
  if word.toLower ∈ ["off", "0", "false"] then some .off
  else if word.toLower ∈ ["summary", "1", "on", "true"] then some .summary
  else if word.toLower ∈ ["verbose", "2"] then some .verbose
  else none

namespace Settings

/-- Nothing is traced, and a refused caller is told apart. -/
def initial : Settings := ⟨.off, false⟩

/-- The settings as the environment overrides them. -/
def overriddenBy (settings : Settings) (environment : Environment) : Settings where
  mode := (environment.trace.bind TraceMode.ofWord?).getD settings.mode
  foldsReceiver := (environment.fold.bind switch?).getD settings.foldsReceiver

end Settings

end OverloadResolution
