import OverloadResolution.CommandLine.Commands
import OverloadResolution.CommandLine.Options

/-!
# The tool

One run of the tool resolves a single call against the overloads of a command and executes it.  The
status is 0 for success, 1 when no action was run, and 2 when an action failed.  Nothing here does
input or output: what a run writes to each of its two streams is part of its outcome.
-/

set_option autoImplicit false

namespace OverloadResolution.CommandLine

/-- What a run comes to: its status and what it writes to the two streams. -/
structure Outcome where
  status : Nat
  out : String
  err : String
deriving DecidableEq, Repr

/-- The line for the version. -/
def versionLine : String := "arbiter-resolve 0.1.0\n"

/-- How the tool is used. -/
def usage : String :=
  "Usage: arbiter-resolve [options] <command> [args...]\n" ++
    "  --as console|user|member       Caller identity (default: console)\n" ++
    "  --trace[=summary|verbose]      Trace resolution to stderr\n" ++
    "  --list                         List commands and their variants\n" ++
    "  --version                      Show version information\n"

/-- A complaint of the tool itself. -/
def complaint (text : String) : String := "arbiter-resolve: " ++ text ++ "\n"

/-- What is written about wrong options; how the tool is used is added where the mistake shows
that it is not known. -/
def OptionError.text : OptionError → String
  | .traceMode text => complaint ("invalid trace mode '" ++ text ++ "'")
  | .missingRole => complaint "--as requires a value" ++ usage
  | .unknown word => complaint ("unknown option '" ++ word ++ "'") ++ usage

/-- A command in the listing, with a line for each overload. -/
def Command.listing (command : Command) : String :=
  command.name ++ " - " ++ command.summary ++ "\n" ++
    String.join (command.overloads.map fun overload => "  " ++ overload.render ++ "\n")

/-- The listing of all commands. -/
def listing : String := String.join (commands.map Command.listing)

/-- Resolves a call of a command and executes it.  The trace goes in front of anything that is
wrong. -/
def call (settings : Settings) (caller : Caller) (command : Command) (arguments : List String) :
    Outcome :=
  let resolution := scope.resolve settings .never
    ⟨caller, command.name, arguments.map Argument.ofToken⟩ command.overloads .initial
  let trace := Record.lines resolution.trace
  match resolution.outcome with
  | .error failure => ⟨1, "", trace ++ (failure.addTo .empty).print⟩
  | .ok resolved =>
    let completion := (resolved.complete .never).perform resolution.world
    let out := String.join completion.2.transcript
    match completion.1 with
    | .ok () => ⟨0, out, trace⟩
    | .error error => ⟨2, out, trace ++ error.print⟩

/-- Calls a command by name in a role. -/
def callByName (settings : Settings) (role name : String) (arguments : List String) : Outcome :=
  match caller? role with
  | none => ⟨1, "", complaint ("unknown caller '" ++ role ++ "'")⟩
  | some caller =>
    match command? name with
    | none => ⟨1, "", (Diagnostic.error name "unknown command").print⟩
    | some command => call settings caller command arguments

/-- The settings that options and environment come to; an option wins over the environment. -/
def settingsOf (environment : Environment) (options : Options) : Settings :=
  let settings := Settings.initial.overriddenBy environment
  { settings with mode := options.mode.getD settings.mode }

/-- Runs the tool on options and the words from the command on. -/
def runWith (environment : Environment) (options : Options) (rest : List String) : Outcome :=
  let front := if options.list then listing else ""
  match rest with
  | [] => if options.list then ⟨0, front, ""⟩ else ⟨1, front, usage⟩
  | name :: arguments =>
    let outcome := callByName (settingsOf environment options) options.role name arguments
    { outcome with out := front ++ outcome.out }

/-- Runs the tool on the words that follow its name. -/
def run (environment : Environment) (words : List String) : Outcome :=
  match Options.initial.read words with
  | .version => ⟨0, versionLine, ""⟩
  | .wrong error => ⟨1, "", error.text⟩
  | .options options rest => runWith environment options rest

end OverloadResolution.CommandLine
