import OverloadResolution.Settings

/-!
# The options of the tool

Options come first and start with two dashes.  The first word that does not, or the word after a
bare double dash, names the command, and nothing after it is looked at here.  Asking for the version
and any mistake end the reading where they stand.
-/

set_option autoImplicit false

namespace OverloadResolution.CommandLine

/-- What the options say: whether to list the commands, how much to trace if it is said, and in
which role to call. -/
structure Options where
  list : Bool
  mode : Option TraceMode
  role : String
deriving DecidableEq, Repr

/-- What is meant when no option is given. -/
def Options.initial : Options := ⟨false, none, "console"⟩

/-- What a word in option position is. -/
inductive Word where
  | version
  | list
  | trace (mode : TraceMode)
  | badTrace (text : String)
  | role
  | terminator
  | unknown
  | command
deriving DecidableEq, Repr

/-- What follows a text at the front of a word, if the word starts with it. -/
def after? (front word : String) : Option String :=
  if front.toList.isPrefixOf word.toList then
    some (String.ofList (word.toList.drop front.toList.length))
  else none

/-- Tells what a word in option position is. -/
def Word.ofString (word : String) : Word :=
  if word = "--version" then .version
  else if word = "--list" then .list
  else if word = "--trace" then .trace .summary
  else
    match after? "--trace=" word with
    | some text =>
      match TraceMode.ofWord? text with
      | some mode => .trace mode
      | none => .badTrace text
    | none =>
      if word = "--as" then .role
      else if word = "--" then .terminator
      else if (after? "--" word).isSome then .unknown
      else .command

/-- What is wrong with the options. -/
inductive OptionError where
  | traceMode (text : String)
  | missingRole
  | unknown (word : String)
deriving DecidableEq, Repr

/-- What reading the options comes to: the version is asked for, something is wrong, or there are
options and the words from the command on. -/
inductive Reading where
  | version
  | wrong (error : OptionError)
  | options (options : Options) (rest : List String)
deriving DecidableEq, Repr

/-- Reads options in front of a command, on top of those read already. -/
def Options.read (options : Options) : List String → Reading
  | [] => .options options []
  | word :: rest =>
    match Word.ofString word with
    | .version => .version
    | .list => Options.read { options with list := true } rest
    | .trace mode => Options.read { options with mode := some mode } rest
    | .badTrace text => .wrong (.traceMode text)
    | .role =>
      match rest with
      | [] => .wrong .missingRole
      | role :: rest => Options.read { options with role := role } rest
    | .terminator => .options options rest
    | .unknown => .wrong (.unknown word)
    | .command => .options options (word :: rest)

end OverloadResolution.CommandLine
