import OverloadResolution.Execution
import OverloadResolution.Registry.Builtin
import OverloadResolution.Resolution

/-!
# The commands of the tool

Five commands, the types of those who may call them, and the scope they are resolved in.  Each
action computes one line from its invocation, or the reason why there is none; a line that reads an
argument which is not there, or which holds something else, is a fault of its own kind, so that the
absence of such faults can be stated.
-/

set_option autoImplicit false

namespace OverloadResolution

namespace Invocation

/-- The integer given to a parameter. -/
def integer (invocation : Invocation) (position : Nat) : Except Fault Int64 :=
  match invocation.arguments[position]?.bind Value.integer? with
  | some number => .ok number
  | none => .error .misread

/-- The string given to a parameter. -/
def string (invocation : Invocation) (position : Nat) : Except Fault String :=
  match invocation.arguments[position]?.bind Value.string? with
  | some text => .ok text
  | none => .error .misread

/-- The string given to a parameter, or nothing when null is given. -/
def stringOrNull (invocation : Invocation) (position : Nat) : Except Fault (Option String) :=
  match invocation.arguments[position]? with
  | some (.null _) => .ok none
  | some (.string text) => .ok (some text)
  | _ => .error .misread

/-- The elements of the array given to a parameter. -/
def elements (invocation : Invocation) (position : Nat) : Except Fault (List Value) :=
  match invocation.arguments[position]?.bind Value.elements? with
  | some values => .ok values
  | none => .error .misread

/-- The name of the receiver. -/
def receiverName (invocation : Invocation) : Except Fault String :=
  match invocation.receiver with
  | some receiver => .ok receiver.name
  | none => .error .misread

end Invocation

namespace CommandLine

/-- A command with its overloads. -/
structure Command where
  name : String
  summary : String
  overloads : List Overload

/-- The overload whose action writes one line. -/
def writing (receiver : Option Receiver) (parameters : List Parameter)
    (line : Invocation → Except Fault String) : Overload where
  receiver := receiver
  parameters := parameters
  action := some <| .immediate fun invocation =>
    match line invocation with
    | .ok text => do
      Run.write (text ++ "\n")
      pure (.ok ())
    | .error fault => pure (.error fault)

/-- An integer as it is written in a line. -/
def integerText (number : Int64) : String := Decimal.signedText number.toInt

/-! ## The lines -/

/-- The line for a number that is added. -/
def addLine (invocation : Invocation) : Except Fault String := do
  let number ← invocation.integer 1
  pure ("foo: added " ++ integerText number)

/-- The line for a target that is named. -/
def targetLine (invocation : Invocation) : Except Fault String := do
  let target ← invocation.string 0
  pure ("foo: target " ++ target)

/-- Adds the integers in values to a start, in words of 64 bits. -/
def total (start : Int64) : List Value → Except Fault Int64
  | [] => .ok start
  | value :: rest =>
    match value.integer? with
    | some number => total (start + number) rest
    | none => .error .misread

/-- The line for a sum. -/
def sumLine (invocation : Invocation) : Except Fault String := do
  let numbers ← invocation.elements 0
  let sum ← total 0 numbers
  pure ("sum: " ++ integerText sum)

/-- Appends the strings in values to a text.  A space goes before a string only when the text so
far is not empty. -/
def joinWords (start : String) : List Value → Except Fault String
  | [] => .ok start
  | value :: rest =>
    match value.string? with
    | some word => joinWords ((if start.isEmpty then start else start ++ " ") ++ word) rest
    | none => .error .misread

/-- The line for a message. -/
def sayLine (invocation : Invocation) : Except Fault String := do
  let name ← invocation.receiverName
  let values ← invocation.elements 0
  let words ← joinWords "" values
  pure (name ++ " says: " ++ words)

/-- The line for a greeting; without a name the caller is greeted. -/
def greetLine (invocation : Invocation) : Except Fault String := do
  let name ← invocation.stringOrNull 0
  pure ("Hello, " ++ name.getD invocation.caller.name ++ "!")

/-- The quotient truncated toward zero, or why there is none in words of 64 bits. -/
def quotient (dividend divisor : Int64) : Except Fault Int64 :=
  if divisor = 0 then .error (.raised "division by zero")
  else if divisor = -1 ∧ dividend = Int64.minValue then .error (.raised "quotient out of range")
  else .ok (dividend / divisor)

/-- The line for a quotient. -/
def divideLine (invocation : Invocation) : Except Fault String := do
  let dividend ← invocation.integer 0
  let divisor ← invocation.integer 1
  let result ← quotient dividend divisor
  pure ("divide: " ++ integerText result)

/-! ## The commands -/

/-- The keyword of the command that adds. -/
def addKeyword : Keyword := ⟨"add", by decide, by decide⟩

/-- The type of users among the callers. -/
def userType : Ty := .named "UserCommandSender" false

/-- All commands. -/
def commands : List Command :=
  [{ name := "foo"
     summary := "add a number or name a target"
     overloads :=
      [writing none [.keyword none addKeyword, .required "n" .int] addLine,
        writing none [.required "target" .string] targetLine] },
    { name := "sum"
      summary := "add up any number of integers"
      overloads := [writing none [.vararg (some "numbers") .int false false] sumLine] },
    { name := "say"
      summary := "broadcast a message; users only"
      overloads :=
        [writing (some ⟨userType, false⟩) [.vararg (some "words") .string false false] sayLine] },
    { name := "greet"
      summary := "greet someone, or yourself"
      overloads := [writing none [.optional "name" .string] greetLine] },
    { name := "divide"
      summary := "integer division"
      overloads := [writing none [.required "a" .long, .required "b" .long] divideLine] }]

/-- The command of a name. -/
def command? (name : String) : Option Command := commands.find? fun command => command.name = name

/-! ## The callers -/

/-- The types of callers: the console and the users, and the members among the users. -/
def declarations : Declarations :=
  (((Declarations.initial.add "CommandSender" [Ty.anyName]).add
    "ConsoleCommandSender" ["CommandSender"]).add
    "UserCommandSender" ["CommandSender"]).add
    "MemberCommandSender" ["UserCommandSender"]

/-- The caller in a role. -/
def caller? (role : String) : Option Caller :=
  if role = "console" then some ⟨"console", .named "ConsoleCommandSender" false⟩
  else if role = "user" then some ⟨"user", userType⟩
  else if role = "member" then some ⟨"member", .named "MemberCommandSender" false⟩
  else none

/-- What the tool's calls are resolved in. -/
def scope : Scope := ⟨declarations, some .builtin⟩

end CommandLine

end OverloadResolution
