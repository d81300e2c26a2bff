import OverloadResolution.Call
import OverloadResolution.Parameter

/-!
# Overloads and their actions

An overload is one way to call a command: what it asks of the caller, its parameters, and the
action that runs once every parameter has its value.  An action may finish at once, leave its work
to whoever waits for it, hand back nothing that could be waited for, or fail before it hands back
anything.
-/

set_option autoImplicit false

namespace OverloadResolution

/-- A call with its receiver and one value for each parameter. -/
structure Invocation where
  callee : String
  caller : Caller
  receiver : Option Caller
  arguments : List Value

/-- Why an action fails: it gave in to cancellation, asked a value for a payload that the value
does not hold, raised a failure with a message, or raised something that has none. -/
inductive Fault where
  | cancelled
  | misread
  | raised (message : String)
  | unknown
deriving DecidableEq, Repr

/-- A text up to its first NUL, which ends a raised message early. -/
def untilNul (text : String) : String := String.ofList (text.toList.takeWhile (· ≠ '\x00'))

/-- The message of a fault, if it has one. -/
def Fault.message? : Fault → Option String
  | .cancelled => some "operation cancelled"
  | .misread => some "std::get: wrong index for variant"
  | .raised message => some (untilNul message)
  | .unknown => none

/-- What an action hands back: a result, work that is done when it is waited for, or nothing that
can be waited for. -/
inductive Pending where
  | finished (outcome : Except Fault Unit)
  | deferred (work : Run (Except Fault Unit))
  | absent

/-- Work on an invocation that either completes or fails. -/
abbrev Body := Invocation → Run (Except Fault Unit)

/-- An action starts with the invocation and the token that may cancel it. -/
abbrev Action := Invocation → Token → Run (Except Fault Pending)

namespace Action

/-- Runs a body at once, and keeps its outcome for whoever waits. -/
def immediate (body : Body) : Action := fun invocation _ => do
  let outcome ← body invocation
  pure (.ok (.finished outcome))

/-- Runs a body at once, and fails to start when the body fails. -/
def direct (body : Body) : Action := fun invocation _ => do
  match ← body invocation with
  | .ok () => pure (.ok (.finished (.ok ())))
  | .error fault => pure (.error fault)

end Action

/-- One way to call a command.  The action may be missing. -/
structure Overload where
  receiver : Option Receiver
  parameters : List Parameter
  action : Option Action

/-- The text of an overload: its receiver and its parameters. -/
def Overload.render (overload : Overload) : String :=
  "CommandSignatureVariant(" ++
    ", ".intercalate (overload.receiver.toList.map Receiver.render ++
      overload.parameters.map Parameter.render) ++ ")"

/-- An invocation together with the overload it is for, if there is one. -/
structure ResolvedCall where
  invocation : Invocation
  overload : Option Overload

end OverloadResolution
