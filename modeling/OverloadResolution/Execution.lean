import OverloadResolution.Numeral.Decimal
import OverloadResolution.Diagnostic
import OverloadResolution.Overload

/-!
# Executing a resolved call

`execute` starts the action of a resolved call and hands back what can be waited for.  It never
fails to hand something back: a requested token, a missing overload and an action that fails to
start all become a finished failure.  `complete` waits for it and turns every failure into a
diagnostic about the command.
-/

set_option autoImplicit false

namespace OverloadResolution

namespace Pending

/-- Whether there is anything to wait for. -/
def isPresent : Pending → Bool
  | .absent => false
  | _ => true

/-- Waits for the outcome, if there is anything to wait for. -/
def wait : Pending → Run (Option (Except Fault Unit))
  | .finished outcome => pure (some outcome)
  | .deferred work => do
    let outcome ← work
    pure (some outcome)
  | .absent => pure none

end Pending

namespace Fault

/-- What a fault is reported as. -/
def report : Fault → String
  | .cancelled => "operation cancelled"
  | fault => "command failed: " ++ fault.message?.getD "unknown exception"

end Fault

namespace ResolvedCall

/-- The failure of a call that has no overload. -/
def noOverload : Fault := .raised "call has no resolved variant"

/-- The failure of an overload that has no action. -/
def noAction : Fault := .raised "bad_function_call"

/-- Starts the action of a call. -/
def start (resolved : ResolvedCall) (token : Token) : Run (Except Fault Pending) :=
  match resolved.overload with
  | none => pure (.error noOverload)
  | some overload =>
    match overload.action with
    | none => pure (.error noAction)
    | some action => action resolved.invocation token

/-- Executes a call, unless its token is requested already.  A failure to start is a finished
failure. -/
def execute (resolved : ResolvedCall) (token : Token) : Run Pending := do
  if ← Run.isRequested token then
    pure (.finished (.error .cancelled))
  else
    match ← resolved.start token with
    | .ok pending => pure pending
    | .error fault => pure (.finished (.error fault))

/-- The report on what waiting came to. -/
def conclude (resolved : ResolvedCall) : Option (Except Fault Unit) → Except Diagnostic Unit
  | some (.ok ()) => .ok ()
  | some (.error fault) => .error (.error resolved.invocation.callee fault.report)
  | none => .error (.error resolved.invocation.callee "action returned no result")

/-- Executes a call and waits for it. -/
def complete (resolved : ResolvedCall) (token : Token) : Run (Except Diagnostic Unit) := do
  let pending ← resolved.execute token
  let outcome ← pending.wait
  pure (resolved.conclude outcome)

/-! ## The token -/

/-- What can be waited for once an action was started: what it handed back, or else its failure. -/
def handedBack : Except Fault Pending → Pending
  | .ok pending => pending
  | .error fault => .finished (.error fault)

variable {token : Token} {world : World}

/-- A requested token keeps the action from running, whatever the call. -/
theorem execute_of_requested (resolved : ResolvedCall)
    (requested : world.isRequested token = true) :
    resolved.execute token world = (.finished (.error .cancelled), []) := by
  simp [execute, bind, Run.andThen, Run.isRequested, requested, pure, Run.ofAnswer]

theorem execute_of_running (resolved : ResolvedCall)
    (running : world.isRequested token = false) :
    resolved.execute token world = (handedBack <$> resolved.start token) world := by
  rw [map_eq_pure_bind]
  simp only [execute, bind, Run.andThen, Run.isRequested, running, World.after_nil,
    Bool.false_eq_true, if_false, List.nil_append]
  rcases resolved.start token world with ⟨_ | _, _⟩ <;> rfl

theorem complete_of_requested (resolved : ResolvedCall)
    (requested : world.isRequested token = true) :
    resolved.complete token world =
      (.error (.error resolved.invocation.callee "operation cancelled"), []) := by
  simp only [complete, bind, Run.andThen, resolved.execute_of_requested requested]
  rfl

theorem complete_of_running (resolved : ResolvedCall)
    (running : world.isRequested token = false) :
    resolved.complete token world = (do
      let pending ← handedBack <$> resolved.start token
      let outcome ← pending.wait
      pure (resolved.conclude outcome)) world := by
  simp only [complete, bind, Run.andThen, resolved.execute_of_running running]

end ResolvedCall

end OverloadResolution
