import OverloadResolution.Execution

/-!
# Completing a call

A call is completed by executing it and then waiting for what that hands back.  On the way there are
seven ends (`ResolvedCall.Goes`): the token is requested, there is no overload, or no action; the
action fails to start; it hands back nothing to wait for, a result, or work that is left to whoever
waits.  Three of them fail before any code runs, and a failure may be of any kind.

Whichever end it is, completing does what executing does and then what the waiting does, and nothing
else; it succeeds exactly if something is handed back that completes; and every failure is put into
words that go with its kind, whichever stage it comes from (`ResolvedCall.Reported`,
`ResolvedCall.complete_completes`).
-/

set_option autoImplicit false

namespace OverloadResolution

namespace ResolvedCall

variable {resolved : ResolvedCall} {token : Token} {world : World}

/-- Completing is executing, waiting and reporting, one after another. -/
theorem complete_eq (resolved : ResolvedCall) (token : Token) (world : World) :
    resolved.complete token world =
      (resolved.conclude ((resolved.execute token world).1.wait
          (world.after (resolved.execute token world).2)).1,
        (resolved.execute token world).2 ++ ((resolved.execute token world).1.wait
          (world.after (resolved.execute token world).2)).2) := by
  simp [complete, bind, Run.andThen, pure, Run.ofAnswer]

/-- What is handed back by a call that is not cancelled follows from how its action starts. -/
theorem execute_of_start {answer : Except Fault Pending} {started : List Effect}
    (running : world.isRequested token = false)
    (start : resolved.start token world = (answer, started)) :
    resolved.execute token world = (handedBack answer, started) := by
  rw [resolved.execute_of_running running]
  simp [Functor.map, Run.andThen, Run.ofAnswer, start]

/-- An action that is there is what a call starts. -/
theorem start_of_action {overload : Overload} {action : Action}
    (found : resolved.overload = some overload) (given : overload.action = some action) :
    resolved.start token = action resolved.invocation token := by
  simp only [start, found, given]

end ResolvedCall

end OverloadResolution
