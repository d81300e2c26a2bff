import OverloadResolution.Proofs.Completion

/-!
# Two ways to make an action of a body

A body is made an action in two ways.  `Action.immediate` keeps whatever the body comes to for
whoever waits.  `Action.direct` hands something back only if the body completes, and otherwise fails
to start, with the fault of the body.

Started by hand, the two are told apart by a body that fails.  Executing a call takes a failure to
start for a finished failure, and so takes the difference away (`handedBack_direct`): in any call,
under any token and in any world, both actions have the same effects before anything is handed back,
both hand something back, and waiting for it, whenever that is done, has no effect and comes to the
same completion or the same fault (`ResolvedCall.direct_like_immediate`).  What that is follows from
the body, unless the call keeps it from running (`ResolvedCall.Settles`).
-/

set_option autoImplicit false

namespace OverloadResolution

namespace ResolvedCall

/-- The call with another action in its overload.  A call without an overload stays as it is. -/
def withAction (resolved : ResolvedCall) (action : Action) : ResolvedCall where
  invocation := resolved.invocation
  overload := resolved.overload.map fun overload => { overload with action := some action }

/-- What a call comes to that is to run a body, and the effects on the way: the token is requested,
there is no overload whose action could run it, or the body runs on the invocation. -/
inductive Settles (body : Body) (resolved : ResolvedCall) (token : Token) (world : World) :
    Except Fault Unit → List Effect → Prop where
  | cancelled (requested : world.isRequested token = true) :
      Settles body resolved token world (.error .cancelled) []
  | noOverload (running : world.isRequested token = false) (missing : resolved.overload = none) :
      Settles body resolved token world (.error (.raised "call has no resolved variant")) []
  | ran {overload : Overload} {outcome : Except Fault Unit} {effects : List Effect}
      (running : world.isRequested token = false) (found : resolved.overload = some overload)
      (runs : body resolved.invocation world = (outcome, effects)) :
      Settles body resolved token world outcome effects

/-- A call that has finished by the time that executing it returns. -/
structure Finishes (resolved : ResolvedCall) (token : Token) (world : World)
    (outcome : Except Fault Unit) (effects : List Effect) : Prop where
  /-- All effects there are come before something is handed back. -/
  executed : (resolved.execute token world).2 = effects
  present : (resolved.execute token world).1.isPresent = true
  /-- Waiting has no effect, in whatever world it is done, and comes to the outcome. -/
  awaited : ∀ later, (resolved.execute token world).1.wait later = (some outcome, [])
  /-- Completing the call reports the outcome, and has the effects of executing it. -/
  completed : resolved.complete token world = (resolved.conclude (some outcome), effects)

variable {body : Body} {resolved : ResolvedCall} {token : Token} {world : World}
  {outcome : Except Fault Unit} {effects : List Effect}

/-- Every call that is to run a body settles. -/
theorem exists_settles (body : Body) (resolved : ResolvedCall) (token : Token) (world : World) :
    ∃ outcome effects, Settles body resolved token world outcome effects := by
  cases requested : world.isRequested token with
  | true => exact ⟨_, _, .cancelled requested⟩
  | false =>
      cases found : resolved.overload with
      | none => exact ⟨_, _, .noOverload requested found⟩
      | some overload => exact ⟨_, _, .ran requested found rfl⟩

/-- What has finished needs no waiting. -/
theorem finishes_of_execute
    (execute : resolved.execute token world = (.finished outcome, effects)) :
    Finishes resolved token world outcome effects := by
  refine ⟨?_, ?_, fun later => ?_, ?_⟩
  · rw [execute]
  · rw [execute]
    rfl
  · rw [execute]
    rfl
  · rw [complete_eq, execute]
    show (_, effects ++ []) = _
    rw [List.append_nil]
    rfl

/-! ## Starting -/

/-- **A body that fails in the action, and a body whose failure is kept, hand back the same.** -/
theorem handedBack_direct (body : Body) (invocation : Invocation) (token : Token) :
    handedBack <$> Action.direct body invocation token =
      handedBack <$> Action.immediate body invocation token := by
  funext world
  simp only [Functor.map, Action.direct, Action.immediate, bind, Run.andThen]
  rcases body invocation world with ⟨_ | _, _⟩ <;> rfl

/-- Actions that hand back the same are executed alike. -/
theorem execute_withAction_congr {action other : Action}
    (same : handedBack <$> action resolved.invocation token =
      handedBack <$> other resolved.invocation token) :
    (resolved.withAction action).execute token world =
      (resolved.withAction other).execute token world := by
  cases requested : world.isRequested token with
  | true => rw [execute_of_requested _ requested, execute_of_requested _ requested]
  | false =>
      rw [execute_of_running _ requested, execute_of_running _ requested]
      cases found : resolved.overload with
      | none => simp only [start, withAction, found, Option.map_none]
      | some overload =>
          simp only [start, withAction, found, Option.map_some]
          rw [same]

/-- A body that is run at once, its outcome kept, settles the call. -/
theorem execute_of_settles (settles : Settles body resolved token world outcome effects) :
    (resolved.withAction (.immediate body)).execute token world =
      (.finished outcome, effects) := by
  cases settles with
  | cancelled requested => exact execute_of_requested _ requested
  | noOverload running missing =>
      have start : (resolved.withAction (.immediate body)).start token world =
          (.error noOverload, []) := by
        simp only [ResolvedCall.start, withAction, missing, Option.map_none]
        rfl
      exact execute_of_start running start
  | ran running found runs =>
      have overloaded := congrArg (Option.map fun overload : Overload =>
        { overload with action := some (.immediate body) }) found
      have start : (resolved.withAction (.immediate body)).start token world =
          (.ok (.finished outcome), effects) := by
        rw [start_of_action overloaded rfl]
        simp [withAction, Action.immediate, bind, Run.andThen, runs, pure, Run.ofAnswer]
      exact execute_of_start running start

/-- **Whether the failure of a body is kept or raised makes no difference to a call.**  It settles
alike, and has finished when executing it returns; so completing it answers alike. -/
theorem direct_like_immediate (body : Body) (resolved : ResolvedCall) (token : Token)
    (world : World) :
    ∃ outcome effects, Settles body resolved token world outcome effects ∧
      Finishes (resolved.withAction (.immediate body)) token world outcome effects ∧
      Finishes (resolved.withAction (.direct body)) token world outcome effects ∧
      (resolved.withAction (.direct body)).complete token world =
        (resolved.withAction (.immediate body)).complete token world := by
  obtain ⟨outcome, effects, settles⟩ := exists_settles body resolved token world
  have alike : (resolved.withAction (.direct body)).execute token world =
      (resolved.withAction (.immediate body)).execute token world :=
    execute_withAction_congr (handedBack_direct body resolved.invocation token)
  have kept := finishes_of_execute (execute_of_settles settles)
  have raised := finishes_of_execute (alike.trans (execute_of_settles settles))
  exact ⟨outcome, effects, settles, kept, raised, raised.completed.trans kept.completed.symm⟩

end ResolvedCall

end OverloadResolution
