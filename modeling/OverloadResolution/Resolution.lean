import OverloadResolution.Conversion
import OverloadResolution.Selection
import OverloadResolution.Settings

/-!
# Resolving a call

A call is resolved against a list of overloads in two steps.  First every overload is assessed,
which runs no code from outside.  Then the arguments of the chosen overload are converted, if one
is chosen at all.  A call whose token is already requested is not even assessed.

The outcome comes with the position of the chosen overload, the conversions that ran, the records
that the settings admit, and the world that is left behind.
-/

set_option autoImplicit false

namespace OverloadResolution

/-- What resolving a call comes to, and what was done on the way. -/
structure Resolution where
  outcome : Except Failure ResolvedCall
  chosen : Option Nat
  performed : List Performed
  trace : List Record
  world : World

namespace Assessment

/-- A score as it is traced. -/
def scoreText (score : Int) : String :=
  if score = Fit.topRank then "direct" else Decimal.signedText score

/-- The record of a use. -/
def useRecord (callee : String) (parameter : Parameter) (use : Use) : Record :=
  .verbose (callee ++ ":   '" ++ use.argument.content.render ++ "' -> " ++ parameter.render ++
    " via " ++ use.fit.render)

/-- The records of a binding: one for each use, and one for a skipped parameter. -/
def bindingRecords (callee : String) (binding : Binding) : List Record :=
  match binding.share with
  | .skipped => [.verbose (callee ++ ":   " ++ binding.parameter.render ++ " skipped")]
  | _ => binding.uses.map (useRecord callee binding.parameter)

/-- The record of the overload as a whole. -/
def headRecord (callee : String) (position : Nat) (assessment : Assessment) : Record :=
  .verbose (callee ++ ": candidate #" ++ Decimal.text position ++ " " ++
    assessment.overload.render ++ " -> " ++ assessment.verdict.render ++
    if assessment.isDisqualified then "" else ", score " ++ scoreText assessment.score)

/-- The records of an assessment. -/
def records (callee : String) (position : Nat) (assessment : Assessment) : List Record :=
  headRecord callee position assessment ::
    assessment.bindings.flatMap (bindingRecords callee)

end Assessment

namespace Scope

/-- All overloads, assessed. -/
def assessAll (scope : Scope) (call : Call) (overloads : List Overload) : List Assessment :=
  overloads.map (scope.assess call)

/-- Whether there are overloads, and all of them refuse the caller. -/
def allRefuseCaller (assessments : List Assessment) : Bool :=
  !assessments.isEmpty && assessments.all fun assessment => assessment.verdict = .receiverRejected

/-- The record of a failure. -/
def failureRecord (failure : Failure) : Record :=
  .summary (failure.callee ++ ": failed: " ++ failure.message)

/-- The record of a success. -/
def successRecord (callee : String) (assessment : Assessment) : Record :=
  .summary (callee ++ ": resolved to " ++ assessment.overload.render ++
    " (score " ++ Assessment.scoreText assessment.score ++ ")")

/-- The resolution that ends in a failure before any conversion. -/
def failed (settings : Settings) (records : List Record) (world : World) (failure : Failure) :
    Resolution where
  outcome := .error failure
  chosen := none
  performed := []
  trace := Record.admitted settings.mode (records ++ [failureRecord failure])
  world := world

/-- The resolution that ends with the conversion of the chosen overload's arguments. -/
def converted (settings : Settings) (records : List Record) (job : Job) (position : Nat)
    (assessment : Assessment) (world : World) : Resolution :=
  let result := job.convert assessment world
  let last := match result.1 with
    | .error failure => failureRecord failure
    | .ok _ => successRecord job.call.callee assessment
  { outcome := result.1
    chosen := some position
    performed := result.2.performed
    trace := Record.admitted settings.mode (records ++ result.2.records ++ [last])
    world := result.2.world }

/-- Resolves a call against a list of overloads. -/
def resolve (scope : Scope) (settings : Settings) (token : Token) (call : Call)
    (overloads : List Overload) (world : World) : Resolution :=
  let job : Job := ⟨call, overloads.length, token⟩
  if world.isRequested token then
    failed settings [] world (job.failure .cancelled)
  else
    let assessments := scope.assessAll call overloads
    let records := assessments.zipIdx.flatMap fun (assessment, position) =>
      assessment.records call.callee position
    match Selection.ofAssessments assessments with
    | .chosen position assessment =>
      converted settings records job position assessment world
    | .tied leaders =>
      failed settings records world
        { job.failure .ambiguous with candidates := leaders.map Assessment.overload }
    | .none =>
      if allRefuseCaller assessments && !settings.foldsReceiver then
        failed settings records world (job.failure .receiver)
      else
        failed settings records world (job.failure .noMatch)

/-- A call whose token is requested is cancelled at once, and nothing runs. -/
theorem resolve_of_requested (scope : Scope) (settings : Settings) {token : Token} (call : Call)
    (overloads : List Overload) {world : World} (requested : world.isRequested token = true) :
    scope.resolve settings token call overloads world =
      failed settings [] world (.ofKind .cancelled call.callee overloads.length) := by
  simp [resolve, requested, Job.failure]

end Scope

end OverloadResolution
