import OverloadResolution.Assessment
import OverloadResolution.Failure
import OverloadResolution.Trace

/-!
# Converting the arguments of a chosen overload

Each use of an argument has a plan, which follows from its fit alone: hand the argument over as it
is, run code from outside, or refuse.  The uses are carried out in order, and the first failure
ends the conversion.  Cancellation is looked at before each use, and again when a conversion has
failed: a conversion that fails while cancellation is requested counts as cancelled.

Everything that code from outside did is on record: which conversion ran for which argument, the
world it started in, what it answered, and the world it left behind.
-/

set_option autoImplicit false

namespace OverloadResolution

/-- Code from outside, with what it is applied to. -/
inductive Conversion where
  | offered (convert : Content → Run (Except Diagnostic Value)) (content : Content)
  | reading (reader : Reader) (raw : String)

/-- Runs a conversion. -/
def Conversion.run (context : ReadContext) : Conversion → Run (Except Diagnostic Value)
  | .offered convert content => convert content
  | .reading reader raw => reader.read raw context

/-- Why an argument cannot be converted before any code is run. -/
inductive Obstacle where
  | noOffer
  | noText
  | ambiguous
  | impossible
deriving DecidableEq, Repr

/-- What an obstacle says. -/
def Obstacle.message : Obstacle → String
  | .noOffer => "offered conversion is unavailable"
  | .noText => "argument has no text to parse"
  | .ambiguous => "conversion is ambiguous"
  | .impossible => "no conversion available"

/-- What is to be done with a used argument. -/
inductive Plan where
  | deliver (value : Value)
  | refuse (obstacle : Obstacle)
  | run (conversion : Conversion)

/-- The conversion that a plan runs, if it runs one. -/
def Plan.conversion? : Plan → Option Conversion
  | .run conversion => some conversion
  | _ => none

/-- The plan for a use. -/
def Use.plan (use : Use) : Plan :=
  match use.fit with
  | .asIs => .deliver use.argument.content.asValue
  | .offered index =>
    match use.argument.offers[index]?.bind Offer.convert with
    | some convert => .run (.offered convert use.argument.content)
    | none => .refuse .noOffer
  | .read reader =>
    match reader, use.argument.content.raw? with
    | some reader, some raw => .run (.reading reader raw)
    | _, _ => .refuse .noText
  | .ambiguous => .refuse .ambiguous
  | .impossible => .refuse .impossible

/-- One conversion that was run. -/
structure Performed where
  position : Nat
  conversion : Conversion
  before : World
  answer : Except Diagnostic Value
  after : World

/-- The call whose arguments are converted, how many overloads were considered for it, and the
token that may cancel it. -/
structure Job where
  call : Call
  considered : Nat
  token : Token

/-- How far a conversion has come: the world, the conversions run, and the records made. -/
structure Progress where
  world : World
  performed : List Performed
  records : List Record

/-- Nothing done yet. -/
def Progress.start (world : World) : Progress := ⟨world, [], []⟩

namespace Job

/-- What readers may know. -/
def context (job : Job) : ReadContext := ⟨job.call.caller, job.token⟩

/-- A failure of the job that has nothing more to say than its kind. -/
def failure (job : Job) (kind : FailureKind) : Failure :=
  .ofKind kind job.call.callee job.considered

/-- The failure to convert an argument, which the error of the conversion explains. -/
def conversionFailure (job : Job) (parameter : Parameter) (argument : Argument)
    (error : Diagnostic) : Failure :=
  { job.failure .conversion with
    parameter := some parameter
    raw := argument.content.raw?
    reason := error.message }

/-- What a parameter is called in an error: its name, or else its text, or else the command. -/
def label (job : Job) (parameter : Parameter) : String :=
  match parameter.name? with
  | some name => name
  | none => if parameter.render.isEmpty then job.call.callee else parameter.render

/-- Ends the conversion of an argument with an error. -/
def reject (job : Job) (parameter : Parameter) (argument : Argument) (error : Diagnostic)
    (progress : Progress) : Except Failure Value × Progress :=
  if progress.world.isRequested job.token then (.error (job.failure .cancelled), progress)
  else
    let record := Record.verbose
      (job.call.callee ++ ":   conversion failed: " ++ error.headline)
    (.error (job.conversionFailure parameter argument error),
      { progress with records := progress.records ++ [record] })

/-- Runs a conversion and puts it on record. -/
def perform (job : Job) (position : Nat) (conversion : Conversion) (progress : Progress) :
    Except Diagnostic Value × Progress :=
  let (answer, world) := (conversion.run job.context).perform progress.world
  (answer,
    { progress with
      world := world
      performed := progress.performed ++ [⟨position, conversion, progress.world, answer, world⟩] })

/-- Converts one used argument. -/
def convertUse (job : Job) (parameter : Parameter) (use : Use) (progress : Progress) :
    Except Failure Value × Progress :=
  if progress.world.isRequested job.token then (.error (job.failure .cancelled), progress)
  else
    match use.plan with
    | .deliver value => (.ok value, progress)
    | .refuse obstacle =>
      job.reject parameter use.argument (.error (job.label parameter) obstacle.message) progress
    | .run conversion =>
      match job.perform use.position conversion progress with
      | (.ok value, progress) => (.ok value, progress)
      | (.error error, progress) => job.reject parameter use.argument error progress

/-- Converts used arguments in order. -/
def convertUses (job : Job) (parameter : Parameter) :
    List Use → Progress → Except Failure (List Value) × Progress
  | [], progress => (.ok [], progress)
  | use :: uses, progress =>
    match job.convertUse parameter use progress with
    | (.error failure, progress) => (.error failure, progress)
    | (.ok value, progress) =>
      match job.convertUses parameter uses progress with
      | (.error failure, progress) => (.error failure, progress)
      | (.ok values, progress) => (.ok (value :: values), progress)

/-- The value of a parameter: of one argument its conversion, of any number of them the array of
their conversions, and otherwise null. -/
def convertBinding (job : Job) (binding : Binding) (progress : Progress) :
    Except Failure Value × Progress :=
  match binding.share with
  | .one use => job.convertUse binding.parameter use progress
  | .many uses =>
    match job.convertUses binding.parameter uses progress with
    | (.error failure, progress) => (.error failure, progress)
    | (.ok values, progress) => (.ok (.array binding.parameter.type values), progress)
  | .skipped | .missing => (.ok (.nullOf binding.parameter.type), progress)

/-- The values of parameters, in order. -/
def convertBindings (job : Job) :
    List Binding → Progress → Except Failure (List Value) × Progress
  | [], progress => (.ok [], progress)
  | binding :: bindings, progress =>
    match job.convertBinding binding progress with
    | (.error failure, progress) => (.error failure, progress)
    | (.ok value, progress) =>
      match job.convertBindings bindings progress with
      | (.error failure, progress) => (.error failure, progress)
      | (.ok values, progress) => (.ok (value :: values), progress)

/-- Converts the arguments of an assessed overload. -/
def convert (job : Job) (assessment : Assessment) (world : World) :
    Except Failure ResolvedCall × Progress :=
  match job.convertBindings assessment.bindings (.start world) with
  | (.error failure, progress) => (.error failure, progress)
  | (.ok values, progress) =>
    (.ok
      { invocation :=
          { callee := job.call.callee
            caller := job.call.caller
            receiver := if assessment.receiverBound then some job.call.caller else none
            arguments := values }
        overload := some assessment.overload },
      progress)

end Job

end OverloadResolution
