import OverloadResolution.Conversion

/-!
# Converting in one loop

The arguments of a chosen overload are converted by two nested loops, over the parameters and over
the uses of a vararg.  For what runs, and for where a conversion stops, the nesting plays no part:
it is one loop over all uses (`Job.convertTasks`), after which the values are gathered parameter by
parameter (`Job.convertBindings_eq`).

One turn of that loop has five courses (`Job.Step`, `Job.convertUse_step`).  From them follow, by
induction over the uses, the facts that later modules build on:

* a failure belongs to the job and names no overloads (`Job.Run.reports`);
* the conversions on record really ran one after another, and are an initial part of those that
  the uses call for (`Progress.Advances`, `Job.Run.advances`);
* the values of a success are the answers of those conversions, each in the world that the one
  before it left behind (`Converts`, `Job.Run.converts`).

A run can also be taken apart: a success at any point (`Job.Run.split`), a failure at the use that
stops it (`Job.Run.culprit`).
-/

set_option autoImplicit false

namespace OverloadResolution

/-! ## What a use calls for -/

namespace Use

/-- The code from outside that a use calls for: the conversion of the offer that it goes through,
if the offer has one, or its reader, applied to the token. -/
def conversion? (use : Use) : Option Conversion :=
  match use.fit with
  | .offered index =>
    (use.argument.offers[index]?.bind Offer.convert).map fun convert =>
      .offered convert use.argument.content
  | .read (some reader) => use.argument.content.raw?.map fun raw => .reading reader raw
  | _ => none

/-- The conversion that a use calls for, with the position of the argument. -/
def planned (use : Use) : List (Nat × Conversion) :=
  (use.conversion?.map fun conversion => (use.position, conversion)).toList

/-- Handing over, refusing and running are the only plans, each with its reason. -/
theorem plan_cases (use : Use) :
    (use.fit = .asIs ∧ use.conversion? = none ∧
      use.plan = .deliver use.argument.content.asValue) ∨
    (use.conversion? = none ∧ ∃ obstacle, use.plan = .refuse obstacle) ∨
    (∃ conversion, use.conversion? = some conversion ∧ use.plan = .run conversion) := by
  cases fit : use.fit with
  | asIs => exact .inl ⟨rfl, by simp [conversion?, fit], by simp [plan, fit]⟩
  | offered index =>
      cases offer : use.argument.offers[index]?.bind Offer.convert with
      | none =>
          exact .inr (.inl ⟨by simp [conversion?, fit, offer], .noOffer, by simp [plan, fit, offer]⟩)
      | some convert =>
          exact .inr (.inr ⟨.offered convert use.argument.content,
            by simp [conversion?, fit, offer], by simp [plan, fit, offer]⟩)
  | read reader? =>
      cases reader? with
      | none => exact .inr (.inl ⟨by simp [conversion?, fit], .noText, by simp [plan, fit]⟩)
      | some reader =>
          cases token : use.argument.content.raw? with
          | none =>
              exact .inr (.inl ⟨by simp [conversion?, fit, token], .noText,
                by simp [plan, fit, token]⟩)
          | some raw =>
              exact .inr (.inr ⟨.reading reader raw, by simp [conversion?, fit, token],
                by simp [plan, fit, token]⟩)
  | ambiguous => exact .inr (.inl ⟨by simp [conversion?, fit], .ambiguous, by simp [plan, fit]⟩)
  | impossible => exact .inr (.inl ⟨by simp [conversion?, fit], .impossible, by simp [plan, fit]⟩)

end Use

/-- Which conversion a record is of, and for which argument. -/
def Performed.key (record : Performed) : Nat × Conversion := (record.position, record.conversion)

/-! ## One turn of the loop -/

namespace Job

/-- A failure of the job to convert: it names no overloads. -/
structure Reports (job : Job) (failure : Failure) : Prop where
  kind : failure.kind = .cancelled ∨ failure.kind = .conversion
  callee : failure.callee = job.call.callee
  considered : failure.considered = job.considered
  candidates : failure.candidates = []

theorem reports_cancelled (job : Job) : job.Reports (job.failure .cancelled) :=
  ⟨.inl rfl, rfl, rfl, rfl⟩

theorem reports_conversionFailure (job : Job) (parameter : Parameter) (argument : Argument)
    (error : Diagnostic) : job.Reports (job.conversionFailure parameter argument error) :=
  ⟨.inr rfl, rfl, rfl, rfl⟩

/-- Rejecting ends in a failure of the job, and runs nothing. -/
theorem reject_spec (job : Job) (parameter : Parameter) (argument : Argument)
    (error : Diagnostic) (progress : Progress) :
    ∃ failure records, job.reject parameter argument error progress =
      (.error failure, { progress with records := records }) ∧ job.Reports failure := by
  unfold reject
  split
  · exact ⟨_, progress.records, rfl, job.reports_cancelled⟩
  · exact ⟨_, _, rfl, job.reports_conversionFailure parameter argument error⟩

/-- What converting one used argument comes to, and why. -/
inductive Step (job : Job) (parameter : Parameter) (use : Use) (before : Progress) :
    Except Failure Value × Progress → Prop where
  | cancelled (requested : before.world.isRequested job.token = true) :
      Step job parameter use before (.error (job.failure .cancelled), before)
  | delivered (running : before.world.isRequested job.token = false) (direct : use.fit = .asIs)
      (uncalled : use.conversion? = none) :
      Step job parameter use before (.ok use.argument.content.asValue, before)
  | refused (running : before.world.isRequested job.token = false)
      (uncalled : use.conversion? = none) (error : Diagnostic) :
      Step job parameter use before (job.reject parameter use.argument error before)
  | converted {conversion : Conversion} {value : Value}
      (running : before.world.isRequested job.token = false)
      (called : use.conversion? = some conversion)
      (answered : (job.perform use.position conversion before).1 = .ok value) :
      Step job parameter use before (.ok value, (job.perform use.position conversion before).2)
  | failed {conversion : Conversion} {error : Diagnostic}
      (running : before.world.isRequested job.token = false)
      (called : use.conversion? = some conversion)
      (answered : (job.perform use.position conversion before).1 = .error error) :
      Step job parameter use before
        (job.reject parameter use.argument error (job.perform use.position conversion before).2)

theorem convertUse_step (job : Job) (parameter : Parameter) (use : Use) (before : Progress) :
    job.Step parameter use before (job.convertUse parameter use before) := by
  unfold convertUse
  cases requested : before.world.isRequested job.token with
  | true => exact .cancelled requested
  | false =>
      simp only [Bool.false_eq_true, if_false]
      rcases use.plan_cases with ⟨direct, uncalled, plan⟩ | ⟨uncalled, obstacle, plan⟩ |
        ⟨conversion, called, plan⟩
      · rw [plan]
        exact .delivered requested direct uncalled
      · rw [plan]
        exact .refused requested uncalled _
      · rw [plan]
        cases performed : job.perform use.position conversion before with
        | mk answer after =>
            cases answer with
            | ok value =>
                have step : job.Step parameter use before _ :=
                  .converted requested called (congrArg Prod.fst performed)
                simpa only [performed] using step
            | error error =>
                have step : job.Step parameter use before _ :=
                  .failed requested called (congrArg Prod.fst performed)
                simpa only [performed] using step

theorem run_perform (job : Job) (position : Nat) (conversion : Conversion)
    (progress : Progress) :
    (conversion.run job.context).perform progress.world =
      ((job.perform position conversion progress).1,
        (job.perform position conversion progress).2.world) := rfl

end Job

/-! ## Attempts in sequence -/

/-- What goes from one stage of a conversion to the next, and may fail. -/
abbrev Attempt (α : Type) := Progress → Except Failure α × Progress

namespace Attempt

variable {α β γ : Type}

/-- Succeeds without doing anything. -/
def succeed (answer : α) : Attempt α := fun progress => (.ok answer, progress)

/-- Goes on after a success, and stops at a failure. -/
def andThen (attempt : Attempt α) (next : α → Attempt β) : Attempt β := fun progress =>
  match attempt progress with
  | (.error failure, progress) => (.error failure, progress)
  | (.ok answer, progress) => next answer progress

theorem succeed_andThen (answer : α) (next : α → Attempt β) :
    andThen (succeed answer) next = next answer := rfl

theorem andThen_assoc (attempt : Attempt α) (next : α → Attempt β) (last : β → Attempt γ) :
    andThen (andThen attempt next) last =
      andThen attempt fun answer => andThen (next answer) last := by
  funext progress
  unfold andThen
  rcases attempt progress with ⟨failure | answer, progress⟩ <;> rfl

/-- What follows matters only for the answers that are given. -/
theorem andThen_congr {attempt : Attempt α} {next other : α → Attempt β} {before : Progress}
    (same : ∀ answer middle, attempt before = (.ok answer, middle) →
      next answer middle = other answer middle) :
    andThen attempt next before = andThen attempt other before := by
  unfold andThen
  cases attempted : attempt before with
  | mk result middle =>
      cases result with
      | error failure => rfl
      | ok answer => exact same answer middle attempted

theorem andThen_of_error {attempt : Attempt α} {next : α → Attempt β} {before middle : Progress}
    {failure : Failure} (failed : attempt before = (.error failure, middle)) :
    andThen attempt next before = (.error failure, middle) := by
  simp only [andThen, failed]

theorem andThen_of_ok {attempt : Attempt α} {next : α → Attempt β} {before middle : Progress}
    {answer : α} (succeeded : attempt before = (.ok answer, middle)) :
    andThen attempt next before = next answer middle := by
  simp only [andThen, succeeded]

end Attempt

/-! ## The single loop -/

/-- A use with the parameter that it is for. -/
abbrev Task := Parameter × Use

/-- The uses of a binding, each with the binding's parameter. -/
def Binding.tasks (binding : Binding) : List Task :=
  binding.uses.map fun use => (binding.parameter, use)

/-- The values of parameters, gathered from the values of all their uses: a single one is taken
over, those of a vararg become an array, and a parameter without a use is null. -/
def Binding.gather : List Binding → List Value → List Value
  | [], _ => []
  | binding :: bindings, values =>
    let rest := gather bindings (values.drop binding.uses.length)
    match binding.share with
    | .one _ => values.take 1 ++ rest
    | .many uses => .array binding.parameter.type (values.take uses.length) :: rest
    | .skipped | .missing => .nullOf binding.parameter.type :: rest

namespace Job

open Attempt

/-- Converts uses one after another, up to the first failure. -/
def convertTasks (job : Job) : List Task → Attempt (List Value)
  | [] => succeed []
  | (parameter, use) :: tasks =>
    andThen (job.convertUse parameter use) fun value =>
      andThen (job.convertTasks tasks) fun values => succeed (value :: values)

theorem convertTasks_append (job : Job) (first second : List Task) :
    job.convertTasks (first ++ second) =
      andThen (job.convertTasks first) fun values =>
        andThen (job.convertTasks second) fun others => succeed (values ++ others) := by
  induction first with
  | nil =>
      funext progress
      simp only [List.nil_append, convertTasks, succeed_andThen]
      unfold andThen
      rcases job.convertTasks second progress with ⟨failure | values, progress⟩ <;> rfl
  | cons task first ih =>
      simp only [List.cons_append, convertTasks, ih, andThen_assoc, succeed_andThen]

/-- How the loop can go: to the end, or up to a failure in some turn. -/
inductive Run (job : Job) :
    List Task → Progress → Except Failure (List Value) → Progress → Prop where
  | done (progress : Progress) : Run job [] progress (.ok []) progress
  | stopped {parameter : Parameter} {use : Use} {tasks : List Task} {before after : Progress}
      {failure : Failure} (failed : job.convertUse parameter use before = (.error failure, after)) :
      Run job ((parameter, use) :: tasks) before (.error failure) after
  | passedOn {parameter : Parameter} {use : Use} {tasks : List Task}
      {before middle after : Progress} {value : Value} {failure : Failure}
      (converted : job.convertUse parameter use before = (.ok value, middle))
      (rest : Run job tasks middle (.error failure) after) :
      Run job ((parameter, use) :: tasks) before (.error failure) after
  | converted {parameter : Parameter} {use : Use} {tasks : List Task}
      {before middle after : Progress} {value : Value} {values : List Value}
      (converted : job.convertUse parameter use before = (.ok value, middle))
      (rest : Run job tasks middle (.ok values) after) :
      Run job ((parameter, use) :: tasks) before (.ok (value :: values)) after

theorem convertTasks_run (job : Job) (tasks : List Task) (before : Progress) :
    job.Run tasks before (job.convertTasks tasks before).1 (job.convertTasks tasks before).2 := by
  induction tasks generalizing before with
  | nil => exact .done before
  | cons task tasks ih =>
      obtain ⟨parameter, use⟩ := task
      rw [convertTasks]
      cases first : job.convertUse parameter use before with
      | mk answer middle =>
          cases answer with
          | error failure =>
              rw [andThen_of_error first]
              exact .stopped first
          | ok value =>
              rw [andThen_of_ok first]
              have run := ih middle
              cases others : job.convertTasks tasks middle with
              | mk answer after =>
                  rw [others] at run
                  cases answer with
                  | error failure =>
                      rw [andThen_of_error others]
                      exact .passedOn first run
                  | ok values =>
                      rw [andThen_of_ok others]
                      exact .converted first run

/-- A success has one value for each use. -/
theorem Run.length {job : Job} {tasks : List Task} {before after : Progress}
    {values : List Value} (run : job.Run tasks before (.ok values) after) :
    values.length = tasks.length := by
  generalize succeeded : (Except.ok values : Except Failure (List Value)) = answer at run
  induction run generalizing values with
  | done =>
      cases succeeded
      rfl
  | stopped => cases succeeded
  | passedOn => cases succeeded
  | converted _ _ ih =>
      cases succeeded
      exact congrArg (· + 1) (ih rfl)

/-- The loop over the uses of a vararg is a part of the single loop. -/
theorem convertUses_eq (job : Job) (parameter : Parameter) (uses : List Use) :
    job.convertUses parameter uses =
      job.convertTasks (uses.map fun use => (parameter, use)) := by
  induction uses with
  | nil => rfl
  | cons use uses ih =>
      funext progress
      simp only [convertUses, List.map_cons, convertTasks, ← ih, andThen]
      rcases job.convertUse parameter use progress with ⟨failure | value, middle⟩
      · rfl
      · dsimp only
        rcases job.convertUses parameter uses middle with ⟨failure | values, last⟩ <;> rfl

theorem convertBindings_cons (job : Job) (binding : Binding) (bindings : List Binding) :
    job.convertBindings (binding :: bindings) =
      andThen (job.convertBinding binding) fun value =>
        andThen (job.convertBindings bindings) fun values => succeed (value :: values) := by
  funext progress
  simp only [convertBindings, andThen]
  rcases job.convertBinding binding progress with ⟨failure | value, middle⟩
  · rfl
  · dsimp only
    rcases job.convertBindings bindings middle with ⟨failure | values, last⟩ <;> rfl

/-- A vararg gets the array of what its uses are converted to. -/
theorem convertBinding_many (job : Job) (parameter : Parameter) (uses : List Use) :
    job.convertBinding ⟨parameter, .many uses⟩ =
      andThen (job.convertTasks (uses.map fun use => (parameter, use))) fun values =>
        succeed (.array parameter.type values) := by
  rw [← convertUses_eq]
  funext progress
  simp only [convertBinding, andThen]
  rcases job.convertUses parameter uses progress with ⟨failure | values, last⟩ <;> rfl

/-- Gathering gives a vararg as many values as it has uses. -/
theorem gather_many (parameter : Parameter) (bindings : List Binding) {uses : List Use}
    {values : List Value} (length : values.length = uses.length) (others : List Value) :
    Binding.gather (⟨parameter, .many uses⟩ :: bindings) (values ++ others) =
      .array parameter.type values :: Binding.gather bindings others := by
  simp only [Binding.gather, Binding.uses, Share.uses, ← length, List.take_left, List.drop_left]

/-- **The nested loops are the single loop**, with the values gathered afterwards. -/
theorem convertBindings_eq (job : Job) (bindings : List Binding) :
    job.convertBindings bindings =
      andThen (job.convertTasks (bindings.flatMap Binding.tasks)) fun values =>
        succeed (Binding.gather bindings values) := by
  induction bindings with
  | nil => rfl
  | cons binding bindings ih =>
      obtain ⟨parameter, share⟩ := binding
      rw [convertBindings_cons, ih, List.flatMap_cons, convertTasks_append]
      simp only [andThen_assoc, succeed_andThen]
      cases share with
      | one use =>
          simp only [Binding.tasks, Binding.uses, Share.uses, List.map_cons, List.map_nil,
            convertTasks, andThen_assoc, succeed_andThen]
          rfl
      | many uses =>
          rw [convertBinding_many, andThen_assoc]
          funext progress
          -- the values can be told apart again because there is one for each use
          refine andThen_congr fun values middle converted => ?_
          have run := job.convertTasks_run (uses.map fun use => (parameter, use)) progress
          rw [converted] at run
          have length := run.length
          rw [List.length_map] at length
          simp only [succeed_andThen, gather_many parameter bindings length]
      | skipped => rfl
      | missing => rfl

end Job

/-! ## What a run leaves behind -/

/-- Conversions that ran one after another, each in the world that the one before it left. -/
inductive Ran (context : ReadContext) : World → List Performed → World → Prop where
  | done (world : World) : Ran context world [] world
  | next {position : Nat} {conversion : Conversion} {answer : Except Diagnostic Value}
      {world next last : World} {records : List Performed}
      (answered : (conversion.run context).perform world = (answer, next))
      (rest : Ran context next records last) :
      Ran context world (⟨position, conversion, world, answer, next⟩ :: records) last

theorem Ran.append {context : ReadContext} {first middle last : World}
    {records others : List Performed} (ran : Ran context first records middle)
    (more : Ran context middle others last) : Ran context first (records ++ others) last := by
  induction ran with
  | done => exact more
  | next answered _ ih => exact .next answered (ih more)

/-- Between two points of a conversion exactly the conversions with some keys have run. -/
def Progress.Advances (context : ReadContext) (before after : Progress)
    (keys : List (Nat × Conversion)) : Prop :=
  ∃ records, after.performed = before.performed ++ records ∧
    Ran context before.world records after.world ∧ records.map Performed.key = keys

namespace Progress.Advances

variable {context : ReadContext} {before middle after : Progress}
  {keys others : List (Nat × Conversion)}

/-- Nothing runs where the world and the conversions on record stay the same. -/
theorem of_eq (world : after.world = before.world)
    (performed : after.performed = before.performed) : before.Advances context after [] := by
  refine ⟨[], ?_, ?_, rfl⟩
  · rw [performed, List.append_nil]
  · rw [world]
    exact .done _

theorem trans (first : before.Advances context middle keys)
    (second : middle.Advances context after others) :
    before.Advances context after (keys ++ others) := by
  obtain ⟨records, performed, ran, rfl⟩ := first
  obtain ⟨more, performed', ran', rfl⟩ := second
  refine ⟨records ++ more, ?_, ran.append ran', List.map_append⟩
  rw [performed', performed, List.append_assoc]

end Progress.Advances

/-- The values of uses, converted one after another: an argument that fits as it is gives its own
value, and any other gives the answer of the conversion that its use calls for. -/
inductive Converts (context : ReadContext) : World → List Use → List Value → World → Prop where
  | done (world : World) : Converts context world [] [] world
  | asIs {use : Use} {uses : List Use} {values : List Value} {world last : World}
      (direct : use.fit = .asIs) (rest : Converts context world uses values last) :
      Converts context world (use :: uses) (use.argument.content.asValue :: values) last
  | convert {use : Use} {uses : List Use} {conversion : Conversion} {value : Value}
      {values : List Value} {world next last : World}
      (called : use.conversion? = some conversion)
      (answered : (conversion.run context).perform world = (.ok value, next))
      (rest : Converts context next uses values last) :
      Converts context world (use :: uses) (value :: values) last

namespace Job

variable {job : Job} {parameter : Parameter} {use : Use} {tasks : List Task}
  {before after : Progress}

/-- A used argument is converted in one of two ways. -/
theorem Step.of_ok {result : Except Failure Value × Progress} {value : Value}
    (step : job.Step parameter use before result) (succeeded : result.1 = .ok value) :
    (use.fit = .asIs ∧ use.conversion? = none ∧ value = use.argument.content.asValue ∧
      result.2 = before) ∨
    ∃ conversion, use.conversion? = some conversion ∧
      job.perform use.position conversion before = (.ok value, result.2) := by
  cases step with
  | cancelled => cases succeeded
  | delivered running direct uncalled =>
      cases succeeded
      exact .inl ⟨direct, uncalled, rfl, rfl⟩
  | refused running uncalled error =>
      obtain ⟨failure, records, rejected, _⟩ :=
        job.reject_spec parameter use.argument error before
      rw [rejected] at succeeded
      cases succeeded
  | converted running called answered =>
      cases succeeded
      exact .inr ⟨_, called, Prod.ext answered rfl⟩
  | failed running called answered =>
      obtain ⟨failure, records, rejected, _⟩ := job.reject_spec parameter use.argument _ _
      rw [rejected] at succeeded
      cases succeeded

/-- A failure to convert a used argument is one of the job, and has run what the use calls for or
nothing at all. -/
theorem Step.of_error {result : Except Failure Value × Progress} {failure : Failure}
    (step : job.Step parameter use before result) (failed : result.1 = .error failure) :
    job.Reports failure ∧
      (result.2.world = before.world ∧ result.2.performed = before.performed ∨
        ∃ conversion, use.conversion? = some conversion ∧
          result.2.world = (job.perform use.position conversion before).2.world ∧
          result.2.performed = (job.perform use.position conversion before).2.performed) := by
  cases step with
  | cancelled =>
      cases failed
      exact ⟨job.reports_cancelled, .inl ⟨rfl, rfl⟩⟩
  | delivered => cases failed
  | refused running uncalled error =>
      obtain ⟨other, records, rejected, reports⟩ :=
        job.reject_spec parameter use.argument error before
      rw [rejected] at failed ⊢
      cases failed
      exact ⟨reports, .inl ⟨rfl, rfl⟩⟩
  | converted => cases failed
  | failed running called answered =>
      obtain ⟨other, records, rejected, reports⟩ := job.reject_spec parameter use.argument _ _
      rw [rejected] at failed ⊢
      cases failed
      exact ⟨reports, .inr ⟨_, called, rfl, rfl⟩⟩

/-- The conversion that a use calls for advances by the key of the use. -/
theorem advances_perform (job : Job) {conversion : Conversion}
    (called : use.conversion? = some conversion) {after : Progress}
    (world : after.world = (job.perform use.position conversion before).2.world)
    (performed : after.performed = (job.perform use.position conversion before).2.performed) :
    before.Advances job.context after use.planned := by
  refine ⟨[⟨use.position, conversion, before.world,
    (job.perform use.position conversion before).1,
    (job.perform use.position conversion before).2.world⟩], performed, ?_, ?_⟩
  · rw [world]
    exact .next rfl (.done _)
  · rw [Use.planned, called]
    rfl

/-- A turn that succeeds has run what the use calls for. -/
theorem advances_of_ok {value : Value}
    (converted : job.convertUse parameter use before = (.ok value, after)) :
    before.Advances job.context after use.planned := by
  have step := job.convertUse_step parameter use before
  rw [converted] at step
  rcases step.of_ok rfl with ⟨_, uncalled, _, same⟩ | ⟨conversion, called, performed⟩
  · cases same
    rw [Use.planned, uncalled]
    exact .of_eq rfl rfl
  · refine job.advances_perform called ?_ ?_
    · rw [performed]
    · rw [performed]

/-- A turn that fails has run what the use calls for, or nothing. -/
theorem advances_of_error {failure : Failure}
    (failed : job.convertUse parameter use before = (.error failure, after)) :
    ∃ keys, before.Advances job.context after keys ∧ keys <+: use.planned := by
  have step := job.convertUse_step parameter use before
  rw [failed] at step
  obtain ⟨_, ⟨world, performed⟩ | ⟨conversion, called, world, performed⟩⟩ := step.of_error rfl
  · exact ⟨[], .of_eq world performed, List.nil_prefix⟩
  · exact ⟨use.planned, job.advances_perform called world performed, List.prefix_refl _⟩

/-- **A run advances by an initial part of what its uses call for**, and a success by all of it. -/
theorem Run.advances {answer : Except Failure (List Value)}
    (run : job.Run tasks before answer after) :
    ∃ keys, before.Advances job.context after keys ∧
      keys <+: tasks.flatMap (fun task => task.2.planned) ∧
      ∀ values, answer = .ok values → keys = tasks.flatMap fun task => task.2.planned := by
  induction run with
  | done progress =>
      exact ⟨[], .of_eq rfl rfl, List.nil_prefix, fun _ _ => rfl⟩
  | stopped failed =>
      obtain ⟨keys, advances, initial⟩ := advances_of_error failed
      rw [List.flatMap_cons]
      refine ⟨keys, advances, initial.trans (List.prefix_append _ _), ?_⟩
      intro values answered
      cases answered
  | passedOn converted _ ih =>
      obtain ⟨others, advances, initial, _⟩ := ih
      rw [List.flatMap_cons]
      refine ⟨_, (advances_of_ok converted).trans advances,
        (List.prefix_append_right_inj _).mpr initial, ?_⟩
      intro values answered
      cases answered
  | converted converted _ ih =>
      obtain ⟨others, advances, initial, complete⟩ := ih
      rw [List.flatMap_cons]
      refine ⟨_, (advances_of_ok converted).trans advances,
        (List.prefix_append_right_inj _).mpr initial, ?_⟩
      intro values answered
      rw [complete _ rfl]

/-- A failure of a run is one of the job. -/
theorem Run.reports {failure : Failure} (run : job.Run tasks before (.error failure) after) :
    job.Reports failure := by
  generalize failed : (Except.error failure : Except Failure (List Value)) = answer at run
  induction run with
  | done => cases failed
  | @stopped parameter use tasks before after other stopped =>
      cases failed
      have step := job.convertUse_step parameter use before
      rw [stopped] at step
      exact (step.of_error rfl).1
  | passedOn _ _ ih =>
      cases failed
      exact ih rfl
  | converted => cases failed

/-- **The values of a success are the answers of its conversions.** -/
theorem Run.converts {values : List Value} (run : job.Run tasks before (.ok values) after) :
    Converts job.context before.world (tasks.map Prod.snd) values after.world := by
  generalize succeeded : (Except.ok values : Except Failure (List Value)) = answer at run
  induction run generalizing values with
  | done =>
      cases succeeded
      exact .done _
  | stopped => cases succeeded
  | passedOn => cases succeeded
  | @converted parameter use tasks before middle after value values converted rest ih =>
      cases succeeded
      have step := job.convertUse_step parameter use before
      rw [converted] at step
      rcases step.of_ok rfl with ⟨direct, _, rfl, same⟩ | ⟨conversion, called, performed⟩
      · cases same
        exact .asIs direct (ih rfl)
      · have answered := job.run_perform use.position conversion before
        rw [performed] at answered
        exact .convert called answered (ih rfl)

/-! ## Parts of a run -/

/-- A run that succeeds passes through the end of each initial part of its uses. -/
theorem Run.split {first second : List Task} {values : List Value}
    (run : job.Run (first ++ second) before (.ok values) after) :
    ∃ earlier later middle, job.Run first before (.ok earlier) middle ∧
      job.Run second middle (.ok later) after ∧ values = earlier ++ later := by
  induction first generalizing before values with
  | nil => exact ⟨[], values, before, .done before, run, rfl⟩
  | cons task first ih =>
      cases run with
      | converted converted rest =>
          obtain ⟨earlier, later, middle, ran, ranToo, rfl⟩ := ih rest
          exact ⟨_ :: earlier, later, middle, .converted converted ran, ranToo, rfl⟩

/-- A run that fails does so at one use, and has converted all those before it. -/
theorem Run.culprit {failure : Failure} (run : job.Run tasks before (.error failure) after) :
    ∃ done parameter use rest values middle, tasks = done ++ (parameter, use) :: rest ∧
      job.Run done before (.ok values) middle ∧
      job.convertUse parameter use middle = (.error failure, after) := by
  generalize failed : (Except.error failure : Except Failure (List Value)) = answer at run
  induction run with
  | done => cases failed
  | stopped stopped =>
      cases failed
      exact ⟨[], _, _, _, [], _, rfl, .done _, stopped⟩
  | passedOn converted _ ih =>
      obtain ⟨done, parameter, use, rest, values, middle, rfl, ran, stopped⟩ := ih failed
      exact ⟨_ :: done, parameter, use, rest, _ :: values, middle, rfl, .converted converted ran,
        stopped⟩
  | converted => cases failed

end Job

end OverloadResolution
