import OverloadResolution.Proofs.Lines
import OverloadResolution.Proofs.Observing
import OverloadResolution.Proofs.Readiness

/-!
# The lines of a trace

A trace has a line for each record exactly if no record has a break in its text.  What the texts are
put together from is all supplied from outside, but for a few words and numbers: the command's name,
the names in the texts of the overloads, the arguments that these used and the labels of their
readers, and the error of a conversion that failed (`Scope.Unbroken`).  The account of a resolution
quotes all of them, so it is told by lines exactly if none of them has a break
(`Scope.tracedByLines_verbose_iff`); for the other modes the condition is that of the records which
they show (`Scope.TracesByLines`, `Scope.resolve_tracesByLines`).  A keyword is never to blame,
since it has no blanks.

The error of a failed conversion is the answer of the last one that ran, unless an offer lacks its
conversion, and then it is the parameter that the remark names (`Job.Origin`).
-/

set_option autoImplicit false

namespace OverloadResolution

/-! ## Records about overloads -/

theorem Scope.singleLine_candidateRecord {scope : Scope} {call : Call} {overload : Overload}
    {position : Nat} :
    SingleLine (scope.candidateRecord call overload position).text ↔
      SingleLine call.callee ∧ SingleLine overload.render := by
  have verdict : SingleLine (scope.assess call overload).verdict.render := by
    cases (scope.assess call overload).verdict <;> decide
  have score : SingleLine (if (scope.assess call overload).verdict = .matched then
      ", score " ++ Assessment.scoreText (scope.assess call overload).score else "") := by
    split
    · exact singleLine_append.mpr ⟨by decide, Assessment.singleLine_scoreText _⟩
    · decide
  unfold candidateRecord Record.verbose
  simp +decide only [singleLine_append, Decimal.singleLine_text, verdict, score, and_true]

namespace Detail

/-- The parameter that there is something to tell of. -/
def parameter : Detail → Parameter
  | .used parameter _ => parameter
  | .skipped parameter => parameter

/-- A detail quotes its parameter, and if an argument was used then the argument and its fit. -/
theorem singleLine_record {callee : String} {detail : Detail} :
    SingleLine (detail.record callee).text ↔
      SingleLine callee ∧ SingleLine detail.parameter.render ∧
        ∀ use ∈ detail.use?,
          SingleLine use.argument.content.render ∧ SingleLine use.fit.render := by
  cases detail with
  | used parameter use =>
      simp +decide [record, Record.verbose, Detail.parameter, use?, and_assoc, and_left_comm]
  | skipped parameter => simp +decide [record, Record.verbose, Detail.parameter, use?]

end Detail

/-- Only parameters of the overload are on record. -/
theorem Scope.parameter_of_mem_bindings {scope : Scope} {call : Call} {overload : Overload}
    {binding : Binding} (recorded : binding ∈ (scope.assess call overload).bindings) :
    binding.parameter ∈ overload.parameters := by
  have listed := (scope.wellFormed_assess call overload).parameters.subset
    (List.mem_map_of_mem recorded)
  rwa [overload_assess] at listed

/-- What there is to tell of an overload is about its own parameters. -/
theorem Scope.parameter_of_mem_details {scope : Scope} {call : Call} {overload : Overload}
    {detail : Detail} (member : detail ∈ (scope.assess call overload).details) :
    detail.parameter ∈ overload.parameters := by
  obtain ⟨binding, recorded, told⟩ := List.mem_flatMap.mp member
  have own : detail.parameter = binding.parameter := by
    unfold Binding.details at told
    split at told
    · rw [List.mem_singleton.mp told, Detail.parameter]
    · obtain ⟨use, _, rfl⟩ := List.mem_map.mp told
      rfl
  rw [own]
  exact parameter_of_mem_bindings recorded

namespace Scope

/-- The texts that the account of an overload quotes have no breaks. -/
structure UnbrokenOverload (scope : Scope) (call : Call) (overload : Overload) : Prop where
  /-- No name in the text of the overload has one, -/
  names : ∀ name ∈ overload.names, SingleLine name
  /-- nor the token or the value of an argument that the overload used, -/
  arguments : ∀ use ∈ (scope.assess call overload).uses, SingleLine use.argument.content.render
  /-- nor the label of the reader that it would be read by. -/
  labels : ∀ use ∈ (scope.assess call overload).uses, ∀ reader,
    use.fit = .read (some reader) → SingleLine reader.label

/-- The texts that the account of a resolution quotes have no breaks. -/
structure Unbroken (scope : Scope) (call : Call) (overloads : List Overload)
    (resolution : Resolution) : Prop where
  /-- The command's name has none. -/
  callee : SingleLine call.callee
  /-- Nothing that is told of an overload has one. -/
  overloads : ∀ overload ∈ overloads, scope.UnbrokenOverload call overload
  /-- If a conversion is what the resolution fails for, its error has none. -/
  errors : ∀ failure, resolution.outcome = .error failure → failure.kind = .conversion →
    ∀ record ∈ resolution.performed, ∀ error, record.answer = .error error →
      SingleLine error.subject ∧ SingleLine error.message

variable {scope : Scope} {call : Call} {overload : Overload} {overloads : List Overload}

/-- A parameter shows no other names than its overload does. -/
theorem UnbrokenOverload.parameterNames (unbroken : scope.UnbrokenOverload call overload)
    {parameter : Parameter} (listed : parameter ∈ overload.parameters) :
    ∀ name ∈ parameter.names, SingleLine name := fun name shown =>
  unbroken.names name
    (List.mem_append_right _ (List.mem_flatMap.mpr ⟨parameter, listed, shown⟩))

theorem UnbrokenOverload.parameter (unbroken : scope.UnbrokenOverload call overload)
    {parameter : Parameter} (listed : parameter ∈ overload.parameters) :
    SingleLine parameter.render :=
  Parameter.singleLine_render.mpr (unbroken.parameterNames listed)

/-- The account of an overload quotes the names in its text, the arguments that it used and the
readers of these, and nothing else that could have a break. -/
theorem singleLine_account (clean : SingleLine call.callee) (overload : Overload) (position : Nat) :
    (∀ record ∈ scope.candidateRecord call overload position ::
        (scope.assess call overload).details.map (Detail.record call.callee),
        SingleLine record.text) ↔
      scope.UnbrokenOverload call overload := by
  rw [List.forall_mem_cons, List.forall_mem_map, singleLine_candidateRecord,
    Overload.singleLine_render]
  constructor
  · rintro ⟨⟨_, names⟩, details⟩
    have quoted (use : Use) (used : use ∈ (scope.assess call overload).uses) :
        SingleLine use.argument.content.render ∧ SingleLine use.fit.render := by
      rw [← Assessment.filterMap_use?_details] at used
      obtain ⟨detail, recorded, same⟩ := List.mem_filterMap.mp used
      exact (Detail.singleLine_record.mp (details detail recorded)).2.2 use same
    exact
      { names := names
        arguments := fun use used => (quoted use used).1
        labels := fun use used => Fit.singleLine_render.mp (quoted use used).2 }
  · intro unbroken
    refine ⟨⟨clean, unbroken.names⟩, fun detail recorded => ?_⟩
    refine Detail.singleLine_record.mpr
      ⟨clean, unbroken.parameter (parameter_of_mem_details recorded), fun use same => ?_⟩
    have used : use ∈ (scope.assess call overload).uses := by
      rw [← Assessment.filterMap_use?_details]
      exact List.mem_filterMap.mpr ⟨detail, recorded, same⟩
    exact ⟨unbroken.arguments use used, Fit.singleLine_render.mpr (unbroken.labels use used)⟩

theorem singleLine_candidateRecords (clean : SingleLine call.callee) :
    (∀ record ∈ scope.candidateRecords call overloads, SingleLine record.text) ↔
      ∀ overload ∈ overloads, scope.UnbrokenOverload call overload := by
  constructor
  · intro single overload listed
    obtain ⟨position, found⟩ := List.mem_iff_getElem?.mp listed
    refine (singleLine_account clean overload position).mp fun record told => ?_
    exact single record
      (List.mem_flatMap.mpr ⟨(overload, position), List.mem_zipIdx_iff_getElem?.mpr found, told⟩)
  · intro unbroken record member
    obtain ⟨⟨overload, position⟩, indexed, told⟩ := List.mem_flatMap.mp member
    have listed := List.mem_of_getElem? (List.mem_zipIdx_iff_getElem?.mp indexed)
    exact (singleLine_account clean overload position).mpr (unbroken overload listed) record told

end Scope

/-! ## The error that a conversion is rejected for -/

/-- The error that a conversion answered with, if it did. -/
def Performed.error? (record : Performed) : Option Diagnostic :=
  match record.answer with
  | .error error => some error
  | .ok _ => none

theorem Performed.error?_eq_some_iff {record : Performed} {error : Diagnostic} :
    record.error? = some error ↔ record.answer = .error error := by
  unfold error?
  split <;> simp_all

/-- The errors that conversions answered with, in order. -/
def Progress.errors (progress : Progress) : List Diagnostic :=
  progress.performed.filterMap Performed.error?

namespace Job

variable {job : Job} {parameter : Parameter} {use : Use} {tasks : List Task}
  {before after : Progress} {failure : Failure}

theorem errors_perform (job : Job) (position : Nat) (conversion : Conversion)
    (before : Progress) :
    (job.perform position conversion before).2.errors =
      match (job.perform position conversion before).1 with
      | .error error => before.errors ++ [error]
      | .ok _ => before.errors := by
  unfold Progress.errors perform
  dsimp only
  rw [List.filterMap_append]
  split <;> simp_all [Performed.error?]

/-- A turn that succeeds leaves no error behind. -/
theorem errors_of_ok {value : Value}
    (converted : job.convertUse parameter use before = (.ok value, after)) :
    after.errors = before.errors := by
  have step := job.convertUse_step parameter use before
  rw [converted] at step
  rcases step.of_ok rfl with ⟨_, _, _, rfl⟩ | ⟨conversion, _, performed⟩
  · rfl
  · have errors := job.errors_perform use.position conversion before
    rw [performed] at errors
    exact errors

/-- So does a run that succeeds. -/
theorem Run.errors {values : List Value} (run : job.Run tasks before (.ok values) after) :
    after.errors = before.errors := by
  generalize succeeded : (Except.ok values : Except Failure (List Value)) = answer at run
  induction run generalizing values with
  | done => rfl
  | stopped | passedOn => cases succeeded
  | converted converted _ ih => rw [ih rfl, errors_of_ok converted]

/-- Where the error comes from that an argument is rejected for, with what the conversions before
have answered: there was an obstacle and no conversion ran, or the last one answered with it. -/
inductive Origin (job : Job) (parameter : Parameter) (use : Use) (errors : List Diagnostic) :
    Diagnostic → List Diagnostic → Prop where
  | obstacle {obstacle : Obstacle} (planned : use.plan = .refuse obstacle) :
      Origin job parameter use errors (.error (job.label parameter) obstacle.message) errors
  | answer (error : Diagnostic) : Origin job parameter use errors error (errors ++ [error])

/-- A rejection that is not a cancellation is remarked on, and leaves the errors as they are. -/
theorem records_of_reject {argument : Argument} {error : Diagnostic}
    (rejected : job.reject parameter argument error before = (.error failure, after))
    (conversion : failure.kind = .conversion) :
    after.records = before.records ++
        [.verbose (job.call.callee ++ ":   conversion failed: " ++ error.headline)] ∧
      after.errors = before.errors := by
  obtain ⟨_, _, performed⟩ := eq_of_reject rejected conversion
  refine ⟨?_, congrArg (List.filterMap Performed.error?) performed⟩
  unfold reject at rejected
  split at rejected
  · cases rejected
    cases conversion
  · cases rejected
    rfl

theorem origin_of_convertUse
    (failed : job.convertUse parameter use before = (.error failure, after))
    (conversion : failure.kind = .conversion) :
    ∃ error, failure = job.conversionFailure parameter use.argument error ∧
      after.records = before.records ++
        [.verbose (job.call.callee ++ ":   conversion failed: " ++ error.headline)] ∧
      job.Origin parameter use before.errors error after.errors := by
  unfold convertUse at failed
  split at failed
  · cases failed
    cases conversion
  · cases planned : use.plan with
    | deliver value =>
        rw [planned] at failed
        cases failed
    | refuse obstacle =>
        rw [planned] at failed
        obtain ⟨rfl, _⟩ := eq_of_reject failed conversion
        obtain ⟨records, errors⟩ := records_of_reject failed conversion
        refine ⟨_, rfl, records, ?_⟩
        rw [errors]
        exact .obstacle planned
    | run code =>
        rw [planned] at failed
        have answered := job.errors_perform use.position code before
        have silent : (job.perform use.position code before).2.records = before.records := rfl
        cases performed : job.perform use.position code before with
        | mk answer middle =>
            dsimp only at failed
            rw [performed] at failed answered silent
            cases answer with
            | ok value => cases failed
            | error error =>
                obtain ⟨rfl, _⟩ := eq_of_reject failed conversion
                obtain ⟨records, errors⟩ := records_of_reject failed conversion
                refine ⟨error, rfl, ?_, ?_⟩
                · rw [records, silent]
                · rw [errors, answered]
                  exact .answer error

/-- **A conversion that fails makes one remark**, on the error that an argument is rejected for. -/
theorem origin_of_convert {assessment : Assessment} {world : World}
    (failed : (job.convert assessment world).1 = .error failure)
    (conversion : failure.kind = .conversion) :
    ∃ parameter use error, (parameter, use) ∈ Job.tasks assessment ∧
      failure = job.conversionFailure parameter use.argument error ∧
      (job.convert assessment world).2.records =
        [.verbose (job.call.callee ++ ":   conversion failed: " ++ error.headline)] ∧
      job.Origin parameter use [] error (job.convert assessment world).2.errors := by
  obtain ⟨done, parameter, use, rest, values, middle, parts, ran, stopped⟩ :=
    (convert_run_of_error failed).culprit
  obtain ⟨error, said, records, origin⟩ := origin_of_convertUse stopped conversion
  have silent : middle.records = [] := by
    obtain ⟨remarks, added, remarked⟩ := ran.remarks
    cases remarked
    exact added
  have spared : middle.errors = [] := ran.errors
  rw [silent, List.nil_append] at records
  rw [spared] at origin
  refine ⟨parameter, use, error, ?_, said, records, origin⟩
  rw [parts]
  simp

/-- A parameter is called by one of its names, or else by its text or the command's name. -/
theorem singleLine_label (job : Job) {parameter : Parameter}
    (clean : SingleLine job.call.callee) (names : ∀ name ∈ parameter.names, SingleLine name)
    (typed : ∀ name word, parameter ≠ .keyword name word) :
    SingleLine (job.label parameter) := by
  have text := Parameter.singleLine_render.mpr names
  unfold label
  split
  · next name named =>
      refine names name ?_
      cases parameter with
      | keyword other word => exact absurd rfl (typed other word)
      | positional | vararg =>
          cases named
          exact List.mem_cons_self
  · split
    · exact clean
    · exact text

end Job

/-! ## When each record has its line -/

/-- What is written for the trace is one marked line for each record. -/
def Resolution.TracedByLines (resolution : Resolution) : Prop :=
  MarkedLines resolution.trace.length (Record.lines resolution.trace)

theorem Resolution.tracedByLines_iff {resolution : Resolution} :
    resolution.TracedByLines ↔ ∀ record ∈ resolution.trace, SingleLine record.text :=
  Record.markedLines_iff resolution.trace

/-- An argument that has a token is shown as the token. -/
theorem Content.render_of_raw? {content : Content} {raw : String}
    (token : content.raw? = some raw) : content.render = raw := by
  cases content with
  | token => exact Option.some.inj token
  | carried value other =>
      cases token
      rfl

/-- Only a failed conversion is remarked on. -/
theorem Remarks.eq_nil {α : Type} {callee : String} {outcome : Except Failure α}
    {records : List Record} (remarks : Remarks callee outcome records)
    (otherwise : ∀ failure, outcome = .error failure → failure.kind ≠ .conversion) :
    records = [] := by
  cases remarks with
  | none => rfl
  | failed error kind => exact absurd kind (otherwise _ rfl)

theorem Summarises.singleLine_iff {scope : Scope} {call : Call}
    {outcome : Except Failure ResolvedCall} {last : Record}
    (summarises : Summarises scope call outcome last) :
    SingleLine last.text ↔ SingleLine call.callee ∧
      (∀ failure, outcome = .error failure → SingleLine failure.message) ∧
      ∀ resolved overload, outcome = .ok resolved → resolved.overload = some overload →
        ∀ name ∈ overload.names, SingleLine name := by
  cases summarises with
  | failed failure => simp +decide [Record.summary]
  | @resolved resolved overload chosen =>
      have text : SingleLine (call.callee ++ ": resolved to " ++ overload.render ++ " (score " ++
          Assessment.scoreText (scope.assess call overload).score ++ ")") ↔
            SingleLine call.callee ∧ ∀ name ∈ overload.names, SingleLine name := by
        simp +decide [Assessment.singleLine_scoreText, Overload.singleLine_render]
      refine text.trans (and_congr_right fun _ => ⟨fun names => ⟨?_, ?_⟩, fun both => ?_⟩)
      · intro failure other
        cases other
      · rintro _ other same chosenToo
        cases same
        cases chosen.symm.trans chosenToo
        exact names
      · exact both.2 resolved overload rfl chosen

namespace Scope

variable {scope : Scope} {folds : Bool} {token : Token} {call : Call} {overloads : List Overload}
  {overload : Overload} {world : World} {failure : Failure}

/-- A use with its parameter is of that overload, and fits as it should. -/
theorem of_mem_tasks {parameter : Parameter} {use : Use}
    (member : (parameter, use) ∈ Job.tasks (scope.assess call overload)) :
    parameter ∈ overload.parameters ∧ use ∈ (scope.assess call overload).uses ∧
      use.fit = scope.fit parameter use.argument := by
  obtain ⟨binding, recorded, paired⟩ := List.mem_flatMap.mp member
  obtain ⟨_, used, same⟩ := List.mem_map.mp paired
  cases same
  exact ⟨parameter_of_mem_bindings recorded, List.mem_flatMap.mpr ⟨binding, recorded, used⟩,
    (scope.wellFormed_assess call overload).fits binding recorded use used⟩

/-- An error for which an argument is rejected has no break if no conversion's error has one: of the
obstacles only the lack of a conversion is met, and no keyword meets it. -/
theorem UnbrokenOverload.rejected {job : Job} {parameter : Parameter} {use : Use}
    {error : Diagnostic} {errors : List Diagnostic}
    (unbroken : scope.UnbrokenOverload call overload) (matched : scope.Viable call overload)
    (clean : SingleLine job.call.callee)
    (member : (parameter, use) ∈ Job.tasks (scope.assess call overload))
    (origin : job.Origin parameter use [] error errors)
    (answers : ∀ error ∈ errors, SingleLine error.subject ∧ SingleLine error.message) :
    SingleLine error.subject ∧ SingleLine error.message := by
  obtain ⟨listed, used, fit⟩ := of_mem_tasks member
  cases origin with
  | answer => exact answers error List.mem_cons_self
  | @obstacle obstacle planned =>
      obtain ⟨_, index, offer, through, _⟩ :=
        ((matched.ready use used).refuses_iff obstacle).mp planned
      have said : SingleLine obstacle.message := by
        cases obstacle <;> decide +kernel
      refine ⟨job.singleLine_label clean (unbroken.parameterNames listed) ?_, said⟩
      -- the name of a keyword is not in its text, but a keyword does not go through an offer
      rintro name word rfl
      rw [fit, Scope.fit] at through
      split at through <;> cases through

/-- What a failed conversion says, and remarks on, has no break if nothing that it quotes has. -/
theorem Unbroken.explained {resolution : Resolution} {considered : Nat}
    (unbroken : scope.Unbroken call overloads resolution) (member : overload ∈ overloads)
    (matched : scope.Viable call overload)
    (answers : ∀ error ∈ (Job.convert ⟨call, considered, token⟩ (scope.assess call overload)
      world).2.errors, SingleLine error.subject ∧ SingleLine error.message)
    (failed : (Job.convert ⟨call, considered, token⟩ (scope.assess call overload) world).1 =
      .error failure)
    (conversion : failure.kind = .conversion) :
    SingleLine failure.message ∧
      ∀ record ∈ (Job.convert ⟨call, considered, token⟩ (scope.assess call overload)
        world).2.records, SingleLine record.text := by
  obtain ⟨parameter, use, error, task, rfl, records, origin⟩ :=
    Job.origin_of_convert failed conversion
  obtain ⟨listed, used, _⟩ := of_mem_tasks task
  have told := unbroken.overloads overload member
  have said := told.rejected matched unbroken.callee task origin answers
  constructor
  · have quoted : ∀ raw ∈ use.argument.content.raw?, SingleLine raw := by
      intro raw token
      rw [← Content.render_of_raw? token]
      exact told.arguments use used
    have shown : ∀ shown ∈ some parameter, SingleLine shown.render := by
      rintro _ ⟨⟩
      exact told.parameter listed
    exact Failure.singleLine_message.mpr
      ⟨fun other => (nomatch other), fun _ => ⟨quoted, shown, said.2⟩⟩
  · rw [records, List.forall_mem_singleton]
    exact singleLine_append.mpr ⟨singleLine_append.mpr ⟨unbroken.callee, by decide +kernel⟩,
      Diagnostic.singleLine_headline.mpr said⟩

/-- A failure before any conversion is told by lines exactly if nothing that it quotes has a
break. -/
theorem unbroken_iff_of_failed (callee : failure.callee = call.callee)
    (kind : failure.kind ≠ .conversion)
    (listed : ∀ candidate ∈ failure.candidates, candidate ∈ overloads) :
    (failed ⟨.verbose, folds⟩ (scope.candidateRecords call overloads) world
        failure).TracedByLines ↔
      scope.Unbroken call overloads
        (failed ⟨.verbose, folds⟩ (scope.candidateRecords call overloads) world failure) := by
  have trace : (failed ⟨.verbose, folds⟩ (scope.candidateRecords call overloads) world
      failure).trace = scope.candidateRecords call overloads ++ [failureRecord failure] := by
    rw [failed, Record.admitted_append, Record.admitted_verbose_eq_self fun record =>
      scope.level_of_mem_candidateRecords call overloads]
    rfl
  have last : SingleLine (failureRecord failure).text ↔
      SingleLine call.callee ∧ SingleLine failure.message := by
    simp +decide [failureRecord, Record.summary, callee]
  rw [Resolution.tracedByLines_iff, trace, List.forall_mem_append, List.forall_mem_singleton, last]
  constructor
  · rintro ⟨front, clean, _⟩
    refine ⟨clean, (singleLine_candidateRecords clean).mp front, fun other outcome conversion => ?_⟩
    cases outcome
    exact absurd conversion kind
  · intro unbroken
    refine ⟨(singleLine_candidateRecords unbroken.callee).mpr unbroken.overloads,
      unbroken.callee, Failure.singleLine_message.mpr ⟨fun _ candidate member => ?_, ?_⟩⟩
    · have told := unbroken.overloads candidate (listed candidate member)
      exact Overload.singleLine_render.mpr told.names
    · exact fun conversion => absurd conversion kind

/-- A conversion that is told by lines quotes nothing that has a break. -/
theorem unbroken_of_converted {considered position : Nat}
    (traced : (converted ⟨.verbose, folds⟩ (scope.candidateRecords call overloads)
      ⟨call, considered, token⟩ position (scope.assess call overload) world).TracedByLines) :
    scope.Unbroken call overloads (converted ⟨.verbose, folds⟩
      (scope.candidateRecords call overloads) ⟨call, considered, token⟩ position
      (scope.assess call overload) world) := by
  obtain ⟨last, trace, summed⟩ := @exists_trace_converted scope folds token call overloads world
    considered position overload
  rw [Resolution.tracedByLines_iff, trace, List.forall_mem_append, List.forall_mem_append,
    List.forall_mem_singleton, summed.singleLine_iff] at traced
  obtain ⟨⟨front, remarked⟩, clean, _⟩ := traced
  refine ⟨clean, (singleLine_candidateRecords clean).mp front, ?_⟩
  intro failure outcome conversion record performed error answered
  obtain ⟨_, _, rejected, _, _, records, origin⟩ := Job.origin_of_convert outcome conversion
  have listed : error ∈ (Job.convert ⟨call, considered, token⟩ (scope.assess call overload)
      world).2.errors :=
    List.mem_filterMap.mpr ⟨record, performed, Performed.error?_eq_some_iff.mpr answered⟩
  rw [records, List.forall_mem_singleton] at remarked
  generalize (Job.convert ⟨call, considered, token⟩ (scope.assess call overload)
    world).2.errors = errors at origin listed
  cases origin with
  | obstacle => cases listed
  | answer =>
      cases List.mem_singleton.mp listed
      exact Diagnostic.singleLine_headline.mp (singleLine_append.mp remarked).2

/-- A conversion that quotes nothing with a break is told by lines. -/
theorem tracedByLines_of_converted {considered position : Nat} (member : overload ∈ overloads)
    (matched : scope.Viable call overload)
    (unbroken : scope.Unbroken call overloads (converted ⟨.verbose, folds⟩
      (scope.candidateRecords call overloads) ⟨call, considered, token⟩ position
      (scope.assess call overload) world)) :
    (converted ⟨.verbose, folds⟩ (scope.candidateRecords call overloads)
      ⟨call, considered, token⟩ position (scope.assess call overload) world).TracedByLines := by
  obtain ⟨last, trace, summed⟩ := @exists_trace_converted scope folds token call overloads world
    considered position overload
  have explained (failure : Failure)
      (outcome : (Job.convert ⟨call, considered, token⟩ (scope.assess call overload) world).1 =
        .error failure)
      (conversion : failure.kind = .conversion) := by
    refine unbroken.explained member matched (fun error listed => ?_) outcome conversion
    obtain ⟨record, performed, erred⟩ := List.mem_filterMap.mp listed
    exact unbroken.errors failure outcome conversion record performed error
      (Performed.error?_eq_some_iff.mp erred)
  rw [Resolution.tracedByLines_iff, trace, List.forall_mem_append, List.forall_mem_append,
    List.forall_mem_singleton, summed.singleLine_iff]
  refine ⟨⟨(singleLine_candidateRecords unbroken.callee).mpr unbroken.overloads, ?remarks⟩,
    unbroken.callee, fun failure outcome => ?message, fun resolved other outcome chosen => ?names⟩
  case remarks =>
    by_cases rejected : ∃ failure, (Job.convert ⟨call, considered, token⟩
        (scope.assess call overload) world).1 = .error failure ∧ failure.kind = .conversion
    · obtain ⟨failure, outcome, conversion⟩ := rejected
      exact (explained failure outcome conversion).2
    · have remarks := Job.convert_remarks ⟨call, considered, token⟩ (scope.assess call overload)
        world
      rw [remarks.eq_nil fun failure outcome conversion => rejected ⟨failure, outcome, conversion⟩]
      exact List.forall_mem_nil _
  case message =>
    rcases (Job.convert_reports outcome).kind with cancelled | conversion
    · rw [Failure.singleLine_message, cancelled]
      exact ⟨fun other => (nomatch other), fun other => (nomatch other)⟩
    · exact (explained failure outcome conversion).1
  case names =>
    have own := Job.convert_overload outcome
    rw [overload_assess] at own
    cases own.symm.trans chosen
    exact (unbroken.overloads overload member).names

/-- **The account of a call that is not cancelled at once is told by lines exactly if nothing that
it quotes has a break.** -/
theorem tracedByLines_verbose_iff (running : world.isRequested token = false) :
    (scope.resolve ⟨.verbose, folds⟩ token call overloads world).TracedByLines ↔
      scope.Unbroken call overloads
        (scope.resolve ⟨.verbose, folds⟩ token call overloads world) := by
  have course := scope.resolve_course ⟨.verbose, folds⟩ token call overloads world
  generalize scope.resolve ⟨.verbose, folds⟩ token call overloads world = resolution at course ⊢
  cases course with
  | cancelled requested => cases running.symm.trans requested
  | converted _ found sole =>
      rw [assessmentRecords_eq]
      exact ⟨unbroken_of_converted,
        tracedByLines_of_converted (List.mem_of_getElem? found) (sole.viable found)⟩
  | tied =>
      rw [assessmentRecords_eq]
      exact unbroken_iff_of_failed rfl FailureKind.noConfusion fun candidate member =>
        List.mem_of_mem_filter member
  | refused | unmatched =>
      rw [assessmentRecords_eq]
      exact unbroken_iff_of_failed rfl FailureKind.noConfusion (List.forall_mem_nil _)

/-- When a resolution writes one marked line for each of its records. -/
structure TracesByLines (scope : Scope) (folds : Bool) (token : Token) (call : Call)
    (overloads : List Overload) (world : World) : Prop where
  /-- In each mode it is so exactly if no text of a record has a break. -/
  texts : ∀ mode, (scope.resolve ⟨mode, folds⟩ token call overloads world).TracedByLines ↔
    ∀ record ∈ (scope.resolve ⟨mode, folds⟩ token call overloads world).trace,
      SingleLine record.text
  /-- Nothing that is written in the mode that traces nothing could be broken. -/
  off : (scope.resolve ⟨.off, folds⟩ token call overloads world).TracedByLines
  /-- The summary is one line exactly if neither the command's name has a break nor what is said of
  the outcome: the message of a failure, or the overload of a success. -/
  summary : (scope.resolve ⟨.summary, folds⟩ token call overloads world).TracedByLines ↔
    SingleLine call.callee ∧
      (∀ failure, (scope.resolve ⟨.summary, folds⟩ token call overloads world).outcome =
        .error failure → SingleLine failure.message) ∧
      ∀ resolved overload, (scope.resolve ⟨.summary, folds⟩ token call overloads world).outcome =
        .ok resolved → resolved.overload = some overload →
          ∀ name ∈ overload.names, SingleLine name
  /-- The account of a call that is cancelled at once names nothing but the command. -/
  cancelled : world.isRequested token = true →
    ((scope.resolve ⟨.verbose, folds⟩ token call overloads world).TracedByLines ↔
      SingleLine call.callee)
  /-- Any other account is told by lines exactly if nothing that it quotes has a break. -/
  verbose : world.isRequested token = false →
    ((scope.resolve ⟨.verbose, folds⟩ token call overloads world).TracedByLines ↔
      scope.Unbroken call overloads
        (scope.resolve ⟨.verbose, folds⟩ token call overloads world))
  /-- If the whole account is, so is what any other mode shows. -/
  others : (scope.resolve ⟨.verbose, folds⟩ token call overloads world).TracedByLines →
    ∀ mode, (scope.resolve ⟨mode, folds⟩ token call overloads world).TracedByLines

/-- **A trace has a line for each record exactly if no text that it quotes has a break.** -/
theorem resolve_tracesByLines (scope : Scope) (folds : Bool) (token : Token) (call : Call)
    (overloads : List Overload) (world : World) :
    scope.TracesByLines folds token call overloads world := by
  obtain ⟨front, remarks, last, tells⟩ := scope.resolve_tells folds token call overloads world
  refine
    { texts := fun mode => Resolution.tracedByLines_iff
      off := ?off
      summary := ?summary
      cancelled := fun requested => ?cancelled
      verbose := tracedByLines_verbose_iff
      others := fun whole mode => ?others }
  case off =>
    rw [Resolution.tracedByLines_iff, tells.off]
    exact List.forall_mem_nil _
  case summary =>
    rw [Resolution.tracedByLines_iff, tells.summary, List.forall_mem_singleton]
    exact (tells.last .summary).singleLine_iff
  case cancelled =>
    obtain ⟨rfl, rfl⟩ := tells.cancelled requested
    have summed := tells.last .verbose
    rw [resolve_of_requested scope _ call overloads requested] at summed
    rw [Resolution.tracedByLines_iff, tells.verbose, List.append_nil, List.nil_append,
      List.forall_mem_singleton, summed.singleLine_iff]
    refine and_iff_left ⟨?_, ?_⟩
    · rintro failure ⟨⟩
      have said : SingleLine "resolution cancelled" := by decide
      exact said
    · rintro resolved overload ⟨⟩
  case others =>
    rw [Resolution.tracedByLines_iff] at whole ⊢
    intro record member
    rw [resolve_trace_eq_admitted] at member
    exact whole record (List.mem_of_mem_filter member)

/-- A token with a break in it takes two lines. -/
theorem broken_token_takes_two_lines :
    ¬ (resolve ⟨.initial, none⟩ ⟨.verbose, false⟩ .never (echoing [.ofToken "a\nb"]) [echo]
      .initial).TracedByLines := by
  intro traced
  have unbroken := (tracedByLines_verbose_iff rfl).mp traced
  have told := unbroken.overloads echo List.mem_cons_self
  have uses : (assess ⟨.initial, none⟩ (echoing [.ofToken "a\nb"]) echo).uses =
      [⟨0, .ofToken "a\nb", .asIs⟩] := by
    with_unfolding_all rfl
  have quoted := told.arguments ⟨0, .ofToken "a\nb", .asIs⟩ (by simp [uses])
  exact absurd quoted (by decide)

end Scope

end OverloadResolution
