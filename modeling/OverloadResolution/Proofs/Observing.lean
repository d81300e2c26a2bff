import OverloadResolution.Proofs.Independence
import OverloadResolution.Proofs.Stability
import OverloadResolution.Proofs.Tracing

/-!
# What the settings decide

The settings of a resolution are for those who look on.  Under any two of them the same conversions
run, in the same order and in the same worlds, and the outcome is the same, except that a call which
all overloads refuse for its caller may be folded into one that nothing matches
(`Scope.ObservesOnly`, `Scope.resolve_observesOnly`).

What the modes show is taken from one account.  It tells of every overload, and then of every
argument that the overload used and every parameter that it skipped (`Assessment.details`); a
conversion that failed adds a remark; and the last record sums the resolution up.  The most detailed
mode shows the whole account, so what any other mode shows is a selection from it
(`Scope.resolve_trace_eq_admitted`), and since nothing but the last record is made for the summary,
that is what the summary consists of (`Scope.resolve_tells`).
-/

set_option autoImplicit false

namespace OverloadResolution

/-! ## Modes and records -/

namespace Record

/-- The most detailed mode leaves out nothing that any other mode shows. -/
theorem admitted_admitted_verbose (mode : TraceMode) (records : List Record) :
    admitted mode (admitted .verbose records) = admitted mode records := by
  simp only [admitted, List.filter_filter]
  refine List.filter_congr fun record _ => ?_
  rcases record with ⟨level, text⟩
  cases mode <;> cases level <;> rfl

theorem admitted_append (mode : TraceMode) (first second : List Record) :
    admitted mode (first ++ second) = admitted mode first ++ admitted mode second :=
  List.filter_append first second

theorem admitted_verbose_eq_self {records : List Record}
    (detailed : ∀ record ∈ records, record.level = .verbose) :
    admitted .verbose records = records := by
  refine List.filter_eq_self.mpr fun record member => ?_
  rw [detailed record member]
  rfl

theorem admitted_summary_eq_nil {records : List Record}
    (detailed : ∀ record ∈ records, record.level = .verbose) :
    admitted .summary records = [] := by
  refine List.filter_eq_nil_iff.mpr fun record member => ?_
  rw [detailed record member]
  decide

end Record

/-! ## What is told of an overload -/

/-- What there is to tell of a parameter: an argument that it used, or that it was skipped. -/
inductive Detail where
  | used (parameter : Parameter) (use : Use)
  | skipped (parameter : Parameter)

namespace Detail

/-- The use, if an argument was used. -/
def use? : Detail → Option Use
  | .used _ use => some use
  | .skipped _ => none

/-- The parameter, if it was skipped. -/
def skipped? : Detail → Option Parameter
  | .used _ _ => none
  | .skipped parameter => some parameter

/-- The record of a detail. -/
def record (callee : String) : Detail → Record
  | .used parameter use =>
    .verbose (callee ++ ":   '" ++ use.argument.content.render ++ "' -> " ++ parameter.render ++
      " via " ++ use.fit.render)
  | .skipped parameter => .verbose (callee ++ ":   " ++ parameter.render ++ " skipped")

theorem level_record (callee : String) (detail : Detail) :
    (detail.record callee).level = .verbose := by
  cases detail <;> rfl

end Detail

/-- Whether the parameter was skipped. -/
def Binding.isSkipped (binding : Binding) : Bool :=
  match binding.share with
  | .skipped => true
  | _ => false

/-- What there is to tell of a binding. -/
def Binding.details (binding : Binding) : List Detail :=
  if binding.isSkipped then [.skipped binding.parameter]
  else binding.uses.map (Detail.used binding.parameter)

namespace Assessment

/-- What there is to tell of an assessment, in the order of the parameters. -/
def details (assessment : Assessment) : List Detail :=
  assessment.bindings.flatMap Binding.details

/-- **One detail for each use**, in the order of the arguments. -/
theorem filterMap_use?_details (assessment : Assessment) :
    assessment.details.filterMap Detail.use? = assessment.uses := by
  rw [details, uses, List.filterMap_flatMap]
  congr 1
  funext binding
  rcases binding with ⟨parameter, _ | uses | _ | _⟩
  case many =>
    simp only [Binding.details, Binding.isSkipped, Binding.uses, Share.uses, Bool.false_eq_true,
      if_false, List.filterMap_map]
    exact List.filterMap_some
  all_goals rfl

/-- **One detail for each skipped parameter**, in the order of the parameters. -/
theorem filterMap_skipped?_details (assessment : Assessment) :
    assessment.details.filterMap Detail.skipped? =
      (assessment.bindings.filter Binding.isSkipped).map Binding.parameter := by
  rw [details]
  induction assessment.bindings with
  | nil => rfl
  | cons binding bindings ih =>
      rw [List.flatMap_cons, List.filterMap_append, ih]
      rcases binding with ⟨parameter, _ | uses | _ | _⟩
      case many =>
        have unskipped : (uses.map (Detail.used parameter)).filterMap Detail.skipped? = [] := by
          simp [Detail.skipped?]
        exact congrArg (· ++ _) unskipped
      all_goals rfl

/-- The records of an assessment tell of the overload, and then of its details one by one. -/
theorem records_eq (callee : String) (position : Nat) (assessment : Assessment) :
    assessment.records callee position =
      headRecord callee position assessment ::
        assessment.details.map (Detail.record callee) := by
  rw [records, details, List.map_flatMap]
  congr 2
  funext binding
  rcases binding with ⟨parameter, _ | uses | _ | _⟩
  case many =>
    simp only [bindingRecords, Binding.details, Binding.isSkipped, Binding.uses, Share.uses,
      Bool.false_eq_true, if_false, List.map_map]
    rfl
  all_goals rfl

theorem level_of_mem_records {callee : String} {position : Nat} {assessment : Assessment}
    {record : Record} (member : record ∈ assessment.records callee position) :
    record.level = .verbose := by
  rw [records_eq] at member
  rcases List.mem_cons.mp member with rfl | member
  · rfl
  · obtain ⟨detail, _, rfl⟩ := List.mem_map.mp member
    exact detail.level_record callee

end Assessment

/-! ## What is told of a conversion -/

/-- The remark on an outcome: one that a conversion failed, with what its error says, and none on
any other outcome. -/
inductive Remarks (callee : String) {α : Type} : Except Failure α → List Record → Prop where
  | none {outcome : Except Failure α}
      (otherwise : ∀ failure, outcome = .error failure → failure.kind ≠ .conversion) :
      Remarks callee outcome []
  | failed {failure : Failure} (error : Diagnostic) (kind : failure.kind = .conversion)
      (reason : failure.reason = error.message) :
      Remarks callee (.error failure)
        [.verbose (callee ++ ":   conversion failed: " ++ error.headline)]

namespace Remarks

variable {α β : Type} {callee : String} {records : List Record}

theorem of_ok (answer : α) : Remarks callee (Except.ok answer) [] :=
  .none fun _ failed => nomatch failed

theorem of_kind {failure : Failure} (kind : failure.kind ≠ .conversion) :
    Remarks callee (Except.error failure : Except Failure α) [] := by
  refine .none fun other failed => ?_
  cases failed
  exact kind

/-- What is remarked on a failure does not depend on what a success would have been. -/
theorem of_error {failure : Failure}
    (remarks : Remarks callee (Except.error failure : Except Failure α) records) :
    Remarks callee (Except.error failure : Except Failure β) records := by
  cases remarks with
  | none otherwise => exact .of_kind (otherwise failure rfl)
  | failed error kind reason => exact .failed error kind reason

theorem level_of_mem {outcome : Except Failure α} (remarks : Remarks callee outcome records)
    {record : Record} (member : record ∈ records) : record.level = .verbose := by
  cases remarks with
  | none => cases member
  | failed =>
      cases List.mem_singleton.mp member
      rfl

end Remarks

namespace Job

variable {job : Job} {tasks : List Task} {before after : Progress}

/-- Rejecting an argument is remarked on, unless the job is cancelled. -/
theorem reject_remarks (job : Job) (parameter : Parameter) (argument : Argument)
    (error : Diagnostic) (progress : Progress) :
    ∃ remarks, (job.reject parameter argument error progress).2.records =
        progress.records ++ remarks ∧
      Remarks job.call.callee (job.reject parameter argument error progress).1 remarks := by
  unfold reject
  split
  · exact ⟨[], (List.append_nil _).symm, .of_kind FailureKind.noConfusion⟩
  · exact ⟨_, rfl, .failed error rfl rfl⟩

/-- A turn of the loop adds the remark on what it comes to. -/
theorem convertUse_remarks (job : Job) (parameter : Parameter) (use : Use) (before : Progress) :
    ∃ remarks, (job.convertUse parameter use before).2.records = before.records ++ remarks ∧
      Remarks job.call.callee (job.convertUse parameter use before).1 remarks := by
  have step := job.convertUse_step parameter use before
  generalize job.convertUse parameter use before = result at step ⊢
  cases step with
  | cancelled => exact ⟨[], (List.append_nil _).symm, .of_kind FailureKind.noConfusion⟩
  | delivered | converted => exact ⟨[], (List.append_nil _).symm, .of_ok _⟩
  | refused _ _ error => exact job.reject_remarks parameter use.argument error before
  | failed => exact job.reject_remarks parameter use.argument _ _

/-- A turn that succeeds adds no record. -/
theorem records_of_ok {parameter : Parameter} {use : Use} {value : Value}
    (converted : job.convertUse parameter use before = (.ok value, after)) :
    after.records = before.records := by
  obtain ⟨remarks, added, remarked⟩ := job.convertUse_remarks parameter use before
  rw [converted] at added remarked
  cases remarked
  rw [added, List.append_nil]

/-- So does the whole loop, since only its last turn can fail. -/
theorem Run.remarks {answer : Except Failure (List Value)}
    (run : job.Run tasks before answer after) :
    ∃ remarks, after.records = before.records ++ remarks ∧
      Remarks job.call.callee answer remarks := by
  induction run with
  | done => exact ⟨[], (List.append_nil _).symm, .of_ok _⟩
  | @stopped parameter use _ before after failure failed =>
      obtain ⟨remarks, added, remarked⟩ := job.convertUse_remarks parameter use before
      rw [failed] at added remarked
      exact ⟨remarks, added, remarked.of_error⟩
  | passedOn converted _ ih =>
      rw [records_of_ok converted] at ih
      exact ih
  | converted converted _ ih =>
      rw [records_of_ok converted] at ih
      obtain ⟨remarks, added, remarked⟩ := ih
      cases remarked
      exact ⟨[], added, .of_ok _⟩

/-- What the conversion of an overload's arguments has to tell is the remark on its outcome. -/
theorem convert_remarks (job : Job) (assessment : Assessment) (world : World) :
    Remarks job.call.callee (job.convert assessment world).1
      (job.convert assessment world).2.records := by
  rcases job.convert_run assessment world with ⟨failure, outcome, run⟩ | ⟨values, outcome, run⟩
  · obtain ⟨remarks, added, remarked⟩ := run.remarks
    rw [outcome, added]
    exact remarked.of_error
  · obtain ⟨remarks, added, remarked⟩ := run.remarks
    rw [outcome, added]
    cases remarked
    exact .of_ok _

end Job

/-! ## What is told of a resolution -/

/-- The record that sums a resolution up: it says why there is a failure, or which overload a
success is for, and with what score. -/
inductive Summarises (scope : Scope) (call : Call) : Except Failure ResolvedCall → Record → Prop where
  | failed (failure : Failure) :
      Summarises scope call (.error failure)
        (.summary (call.callee ++ ": failed: " ++ failure.message))
  | resolved {resolved : ResolvedCall} {overload : Overload}
      (chosen : resolved.overload = some overload) :
      Summarises scope call (.ok resolved)
        (.summary (call.callee ++ ": resolved to " ++ overload.render ++ " (score " ++
          Assessment.scoreText (scope.assess call overload).score ++ ")"))

theorem Summarises.level {scope : Scope} {call : Call} {outcome : Except Failure ResolvedCall}
    {last : Record} (summarises : Summarises scope call outcome last) : last.level = .summary := by
  cases summarises <;> rfl

namespace Scope

variable (scope : Scope) (folds : Bool) (token : Token) (call : Call) (overloads : List Overload)
  (world : World)

/-- The record of how an overload fared: its number in the list and its text, what came of holding it
against the call, and its score if it matches. -/
def candidateRecord (overload : Overload) (position : Nat) : Record :=
  .verbose (call.callee ++ ": candidate #" ++ Decimal.text position ++ " " ++ overload.render ++
    " -> " ++ (scope.assess call overload).verdict.render ++
    if (scope.assess call overload).verdict = .matched then
      ", score " ++ Assessment.scoreText (scope.assess call overload).score
    else "")

/-- An assessment says how its overload fared.  Only a match is in play, so it does not matter that
the score is left out for what is not. -/
theorem headRecord_assess (overload : Overload) (position : Nat) :
    Assessment.headRecord call.callee position (scope.assess call overload) =
      scope.candidateRecord call overload position := by
  have unplayed := scope.isDisqualified_assess_iff call overload
  unfold Assessment.headRecord candidateRecord
  rw [overload_assess]
  by_cases matched : (scope.assess call overload).verdict = .matched
  · have inPlay := mt unplayed.mp (not_not.mpr matched)
    rw [if_pos matched, if_neg inPlay]
  · rw [if_neg matched, if_pos (unplayed.mpr matched)]

/-- The account of all overloads: for each of them, in the order of the list, a record of how it
fared and then one for each of its details. -/
def candidateRecords : List Record :=
  overloads.zipIdx.flatMap fun (overload, position) =>
    scope.candidateRecord call overload position ::
      (scope.assess call overload).details.map (Detail.record call.callee)

theorem assessmentRecords_eq :
    scope.assessmentRecords call overloads = scope.candidateRecords call overloads := by
  simp only [assessmentRecords, candidateRecords, assessAll, List.zipIdx_map, List.flatMap_map,
    Assessment.records_eq]
  congr 1
  funext place
  exact congrArg (· :: _) (scope.headRecord_assess call place.1 place.2)

theorem level_of_mem_candidateRecords {record : Record}
    (member : record ∈ scope.candidateRecords call overloads) : record.level = .verbose := by
  rw [← assessmentRecords_eq] at member
  obtain ⟨_, _, member⟩ := List.mem_flatMap.mp member
  exact Assessment.level_of_mem_records member

/-- **Every mode shows a selection from what the most detailed mode shows.** -/
theorem resolve_trace_eq_admitted (mode : TraceMode) :
    (scope.resolve ⟨mode, folds⟩ token call overloads world).trace =
      Record.admitted mode (scope.resolve ⟨.verbose, folds⟩ token call overloads world).trace := by
  unfold resolve
  dsimp only
  split
  · exact (Record.admitted_admitted_verbose mode _).symm
  · split
    · exact (Record.admitted_admitted_verbose mode _).symm
    · exact (Record.admitted_admitted_verbose mode _).symm
    · split <;> exact (Record.admitted_admitted_verbose mode _).symm

/-! ## Two settings of one resolution -/

variable {scope folds token call overloads world}

/-- Settings that fold alike come to the same. -/
theorem resolve_agrees {settings other : Settings}
    (alike : settings.foldsReceiver = other.foldsReceiver) :
    (scope.resolve settings token call overloads world).Agrees
      (scope.resolve other token call overloads world) := by
  obtain ⟨mode, folds⟩ := settings
  obtain ⟨otherMode, _⟩ := other
  cases alike
  rw [scope.resolve_eq_withTrace folds token call overloads world mode otherMode]
  exact ⟨rfl, rfl, rfl, rfl⟩

/-- A call that is refused for its caller is folded into one that nothing matches, and no other
call comes to anything else. -/
theorem resolve_folds {settings other : Settings} (folded : other.foldsReceiver = true) :
    (¬ (scope.resolve settings token call overloads world).FailsWith .receiver ∧
      (scope.resolve other token call overloads world).Agrees
        (scope.resolve settings token call overloads world)) ∨
    ∃ failure, (scope.resolve settings token call overloads world).outcome = .error failure ∧
      failure.kind = .receiver ∧ settings.foldsReceiver = false ∧
      (scope.resolve other token call overloads world).Agrees
        { scope.resolve settings token call overloads world with
          outcome := .error { failure with kind := .noMatch } } := by
  have unmatched : scope.mismatch other call overloads = .noMatch := by simp [mismatch, folded]
  have course := scope.resolve_course settings token call overloads world
  generalize scope.resolve settings token call overloads world = resolution at course ⊢
  cases course with
  | cancelled requested =>
      rw [scope.resolve_of_requested other call overloads requested]
      refine .inl ⟨fun fails => ?_, rfl, rfl, rfl, rfl⟩
      cases failsWith_failed_iff.mp fails
  | converted running found sole =>
      rw [resolve_of_soleLeader other running found sole]
      exact .inl ⟨not_failsWith_converted (by decide) (by decide), rfl, rfl, rfl, rfl⟩
  | tied running distinct leads leadsToo =>
      rw [resolve_of_leadsAt other running distinct leads leadsToo]
      refine .inl ⟨fun fails => ?_, rfl, rfl, rfl, rfl⟩
      cases failsWith_failed_iff.mp fails
  | refused running nonviable refuses =>
      rw [resolve_of_nonviable running nonviable, unmatched]
      exact .inr ⟨_, rfl, rfl, refuses.2, rfl, rfl, rfl, rfl⟩
  | unmatched running nonviable otherwise =>
      rw [resolve_of_nonviable running nonviable, unmatched]
      refine .inl ⟨fun fails => ?_, rfl, rfl, rfl, rfl⟩
      cases failsWith_failed_iff.mp fails

/-! ## What each mode shows -/

/-- What a resolution tells in each mode: of the overloads, of the conversion of arguments, and of
the resolution as a whole. -/
structure Tells (scope : Scope) (folds : Bool) (token : Token) (call : Call)
    (overloads : List Overload) (world : World) (front remarks : List Record) (last : Record) :
    Prop where
  /-- Nothing is shown in the mode that traces nothing. -/
  off : (scope.resolve ⟨.off, folds⟩ token call overloads world).trace = []
  /-- The summary is one record. -/
  summary : (scope.resolve ⟨.summary, folds⟩ token call overloads world).trace = [last]
  /-- The most detailed mode shows the account of the overloads, a remark on the conversion if there
  is one to make, and then the same record. -/
  verbose : (scope.resolve ⟨.verbose, folds⟩ token call overloads world).trace =
    front ++ remarks ++ [last]
  /-- A call that is cancelled at once has nothing but the last record to show. -/
  cancelled : world.isRequested token = true → front = [] ∧ remarks = []
  /-- Any other has the account of all overloads. -/
  front : world.isRequested token = false → front = scope.candidateRecords call overloads
  remarks : ∀ mode, Remarks call.callee
    (scope.resolve ⟨mode, folds⟩ token call overloads world).outcome remarks
  last : ∀ mode, Summarises scope call
    (scope.resolve ⟨mode, folds⟩ token call overloads world).outcome last

/-- The most detailed trace says what is shown in the other modes. -/
theorem Tells.of_verbose {front remarks : List Record} {last : Record}
    (verbose : (scope.resolve ⟨.verbose, folds⟩ token call overloads world).trace =
      front ++ remarks ++ [last])
    (cancelled : world.isRequested token = true → front = [] ∧ remarks = [])
    (complete : world.isRequested token = false → front = scope.candidateRecords call overloads)
    (remarked : Remarks call.callee
      (scope.resolve ⟨.verbose, folds⟩ token call overloads world).outcome remarks)
    (summed : Summarises scope call
      (scope.resolve ⟨.verbose, folds⟩ token call overloads world).outcome last) :
    Tells scope folds token call overloads world front remarks last where
  off := scope.resolve_trace_off folds token call overloads world
  summary := by
    have detailed : ∀ record ∈ front, record.level = .verbose := by
      cases requested : world.isRequested token with
      | true => simp [(cancelled requested).1]
      | false =>
          rw [complete requested]
          exact fun record => scope.level_of_mem_candidateRecords call overloads
    rw [resolve_trace_eq_admitted, verbose, Record.admitted_append, Record.admitted_append,
      Record.admitted_summary_eq_nil detailed,
      Record.admitted_summary_eq_nil fun record => remarked.level_of_mem]
    exact List.filter_eq_self.mpr fun record member => by
      rw [List.mem_singleton.mp member, summed.level]
      rfl
  verbose := verbose
  cancelled := cancelled
  front := complete
  remarks mode := by
    have agrees : (scope.resolve ⟨mode, folds⟩ token call overloads world).Agrees
        (scope.resolve ⟨.verbose, folds⟩ token call overloads world) := resolve_agrees rfl
    rw [agrees.outcome]
    exact remarked
  last mode := by
    have agrees : (scope.resolve ⟨mode, folds⟩ token call overloads world).Agrees
        (scope.resolve ⟨.verbose, folds⟩ token call overloads world) := resolve_agrees rfl
    rw [agrees.outcome]
    exact summed

/-- A failure before any conversion tells of the overloads that were looked at, and of itself. -/
theorem Tells.of_failed {records : List Record} {failure : Failure}
    (course : scope.resolve ⟨.verbose, folds⟩ token call overloads world =
      failed ⟨.verbose, folds⟩ records world failure)
    (cancelled : world.isRequested token = true → records = [])
    (complete : world.isRequested token = false → records = scope.candidateRecords call overloads)
    (callee : failure.callee = call.callee) (kind : failure.kind ≠ .conversion) :
    Tells scope folds token call overloads world records [] (failureRecord failure) := by
  have detailed : ∀ record ∈ records, record.level = .verbose := by
    cases requested : world.isRequested token with
    | true => simp [cancelled requested]
    | false =>
        rw [complete requested]
        exact fun record => scope.level_of_mem_candidateRecords call overloads
  refine .of_verbose ?_ (fun requested => ⟨cancelled requested, rfl⟩) complete ?_ ?_
  · rw [course, failed, Record.admitted_append, Record.admitted_verbose_eq_self detailed,
      List.append_nil]
    rfl
  · rw [course]
    exact .of_kind kind
  · rw [course, failureRecord, callee]
    exact .failed failure

/-- The last record of a conversion sums up what it comes to. -/
theorem exists_trace_converted (considered position : Nat) (overload : Overload) :
    ∃ last, (converted ⟨.verbose, folds⟩ (scope.candidateRecords call overloads)
        ⟨call, considered, token⟩ position (scope.assess call overload) world).trace =
          scope.candidateRecords call overloads ++
            (Job.convert ⟨call, considered, token⟩ (scope.assess call overload) world).2.records ++
              [last] ∧
      Summarises scope call
        (Job.convert ⟨call, considered, token⟩ (scope.assess call overload) world).1 last := by
  have remarked := Job.convert_remarks ⟨call, considered, token⟩ (scope.assess call overload) world
  unfold converted
  dsimp only
  rw [Record.admitted_append, Record.admitted_append,
    Record.admitted_verbose_eq_self fun record =>
      scope.level_of_mem_candidateRecords call overloads,
    Record.admitted_verbose_eq_self fun record => remarked.level_of_mem]
  cases outcome : (Job.convert ⟨call, considered, token⟩ (scope.assess call overload) world).1 with
  | error failure =>
      refine ⟨failureRecord failure, rfl, ?_⟩
      rw [failureRecord, (Job.convert_reports outcome).callee]
      exact .failed failure
  | ok resolved =>
      refine ⟨successRecord call.callee (scope.assess call overload), rfl, ?_⟩
      have chosen := Job.convert_overload outcome
      rw [overload_assess] at chosen
      rw [successRecord, overload_assess]
      exact .resolved chosen

/-- A conversion tells of all overloads, makes its remark, and tells what it comes to. -/
theorem exists_tells_of_converted {considered position : Nat} {overload : Overload}
    (running : world.isRequested token = false)
    (course : scope.resolve ⟨.verbose, folds⟩ token call overloads world =
      converted ⟨.verbose, folds⟩ (scope.assessmentRecords call overloads)
        ⟨call, considered, token⟩ position (scope.assess call overload) world) :
    ∃ remarks last, Tells scope folds token call overloads world
      (scope.candidateRecords call overloads) remarks last := by
  rw [assessmentRecords_eq] at course
  obtain ⟨last, trace, summed⟩ :=
    @exists_trace_converted scope folds token call overloads world considered position overload
  refine ⟨_, last, .of_verbose (course ▸ trace) ?_ (fun _ => rfl) ?_ ?_⟩
  · intro requested
    cases running.symm.trans requested
  · rw [course]
    exact Job.convert_remarks ⟨call, considered, token⟩ (scope.assess call overload) world
  · rw [course]
    exact summed

/-- **A resolution tells the same story in every mode, to the detail of the mode.** -/
theorem resolve_tells (scope : Scope) (folds : Bool) (token : Token) (call : Call)
    (overloads : List Overload) (world : World) :
    ∃ front remarks last, Tells scope folds token call overloads world front remarks last := by
  have course := scope.resolve_course ⟨.verbose, folds⟩ token call overloads world
  generalize resolved : scope.resolve ⟨.verbose, folds⟩ token call overloads world = resolution
    at course
  cases course with
  | cancelled requested =>
      refine ⟨_, _, _, .of_failed resolved (fun _ => rfl) ?_ rfl FailureKind.noConfusion⟩
      intro running
      cases requested.symm.trans running
  | converted running found sole => exact ⟨_, exists_tells_of_converted running resolved⟩
  | tied running | refused running | unmatched running =>
      refine ⟨_, _, _, .of_failed resolved ?_
        (fun _ => scope.assessmentRecords_eq call overloads) rfl FailureKind.noConfusion⟩
      intro requested
      cases running.symm.trans requested

/-! ## Settings observe -/

/-- What the settings decide about a resolution, and what they leave alone. -/
structure ObservesOnly (scope : Scope) (token : Token) (call : Call) (overloads : List Overload)
    (world : World) : Prop where
  /-- Settings that fold alike run the same and come to the same. -/
  agrees : ∀ settings other : Settings, settings.foldsReceiver = other.foldsReceiver →
    (scope.resolve settings token call overloads world).Agrees
      (scope.resolve other token call overloads world)
  /-- So do all others, if the caller is not refused by all overloads. -/
  unrefused : ∀ settings other : Settings, settings.foldsReceiver = false →
    ¬ (scope.resolve settings token call overloads world).FailsWith .receiver →
      (scope.resolve other token call overloads world).Agrees
        (scope.resolve settings token call overloads world)
  /-- If it is, folding puts another kind to the failure, and changes nothing else. -/
  refused : ∀ settings other : Settings, other.foldsReceiver = true → ∀ failure,
    (scope.resolve settings token call overloads world).outcome = .error failure →
    failure.kind = .receiver →
      settings.foldsReceiver = false ∧
        (scope.resolve other token call overloads world).Agrees
          { scope.resolve settings token call overloads world with
            outcome := .error { failure with kind := .noMatch } }
  /-- The modes tell the same story. -/
  told : ∀ folds, ∃ front remarks last,
    Tells scope folds token call overloads world front remarks last
  /-- In the account of an overload there is one detail for each argument that it used, -/
  used : ∀ overload, (scope.assess call overload).details.filterMap Detail.use? =
    (scope.assess call overload).uses
  /-- one for each parameter that it skipped, and no other. -/
  skipped : ∀ overload, (scope.assess call overload).details.filterMap Detail.skipped? =
    ((scope.assess call overload).bindings.filter Binding.isSkipped).map Binding.parameter

/-- **The settings of a resolution only observe it.** -/
theorem resolve_observesOnly (scope : Scope) (token : Token) (call : Call)
    (overloads : List Overload) (world : World) :
    scope.ObservesOnly token call overloads world := by
  refine { agrees := fun _ _ => resolve_agrees, unrefused := ?unrefused, refused := ?refused,
           told := fun folds => scope.resolve_tells folds token call overloads world,
           used := fun overload => (scope.assess call overload).filterMap_use?_details,
           skipped := fun overload => (scope.assess call overload).filterMap_skipped?_details }
  case unrefused =>
    intro settings other unfolded unrefused
    cases folded : other.foldsReceiver with
    | false => exact resolve_agrees (folded.trans unfolded.symm)
    | true =>
        rcases resolve_folds folded with ⟨_, agrees⟩ | ⟨failure, outcome, kind, _⟩
        · exact agrees
        · exact absurd ⟨failure, outcome, kind⟩ unrefused
  case refused =>
    intro settings other folded failure outcome kind
    rcases resolve_folds folded with ⟨unrefused, _⟩ | ⟨other, outcomeToo, _, unfolded, agrees⟩
    · exact absurd ⟨failure, outcome, kind⟩ unrefused
    · cases outcome.symm.trans outcomeToo
      exact ⟨unfolded, agrees⟩

end Scope

end OverloadResolution
