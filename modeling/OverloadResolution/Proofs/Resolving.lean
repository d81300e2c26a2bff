import OverloadResolution.Proofs.Conversion
import OverloadResolution.Proofs.Leaders

/-!
# What resolving a call comes to

Resolving takes one of five courses (`Scope.Course`, `Scope.resolve_course`): it is cancelled at
once, it converts the arguments of the sole leader, or it fails because of a tie, because every
overload refuses the caller, or because nothing matches.  The last four are told apart by the
positions that lead (`Scope.LeadsAt`), so the outcome can be read off the list of overloads without
going through it in order (`Scope.SelectsBest`, `Scope.resolve_selectsBest`).
-/

set_option autoImplicit false

namespace OverloadResolution

/-- The resolution is a failure of a kind. -/
def Resolution.FailsWith (resolution : Resolution) (kind : FailureKind) : Prop :=
  ∃ failure, resolution.outcome = .error failure ∧ failure.kind = kind

/-! ## Converting the chosen overload -/

namespace Job

open Attempt

/-- The resolved call of an assessed overload, once its parameters have values. -/
def resolved (job : Job) (assessment : Assessment) (values : List Value) : ResolvedCall where
  invocation :=
    { callee := job.call.callee
      caller := job.call.caller
      receiver := if assessment.receiverBound then some job.call.caller else none
      arguments := values }
  overload := some assessment.overload

/-- The uses of an assessment, each with its parameter. -/
abbrev tasks (assessment : Assessment) : List Task := assessment.bindings.flatMap Binding.tasks

/-- Converting is the single loop over the uses, and then putting the call together. -/
theorem convert_eq (job : Job) (assessment : Assessment) (world : World) :
    job.convert assessment world =
      andThen (job.convertTasks (tasks assessment)) (fun values =>
        succeed (job.resolved assessment (Binding.gather assessment.bindings values)))
        (.start world) := by
  unfold convert
  rw [convertBindings_eq]
  unfold andThen
  rcases job.convertTasks (tasks assessment) (.start world) with ⟨failure | values, last⟩ <;> rfl

/-- A conversion is a run of the loop, and a success puts the call together from its values. -/
theorem convert_run (job : Job) (assessment : Assessment) (world : World) :
    (∃ failure, (job.convert assessment world).1 = .error failure ∧
      job.Run (tasks assessment) (.start world) (.error failure)
        (job.convert assessment world).2) ∨
    ∃ values, (job.convert assessment world).1 =
        .ok (job.resolved assessment (Binding.gather assessment.bindings values)) ∧
      job.Run (tasks assessment) (.start world) (.ok values) (job.convert assessment world).2 := by
  have run := job.convertTasks_run (tasks assessment) (.start world)
  rw [convert_eq]
  cases converted : job.convertTasks (tasks assessment) (.start world) with
  | mk answer last =>
      rw [converted] at run
      cases answer with
      | error failure =>
          rw [andThen_of_error converted]
          exact .inl ⟨failure, rfl, run⟩
      | ok values =>
          rw [andThen_of_ok converted]
          exact .inr ⟨values, rfl, run⟩

/-- A failure comes from a run that fails. -/
theorem convert_run_of_error {job : Job} {assessment : Assessment} {world : World}
    {failure : Failure} (failed : (job.convert assessment world).1 = .error failure) :
    job.Run (tasks assessment) (.start world) (.error failure)
      (job.convert assessment world).2 := by
  rcases job.convert_run assessment world with ⟨other, error, run⟩ | ⟨values, ok, _⟩
  · cases error.symm.trans failed
    exact run
  · cases ok.symm.trans failed

/-- A success comes from a run that converts every use. -/
theorem convert_run_of_ok {job : Job} {assessment : Assessment} {world : World}
    {resolved : ResolvedCall} (succeeded : (job.convert assessment world).1 = .ok resolved) :
    ∃ values, resolved = job.resolved assessment (Binding.gather assessment.bindings values) ∧
      job.Run (tasks assessment) (.start world) (.ok values) (job.convert assessment world).2 := by
  rcases job.convert_run assessment world with ⟨failure, error, _⟩ | ⟨values, ok, run⟩
  · cases error.symm.trans succeeded
  · cases ok.symm.trans succeeded
    exact ⟨values, rfl, run⟩

theorem convert_reports {job : Job} {assessment : Assessment} {world : World} {failure : Failure}
    (failed : (job.convert assessment world).1 = .error failure) : job.Reports failure :=
  (convert_run_of_error failed).reports

end Job

/-! ## The courses of a resolution -/

namespace Scope

/-- There are overloads, and all of them refuse the caller. -/
def RefusesAll (scope : Scope) (call : Call) (overloads : List Overload) : Prop :=
  overloads ≠ [] ∧
    ∀ overload ∈ overloads, (scope.assess call overload).verdict = .receiverRejected

theorem allRefuseCaller_iff (scope : Scope) (call : Call) (overloads : List Overload) :
    allRefuseCaller (scope.assessAll call overloads) = true ↔
      scope.RefusesAll call overloads := by
  simp [allRefuseCaller, assessAll, RefusesAll]

/-- The records of all assessments, in the order of the list. -/
def assessmentRecords (scope : Scope) (call : Call) (overloads : List Overload) : List Record :=
  (scope.assessAll call overloads).zipIdx.flatMap fun (assessment, position) =>
    assessment.records call.callee position

/-- The failure of a tie between the overloads that lead. -/
def ambiguity (scope : Scope) (call : Call) (overloads : List Overload) : Failure :=
  { Failure.ofKind .ambiguous call.callee overloads.length with
    candidates := overloads.filter fun overload => scope.Leads call overloads overload }

/-- The ways that resolving a call can go, and when it goes each way. -/
inductive Course (scope : Scope) (settings : Settings) (token : Token) (call : Call)
    (overloads : List Overload) (world : World) : Resolution → Prop where
  | cancelled (requested : world.isRequested token = true) :
      Course scope settings token call overloads world
        (failed settings [] world (.ofKind .cancelled call.callee overloads.length))
  | converted {position : Nat} {overload : Overload} (running : world.isRequested token = false)
      (found : overloads[position]? = some overload)
      (sole : scope.SoleLeader call overloads position) :
      Course scope settings token call overloads world
        (converted settings (scope.assessmentRecords call overloads)
          ⟨call, overloads.length, token⟩ position (scope.assess call overload) world)
  | tied {first second : Nat} (running : world.isRequested token = false)
      (distinct : first ≠ second) (leads : scope.LeadsAt call overloads first)
      (leadsToo : scope.LeadsAt call overloads second) :
      Course scope settings token call overloads world
        (failed settings (scope.assessmentRecords call overloads) world
          (scope.ambiguity call overloads))
  | refused (running : world.isRequested token = false)
      (nonviable : ∀ overload ∈ overloads, ¬ scope.Viable call overload)
      (refuses : scope.RefusesAll call overloads ∧ settings.foldsReceiver = false) :
      Course scope settings token call overloads world
        (failed settings (scope.assessmentRecords call overloads) world
          (.ofKind .receiver call.callee overloads.length))
  | unmatched (running : world.isRequested token = false)
      (nonviable : ∀ overload ∈ overloads, ¬ scope.Viable call overload)
      (otherwise : ¬ (scope.RefusesAll call overloads ∧ settings.foldsReceiver = false)) :
      Course scope settings token call overloads world
        (failed settings (scope.assessmentRecords call overloads) world
          (.ofKind .noMatch call.callee overloads.length))

/-- **Resolving takes one of the five courses.** -/
theorem resolve_course (scope : Scope) (settings : Settings) (token : Token) (call : Call)
    (overloads : List Overload) (world : World) :
    scope.Course settings token call overloads world
      (scope.resolve settings token call overloads world) := by
  cases requested : world.isRequested token with
  | true =>
      rw [resolve_of_requested scope settings call overloads requested]
      exact .cancelled requested
  | false =>
      have selects := scope.selects_ofAssessments call overloads
      unfold resolve
      simp only [requested, Bool.false_eq_true, if_false]
      generalize Selection.ofAssessments (scope.assessAll call overloads) = selection at selects ⊢
      cases selects with
      | chosen found sole => exact .converted requested found sole
      | tied distinct leads leadsToo =>
          have named : ((overloads.filter fun overload => scope.Leads call overloads overload).map
              (scope.assess call)).map Assessment.overload =
                overloads.filter fun overload => scope.Leads call overloads overload := by
            simp [Function.comp_def]
          dsimp only
          rw [named]
          exact .tied requested distinct leads leadsToo
      | none nonviable =>
          have refuses : (allRefuseCaller (scope.assessAll call overloads) &&
              !settings.foldsReceiver) = true ↔
                scope.RefusesAll call overloads ∧ settings.foldsReceiver = false := by
            rw [Bool.and_eq_true, allRefuseCaller_iff, Bool.not_eq_true']
          dsimp only
          split
          · next holds => exact .refused requested nonviable (refuses.mp holds)
          · next fails => exact .unmatched requested nonviable fun both => fails (refuses.mpr both)

/-- The trace holds those of some records that the mode admits. -/
theorem resolve_trace (scope : Scope) (settings : Settings) (token : Token) (call : Call)
    (overloads : List Overload) (world : World) :
    ∃ records, (scope.resolve settings token call overloads world).trace =
      Record.admitted settings.mode records := by
  have course := scope.resolve_course settings token call overloads world
  generalize scope.resolve settings token call overloads world = resolution at course ⊢
  cases course with
  | cancelled | converted | tied | refused | unmatched => exact ⟨_, rfl⟩

/-! ## The outcome from the list of overloads -/

/-- What the list of overloads says about a resolution of a call that is not cancelled at once. -/
structure SelectsBest (scope : Scope) (settings : Settings) (token : Token) (call : Call)
    (overloads : List Overload) (world : World) (resolution : Resolution) : Prop where
  /-- An overload is converted exactly when its position is the only one that leads. -/
  chosen_iff : ∀ position, resolution.chosen = some position ↔
    scope.SoleLeader call overloads position
  /-- The overload at that position is the one whose arguments are converted. -/
  converted : ∀ position, resolution.chosen = some position →
    ∃ overload, overloads[position]? = some overload ∧
      resolution.outcome = (Job.convert ⟨call, overloads.length, token⟩
        (scope.assess call overload) world).1 ∧
      resolution.performed = (Job.convert ⟨call, overloads.length, token⟩
        (scope.assess call overload) world).2.performed ∧
      resolution.world = (Job.convert ⟨call, overloads.length, token⟩
        (scope.assess call overload) world).2.world
  /-- Otherwise nothing is converted, and the call fails. -/
  unconverted : resolution.chosen = none →
    (∃ failure, resolution.outcome = .error failure) ∧ resolution.performed = [] ∧
      resolution.world = world
  /-- A tie is a failure exactly when at least two positions lead. -/
  ambiguous_iff : resolution.FailsWith .ambiguous ↔
    ∃ first second, first ≠ second ∧ scope.LeadsAt call overloads first ∧
      scope.LeadsAt call overloads second
  receiver_iff : resolution.FailsWith .receiver ↔
    scope.RefusesAll call overloads ∧ settings.foldsReceiver = false
  noMatch_iff : resolution.FailsWith .noMatch ↔
    (∀ overload ∈ overloads, ¬ scope.Viable call overload) ∧
      ¬ (scope.RefusesAll call overloads ∧ settings.foldsReceiver = false)
  /-- Every failure names the command and the number of overloads, and a tie those that lead. -/
  failure : ∀ failure, resolution.outcome = .error failure →
    failure.callee = call.callee ∧ failure.considered = overloads.length ∧
      failure.candidates =
        if failure.kind = .ambiguous then
          overloads.filter fun overload => scope.Leads call overloads overload
        else []

variable {scope : Scope} {settings : Settings} {token : Token} {call : Call}
  {overloads : List Overload} {overload : Overload} {world : World}

/-- A position that leads holds an overload that matches. -/
theorem LeadsAt.viable {position : Nat} (leads : scope.LeadsAt call overloads position) :
    ∃ overload ∈ overloads, scope.Viable call overload := by
  obtain ⟨overload, found, viable, _⟩ := leads
  exact ⟨overload, List.mem_of_getElem? found, viable⟩

theorem not_leadsAt_of_nonviable
    (nonviable : ∀ overload ∈ overloads, ¬ scope.Viable call overload) (position : Nat) :
    ¬ scope.LeadsAt call overloads position := by
  intro leads
  obtain ⟨overload, member, viable⟩ := leads.viable
  exact nonviable overload member viable

theorem not_tied_of_nonviable
    (nonviable : ∀ overload ∈ overloads, ¬ scope.Viable call overload) :
    ¬ ∃ first second, first ≠ second ∧ scope.LeadsAt call overloads first ∧
      scope.LeadsAt call overloads second := by
  rintro ⟨first, _, _, leads, _⟩
  exact not_leadsAt_of_nonviable nonviable first leads

theorem RefusesAll.nonviable (refuses : scope.RefusesAll call overloads) :
    ∀ overload ∈ overloads, ¬ scope.Viable call overload := by
  intro overload member viable
  cases viable.symm.trans (refuses.2 overload member)

/-- Where one position leads alone, the overload there is converted. -/
theorem resolve_of_soleLeader (settings : Settings) (running : world.isRequested token = false)
    {position : Nat} (found : overloads[position]? = some overload)
    (sole : scope.SoleLeader call overloads position) :
    scope.resolve settings token call overloads world =
      Scope.converted settings (scope.assessmentRecords call overloads)
        ⟨call, overloads.length, token⟩ position (scope.assess call overload) world := by
  have course := scope.resolve_course settings token call overloads world
  generalize scope.resolve settings token call overloads world = resolution at course ⊢
  cases course with
  | cancelled requested => cases requested.symm.trans running
  | @converted index other _ otherFound otherSole =>
      obtain rfl := sole.2 index otherSole.1
      cases found.symm.trans otherFound
      rfl
  | tied _ distinct leads leadsToo =>
      exact absurd ((sole.2 _ leads).trans (sole.2 _ leadsToo).symm) distinct
  | refused _ nonviable | unmatched _ nonviable =>
      exact absurd sole.1 (not_leadsAt_of_nonviable nonviable position)

/-- Where two positions lead, there is a tie. -/
theorem resolve_of_leadsAt (settings : Settings) (running : world.isRequested token = false)
    {first second : Nat} (distinct : first ≠ second) (leads : scope.LeadsAt call overloads first)
    (leadsToo : scope.LeadsAt call overloads second) :
    scope.resolve settings token call overloads world =
      failed settings (scope.assessmentRecords call overloads) world
        (scope.ambiguity call overloads) := by
  have course := scope.resolve_course settings token call overloads world
  generalize scope.resolve settings token call overloads world = resolution at course ⊢
  cases course with
  | cancelled requested => cases requested.symm.trans running
  | converted _ _ sole => exact absurd ((sole.2 _ leads).trans (sole.2 _ leadsToo).symm) distinct
  | tied => rfl
  | refused _ nonviable | unmatched _ nonviable =>
      exact absurd leads (not_leadsAt_of_nonviable nonviable first)

theorem failsWith_failed_iff {records : List Record} {failure : Failure} {kind : FailureKind} :
    (failed settings records world failure).FailsWith kind ↔ failure.kind = kind := by
  constructor
  · rintro ⟨other, outcome, rfl⟩
    cases outcome
    rfl
  · rintro rfl
    exact ⟨failure, rfl, rfl⟩

/-- A failure without a conversion is right if it has the kind that the list calls for. -/
theorem SelectsBest.of_failed {records : List Record} {failure : Failure}
    (unled : ∀ position, ¬ scope.SoleLeader call overloads position)
    (ambiguous : failure.kind = .ambiguous ↔ ∃ first second, first ≠ second ∧
      scope.LeadsAt call overloads first ∧ scope.LeadsAt call overloads second)
    (receiver : failure.kind = .receiver ↔
      scope.RefusesAll call overloads ∧ settings.foldsReceiver = false)
    (noMatch : failure.kind = .noMatch ↔
      (∀ overload ∈ overloads, ¬ scope.Viable call overload) ∧
        ¬ (scope.RefusesAll call overloads ∧ settings.foldsReceiver = false))
    (said : failure.callee = call.callee ∧ failure.considered = overloads.length ∧
      failure.candidates =
        if failure.kind = .ambiguous then
          overloads.filter fun overload => scope.Leads call overloads overload
        else []) :
    scope.SelectsBest settings token call overloads world
      (failed settings records world failure) where
  chosen_iff position := by
    refine iff_of_false ?_ (unled position)
    intro chosen
    cases chosen
  converted position chosen := by cases chosen
  unconverted _ := ⟨⟨failure, rfl⟩, rfl, rfl⟩
  ambiguous_iff := failsWith_failed_iff.trans ambiguous
  receiver_iff := failsWith_failed_iff.trans receiver
  noMatch_iff := failsWith_failed_iff.trans noMatch
  failure other outcome := by
    cases outcome
    exact said

theorem reports_of_converted {records : List Record} {position : Nat} {failure : Failure}
    (outcome : (converted settings records ⟨call, overloads.length, token⟩ position
      (scope.assess call overload) world).outcome = .error failure) :
    Job.Reports ⟨call, overloads.length, token⟩ failure :=
  Job.convert_reports outcome

/-- A conversion fails for reasons of its own, not for want of a single best overload. -/
theorem not_failsWith_converted {records : List Record} {position : Nat} {kind : FailureKind}
    (cancelled : kind ≠ .cancelled) (conversion : kind ≠ .conversion) :
    ¬ (converted settings records ⟨call, overloads.length, token⟩ position
      (scope.assess call overload) world).FailsWith kind := by
  rintro ⟨failure, outcome, rfl⟩
  rcases (reports_of_converted outcome).kind with same | same
  · exact cancelled same
  · exact conversion same

/-- A conversion of the sole leader is right whatever it comes to. -/
theorem SelectsBest.of_converted {records : List Record} {position : Nat}
    (found : overloads[position]? = some overload)
    (sole : scope.SoleLeader call overloads position) :
    scope.SelectsBest settings token call overloads world
      (Scope.converted settings records ⟨call, overloads.length, token⟩ position
        (scope.assess call overload) world) := by
  obtain ⟨viableOverload, member, viable⟩ := sole.1.viable
  refine ⟨fun other => ?_, fun other chosen => ?_, fun unchosen => ?_, ?_, ?_, ?_, ?_⟩
  · constructor
    · intro chosen
      cases chosen
      exact sole
    · intro otherSole
      exact congrArg some (otherSole.2 position sole.1)
  · cases chosen
    exact ⟨overload, found, rfl, rfl, rfl⟩
  · cases unchosen
  · refine iff_of_false (not_failsWith_converted (by decide) (by decide)) ?_
    rintro ⟨first, second, distinct, leads, leadsToo⟩
    exact distinct ((sole.2 first leads).trans (sole.2 second leadsToo).symm)
  · refine iff_of_false (not_failsWith_converted (by decide) (by decide)) ?_
    rintro ⟨refuses, _⟩
    exact refuses.nonviable viableOverload member viable
  · refine iff_of_false (not_failsWith_converted (by decide) (by decide)) ?_
    rintro ⟨nonviable, _⟩
    exact nonviable viableOverload member viable
  · intro failure outcome
    have said := reports_of_converted outcome
    refine ⟨said.callee, said.considered, ?_⟩
    rw [said.candidates, if_neg]
    rcases said.kind with kind | kind <;> rw [kind] <;> decide

/-- **A call that is not cancelled at once is resolved by the positions that lead.** -/
theorem resolve_selectsBest (running : world.isRequested token = false) :
    scope.SelectsBest settings token call overloads world
      (scope.resolve settings token call overloads world) := by
  have course := scope.resolve_course settings token call overloads world
  generalize scope.resolve settings token call overloads world = resolution at course ⊢
  cases course with
  | cancelled requested => cases requested.symm.trans running
  | converted _ found sole => exact .of_converted found sole
  | tied _ distinct leads leadsToo =>
      obtain ⟨overload, member, viable⟩ := leads.viable
      refine .of_failed ?_ ?_ ?_ ?_ ⟨rfl, rfl, rfl⟩
      · rintro position ⟨_, sole⟩
        exact distinct ((sole _ leads).trans (sole _ leadsToo).symm)
      · exact iff_of_true rfl ⟨_, _, distinct, leads, leadsToo⟩
      · refine iff_of_false FailureKind.noConfusion ?_
        rintro ⟨refuses, _⟩
        exact refuses.nonviable overload member viable
      · refine iff_of_false FailureKind.noConfusion ?_
        rintro ⟨nonviable, _⟩
        exact nonviable overload member viable
  | refused _ nonviable refuses =>
      have unled := not_leadsAt_of_nonviable nonviable
      refine .of_failed (fun position sole => unled position sole.1) ?_ ?_ ?_ ⟨rfl, rfl, rfl⟩
      · exact iff_of_false FailureKind.noConfusion (not_tied_of_nonviable nonviable)
      · exact iff_of_true rfl refuses
      · exact iff_of_false FailureKind.noConfusion fun both => both.2 refuses
  | unmatched _ nonviable otherwise =>
      have unled := not_leadsAt_of_nonviable nonviable
      refine .of_failed (fun position sole => unled position sole.1) ?_ ?_ ?_ ⟨rfl, rfl, rfl⟩
      · exact iff_of_false FailureKind.noConfusion (not_tied_of_nonviable nonviable)
      · exact iff_of_false FailureKind.noConfusion otherwise
      · exact iff_of_true rfl ⟨nonviable, otherwise⟩

/-- A call of `echo` from a console, where no reader is known and only the primitive types are. -/
def echoing (arguments : List Argument) : Call := ⟨⟨"console", .any⟩, "echo", arguments⟩

/-- Takes the text to repeat. -/
def echo : Overload := ⟨none, [.required "text" .string], none⟩

/-- An overload that is listed twice ties with itself. -/
theorem echo_listed_twice_ties :
    World.initial.isRequested .never = false ∧
      (resolve ⟨.initial, none⟩ .initial .never (echoing [.ofToken "hi"]) [echo, echo]
        .initial).FailsWith .ambiguous := by
  refine ⟨rfl, (resolve_selectsBest rfl).ambiguous_iff.mpr ⟨0, 1, by decide, ?_, ?_⟩⟩
  · exact ⟨echo, rfl, by decide⟩
  · exact ⟨echo, rfl, by decide⟩

end Scope

end OverloadResolution
