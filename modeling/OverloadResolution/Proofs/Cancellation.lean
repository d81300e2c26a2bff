import OverloadResolution.Proofs.Effects

/-!
# Cancellation during a resolution

A resolution asks for its token in three places: before anything is assessed, before each used
argument, and when an argument could not be converted.  In between, any conversion may request the
cancellation.  As a request is never withdrawn, an answer tells more than about its own moment: what
is not requested was not requested before, and what is requested stays so.

Per argument this gives the two ways that a conversion can fail (`Job.FailsAt`) and what its record
has to do with the token (`Performed.Heeds`).  Both go over to a run of the loop, the first at the
one use that stops it (`Job.Run.failsAt`), the second by induction (`Job.Run.heeds`).  What all of
it means for a resolution is collected in `Scope.HeedsCancellation`.
-/

set_option autoImplicit false

namespace OverloadResolution

/-- How a used argument fails to be converted, with the worlds before and after: there is no code to
run for it, or the code that it calls for answers with an error. -/
inductive Use.Fails (context : ReadContext) (use : Use) : World → World → Prop where
  | refused {world : World} (indirect : use.fit ≠ .asIs) (uncalled : use.conversion? = none) :
      Fails context use world world
  | answered {conversion : Conversion} {error : Diagnostic} {first last : World}
      (called : use.conversion? = some conversion)
      (answered : (conversion.run context).perform first = (.error error, last)) :
      Fails context use first last

/-- What the record of a conversion has to do with the token, when the attempt that it belongs to
fails or not and ends in a last world: the conversion started while cancellation was not requested,
and if it failed then so did the attempt, at once. -/
structure Performed.Heeds (token : Token) (fails : Prop) (last : World) (record : Performed) :
    Prop where
  started : record.before.isRequested token = false
  final : ∀ error, record.answer = .error error → fails ∧ record.after = last

/-- In an attempt that does not fail no conversion does, so it may be part of any other. -/
theorem Performed.Heeds.of_passed {token : Token} {fails other : Prop} {middle last : World}
    {record : Performed} (heeds : record.Heeds token fails middle) (passed : ¬ fails) :
    record.Heeds token other last where
  started := heeds.started
  final error erred := absurd (heeds.final error erred).1 passed

namespace Job

variable {job : Job} {parameter : Parameter} {use : Use} {tasks : List Task}
  {before after : Progress} {failure : Failure}

/-! ## One argument -/

/-- Why an attempt fails at a use: cancellation is requested, or it is not and the use could not be
converted. -/
inductive FailsAt (job : Job) (use : Use) (first last : World) (failure : Failure) : Prop where
  | cancelled (kind : failure.kind = .cancelled) (requested : last.isRequested job.token = true)
  | conversion (kind : failure.kind = .conversion)
      (running : last.isRequested job.token = false)
      (fails : use.Fails job.context first last)

/-- A failure is called a cancellation exactly when cancellation is requested by then. -/
theorem FailsAt.cancelled_iff {first last : World} (fails : job.FailsAt use first last failure) :
    failure.kind = .cancelled ↔ last.isRequested job.token = true := by
  cases fails with
  | cancelled kind requested => exact iff_of_true kind requested
  | conversion kind running =>
      refine iff_of_false ?_ (ne_true_of_eq_false running)
      intro cancelled
      cases kind.symm.trans cancelled

/-- Rejecting asks for the token, and nothing else decides on the kind of the failure. -/
theorem failsAt_of_reject {error : Diagnostic} {first : World}
    (fails : use.Fails job.context first before.world)
    (rejected : job.reject parameter use.argument error before = (.error failure, after)) :
    job.FailsAt use first after.world failure := by
  unfold reject at rejected
  cases requested : before.world.isRequested job.token with
  | true =>
      rw [requested] at rejected
      cases rejected
      exact .cancelled rfl requested
  | false =>
      rw [requested] at rejected
      cases rejected
      exact .conversion rfl requested fails

theorem convertUse_of_asIs (running : before.world.isRequested job.token = false)
    (direct : use.fit = .asIs) :
    job.convertUse parameter use before = (.ok use.argument.content.asValue, before) := by
  simp [convertUse, running, Use.plan, direct]

/-- The token is asked for before each use. -/
theorem running_of_ok {value : Value}
    (converted : job.convertUse parameter use before = (.ok value, after)) :
    before.world.isRequested job.token = false := by
  apply eq_false_of_ne_true
  intro requested
  rw [convertUse, if_pos requested] at converted
  cases converted

/-- A use fails for one of the two reasons. -/
theorem convertUse_failsAt
    (failed : job.convertUse parameter use before = (.error failure, after)) :
    job.FailsAt use before.world after.world failure := by
  have step := job.convertUse_step parameter use before
  generalize result : job.convertUse parameter use before = attempted at step
  cases step with
  | cancelled requested =>
      cases result.symm.trans failed
      exact .cancelled rfl requested
  | delivered => cases result.symm.trans failed
  | refused running uncalled error =>
      refine failsAt_of_reject (.refused ?_ uncalled) (result.symm.trans failed)
      intro direct
      cases (convertUse_of_asIs running direct).symm.trans failed
  | converted => cases result.symm.trans failed
  | @failed conversion error running called answered =>
      have performed := job.run_perform use.position conversion before
      rw [answered] at performed
      exact failsAt_of_reject (.answered called performed) (result.symm.trans failed)

/-- The record that a use adds, if it adds one, heeds the token. -/
theorem Step.heeds {result : Except Failure Value × Progress}
    (step : job.Step parameter use before result) :
    ∀ record ∈ result.2.performed, record ∈ before.performed ∨
      record.Heeds job.token (∃ failure, result.1 = .error failure) result.2.world := by
  cases step with
  | cancelled => exact fun record member => .inl member
  | delivered => exact fun record member => .inl member
  | refused running uncalled error =>
      obtain ⟨failure, records, rejected, _⟩ :=
        job.reject_spec parameter use.argument error before
      rw [rejected]
      exact fun record member => .inl member
  | converted running called answered =>
      intro record member
      refine (List.mem_append.mp member).imp_right fun added => ?_
      cases List.mem_singleton.mp added
      refine ⟨running, fun error erred => ?_⟩
      cases answered.symm.trans erred
  | @failed conversion error running called answered =>
      obtain ⟨failure, records, rejected, _⟩ := job.reject_spec parameter use.argument error
        (job.perform use.position conversion before).2
      rw [rejected]
      intro record member
      refine (List.mem_append.mp member).imp_right fun added => ?_
      cases List.mem_singleton.mp added
      exact ⟨running, fun _ _ => ⟨⟨failure, rfl⟩, rfl⟩⟩

/-! ## The loop -/

/-- A use that the loop goes on after leaves only records that heed the token in the whole. -/
theorem heeds_of_ok {value : Value} {fails : Prop} {last : World}
    (converted : job.convertUse parameter use before = (.ok value, after)) :
    ∀ record ∈ after.performed,
      record ∈ before.performed ∨ record.Heeds job.token fails last := by
  have step := job.convertUse_step parameter use before
  rw [converted] at step
  intro record member
  refine (step.heeds record member).imp_right fun heeds => heeds.of_passed ?_
  rintro ⟨failure, failed⟩
  cases failed

/-- **Every conversion of a run heeds the token.** -/
theorem Run.heeds {answer : Except Failure (List Value)}
    (run : job.Run tasks before answer after) :
    ∀ record ∈ after.performed, record ∈ before.performed ∨
      record.Heeds job.token (∃ failure, answer = .error failure) after.world := by
  induction run with
  | done => exact fun record member => .inl member
  | @stopped parameter use tasks before after failure stopped =>
      have step := job.convertUse_step parameter use before
      rw [stopped] at step
      intro record member
      refine (step.heeds record member).imp_right fun heeds =>
        ⟨heeds.started, fun error erred => ⟨⟨failure, rfl⟩, (heeds.final error erred).2⟩⟩
  | passedOn converted _ ih =>
      intro record member
      exact (ih record member).elim (heeds_of_ok converted record) .inr
  | converted converted _ ih =>
      intro record member
      refine (ih record member).elim (heeds_of_ok converted record) fun heeds =>
        .inr (heeds.of_passed ?_)
      rintro ⟨failure, failed⟩
      cases failed

/-- **A run that fails does so for one of the two reasons**, at a use before which everything was
converted. -/
theorem Run.failsAt (run : job.Run tasks before (.error failure) after) :
    ∃ earlier culprit later values middle,
      tasks.map Prod.snd = earlier ++ culprit :: later ∧
      Converts job.context before.world earlier values middle ∧
      job.FailsAt culprit middle after.world failure := by
  obtain ⟨done, parameter, use, rest, values, middle, rfl, ran, stopped⟩ := run.culprit
  exact ⟨done.map Prod.snd, use, rest.map Prod.snd, values, middle.world, List.map_append,
    ran.converts, convertUse_failsAt stopped⟩

/-- **Up to any of its uses a run that succeeds has met no request.** -/
theorem Run.running_at {values : List Value} (run : job.Run tasks before (.ok values) after)
    {earlier later : List Use} (parts : tasks.map Prod.snd = earlier ++ use :: later) :
    ∃ values value others middle, Converts job.context before.world earlier values middle ∧
      middle.isRequested job.token = false ∧
      Converts job.context middle (use :: later) (value :: others) after.world := by
  obtain ⟨done, rest, rfl, rfl, remaining⟩ := List.map_eq_append_iff.mp parts
  obtain ⟨⟨parameter, same⟩, following, rfl, rfl, rfl⟩ := List.map_eq_cons_iff.mp remaining
  obtain ⟨values, later, middle, ran, ranToo, rfl⟩ := run.split
  have converts := ranToo.converts
  cases ranToo with
  | converted converted _ =>
      exact ⟨values, _, _, middle.world, ran.converts, running_of_ok converted, converts⟩

/-! ## The arguments of an assessed overload -/

variable {assessment : Assessment} {world : World}

theorem convert_heeds (job : Job) (assessment : Assessment) (world : World) :
    ∀ record ∈ (job.convert assessment world).2.performed,
      record.Heeds job.token (∃ failure, (job.convert assessment world).1 = .error failure)
        (job.convert assessment world).2.world := by
  intro record member
  rcases job.convert_run assessment world with ⟨failure, failed, run⟩ | ⟨values, _, run⟩
  · rcases run.heeds record member with before | heeds
    · cases before
    · exact ⟨heeds.started, fun error erred => ⟨⟨failure, failed⟩, (heeds.final error erred).2⟩⟩
  · rcases run.heeds record member with before | heeds
    · cases before
    · refine heeds.of_passed ?_
      rintro ⟨failure, failed⟩
      cases failed

theorem convert_failsAt (failed : (job.convert assessment world).1 = .error failure) :
    ∃ earlier culprit later values middle,
      assessment.uses = earlier ++ culprit :: later ∧
      Converts job.context world earlier values middle ∧
      job.FailsAt culprit middle (job.convert assessment world).2.world failure := by
  rw [← map_snd_tasks]
  exact (convert_run_of_error failed).failsAt

theorem convert_cancelled_iff (failed : (job.convert assessment world).1 = .error failure) :
    failure.kind = .cancelled ↔
      (job.convert assessment world).2.world.isRequested job.token = true := by
  obtain ⟨_, _, _, _, _, _, _, fails⟩ := convert_failsAt failed
  exact fails.cancelled_iff

theorem convert_running_at {resolved : ResolvedCall}
    (resolves : (job.convert assessment world).1 = .ok resolved) {earlier later : List Use}
    (parts : assessment.uses = earlier ++ use :: later) :
    ∃ values value others middle, Converts job.context world earlier values middle ∧
      middle.isRequested job.token = false ∧
      Converts job.context middle (use :: later) (value :: others)
        (job.convert assessment world).2.world := by
  obtain ⟨_, _, run⟩ := convert_run_of_ok resolves
  rw [← map_snd_tasks] at parts
  exact run.running_at parts

theorem convert_overload {resolved : ResolvedCall}
    (resolves : (job.convert assessment world).1 = .ok resolved) :
    resolved.overload = some assessment.overload := by
  obtain ⟨_, rfl, _⟩ := convert_run_of_ok resolves
  rfl

end Job

/-! ## The conversions on record -/

namespace Ran

variable {context : ReadContext} {first last : World}

/-- Nothing changes the world between two conversions. -/
theorem before_eq_after {earlier later : List Performed} {record next : Performed}
    (ran : Ran context first (earlier ++ record :: next :: later) last) :
    next.before = record.after := by
  induction earlier generalizing first with
  | nil =>
      cases ran with
      | next _ rest =>
          cases rest
          rfl
  | cons other earlier ih =>
      cases ran with
      | next _ rest => exact ih rest

/-- A request is made before the first conversion or in one of them. -/
theorem exists_requested {records : List Performed} {token : Token}
    (ran : Ran context first records last) (requested : last.isRequested token = true) :
    first.isRequested token = true ∨
      ∃ record ∈ records, record.after.isRequested token = true := by
  induction ran with
  | done => exact .inl requested
  | next _ _ ih =>
      refine .inr ?_
      rcases ih requested with made | ⟨record, member, made⟩
      · exact ⟨_, List.mem_cons_self, made⟩
      · exact ⟨record, List.mem_cons_of_mem _ member, made⟩

end Ran

/-! ## Resolutions -/

namespace Scope

/-- What a resolution has to do with its token, whatever the conversions do to it. -/
structure HeedsCancellation (scope : Scope) (token : Token) (call : Call)
    (overloads : List Overload) (world : World) (resolution : Resolution) : Prop where
  /-- The conversions on record ran one after another, and nothing else changed the world. -/
  ran : Ran ⟨call.caller, token⟩ world resolution.performed resolution.world
  /-- A call whose token is requested to begin with is cancelled, whatever the overloads are. -/
  entry : world.isRequested token = true →
    resolution.outcome = .error (.ofKind .cancelled call.callee overloads.length) ∧
      resolution.performed = [] ∧ resolution.world = world
  /-- No conversion starts once cancellation is requested. -/
  started : ∀ record ∈ resolution.performed, record.before.isRequested token = false
  /-- The conversion in which it is requested is the last one. -/
  finished : ∀ earlier record later, resolution.performed = earlier ++ record :: later →
    record.after.isRequested token = true → later = []
  /-- Cancellation is reported only if it is requested by the end. -/
  cancelled : resolution.FailsWith .cancelled → resolution.world.isRequested token = true
  /-- A failed conversion is reported only if cancellation was not requested when it returned, and
  it is the first to fail. -/
  conversion : resolution.FailsWith .conversion →
    resolution.world.isRequested token = false ∧
      ∃ position overload earlier culprit later values middle,
        resolution.chosen = some position ∧ overloads[position]? = some overload ∧
        (scope.assess call overload).uses = earlier ++ culprit :: later ∧
        Converts ⟨call.caller, token⟩ world earlier values middle ∧
        culprit.Fails ⟨call.caller, token⟩ middle resolution.world
  /-- A conversion that fails while cancellation is requested is reported as cancelled. -/
  overtaken : ∀ record ∈ resolution.performed, ∀ error, record.answer = .error error →
    record.after.isRequested token = true → resolution.FailsWith .cancelled
  /-- In a success cancellation was not requested when the conversion of any argument began, the
  last one included. -/
  succeeded : ∀ resolved, resolution.outcome = .ok resolved →
    world.isRequested token = false ∧
      ∃ overload ∈ overloads, resolved.overload = some overload ∧
        (scope.assess call overload).uses.map Use.position = List.range call.arguments.length ∧
        ∀ earlier use later, (scope.assess call overload).uses = earlier ++ use :: later →
          ∃ values value others middle,
            Converts ⟨call.caller, token⟩ world earlier values middle ∧
            middle.isRequested token = false ∧
            Converts ⟨call.caller, token⟩ middle (use :: later) (value :: others)
              resolution.world
  /-- Nothing is cancelled if nobody requests it. -/
  undisturbed : world.isRequested token = false →
    (∀ record ∈ resolution.performed, record.after.isRequested token = false) →
      ¬ resolution.FailsWith .cancelled

variable {scope : Scope} {settings : Settings} {token : Token} {call : Call}
  {overloads : List Overload} {overload : Overload} {world : World}

/-- A resolution that is cancelled at once heeds the token. -/
theorem HeedsCancellation.of_requested (requested : world.isRequested token = true) :
    scope.HeedsCancellation token call overloads world
      (failed settings [] world (.ofKind .cancelled call.callee overloads.length)) where
  ran := .done world
  entry _ := ⟨rfl, rfl, rfl⟩
  started record member := by cases member
  finished earlier record later parts := absurd parts (by simp [failed])
  cancelled _ := requested
  conversion fails := by cases failsWith_failed_iff.mp fails
  overtaken record member := by cases member
  succeeded resolved resolves := by cases resolves
  undisturbed running := by cases running.symm.trans requested

/-- A failure to choose heeds the token: nothing is run, and it is not called a cancellation. -/
theorem HeedsCancellation.of_unchosen {records : List Record} {failure : Failure}
    (running : world.isRequested token = false) (cancelled : failure.kind ≠ .cancelled)
    (conversion : failure.kind ≠ .conversion) :
    scope.HeedsCancellation token call overloads world
      (failed settings records world failure) where
  ran := .done world
  entry requested := by cases running.symm.trans requested
  started record member := by cases member
  finished earlier record later parts := absurd parts (by simp [failed])
  cancelled fails := absurd (failsWith_failed_iff.mp fails) cancelled
  conversion fails := absurd (failsWith_failed_iff.mp fails) conversion
  overtaken record member := by cases member
  succeeded resolved resolves := by cases resolves
  undisturbed _ _ fails := absurd (failsWith_failed_iff.mp fails) cancelled

/-- A resolution that converts the arguments of the sole leader heeds the token. -/
theorem HeedsCancellation.of_converted {records : List Record} {position : Nat}
    (running : world.isRequested token = false) (found : overloads[position]? = some overload)
    (sole : scope.SoleLeader call overloads position) :
    scope.HeedsCancellation token call overloads world
      (converted settings records ⟨call, overloads.length, token⟩ position
        (scope.assess call overload) world) := by
  let job : Job := ⟨call, overloads.length, token⟩
  have heeds := job.convert_heeds (scope.assess call overload) world
  obtain ⟨ran, _, _⟩ := job.convert_runs (scope.assess call overload) world
  have requested_of_cancelled : (converted settings records job position
      (scope.assess call overload) world).FailsWith .cancelled →
      (job.convert (scope.assess call overload) world).2.world.isRequested token = true := by
    rintro ⟨failure, failed, kind⟩
    exact (Job.convert_cancelled_iff failed).mp kind
  refine { ran := ran, entry := ?entry, started := ?started, finished := ?finished,
           cancelled := requested_of_cancelled, conversion := ?conversion,
           overtaken := ?overtaken, succeeded := ?succeeded, undisturbed := ?undisturbed }
  case entry =>
    intro requested
    cases running.symm.trans requested
  case started =>
    intro record recorded
    exact (heeds record recorded).started
  case finished =>
    intro earlier record later parts requested
    cases later with
    | nil => rfl
    | cons next later =>
        -- a conversion after this one would have started in the world that this one left
        rw [show (job.convert (scope.assess call overload) world).2.performed = _ from parts]
          at ran heeds
        have started := (heeds next (by simp)).started
        rw [ran.before_eq_after] at started
        cases started.symm.trans requested
  case conversion =>
    rintro ⟨failure, failed, kind⟩
    obtain ⟨earlier, culprit, later, values, middle, parts, converts,
      ⟨other, _⟩ | ⟨_, still, fails⟩⟩ := Job.convert_failsAt failed
    · cases kind.symm.trans other
    · exact ⟨still, position, overload, earlier, culprit, later, values, middle, rfl, found, parts,
        converts, fails⟩
  case overtaken =>
    intro record recorded error erred requested
    obtain ⟨⟨failure, failed⟩, last⟩ := (heeds record recorded).final error erred
    rw [last] at requested
    exact ⟨failure, failed, (Job.convert_cancelled_iff failed).mpr requested⟩
  case succeeded =>
    intro resolved resolves
    refine ⟨running, overload, List.mem_of_getElem? found, ?_, positions_assess (sole.viable found),
      fun earlier use later parts => Job.convert_running_at resolves parts⟩
    rw [Job.convert_overload resolves, overload_assess]
  case undisturbed =>
    intro _ unrequested cancelled
    rcases ran.exists_requested (requested_of_cancelled cancelled) with
      made | ⟨record, recorded, made⟩
    · cases running.symm.trans made
    · cases (unrequested record recorded).symm.trans made

/-- **Every resolution heeds its token.** -/
theorem resolve_heedsCancellation (scope : Scope) (settings : Settings) (token : Token)
    (call : Call) (overloads : List Overload) (world : World) :
    scope.HeedsCancellation token call overloads world
      (scope.resolve settings token call overloads world) := by
  have course := scope.resolve_course settings token call overloads world
  generalize scope.resolve settings token call overloads world = resolution at course ⊢
  cases course with
  | cancelled requested => exact .of_requested requested
  | converted running found sole => exact .of_converted running found sole
  | tied running | refused running | unmatched running =>
      exact .of_unchosen running FailureKind.noConfusion FailureKind.noConfusion

/-- Reads one, whatever the token, and requests a cancellation while it does. -/
def cancelling (source : Source) : Reader where
  label := "cancelling"
  read _ _ := do
    Run.cancel source
    pure (.ok (.integer .int 1))

/-- The first of two arguments is read to the end, and the second is not read. -/
example :
    let resolution := resolve
      ⟨.initial, some (.entries [⟨.named "Int", some (cancelling ⟨0⟩)⟩])⟩ .initial (.of ⟨0⟩)
      (echoing [.ofToken "1", .ofToken "2"])
      [⟨none, [.required "first" .int, .required "second" .int], none⟩] ⟨[], 1, []⟩
    resolution.performed.map Performed.position = [0] ∧
      (resolution.outcome matches .error ⟨.cancelled, _, _, _, _, _, _⟩) = true := by
  decide +kernel

end Scope

end OverloadResolution
