import OverloadResolution.Proofs.Delivery

/-!
# What a resolution runs

Assessing runs no code from outside, so all that a resolution does to the world is done by the
conversions it has on record (`Ran`).  Which conversions these are is settled before the first of
them runs: they are an initial part of what the chosen overload calls for
(`Assessment.planned`), and all of it when the resolution succeeds.  No other overload has any
part in it, and an overload that takes every argument as it is leaves nothing to run, chosen or not
(`Scope.RunsPlanned`, `Scope.resolve_runs`).
-/

set_option autoImplicit false

namespace OverloadResolution

/-- The conversions that the uses of an assessment call for, in the order of the arguments. -/
def Assessment.planned (assessment : Assessment) : List (Nat × Conversion) :=
  assessment.uses.flatMap Use.planned

/-- No overload was selected: nothing matches, every overload refuses the caller, or some tie. -/
def Resolution.Unselected (resolution : Resolution) : Prop :=
  resolution.FailsWith .noMatch ∨ resolution.FailsWith .receiver ∨
    resolution.FailsWith .ambiguous

theorem Job.flatMap_planned_tasks (assessment : Assessment) :
    ((tasks assessment).flatMap fun task => task.2.planned) = assessment.planned := by
  rw [Assessment.planned, ← map_snd_tasks, List.flatMap_map]

/-- What a conversion has run, beside what its overload calls for. -/
theorem Job.convert_runs (job : Job) (assessment : Assessment) (world : World) :
    Ran job.context world (job.convert assessment world).2.performed
        (job.convert assessment world).2.world ∧
      (job.convert assessment world).2.performed.map Performed.key <+: assessment.planned ∧
      ∀ resolved, (job.convert assessment world).1 = .ok resolved →
        (job.convert assessment world).2.performed.map Performed.key = assessment.planned := by
  rcases job.convert_run assessment world with ⟨failure, failed, run⟩ | ⟨values, succeeded, run⟩
  · obtain ⟨_, ⟨records, performed, ran, rfl⟩, initial, _⟩ := run.advances
    rw [flatMap_planned_tasks] at initial
    rw [performed]
    refine ⟨ran, initial, fun resolved succeeded => ?_⟩
    cases failed.symm.trans succeeded
  · obtain ⟨_, ⟨records, performed, ran, rfl⟩, initial, complete⟩ := run.advances
    rw [flatMap_planned_tasks] at initial complete
    rw [performed]
    exact ⟨ran, initial, fun _ _ => complete values rfl⟩

/-! ## What the conversions on record did -/

/-- The effects of a conversion on record. -/
def Performed.effects (context : ReadContext) (record : Performed) : List Effect :=
  (record.conversion.run context record.before).2

/-- The world after conversions on record is the one that their effects lead to. -/
theorem Ran.last_eq {context : ReadContext} {first last : World} {records : List Performed}
    (ran : Ran context first records last) :
    last = first.after (records.flatMap (Performed.effects context)) := by
  induction ran with
  | done => rfl
  | next answered _ ih =>
      obtain ⟨-, rfl⟩ := Prod.mk.inj answered
      rw [List.flatMap_cons, World.after_append]
      exact ih

namespace Scope

/-- Whatever resolving comes to, only the conversions on record have run. -/
theorem resolve_ran (scope : Scope) (settings : Settings) (token : Token) (call : Call)
    (overloads : List Overload) (world : World) :
    Ran ⟨call.caller, token⟩ world
      (scope.resolve settings token call overloads world).performed
      (scope.resolve settings token call overloads world).world := by
  have course := scope.resolve_course settings token call overloads world
  generalize scope.resolve settings token call overloads world = resolution at course ⊢
  cases course with
  | @converted _ overload =>
      exact (Job.convert_runs ⟨call, overloads.length, token⟩ (scope.assess call overload) world).1
  | cancelled | tied | refused | unmatched => exact .done world

end Scope

/-! ## Overloads that take every argument as it is -/

theorem Fit.eq_asIs_of_topRank {fit : Fit} (top : topRank ≤ fit.rank) : fit = .asIs := by
  cases fit with
  | asIs => rfl
  | offered | read | ambiguous | impossible => exact absurd top (by simp [rank]; decide)

theorem Use.planned_of_asIs {use : Use} (direct : use.fit = .asIs) : use.planned = [] := by
  simp [planned, conversion?, direct]

namespace Scope

variable {scope : Scope} {settings : Settings} {token : Token} {call : Call}
  {overloads : List Overload} {overload : Overload} {world : World}

/-- A match that needs no conversion has the top score. -/
theorem score_of_direct (matched : scope.Viable call overload)
    (direct : ∀ use ∈ (scope.assess call overload).uses, use.fit = .asIs) :
    (scope.assess call overload).score = Fit.topRank := by
  rw [score_of_matched matched]
  rcases Assessment.worstRank_attained (scope.assess call overload).uses with
    top | ⟨use, member, same⟩
  · exact top
  · rw [same, direct use member]
    rfl

/-- A match with the top score calls for no conversion. -/
theorem planned_of_topRank (matched : scope.Viable call overload)
    (top : Fit.topRank ≤ (scope.assess call overload).score) :
    (scope.assess call overload).planned = [] := by
  refine List.flatMap_eq_nil_iff.mpr fun use member => Use.planned_of_asIs ?_
  rw [score_of_matched matched] at top
  exact Fit.eq_asIs_of_topRank (Int.le_trans top (Assessment.worstRank_le member))

/-- Beside a match that needs no conversion, the sole leader needs none either. -/
theorem SoleLeader.planned_of_direct {position : Nat} {other : Overload}
    (sole : scope.SoleLeader call overloads position)
    (found : overloads[position]? = some overload) (member : other ∈ overloads)
    (matched : scope.Viable call other)
    (direct : ∀ use ∈ (scope.assess call other).uses, use.fit = .asIs) :
    (scope.assess call overload).planned = [] := by
  obtain ⟨leader, leaderFound, viable, unsurpassed⟩ := sole.1
  cases found.symm.trans leaderFound
  refine planned_of_topRank viable ?_
  rw [← score_of_direct matched direct]
  exact unsurpassed other member matched

/-! ## The runs of a resolution -/

/-- What a resolution runs, beside what the overloads call for. -/
structure RunsPlanned (scope : Scope) (token : Token) (call : Call) (overloads : List Overload)
    (world : World) (resolution : Resolution) : Prop where
  /-- The conversions on record ran one after another, and nothing else changed the world. -/
  ran : Ran ⟨call.caller, token⟩ world resolution.performed resolution.world
  /-- Nothing runs for a call that is cancelled at once, or when no overload is selected. -/
  idle : world.isRequested token = true ∨ resolution.Unselected → resolution.performed = []
  /-- Otherwise what has run is an initial part of what the arguments of the sole leader call for,
  one argument after another, and all of it after a success. -/
  planned : ¬ (world.isRequested token = true ∨ resolution.Unselected) →
    ∃ position overload, overloads[position]? = some overload ∧
      scope.SoleLeader call overloads position ∧
      (scope.assess call overload).uses.map Use.position = List.range call.arguments.length ∧
      resolution.performed.map Performed.key <+: (scope.assess call overload).planned ∧
      ∀ resolved, resolution.outcome = .ok resolved →
        resolution.performed.map Performed.key = (scope.assess call overload).planned
  /-- Nothing runs beside a match that takes every argument as it is. -/
  direct : (∃ overload ∈ overloads, scope.Viable call overload ∧
      ∀ use ∈ (scope.assess call overload).uses, use.fit = .asIs) → resolution.performed = []

/-- A resolution that fails before any conversion runs nothing. -/
theorem RunsPlanned.of_failed {records : List Record} {failure : Failure}
    (settled : world.isRequested token = true ∨
      (failed settings records world failure).Unselected) :
    scope.RunsPlanned token call overloads world (failed settings records world failure) where
  ran := .done world
  idle _ := rfl
  planned unsettled := absurd settled unsettled
  direct _ := rfl

/-- A resolution that converts the arguments of the sole leader runs what these call for. -/
theorem RunsPlanned.of_converted {records : List Record} {position : Nat}
    (running : world.isRequested token = false) (found : overloads[position]? = some overload)
    (sole : scope.SoleLeader call overloads position) :
    scope.RunsPlanned token call overloads world
      (converted settings records ⟨call, overloads.length, token⟩ position
        (scope.assess call overload) world) := by
  obtain ⟨ran, initial, complete⟩ := Job.convert_runs ⟨call, overloads.length, token⟩
    (scope.assess call overload) world
  refine ⟨ran, ?_, fun _ => ?_, ?_⟩
  · rintro (requested | unselected)
    · cases running.symm.trans requested
    · rcases unselected with fails | fails | fails <;>
        exact absurd fails (not_failsWith_converted (by decide) (by decide))
  · exact ⟨position, overload, found, sole, positions_assess (sole.viable found), initial,
      complete⟩
  · rintro ⟨other, member, matched, direct⟩
    rw [sole.planned_of_direct found member matched direct, List.prefix_nil,
      List.map_eq_nil_iff] at initial
    exact initial

/-- **All that a resolution runs is called for by the chosen overload.** -/
theorem resolve_runs (scope : Scope) (settings : Settings) (token : Token) (call : Call)
    (overloads : List Overload) (world : World) :
    scope.RunsPlanned token call overloads world
      (scope.resolve settings token call overloads world) := by
  have course := scope.resolve_course settings token call overloads world
  generalize scope.resolve settings token call overloads world = resolution at course ⊢
  cases course with
  | cancelled requested => exact .of_failed (.inl requested)
  | converted running found sole => exact .of_converted running found sole
  | tied => exact .of_failed (.inr (.inr (.inr (failsWith_failed_iff.mpr rfl))))
  | refused => exact .of_failed (.inr (.inr (.inl (failsWith_failed_iff.mpr rfl))))
  | unmatched => exact .of_failed (.inr (.inl (failsWith_failed_iff.mpr rfl)))

end Scope

end OverloadResolution
