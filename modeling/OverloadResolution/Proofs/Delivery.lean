import Mathlib.Data.List.Forall2
import OverloadResolution.Proofs.Resolving
import OverloadResolution.Registry.Builtin

/-!
# What a resolution delivers

A resolved call holds one value for each parameter.  Which value that is follows from what the
parameter got when its overload was assessed and from the outcomes of the arguments
(`Binding.Holds`): the assessment records positions, and the conversion, which is a second pass,
takes the outcomes at exactly these positions.  The positions on record are those of the call, in
order, so no argument is lost, moved or used twice (`Scope.Delivers`, `Scope.resolve_delivers`).
-/

set_option autoImplicit false

namespace OverloadResolution

/-- The value of a parameter, when it is said what value a use gives. -/
inductive Binding.Holds (gives : Use → Value → Prop) : Binding → Value → Prop where
  | one {parameter : Parameter} {use : Use} {value : Value}
      (single : parameter.isVararg = false) (given : gives use value) :
      Holds gives ⟨parameter, .one use⟩ value
  | many {parameter : Parameter} {uses : List Use} {elements : List Value}
      (vararg : parameter.isVararg = true) (given : List.Forall₂ gives uses elements) :
      Holds gives ⟨parameter, .many uses⟩ (.array parameter.type elements)
  | skipped {parameter : Parameter} {value : Value} (single : parameter.isVararg = false)
      (optional : parameter.isOptional = true) (null : value.isNull = true)
      (typed : value.type = parameter.type.orNull) : Holds gives ⟨parameter, .skipped⟩ value

namespace Scope

variable {scope : Scope} {parameters : List Parameter} {position : Nat}
  {arguments : List Argument} {bindings : List Binding}

/-- Gathering gives every parameter its value. -/
theorem Binds.holds_gather {gives : Use → Value → Prop} {values : List Value}
    (binds : scope.Binds parameters position arguments bindings)
    (given : List.Forall₂ gives (bindings.flatMap Binding.uses) values) :
    List.Forall₂ (Binding.Holds gives) bindings (Binding.gather bindings values) := by
  induction binds generalizing values with
  | nil => exact .nil
  | @many parameter parameters position arguments bindings vararg rest ih =>
      let uses := scope.useAll parameter position arguments
      rw [List.flatMap_cons] at given
      have taken := List.forall₂_take uses.length given
      have dropped := List.forall₂_drop uses.length given
      rw [show Binding.uses ⟨parameter, .many uses⟩ = uses from rfl, List.take_left] at taken
      rw [show Binding.uses ⟨parameter, .many uses⟩ = uses from rfl, List.drop_left] at dropped
      exact .cons (.many vararg taken) (ih dropped)
  | one single _ ih =>
      rw [List.flatMap_cons] at given
      cases given with
      | cons first others => exact .cons (.one single first) (ih others)
  | @skipped parameter parameters position bindings single optional rest ih =>
      rw [List.flatMap_cons] at given
      exact .cons (.skipped single optional rfl (Value.type_nullOf parameter.type)) (ih given)

end Scope

/-- Uses with the positions from zero on give what stands at their positions. -/
theorem forall₂_getElem?_position {uses : List Use} {outcomes : List Value}
    (length : outcomes.length = uses.length)
    (positions : uses.map Use.position = List.range uses.length) :
    List.Forall₂ (fun use value => outcomes[use.position]? = some value) uses outcomes := by
  rw [List.forall₂_iff_get]
  refine ⟨length.symm, fun index inside inside' => ?_⟩
  have position : (uses.get ⟨index, inside⟩).position = index := by
    have same := congrArg (fun positions => positions[index]?) positions
    simpa [inside] using same
  rw [position]
  exact List.getElem?_eq_getElem inside'

theorem Converts.length {context : ReadContext} {first last : World} {uses : List Use}
    {values : List Value} (converts : Converts context first uses values last) :
    values.length = uses.length := by
  induction converts with
  | done => rfl
  | asIs _ _ ih => exact congrArg (· + 1) ih
  | convert _ _ _ ih => exact congrArg (· + 1) ih

theorem Job.map_snd_tasks (assessment : Assessment) :
    (tasks assessment).map Prod.snd = assessment.uses := by
  simp [tasks, Assessment.uses, Binding.tasks, List.map_flatMap, Function.comp_def]

namespace Scope

/-- What a successful resolution hands over, and where each value comes from. -/
structure Delivers (scope : Scope) (token : Token) (call : Call) (overload : Overload)
    (first last : World) (resolved : ResolvedCall) : Prop where
  callee : resolved.invocation.callee = call.callee
  caller : resolved.invocation.caller = call.caller
  chosen : resolved.overload = some overload
  /-- The caller is the receiver if the overload asks for one that the caller can be. -/
  receiver :
    (∃ receiver ∈ overload.receiver,
        scope.declarations.isSubtype call.caller.type receiver.type = true) ∧
      resolved.invocation.receiver = some call.caller ∨
    (¬ ∃ receiver ∈ overload.receiver,
        scope.declarations.isSubtype call.caller.type receiver.type = true) ∧
      resolved.invocation.receiver = none
  /-- The record is of all parameters, in order, and of all arguments, in order. -/
  parameters : (scope.assess call overload).bindings.map Binding.parameter = overload.parameters
  positions : (scope.assess call overload).uses.map Use.position =
    List.range call.arguments.length
  /-- A recorded use is of the call's argument at its position, by the recorded parameter. -/
  recorded : ∀ binding ∈ (scope.assess call overload).bindings, ∀ use ∈ binding.uses,
    ∃ argument, call.arguments[use.position]? = some argument ∧
      use = scope.use binding.parameter use.position argument
  /-- The arguments have outcomes, and the parameters hold those at their positions. -/
  values : ∃ outcomes,
    Converts ⟨call.caller, token⟩ first (scope.assess call overload).uses outcomes last ∧
      List.Forall₂ (Binding.Holds fun use value => outcomes[use.position]? = some value)
        (scope.assess call overload).bindings resolved.invocation.arguments

variable {scope : Scope} {settings : Settings} {token : Token} {call : Call}
  {overloads : List Overload} {overload : Overload} {world : World}

theorem receiverBound_assess_iff (matched : scope.Viable call overload) :
    (scope.assess call overload).receiverBound = true ↔
      ∃ receiver ∈ overload.receiver,
        scope.declarations.isSubtype call.caller.type receiver.type = true := by
  obtain ⟨admits, _⟩ := (verdict_eq_iff_walk Verdict.noConfusion).mp matched
  rw [assess_of_admits admits]
  exact Option.any_eq_true _ _

theorem positions_assess (matched : scope.Viable call overload) :
    (scope.assess call overload).uses.map Use.position =
      List.range call.arguments.length := by
  rw [assess_uses matched, (assess_binds matched).positions_eq, List.range_eq_range']

theorem length_uses_assess (matched : scope.Viable call overload) :
    (scope.assess call overload).uses.length = call.arguments.length := by
  rw [assess_uses matched, (assess_binds matched).length_takings]

theorem formed_assess (matched : scope.Viable call overload) :
    ∀ binding ∈ (scope.assess call overload).bindings, binding.Formed scope := by
  rw [bindings_of_matched matched]
  exact walk_formed scope overload.parameters 0 call.arguments

theorem recorded_assess (matched : scope.Viable call overload) {binding : Binding}
    (member : binding ∈ (scope.assess call overload).bindings) {use : Use}
    (used : use ∈ binding.uses) :
    ∃ argument, call.arguments[use.position]? = some argument ∧
      use = scope.use binding.parameter use.position argument := by
  refine ⟨use.argument, ?_, (formed_assess matched binding member).eq_use used⟩
  rw [bindings_of_matched matched] at member
  exact given_of_mem_walk member used

/-- A complete run delivers. -/
theorem delivers_of_run {job : Job} {values : List Value} {last : Progress}
    (sameCall : job.call = call) (matched : scope.Viable call overload)
    (run : job.Run (Job.tasks (scope.assess call overload)) (.start world) (.ok values) last) :
    scope.Delivers job.token call overload world last.world
      (job.resolved (scope.assess call overload)
        (Binding.gather (scope.assess call overload).bindings values)) := by
  subst sameCall
  have converts := run.converts
  rw [Job.map_snd_tasks] at converts
  have outcomes : List.Forall₂ (fun use value => values[use.position]? = some value)
      (scope.assess job.call overload).uses values := by
    refine forall₂_getElem?_position converts.length ?_
    rw [positions_assess matched, length_uses_assess matched]
  refine ⟨rfl, rfl, ?_, ?_, (assess_binds matched).parameters_eq, positions_assess matched,
    fun binding member use used => recorded_assess matched member used,
    values, converts, (assess_binds matched).holds_gather outcomes⟩
  · exact congrArg some (overload_assess scope job.call overload)
  · by_cases bound : (scope.assess job.call overload).receiverBound = true
    · exact .inl ⟨(receiverBound_assess_iff matched).mp bound, if_pos bound⟩
    · exact .inr ⟨fun receives => bound ((receiverBound_assess_iff matched).mpr receives),
        if_neg bound⟩

/-- The overload at the only position that leads matches. -/
theorem SoleLeader.viable {position : Nat} (sole : scope.SoleLeader call overloads position)
    (found : overloads[position]? = some overload) : scope.Viable call overload := by
  obtain ⟨other, otherFound, viable, _⟩ := sole.1
  cases found.symm.trans otherFound
  exact viable

/-- A resolved call is put together from the values of a matching overload's uses. -/
theorem resolve_converts {resolved : ResolvedCall}
    (resolves : (scope.resolve settings token call overloads world).outcome = .ok resolved) :
    ∃ overload ∈ overloads, scope.Viable call overload ∧ ∃ values,
      resolved = Job.resolved ⟨call, overloads.length, token⟩ (scope.assess call overload)
        (Binding.gather (scope.assess call overload).bindings values) ∧
      Converts ⟨call.caller, token⟩ world (scope.assess call overload).uses values
        (scope.resolve settings token call overloads world).world := by
  have course := scope.resolve_course settings token call overloads world
  generalize scope.resolve settings token call overloads world = resolution at course resolves ⊢
  cases course with
  | cancelled | tied | refused | unmatched => cases resolves
  | @converted position overload running found sole =>
      obtain ⟨values, rfl, run⟩ := Job.convert_run_of_ok resolves
      have converts := run.converts
      rw [Job.map_snd_tasks] at converts
      exact ⟨overload, List.mem_of_getElem? found, sole.viable found, values, rfl, converts⟩

/-- **A resolved call holds, for each parameter, what its arguments came to.** -/
theorem resolve_delivers {resolved : ResolvedCall}
    (resolves : (scope.resolve settings token call overloads world).outcome = .ok resolved) :
    ∃ overload ∈ overloads, scope.Delivers token call overload world
      (scope.resolve settings token call overloads world).world resolved := by
  have course := scope.resolve_course settings token call overloads world
  generalize scope.resolve settings token call overloads world = resolution at course resolves ⊢
  cases course with
  | cancelled | tied | refused | unmatched => cases resolves
  | @converted position overload running found sole =>
      refine ⟨overload, List.mem_of_getElem? found, ?_⟩
      rcases Job.convert_run ⟨call, overloads.length, token⟩ (scope.assess call overload) world with
        ⟨failure, failed, _⟩ | ⟨values, succeeded, run⟩
      · cases failed.symm.trans resolves
      · cases succeeded.symm.trans resolves
        exact delivers_of_run rfl (sole.viable found) run

/-- Takes the number of the first line, any number of lines, and perhaps an indent; a caller may
receive it. -/
def echoLines : Overload where
  receiver := some ⟨.any, true⟩
  parameters := [.required "number" .int, .vararg (some "lines") .string false false,
    .optional "indent" .int]
  action := none

/-- A call with a number to be read, a line, and a number that comes with the offer to spell it. -/
def numbering : Call :=
  echoing [.ofToken "+7", .ofToken "b", ⟨.carried (.integer .int 9) none,
    [⟨"spelled", .string, some fun _ => pure (.ok (.string "nine"))⟩]⟩]

/-- Of three arguments one is read, one is a line as it is and one is spelled.  The two lines become
an array, and the indent that nobody gave is null. -/
theorem echoLines_delivers_three :
    ∃ resolved : ResolvedCall,
      (resolve ⟨.initial, some .builtin⟩ .initial .never numbering [echo, echoLines]
        .initial).outcome = .ok resolved ∧
      resolved.invocation.arguments = [.integer .int 7,
        .array (.array .string false) [.string "b", .string "nine"], .nullOf .int] ∧
      ∃ overload ∈ [echo, echoLines], Delivers ⟨.initial, some .builtin⟩ .never numbering overload
        .initial .initial resolved := by
  have resolves : (resolve ⟨.initial, some .builtin⟩ .initial .never numbering [echo, echoLines]
      .initial).outcome =
        .ok ⟨⟨"echo", numbering.caller, some numbering.caller, [.integer .int 7,
          .array (.array .string false) [.string "b", .string "nine"], .nullOf .int]⟩,
          some echoLines⟩ := by
    with_unfolding_all rfl
  have undisturbed : (resolve ⟨.initial, some .builtin⟩ .initial .never numbering [echo, echoLines]
      .initial).world = .initial := by
    with_unfolding_all rfl
  have delivered := resolve_delivers resolves
  rw [undisturbed] at delivered
  exact ⟨_, resolves, rfl, delivered⟩

end Scope

end OverloadResolution
