import OverloadResolution.Proofs.Delivery

/-!
# What an assessment has on record

An assessment keeps, for each parameter that the walk came to, what the parameter got.  The walk can
break off in several ways, and the record is read however it ended, because overloads that do not
match are traced too.  So the record has to be sound in every case (`Assessment.WellFormed`): it is
of the first parameters of the overload and of the first arguments of the call, each in order, and
whatever is looked up in it by position is there.

How far it goes has a closed form.  The walk ends at a parameter that rejects an argument or needs
one that it does not get (`Scope.EndsAt`), and a parameter is on record exactly if the walk ends at
none before it (`Scope.lt_length_bindings_iff`).  A match has all parameters and all arguments on
record, and one argument for each parameter that takes one (`Assessment.Complete`), so the
conversion that follows finds what it looks for (`Scope.assess_keepsRecord`).
-/

set_option autoImplicit false

namespace OverloadResolution

/-! ## Where a walk ends -/

namespace Scope

/-- The walk ends at the parameter at an index: it rejects an argument that it takes, or it needs
one and takes none. -/
def EndsAt (scope : Scope) (parameters : List Parameter) (arguments : List Argument)
    (index : Nat) : Prop :=
  scope.RejectsAt parameters arguments index ∨
    Parameter.UnboundAt parameters arguments.length index

variable {scope : Scope} {parameter : Parameter} {parameters : List Parameter}
  {argument : Argument} {arguments : List Argument} {index : Nat}

/-- A vararg never lacks an argument. -/
theorem endsAt_vararg_zero_iff (vararg : parameter.isVararg = true) :
    scope.EndsAt (parameter :: parameters) arguments 0 ↔
      ∃ argument ∈ arguments, scope.accepts parameter argument = false := by
  simp only [EndsAt, RejectsAt, Parameter.UnboundAt, Parameter.firstVararg_cons_vararg vararg]
  constructor
  · rintro (⟨_, position, argument, found, given, _, rejected⟩ | ⟨_, found, _, single, _⟩)
    · cases found
      exact ⟨argument, List.mem_of_getElem? given, rejected⟩
    · cases found
      cases vararg.symm.trans single
  · rintro ⟨argument, member, rejected⟩
    obtain ⟨position, given⟩ := List.mem_iff_getElem?.mp member
    exact .inl ⟨parameter, position, argument, rfl, given, Nat.min_zero position, rejected⟩

/-- A parameter after a vararg takes nothing. -/
theorem endsAt_vararg_succ_iff (vararg : parameter.isVararg = true) :
    scope.EndsAt (parameter :: parameters) arguments (index + 1) ↔
      scope.EndsAt parameters [] index := by
  simp [EndsAt, RejectsAt, Parameter.UnboundAt, Parameter.firstVararg_cons_vararg vararg]

theorem endsAt_single_zero_iff (single : parameter.isVararg = false) :
    scope.EndsAt (parameter :: parameters) (argument :: arguments) 0 ↔
      scope.accepts parameter argument = false := by
  simp only [EndsAt, RejectsAt, Parameter.UnboundAt, Parameter.firstVararg_cons_single single]
  constructor
  · rintro (⟨_, position, other, found, given, here, rejected⟩ | ⟨_, _, _, _, untaken⟩)
    · cases found
      obtain rfl : position = 0 := by omega
      cases given
      exact rejected
    · exact absurd (Nat.zero_min _) (untaken 0 (Nat.succ_pos _))
  · intro rejected
    exact .inl ⟨parameter, 0, argument, rfl, rfl, Nat.zero_min _, rejected⟩

theorem rejectsAt_single_succ_iff (single : parameter.isVararg = false) :
    scope.RejectsAt (parameter :: parameters) (argument :: arguments) (index + 1) ↔
      scope.RejectsAt parameters arguments index := by
  simp only [RejectsAt, Parameter.firstVararg_cons_single single, List.getElem?_cons_succ]
  constructor
  · rintro ⟨other, position, taken, found, given, here, rejected⟩
    obtain ⟨position, rfl⟩ := Nat.exists_eq_succ_of_ne_zero (n := position) (by omega)
    exact ⟨other, position, taken, found, given, by omega, rejected⟩
  · rintro ⟨other, position, taken, found, given, here, rejected⟩
    exact ⟨other, position + 1, taken, found, given, by omega, rejected⟩

theorem unboundAt_single_succ_iff (single : parameter.isVararg = false) (count : Nat) :
    Parameter.UnboundAt (parameter :: parameters) (count + 1) (index + 1) ↔
      Parameter.UnboundAt parameters count index := by
  simp only [Parameter.UnboundAt, Parameter.firstVararg_cons_single single,
    List.getElem?_cons_succ]
  constructor
  · rintro ⟨other, found, required, alone, untaken⟩
    refine ⟨other, found, required, alone, fun position inside here => ?_⟩
    exact untaken (position + 1) (Nat.succ_lt_succ inside) (by omega)
  · rintro ⟨other, found, required, alone, untaken⟩
    refine ⟨other, found, required, alone, fun position inside here => ?_⟩
    obtain ⟨position, rfl⟩ := Nat.exists_eq_succ_of_ne_zero (n := position) (by omega)
    exact untaken position (Nat.lt_of_succ_lt_succ inside) (by omega)

/-- Behind a parameter that takes one argument, the others are left with the other arguments. -/
theorem endsAt_single_succ_iff (single : parameter.isVararg = false) :
    scope.EndsAt (parameter :: parameters) (argument :: arguments) (index + 1) ↔
      scope.EndsAt parameters arguments index :=
  or_congr (rejectsAt_single_succ_iff single) (unboundAt_single_succ_iff single arguments.length)

theorem endsAt_none_zero_iff (single : parameter.isVararg = false) :
    scope.EndsAt (parameter :: parameters) [] 0 ↔ parameter.isOptional = false := by
  simp [EndsAt, RejectsAt, Parameter.UnboundAt, single]

theorem endsAt_none_succ_iff :
    scope.EndsAt (parameter :: parameters) [] (index + 1) ↔ scope.EndsAt parameters [] index := by
  simp [EndsAt, RejectsAt, Parameter.UnboundAt]

/-- The walk comes to the parameter at an index, because it ends at none before it. -/
def Reaches (scope : Scope) (parameters : List Parameter) (arguments : List Argument)
    (index : Nat) : Prop :=
  index < parameters.length ∧ ∀ earlier < index, ¬ scope.EndsAt parameters arguments earlier

theorem reaches_zero (scope : Scope) (parameter : Parameter) (parameters : List Parameter)
    (arguments : List Argument) : scope.Reaches (parameter :: parameters) arguments 0 :=
  ⟨Nat.succ_pos _, fun _ before => absurd before (Nat.not_lt_zero _)⟩

/-- Where the walk passes the first parameter, it comes to the others as it does with the arguments
that are left. -/
theorem lt_length_after_iff {left : List Argument} {rest : Walk} (binding : Binding)
    (passes : ¬ scope.EndsAt (parameter :: parameters) arguments 0)
    (behind : ∀ index, scope.EndsAt (parameter :: parameters) arguments (index + 1) ↔
      scope.EndsAt parameters left index)
    (others : ∀ index, index < rest.bindings.length ↔ scope.Reaches parameters left index)
    (index : Nat) :
    index < (rest.after binding).bindings.length ↔
      scope.Reaches (parameter :: parameters) arguments index := by
  cases index with
  | zero => exact iff_of_true (Nat.succ_pos _) (reaches_zero scope parameter parameters arguments)
  | succ index =>
      rw [Walk.after, List.length_cons, Nat.succ_lt_succ_iff, others, Reaches, Reaches,
        Nat.forall_lt_succ_left, List.length_cons, Nat.succ_lt_succ_iff, and_iff_right passes]
      simp only [behind]

/-- Where it ends at the first parameter, it comes to no other. -/
theorem lt_length_endingAt_iff (verdict : Verdict) (binding : Binding)
    (ends : scope.EndsAt (parameter :: parameters) arguments 0) (index : Nat) :
    index < (Walk.endingAt verdict binding).bindings.length ↔
      scope.Reaches (parameter :: parameters) arguments index := by
  cases index with
  | zero => exact iff_of_true Nat.one_pos (reaches_zero scope parameter parameters arguments)
  | succ index =>
      refine iff_of_false (fun inside => ?_) fun reaches => reaches.2 0 (Nat.succ_pos index) ends
      cases Nat.lt_of_succ_lt_succ inside

/-- All uses will do exactly if the parameter accepts all arguments. -/
theorem all_useAll_iff {position : Nat} :
    ((scope.useAll parameter position arguments).all fun use => use.fit.isAcceptable) = true ↔
      ∀ argument ∈ arguments, scope.accepts parameter argument = true := by
  induction arguments generalizing position with
  | nil => simp [useAll]
  | cons argument rest ih =>
      rw [useAll, List.all_cons, Bool.and_eq_true, ih, List.forall_mem_cons]
      rfl

/-- **A parameter is on record exactly if the walk comes to it.** -/
theorem lt_length_bindings_iff (scope : Scope) (parameters : List Parameter) (position : Nat)
    (arguments : List Argument) (index : Nat) :
    index < (scope.walk parameters position arguments).bindings.length ↔
      scope.Reaches parameters arguments index := by
  fun_induction walk scope parameters position arguments generalizing index with
  | case1 => simp [Reaches]
  | case2 => simp [Reaches]
  | case3 parameter parameters position arguments vararg uses acceptable ih =>
      refine lt_length_after_iff _ ?_ (fun _ => endsAt_vararg_succ_iff vararg) ih index
      rw [endsAt_vararg_zero_iff vararg]
      rintro ⟨argument, member, rejected⟩
      exact ne_true_of_eq_false rejected (all_useAll_iff.mp acceptable argument member)
  | case4 parameter parameters position arguments vararg uses rejected =>
      refine lt_length_endingAt_iff _ _ ((endsAt_vararg_zero_iff vararg).mpr ?_) index
      simpa using mt all_useAll_iff.mpr rejected
  | case5 parameter parameters position single argument rest use acceptable ih =>
      have single := eq_false_of_ne_true single
      refine lt_length_after_iff _ ?_ (fun _ => endsAt_single_succ_iff single) ih index
      rw [endsAt_single_zero_iff single]
      exact ne_false_of_eq_true acceptable
  | case6 parameter parameters position single argument rest use rejected =>
      have single := eq_false_of_ne_true single
      refine lt_length_endingAt_iff _ _ ((endsAt_single_zero_iff single).mpr ?_) index
      exact eq_false_of_ne_true rejected
  | case7 parameter parameters position single optional ih =>
      have single := eq_false_of_ne_true single
      refine lt_length_after_iff _ ?_ (fun _ => endsAt_none_succ_iff) ih index
      rw [endsAt_none_zero_iff single]
      exact ne_false_of_eq_true optional
  | case8 parameter parameters position single required =>
      have single := eq_false_of_ne_true single
      exact lt_length_endingAt_iff _ _
        ((endsAt_none_zero_iff single).mpr (eq_false_of_ne_true required)) index

/-! ## Which arguments are on record -/

/-- The takers of a call take the arguments one after another, from the first. -/
theorem map_position_takings (scope : Scope) (parameters : List Parameter) (position : Nat)
    (arguments : List Argument) :
    (scope.takings parameters position arguments).map Use.position =
      List.range' position (scope.takings parameters position arguments).length := by
  fun_induction takings scope parameters position arguments with
  | case1 => rfl
  | case2 => rw [map_position_useAll, length_useAll]
  | case3 => rfl
  | case4 parameter parameters position single argument rest ih =>
      rw [List.map_cons, ih, List.length_cons, List.range'_succ]
      rfl

theorem length_takings_le (scope : Scope) (parameters : List Parameter) (position : Nat)
    (arguments : List Argument) :
    (scope.takings parameters position arguments).length ≤ arguments.length := by
  fun_induction takings scope parameters position arguments with
  | case1 => exact Nat.zero_le _
  | case2 => rw [length_useAll]
  | case3 => exact Nat.le_refl _
  | case4 parameter parameters position single argument rest ih => exact Nat.succ_le_succ ih

/-- Whatever the verdict, the positions on record follow one another from the first. -/
theorem map_position_uses_walk (scope : Scope) (parameters : List Parameter) (position : Nat)
    (arguments : List Argument) :
    (scope.walk parameters position arguments).uses.map Use.position =
      List.range' position (scope.walk parameters position arguments).uses.length := by
  obtain ⟨others, all⟩ := scope.walk_uses_prefix parameters position arguments
  have positions := scope.map_position_takings parameters position arguments
  rw [← all, List.map_append] at positions
  obtain ⟨count, _, first, _⟩ := List.range'_eq_append_iff.mp positions.symm
  have length := congrArg List.length first
  rw [List.length_map, List.length_range'] at length
  rw [length]
  exact first

/-- The parameters on record are the first ones, in order. -/
theorem map_parameter_walk (scope : Scope) (parameters : List Parameter) (position : Nat)
    (arguments : List Argument) :
    (scope.walk parameters position arguments).bindings.map Binding.parameter <+: parameters := by
  fun_induction walk scope parameters position arguments
  case case1 | case2 => exact List.prefix_refl _
  -- the walk goes on
  case case3 ih | case5 ih | case7 ih => exact (List.prefix_cons_inj _).mpr ih
  -- it ends at this parameter
  case case4 | case6 | case8 => exact (List.prefix_cons_inj _).mpr List.nil_prefix

end Scope

/-! ## Reading the record by position -/

namespace Binding

/-- The positions of the arguments that a parameter got, in order. -/
def positions (binding : Binding) : List Nat := binding.uses.map Use.position

/-- How these arguments fit, in the same order. -/
def fits (binding : Binding) : List Fit := binding.uses.map Use.fit

/-- A use as it is read back from a record of positions and fits and from the arguments of a call.
There is none if the record does not go so far, or if the call has no argument at the position. -/
def useAt? (call : Call) (binding : Binding) (place : Nat) : Option Use := do
  let position ← binding.positions[place]?
  let argument ← call.arguments[position]?
  let fit ← binding.fits[place]?
  some ⟨position, argument, fit⟩

/-- Where the arguments of the uses stand at their positions, every use is read back. -/
theorem useAt?_eq {call : Call} {binding : Binding}
    (given : ∀ use ∈ binding.uses, call.arguments[use.position]? = some use.argument)
    (place : Nat) : binding.useAt? call place = binding.uses[place]? := by
  rw [useAt?, positions, fits, List.getElem?_map, List.getElem?_map]
  cases found : binding.uses[place]? with
  | none => rfl
  | some use =>
      have argument := given use (List.mem_of_getElem? found)
      simp [argument]

end Binding

namespace Assessment

/-- What holds of the record of an assessment, whatever its verdict. -/
structure WellFormed (scope : Scope) (call : Call) (assessment : Assessment) : Prop where
  /-- The parameters on record are the first ones of the overload, in order. -/
  parameters : assessment.bindings.map Binding.parameter <+: assessment.overload.parameters
  /-- A parameter is on record if the caller is admitted and the walk comes to it. -/
  reached : ∀ index, index < assessment.bindings.length ↔
    scope.Admits call.caller assessment.overload ∧
      scope.Reaches assessment.overload.parameters call.arguments index
  /-- A position on record has a fit. -/
  paired : ∀ binding ∈ assessment.bindings, binding.positions.length = binding.fits.length
  /-- The positions on record are the first ones of the call, in order. -/
  positions : ∃ count ≤ call.arguments.length,
    assessment.bindings.flatMap Binding.positions = List.range count
  /-- A use is read back from its place on record. -/
  uses : ∀ binding ∈ assessment.bindings, ∀ place,
    binding.useAt? call place = binding.uses[place]?
  /-- A fit on record is that of the parameter and the argument. -/
  fits : ∀ binding ∈ assessment.bindings, ∀ use ∈ binding.uses,
    use.fit = scope.fit binding.parameter use.argument
  /-- A parameter that is skipped got nothing, is optional and takes one argument. -/
  skipped : ∀ binding ∈ assessment.bindings, binding.share = .skipped →
    binding.positions = [] ∧ binding.parameter.isOptional = true ∧
      binding.parameter.isVararg = false

/-- What holds beside if the overload matches. -/
structure Complete (call : Call) (assessment : Assessment) : Prop where
  /-- All parameters of the overload are on record. -/
  parameters : assessment.bindings.map Binding.parameter = assessment.overload.parameters
  /-- All positions of the call are. -/
  positions : assessment.bindings.flatMap Binding.positions = List.range call.arguments.length
  /-- A parameter that takes one argument and is not skipped got one, which comes first. -/
  single : ∀ binding ∈ assessment.bindings, binding.share ≠ .skipped →
    binding.parameter.isVararg = false →
      ∃ use, binding.share = .one use ∧ binding.positions = [use.position] ∧
        binding.useAt? call 0 = some use
  /-- All fits will do. -/
  acceptable : ∀ binding ∈ assessment.bindings, ∀ fit ∈ binding.fits, fit.isAcceptable = true

end Assessment

/-- The positions on record are those of the uses. -/
theorem Binding.flatMap_positions (bindings : List Binding) :
    bindings.flatMap Binding.positions = (bindings.flatMap Binding.uses).map Use.position :=
  List.map_flatMap.symm

namespace Scope

variable {scope : Scope} {call : Call} {overload : Overload}

/-- Without an admitted caller nothing is on record. -/
theorem wellFormed_of_not_admits (refused : ¬ scope.Admits call.caller overload) :
    (scope.assess call overload).WellFormed scope call := by
  rw [assess_of_not_admits refused]
  exact
    { parameters := List.nil_prefix
      reached := fun index => iff_of_false (Nat.not_lt_zero index) fun both => refused both.1
      paired := List.forall_mem_nil _
      positions := ⟨0, Nat.zero_le _, rfl⟩
      uses := List.forall_mem_nil _
      fits := List.forall_mem_nil _
      skipped := List.forall_mem_nil _ }

/-- With an admitted caller what the walk leaves is on record. -/
theorem wellFormed_of_admits (admits : scope.Admits call.caller overload) :
    (scope.assess call overload).WellFormed scope call := by
  rw [assess_of_admits admits]
  refine
    { parameters := scope.map_parameter_walk overload.parameters 0 call.arguments
      reached := fun index => ?reached
      paired := fun binding _ => ?paired
      positions := ?positions
      uses := fun binding member => ?uses
      fits := fun binding member use used => ?fits
      skipped := fun binding member skipped => ?skipped }
  case reached =>
    rw [lt_length_bindings_iff]
    exact (and_iff_right admits).symm
  case paired => rw [Binding.positions, Binding.fits, List.length_map, List.length_map]
  case positions =>
    refine ⟨(scope.walk overload.parameters 0 call.arguments).uses.length, ?_, ?_⟩
    · exact (scope.walk_uses_prefix overload.parameters 0 call.arguments).length_le.trans
        (scope.length_takings_le overload.parameters 0 call.arguments)
    · rw [Binding.flatMap_positions, List.range_eq_range']
      exact scope.map_position_uses_walk overload.parameters 0 call.arguments
  case uses => exact Binding.useAt?_eq fun use used => given_of_mem_walk member used
  case fits =>
    have formed := scope.walk_formed overload.parameters 0 call.arguments binding member
    exact congrArg Use.fit (formed.eq_use used)
  case skipped =>
    have formed := scope.walk_formed overload.parameters 0 call.arguments binding member
    cases formed with
    | one | many | missing => cases skipped
    | skipped single optional => exact ⟨rfl, optional, single⟩

/-- **The record of an assessment is well formed, whatever its verdict.** -/
theorem wellFormed_assess (scope : Scope) (call : Call) (overload : Overload) :
    (scope.assess call overload).WellFormed scope call := by
  by_cases admits : scope.Admits call.caller overload
  · exact wellFormed_of_admits admits
  · exact wellFormed_of_not_admits admits

/-- Parameters that are bound and neither vararg nor skipped got one argument. -/
theorem Binds.one_of_mem {parameters : List Parameter} {position : Nat}
    {arguments : List Argument} {bindings : List Binding}
    (binds : scope.Binds parameters position arguments bindings) :
    ∀ binding ∈ bindings, binding.share ≠ .skipped → binding.parameter.isVararg = false →
      ∃ use, binding.share = .one use := by
  induction binds with
  | nil => exact List.forall_mem_nil _
  | many vararg _ ih =>
      refine List.forall_mem_cons.mpr ⟨fun _ single => ?_, ih⟩
      cases vararg.symm.trans single
  | one _ _ ih => exact List.forall_mem_cons.mpr ⟨fun _ _ => ⟨_, rfl⟩, ih⟩
  | skipped _ _ _ ih => exact List.forall_mem_cons.mpr ⟨fun taken => absurd rfl taken, ih⟩

/-- **A match is on record completely.** -/
theorem Viable.complete (matched : scope.Viable call overload) :
    (scope.assess call overload).Complete call where
  parameters := by
    rw [overload_assess]
    exact (assess_binds matched).parameters_eq
  positions := by
    rw [Binding.flatMap_positions]
    exact positions_assess matched
  single binding member taken single := by
    obtain ⟨use, share⟩ := (assess_binds matched).one_of_mem binding member taken single
    have uses : binding.uses = [use] := congrArg Share.uses share
    refine ⟨use, share, ?_, ?_⟩
    · rw [Binding.positions, uses, List.map_singleton]
    · rw [(scope.wellFormed_assess call overload).uses binding member, uses]
      rfl
  acceptable binding member fit listed := by
    obtain ⟨use, used, rfl⟩ := List.mem_map.mp listed
    exact assess_acceptable matched use (List.mem_flatMap.mpr ⟨binding, member, used⟩)

end Scope

/-- All parameters are on record exactly if the walk comes to all of them. -/
theorem Assessment.WellFormed.all_iff {scope : Scope} {call : Call} {assessment : Assessment}
    (wellFormed : assessment.WellFormed scope call) :
    assessment.bindings.map Binding.parameter = assessment.overload.parameters ↔
      ∀ index < assessment.overload.parameters.length,
        scope.Admits call.caller assessment.overload ∧
          scope.Reaches assessment.overload.parameters call.arguments index := by
  simp only [← wellFormed.reached]
  constructor
  · intro all index inside
    rw [← all, List.length_map] at inside
    exact inside
  · intro reached
    refine wellFormed.parameters.eq_of_length_le ?_
    rw [List.length_map]
    exact Nat.le_of_not_lt fun fewer => Nat.lt_irrefl _ (reached _ fewer)

/-- **An assessment keeps a sound record of the walk, whatever came of it.**  It goes as far as the
walk comes, and whatever is looked up in it by position is there; so the overloads that do not match
can be traced as well.  The record of a match is complete, and only a match is ever chosen; so a
conversion finds an argument for every parameter that takes one and is not skipped. -/
theorem Scope.assess_keepsRecord (scope : Scope) (call : Call) (overload : Overload) :
    (scope.assess call overload).overload = overload ∧
      (scope.assess call overload).WellFormed scope call ∧
      ((scope.assess call overload).bindings.map Binding.parameter = overload.parameters ↔
        ∀ index < overload.parameters.length,
          scope.Admits call.caller overload ∧
            scope.Reaches overload.parameters call.arguments index) ∧
      ((scope.assess call overload).verdict = .matched →
        (scope.assess call overload).Complete call) ∧
      ∀ overloads position chosen,
        Selection.ofAssessments (scope.assessAll call overloads) = .chosen position chosen →
          chosen.Complete call := by
  have wellFormed := scope.wellFormed_assess call overload
  have all := wellFormed.all_iff
  rw [overload_assess] at all
  refine ⟨overload_assess scope call overload, wellFormed, all, Viable.complete, ?_⟩
  intro overloads position chosen selected
  have selects := scope.selects_ofAssessments call overloads
  rw [selected] at selects
  cases selects with
  | chosen found sole => exact (sole.viable found).complete

/-- The walk ends at the second parameter, which is on record without an argument. -/
example : ((Scope.assess ⟨.initial, none⟩ (Scope.echoing [.ofToken "a"])
    ⟨none, [.required "first" .string, .required "second" .string, .optional "third" .string],
      none⟩).bindings.map Binding.positions) = [[0], []] := by
  decide

end OverloadResolution
