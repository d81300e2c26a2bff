import OverloadResolution.Assessment

/-!
# What a walk leaves behind

Which parameter takes which argument does not depend on how the walk ends.  Up to the first vararg
every parameter takes the argument at its own position, the vararg takes all the others, and a
parameter after it takes nothing (`Parameter.taker?`).  So the uses of a call can be listed without
walking (`Scope.takings`, `Scope.getElem?_takings`).

The walk records an initial part of that list, whatever its verdict (`Scope.walk_uses_prefix`), and
the whole list when it matches (`Scope.Binds.uses_eq`).  It rejects an argument exactly when some
use in the full list is not acceptable (`Scope.walk_argumentRejected_iff`): the uses that the walk
never reached cannot be better evidence than the one it stopped at.

What each parameter in the record got has the form that its kind prescribes (`Binding.Formed`), and
a walk that matches has bound all parameters (`Scope.Binds`).
-/

set_option autoImplicit false

namespace OverloadResolution

/-! ## The parameter that takes an argument -/

namespace Parameter

/-- The position of the first vararg, or the number of parameters when there is none. -/
def firstVararg (parameters : List Parameter) : Nat := parameters.findIdx Parameter.isVararg

/-- The parameter that takes the argument at a position, if any does. -/
def taker? (parameters : List Parameter) (position : Nat) : Option Parameter :=
  parameters[min position (firstVararg parameters)]?

variable {parameter : Parameter} {parameters : List Parameter}

theorem firstVararg_cons_vararg (vararg : parameter.isVararg = true) :
    firstVararg (parameter :: parameters) = 0 := by
  simp [firstVararg, List.findIdx_cons, vararg]

theorem firstVararg_cons_single (single : parameter.isVararg = false) :
    firstVararg (parameter :: parameters) = firstVararg parameters + 1 := by
  simp [firstVararg, List.findIdx_cons, single]

@[simp]
theorem taker?_nil (position : Nat) : taker? [] position = none := rfl

theorem taker?_cons_vararg (vararg : parameter.isVararg = true) (position : Nat) :
    taker? (parameter :: parameters) position = some parameter := by
  simp [taker?, firstVararg_cons_vararg vararg]

theorem taker?_cons_single_zero (single : parameter.isVararg = false) :
    taker? (parameter :: parameters) 0 = some parameter := by
  simp [taker?, firstVararg_cons_single single]

theorem taker?_cons_single_succ (single : parameter.isVararg = false) (position : Nat) :
    taker? (parameter :: parameters) (position + 1) = taker? parameters position := by
  simp only [taker?, firstVararg_cons_single single, Nat.add_min_add_right,
    List.getElem?_cons_succ]

end Parameter

/-! ## All uses of a call -/

namespace Scope

/-- Every argument that some parameter takes, as that parameter uses it. -/
def takings (scope : Scope) : List Parameter → (position : Nat) → List Argument → List Use
  | [], _, _ => []
  | parameter :: parameters, position, arguments =>
    if parameter.isVararg then scope.useAll parameter position arguments
    else
      match arguments with
      | [] => []
      | argument :: rest =>
        scope.use parameter position argument :: scope.takings parameters (position + 1) rest

variable {scope : Scope}

theorem takings_vararg {parameter : Parameter} (vararg : parameter.isVararg = true)
    (parameters : List Parameter) (position : Nat) (arguments : List Argument) :
    scope.takings (parameter :: parameters) position arguments =
      scope.useAll parameter position arguments := by
  simp only [takings, if_pos vararg]

theorem takings_single {parameter : Parameter} (single : parameter.isVararg = false)
    (parameters : List Parameter) (position : Nat) (argument : Argument)
    (rest : List Argument) :
    scope.takings (parameter :: parameters) position (argument :: rest) =
      scope.use parameter position argument :: scope.takings parameters (position + 1) rest := by
  simp [takings, single]

@[simp]
theorem takings_none (scope : Scope) (parameters : List Parameter) (position : Nat) :
    scope.takings parameters position [] = [] := by
  cases parameters with
  | nil => rfl
  | cons parameter parameters => simp [takings, useAll]

theorem getElem?_useAll (scope : Scope) (parameter : Parameter) (position : Nat)
    (arguments : List Argument) (index : Nat) :
    (scope.useAll parameter position arguments)[index]? =
      arguments[index]?.map (scope.use parameter (position + index)) := by
  induction arguments generalizing position index with
  | nil => rfl
  | cons argument rest ih =>
      cases index with
      | zero => rfl
      | succ index =>
          simp only [useAll, List.getElem?_cons_succ, ih, Nat.add_assoc, Nat.add_comm 1 index]

/-- **The uses without the walk.**  The argument at an index is used by its taker, if it has one,
and nothing else is in the list. -/
theorem getElem?_takings (scope : Scope) (parameters : List Parameter) (position : Nat)
    (arguments : List Argument) (index : Nat) :
    (scope.takings parameters position arguments)[index]? =
      arguments[index]?.bind fun argument =>
        (Parameter.taker? parameters index).map fun parameter =>
          scope.use parameter (position + index) argument := by
  induction parameters generalizing position arguments index with
  | nil => simp [takings]
  | cons parameter parameters ih =>
      cases vararg : parameter.isVararg with
      | true =>
          rw [takings_vararg vararg, getElem?_useAll, Parameter.taker?_cons_vararg vararg]
          cases arguments[index]? <;> rfl
      | false =>
          cases arguments with
          | nil => simp
          | cons argument rest =>
              rw [takings_single vararg]
              cases index with
              | zero => simp [Parameter.taker?_cons_single_zero vararg]
              | succ index =>
                  simp only [List.getElem?_cons_succ, ih,
                    Parameter.taker?_cons_single_succ vararg, Nat.add_assoc, Nat.add_comm 1 index]

/-- A use in the list, spelled out. -/
theorem mem_takings_iff {parameters : List Parameter} {position : Nat}
    {arguments : List Argument} {use : Use} :
    use ∈ scope.takings parameters position arguments ↔
      ∃ index argument parameter, arguments[index]? = some argument ∧
        Parameter.taker? parameters index = some parameter ∧
        use = scope.use parameter (position + index) argument := by
  rw [List.mem_iff_getElem?]
  refine exists_congr fun index => ?_
  rw [getElem?_takings]
  simp only [Option.bind_eq_some_iff, Option.map_eq_some_iff, exists_and_left, eq_comm (a := use)]

/-! ## The record of a walk -/

end Scope

/-- The uses that a walk has recorded, in order. -/
def Walk.uses (walk : Walk) : List Use := walk.bindings.flatMap Binding.uses

@[simp]
theorem Walk.uses_after (rest : Walk) (binding : Binding) :
    (rest.after binding).uses = binding.uses ++ rest.uses := rfl

@[simp]
theorem Walk.uses_endingAt (verdict : Verdict) (binding : Binding) :
    (Walk.endingAt verdict binding).uses = binding.uses := by
  simp [Walk.uses, endingAt]

namespace Scope

variable {scope : Scope}

/-- Whatever the verdict, the walk records the uses in order and without a gap. -/
theorem walk_uses_prefix (scope : Scope) (parameters : List Parameter) (position : Nat)
    (arguments : List Argument) :
    (scope.walk parameters position arguments).uses <+:
      scope.takings parameters position arguments := by
  fun_induction walk scope parameters position arguments with
  | case1 => exact List.prefix_refl _
  | case2 => exact List.nil_prefix
  | case3 parameter parameters position arguments vararg uses acceptable ih =>
      -- nothing is left after a vararg, so the rest of the walk records nothing
      rw [takings_none, List.prefix_nil] at ih
      rw [Walk.uses_after, ih, List.append_nil, takings_vararg vararg]
      exact List.prefix_refl _
  | case4 parameter parameters position arguments vararg uses rejected =>
      rw [Walk.uses_endingAt, takings_vararg vararg]
      exact List.prefix_refl _
  | case5 parameter parameters position single argument rest use acceptable ih =>
      rw [Walk.uses_after, takings_single (eq_false_of_ne_true single)]
      exact (List.prefix_append_right_inj [use]).mpr ih
  | case6 parameter parameters position single argument rest use rejected =>
      rw [Walk.uses_endingAt, takings_single (eq_false_of_ne_true single)]
      exact (List.prefix_append_right_inj [use]).mpr List.nil_prefix
  | case7 parameter parameters position single optional ih =>
      rw [takings_none] at ih ⊢
      exact ih
  | case8 parameter parameters position single required =>
      exact List.nil_prefix

/-- A recorded use is of the argument at its position. -/
theorem given_of_mem_walk {parameters : List Parameter} {arguments : List Argument}
    {binding : Binding} (member : binding ∈ (scope.walk parameters 0 arguments).bindings)
    {use : Use} (used : use ∈ binding.uses) : arguments[use.position]? = some use.argument := by
  have recorded : use ∈ (scope.walk parameters 0 arguments).uses :=
    List.mem_flatMap.mpr ⟨binding, member, used⟩
  have taken := (scope.walk_uses_prefix parameters 0 arguments).subset recorded
  obtain ⟨index, argument, parameter, given, _, rfl⟩ := mem_takings_iff.mp taken
  exact (congrArg (arguments[·]?) (Nat.zero_add index)).trans given

/-- **A rejection is seen in the full list of uses**, also in the part that the walk did not
reach. -/
theorem walk_argumentRejected_iff (scope : Scope) (parameters : List Parameter) (position : Nat)
    (arguments : List Argument) :
    (scope.walk parameters position arguments).verdict = .argumentRejected ↔
      ∃ use ∈ scope.takings parameters position arguments, use.fit.isAcceptable = false := by
  fun_induction walk scope parameters position arguments with
  | case1 => simp [takings]
  | case2 => simp [takings]
  | case3 parameter parameters position arguments vararg uses acceptable ih =>
      rw [takings_none] at ih
      rw [takings_vararg vararg]
      constructor
      · intro rejected
        obtain ⟨use, member, _⟩ := ih.mp rejected
        cases member
      · rintro ⟨use, member, rejected⟩
        have accepted := List.all_eq_true.mp acceptable use member
        exact absurd (accepted.symm.trans rejected) (by decide)
  | case4 parameter parameters position arguments vararg uses rejected =>
      rw [takings_vararg vararg]
      refine iff_of_true rfl ?_
      obtain ⟨use, member, unfit⟩ := List.all_eq_false.mp (eq_false_of_ne_true rejected)
      exact ⟨use, member, by simpa using unfit⟩
  | case5 parameter parameters position single argument rest use acceptable ih =>
      rw [takings_single (eq_false_of_ne_true single)]
      constructor
      · intro rejected
        obtain ⟨other, member, unfit⟩ := ih.mp rejected
        exact ⟨other, List.mem_cons_of_mem use member, unfit⟩
      · rintro ⟨other, member, unfit⟩
        rcases List.mem_cons.mp member with same | member
        · exact absurd (acceptable.symm.trans (same ▸ unfit)) (by decide)
        · exact ih.mpr ⟨other, member, unfit⟩
  | case6 parameter parameters position single argument rest use rejected =>
      rw [takings_single (eq_false_of_ne_true single)]
      exact iff_of_true rfl ⟨use, List.mem_cons_self, by simpa using rejected⟩
  | case7 parameter parameters position single optional ih =>
      rw [takings_none] at ih ⊢
      exact ih
  | case8 => simp [Walk.endingAt]

/-- All uses of a matching walk will do. -/
theorem acceptable_of_matched {parameters : List Parameter} {position : Nat}
    {arguments : List Argument}
    (matched : (scope.walk parameters position arguments).verdict = .matched) :
    ∀ use ∈ scope.takings parameters position arguments, use.fit.isAcceptable = true := by
  intro use member
  refine eq_true_of_ne_false fun unfit => ?_
  have rejected := (scope.walk_argumentRejected_iff parameters position arguments).mpr
    ⟨use, member, unfit⟩
  cases matched.symm.trans rejected

end Scope

/-! ## What each parameter got -/

/-- What a parameter can have got, by its kind.  A vararg got any number of arguments.  Any other
parameter got one, or none, and then it is optional or the walk ended at it. -/
inductive Binding.Formed (scope : Scope) : Binding → Prop where
  | one {parameter : Parameter} (single : parameter.isVararg = false) (position : Nat)
      (argument : Argument) :
      Formed scope ⟨parameter, .one (scope.use parameter position argument)⟩
  | many {parameter : Parameter} (vararg : parameter.isVararg = true) (position : Nat)
      (arguments : List Argument) :
      Formed scope ⟨parameter, .many (scope.useAll parameter position arguments)⟩
  | skipped {parameter : Parameter} (single : parameter.isVararg = false)
      (optional : parameter.isOptional = true) : Formed scope ⟨parameter, .skipped⟩
  | missing {parameter : Parameter} (single : parameter.isVararg = false)
      (required : parameter.isOptional = false) : Formed scope ⟨parameter, .missing⟩

theorem Scope.eq_use_of_mem_useAll {scope : Scope} {parameter : Parameter} {position : Nat}
    {arguments : List Argument} {use : Use}
    (member : use ∈ scope.useAll parameter position arguments) :
    use = scope.use parameter use.position use.argument := by
  obtain ⟨index, found⟩ := List.mem_iff_getElem?.mp member
  rw [getElem?_useAll] at found
  obtain ⟨argument, _, rfl⟩ := Option.map_eq_some_iff.mp found
  rfl

/-- A recorded use belongs to the parameter that it is recorded for. -/
theorem Binding.Formed.eq_use {scope : Scope} {binding : Binding} (formed : binding.Formed scope)
    {use : Use} (member : use ∈ binding.uses) :
    use = scope.use binding.parameter use.position use.argument := by
  cases formed with
  | one single position argument =>
      obtain rfl := List.mem_singleton.mp member
      rfl
  | many vararg position arguments => exact Scope.eq_use_of_mem_useAll member
  | skipped => cases member
  | missing => cases member

namespace Scope

variable {scope : Scope}

theorem walk_formed (scope : Scope) (parameters : List Parameter) (position : Nat)
    (arguments : List Argument) :
    ∀ binding ∈ (scope.walk parameters position arguments).bindings, binding.Formed scope := by
  fun_induction walk scope parameters position arguments with
  | case1 => simp
  | case2 => simp
  | case3 parameter parameters position arguments vararg uses acceptable ih =>
      exact List.forall_mem_cons.mpr ⟨.many vararg position arguments, ih⟩
  | case4 parameter parameters position arguments vararg uses rejected =>
      exact List.forall_mem_singleton.mpr (.many vararg position arguments)
  | case5 parameter parameters position single argument rest use acceptable ih =>
      exact List.forall_mem_cons.mpr ⟨.one (eq_false_of_ne_true single) position argument, ih⟩
  | case6 parameter parameters position single argument rest use rejected =>
      exact List.forall_mem_singleton.mpr (.one (eq_false_of_ne_true single) position argument)
  | case7 parameter parameters position single optional ih =>
      exact List.forall_mem_cons.mpr ⟨.skipped (eq_false_of_ne_true single) optional, ih⟩
  | case8 parameter parameters position single required =>
      exact List.forall_mem_singleton.mpr
        (.missing (eq_false_of_ne_true single) (eq_false_of_ne_true required))

end Scope

/-! ## Matching walks -/

namespace Scope

/-- How parameters are bound by arguments without a failure: what a matching walk records. -/
inductive Binds (scope : Scope) :
    List Parameter → (position : Nat) → List Argument → List Binding → Prop where
  | nil (position : Nat) : Binds scope [] position [] []
  | many {parameter : Parameter} {parameters : List Parameter} {position : Nat}
      {arguments : List Argument} {bindings : List Binding}
      (vararg : parameter.isVararg = true)
      (rest : Binds scope parameters (position + arguments.length) [] bindings) :
      Binds scope (parameter :: parameters) position arguments
        (⟨parameter, .many (scope.useAll parameter position arguments)⟩ :: bindings)
  | one {parameter : Parameter} {parameters : List Parameter} {position : Nat}
      {argument : Argument} {arguments : List Argument} {bindings : List Binding}
      (single : parameter.isVararg = false)
      (rest : Binds scope parameters (position + 1) arguments bindings) :
      Binds scope (parameter :: parameters) position (argument :: arguments)
        (⟨parameter, .one (scope.use parameter position argument)⟩ :: bindings)
  | skipped {parameter : Parameter} {parameters : List Parameter} {position : Nat}
      {bindings : List Binding} (single : parameter.isVararg = false)
      (optional : parameter.isOptional = true)
      (rest : Binds scope parameters position [] bindings) :
      Binds scope (parameter :: parameters) position [] (⟨parameter, .skipped⟩ :: bindings)

variable {scope : Scope} {parameters : List Parameter} {position : Nat}
  {arguments : List Argument} {bindings : List Binding}

theorem binds_of_matched
    (matched : (scope.walk parameters position arguments).verdict = .matched) :
    scope.Binds parameters position arguments
      (scope.walk parameters position arguments).bindings := by
  fun_induction walk scope parameters position arguments with
  | case1 position => exact .nil position
  | case2 => cases matched
  | case3 parameter parameters position arguments vararg uses acceptable ih =>
      exact .many vararg (ih matched)
  | case4 => cases matched
  | case5 parameter parameters position single argument rest use acceptable ih =>
      exact .one (eq_false_of_ne_true single) (ih matched)
  | case6 => cases matched
  | case7 parameter parameters position single optional ih =>
      exact .skipped (eq_false_of_ne_true single) optional (ih matched)
  | case8 => cases matched

/-- The bindings are of all parameters, in order. -/
theorem Binds.parameters_eq (binds : scope.Binds parameters position arguments bindings) :
    bindings.map Binding.parameter = parameters := by
  induction binds with
  | nil => rfl
  | many _ _ ih => exact congrArg (_ :: ·) ih
  | one _ _ ih => exact congrArg (_ :: ·) ih
  | skipped _ _ _ ih => exact congrArg (_ :: ·) ih

/-- The bindings use every argument, in order. -/
theorem Binds.uses_eq (binds : scope.Binds parameters position arguments bindings) :
    bindings.flatMap Binding.uses = scope.takings parameters position arguments := by
  induction binds with
  | nil => rfl
  | many vararg _ ih =>
      rw [List.flatMap_cons, ih, takings_none, List.append_nil, takings_vararg vararg]
      rfl
  | one single _ ih =>
      rw [List.flatMap_cons, ih, takings_single single]
      rfl
  | skipped _ _ _ ih =>
      rw [List.flatMap_cons, ih, takings_none, takings_none]
      rfl

theorem Binds.length_takings (binds : scope.Binds parameters position arguments bindings) :
    (scope.takings parameters position arguments).length = arguments.length := by
  induction binds with
  | nil => rfl
  | many vararg _ _ => rw [takings_vararg vararg, length_useAll]
  | one single _ ih => rw [takings_single single, List.length_cons, ih, List.length_cons]
  | skipped =>
      rw [takings_none]
      rfl

/-- The uses take the positions one after another. -/
theorem Binds.positions_eq (binds : scope.Binds parameters position arguments bindings) :
    (scope.takings parameters position arguments).map Use.position =
      List.range' position arguments.length := by
  induction binds with
  | nil => rfl
  | many vararg _ _ => rw [takings_vararg vararg, map_position_useAll]
  | one single _ ih =>
      rw [takings_single single, List.map_cons, ih, List.length_cons, List.range'_succ]
      rfl
  | skipped =>
      rw [takings_none]
      rfl

end Scope

end OverloadResolution
