import Mathlib.Order.Bounds.Basic
import OverloadResolution.Proofs.Walk

/-!
# When an overload matches

The verdict of an assessment has a closed form.  Whether the caller is admitted is a condition on
the receiver alone (`Scope.Admits`).  Whether there are enough arguments and not too many is a
condition on their number alone (`Parameter.Covers`), and whether each is accepted is asked of its
taker.  Both together say that the parameters suit the arguments (`Scope.Suits`), and the greedy
walk matches exactly then (`Scope.walk_matched_iff_suits`).

The three ways not to match are told apart: an argument is rejected if its taker rejects it, the
arity is wrong if nothing is rejected.  A parameter that rejects an argument stands before every
parameter that is left without one (`Scope.RejectsAt.bound_before`), so the two cannot compete.

The score of a match is the least rank among the uses of the arguments
(`Assessment.isLeast_worstRank`).
-/

set_option autoImplicit false

namespace OverloadResolution

/-! ## The number of arguments -/

namespace Parameter

/-- Whether parameters can do with a number of arguments.  Those before the first vararg that get
none must be optional, those after it get none at all, and without a vararg there must not be more
arguments than parameters. -/
structure Covers (parameters : List Parameter) (count : Nat) : Prop where
  optional : ∀ index parameter, index < firstVararg parameters →
    parameters[index]? = some parameter → count ≤ index → parameter.isOptional = true
  following : ∀ index parameter, firstVararg parameters < index →
    parameters[index]? = some parameter →
      parameter.isOptional = true ∨ parameter.isVararg = true
  bounded : firstVararg parameters = parameters.length → count ≤ parameters.length

variable {parameter : Parameter} {parameters : List Parameter}

theorem isVararg_of_firstVararg
    (found : parameters[firstVararg parameters]? = some parameter) :
    parameter.isVararg = true := by
  obtain ⟨inside, rfl⟩ := List.getElem?_eq_some_iff.mp found
  exact List.findIdx_getElem

theorem not_isVararg_of_lt {index : Nat} (before : index < firstVararg parameters)
    (found : parameters[index]? = some parameter) : parameter.isVararg = false := by
  obtain ⟨inside, rfl⟩ := List.getElem?_eq_some_iff.mp found
  exact List.not_of_lt_findIdx before

theorem covers_nil_iff (count : Nat) : Covers [] count ↔ count = 0 := by
  constructor
  · intro covers
    exact Nat.le_zero.mp (covers.bounded rfl)
  · rintro rfl
    exact ⟨fun _ _ _ found => by simp at found, fun _ _ _ found => by simp at found,
      fun _ => Nat.le_refl _⟩

/-- Without arguments nothing may be required. -/
theorem covers_zero_iff :
    Covers parameters 0 ↔
      ∀ parameter ∈ parameters, parameter.isOptional = true ∨ parameter.isVararg = true := by
  constructor
  · intro covers parameter member
    obtain ⟨index, found⟩ := List.mem_iff_getElem?.mp member
    rcases Nat.lt_trichotomy index (firstVararg parameters) with before | here | after
    · exact .inl (covers.optional index parameter before found (Nat.zero_le _))
    · exact .inr (isVararg_of_firstVararg (here ▸ found))
    · exact covers.following index parameter after found
  · intro each
    refine ⟨fun index parameter before found _ => ?_, fun index parameter _ found =>
      each parameter (List.mem_of_getElem? found), fun _ => Nat.zero_le _⟩
    have single := not_isVararg_of_lt before found
    exact (each parameter (List.mem_of_getElem? found)).resolve_right (by simp [single])

/-- A vararg takes any number, and leaves none to the parameters after it. -/
theorem covers_vararg_iff (vararg : parameter.isVararg = true) (count : Nat) :
    Covers (parameter :: parameters) count ↔ Covers parameters 0 := by
  have first : firstVararg (parameter :: parameters) = 0 := firstVararg_cons_vararg vararg
  rw [covers_zero_iff]
  constructor
  · intro covers other member
    obtain ⟨index, found⟩ := List.mem_iff_getElem?.mp member
    exact covers.following (index + 1) other (first ▸ Nat.succ_pos index) found
  · intro each
    refine ⟨fun index other before _ => absurd before (by simp [first]), ?_,
      fun full => absurd (first.symm.trans full) (by simp)⟩
    intro index other after found
    obtain ⟨index, rfl⟩ := Nat.exists_eq_succ_of_ne_zero (Nat.ne_of_gt (Nat.zero_lt_of_lt after))
    exact each other (List.mem_of_getElem? found)

theorem covers_single_succ_iff (single : parameter.isVararg = false) (count : Nat) :
    Covers (parameter :: parameters) (count + 1) ↔ Covers parameters count := by
  have first : firstVararg (parameter :: parameters) = firstVararg parameters + 1 :=
    firstVararg_cons_single single
  constructor
  · intro covers
    refine ⟨fun index other before found few => ?_, fun index other after found => ?_,
      fun full => ?_⟩
    · exact covers.optional (index + 1) other (by omega) found (by omega)
    · exact covers.following (index + 1) other (by omega) found
    · have bounded := covers.bounded (by simp [first, full])
      simpa using bounded
  · intro covers
    refine ⟨fun index other before found few => ?_, fun index other after found => ?_,
      fun full => ?_⟩
    · obtain ⟨index, rfl⟩ := Nat.exists_eq_add_of_le' (Nat.le_trans (Nat.le_add_left 1 count) few)
      exact covers.optional index other (by omega) found (by omega)
    · obtain ⟨index, rfl⟩ := Nat.exists_eq_succ_of_ne_zero (Nat.ne_of_gt (Nat.zero_lt_of_lt after))
      exact covers.following index other (by omega) found
    · have bounded := covers.bounded (by simpa [first] using full)
      simpa using bounded

theorem covers_single_zero_iff (single : parameter.isVararg = false) :
    Covers (parameter :: parameters) 0 ↔ parameter.isOptional = true ∧ Covers parameters 0 := by
  rw [covers_zero_iff, covers_zero_iff, List.forall_mem_cons]
  simp [single]

theorem taker?_of_lt {index : Nat} (before : index < firstVararg parameters) :
    taker? parameters index = parameters[index]? := by
  rw [taker?, Nat.min_eq_left (Nat.le_of_lt before)]

theorem taker?_of_le {index : Nat} (past : firstVararg parameters ≤ index) :
    taker? parameters index = parameters[firstVararg parameters]? := by
  rw [taker?, Nat.min_eq_right past]

end Parameter

/-! ## The closed form of a match -/

namespace Scope

/-- Whether parameters match arguments: each argument before the first vararg is accepted by the
parameter at its position, all others by that vararg, and their number will do. -/
structure Suits (scope : Scope) (parameters : List Parameter) (arguments : List Argument) :
    Prop where
  accepted : ∀ index parameter argument, index < Parameter.firstVararg parameters →
    parameters[index]? = some parameter → arguments[index]? = some argument →
      scope.accepts parameter argument = true
  collected : ∀ parameter, parameters[Parameter.firstVararg parameters]? = some parameter →
    ∀ index argument, Parameter.firstVararg parameters ≤ index →
      arguments[index]? = some argument → scope.accepts parameter argument = true
  covers : Parameter.Covers parameters arguments.length

variable {scope : Scope} {parameters : List Parameter} {arguments : List Argument}

/-- Suiting in terms of the uses of the call. -/
theorem suits_iff_takings (position : Nat) :
    scope.Suits parameters arguments ↔
      (∀ use ∈ scope.takings parameters position arguments, use.fit.isAcceptable = true) ∧
        Parameter.Covers parameters arguments.length := by
  constructor
  · rintro ⟨accepted, collected, covers⟩
    refine ⟨fun use member => ?_, covers⟩
    obtain ⟨index, argument, parameter, given, taken, rfl⟩ := mem_takings_iff.mp member
    rcases Nat.lt_or_ge index (Parameter.firstVararg parameters) with before | past
    · rw [Parameter.taker?_of_lt before] at taken
      exact accepted index parameter argument before taken given
    · rw [Parameter.taker?_of_le past] at taken
      exact collected parameter taken index argument past given
  · rintro ⟨each, covers⟩
    refine ⟨fun index parameter argument before found given => ?_,
      fun parameter found index argument past given => ?_, covers⟩
    · rw [← Parameter.taker?_of_lt before] at found
      exact each _ (mem_takings_iff.mpr ⟨index, argument, parameter, given, found, rfl⟩)
    · rw [← Parameter.taker?_of_le past] at found
      exact each _ (mem_takings_iff.mpr ⟨index, argument, parameter, given, found, rfl⟩)

/-- If no use is rejected, the number of arguments decides. -/
theorem walk_matched_iff_covers {position : Nat}
    (acceptable : ∀ use ∈ scope.takings parameters position arguments,
      use.fit.isAcceptable = true) :
    (scope.walk parameters position arguments).verdict = .matched ↔
      Parameter.Covers parameters arguments.length := by
  fun_induction walk scope parameters position arguments with
  | case1 position => simp [Parameter.covers_nil_iff]
  | case2 position argument rest => simp [Parameter.covers_nil_iff]
  | case3 parameter parameters position arguments vararg uses accepted ih =>
      rw [Parameter.covers_vararg_iff vararg]
      exact ih (by simp)
  | case4 parameter parameters position arguments vararg uses rejected =>
      rw [takings_vararg vararg] at acceptable
      exact absurd (List.all_eq_true.mpr acceptable) rejected
  | case5 parameter parameters position single argument rest use accepted ih =>
      have single := eq_false_of_ne_true single
      rw [takings_single single, List.forall_mem_cons] at acceptable
      rw [List.length_cons, Parameter.covers_single_succ_iff single]
      exact ih acceptable.2
  | case6 parameter parameters position single argument rest use rejected =>
      rw [takings_single (eq_false_of_ne_true single), List.forall_mem_cons] at acceptable
      exact absurd acceptable.1 rejected
  | case7 parameter parameters position single optional ih =>
      rw [List.length_nil, Parameter.covers_single_zero_iff (eq_false_of_ne_true single)]
      exact (ih (by simp)).trans (and_iff_right optional).symm
  | case8 parameter parameters position single required =>
      rw [List.length_nil, Parameter.covers_single_zero_iff (eq_false_of_ne_true single)]
      exact iff_of_false Verdict.noConfusion fun covers => required covers.1

/-- **The greedy walk matches exactly when the parameters suit the arguments.** -/
theorem walk_matched_iff_suits (scope : Scope) (parameters : List Parameter) (position : Nat)
    (arguments : List Argument) :
    (scope.walk parameters position arguments).verdict = .matched ↔
      scope.Suits parameters arguments := by
  rw [suits_iff_takings position]
  constructor
  · intro matched
    have acceptable := acceptable_of_matched matched
    exact ⟨acceptable, (walk_matched_iff_covers acceptable).mp matched⟩
  · rintro ⟨acceptable, covers⟩
    exact (walk_matched_iff_covers acceptable).mpr covers

/-- A vararg leaves nothing to a required parameter after it, however many arguments there are. -/
example : (Scope.walk ⟨.initial, none⟩
    [.vararg none .string false false, .required "last" .string] 0
    [.ofToken "a", .ofToken "b"]).verdict = .arityMismatch := by
  decide

/-! ## The ways not to match -/

/-- The parameter at an index rejects an argument that it takes. -/
def RejectsAt (scope : Scope) (parameters : List Parameter) (arguments : List Argument)
    (index : Nat) : Prop :=
  ∃ parameter position argument, parameters[index]? = some parameter ∧
    arguments[position]? = some argument ∧
    min position (Parameter.firstVararg parameters) = index ∧
    scope.accepts parameter argument = false

end Scope

/-- The parameter at an index needs an argument and takes none. -/
def Parameter.UnboundAt (parameters : List Parameter) (count index : Nat) : Prop :=
  ∃ parameter, parameters[index]? = some parameter ∧ parameter.isOptional = false ∧
    parameter.isVararg = false ∧ ∀ position < count, min position (firstVararg parameters) ≠ index

namespace Scope

/-- From left to right, a parameter that rejects an argument is met before any parameter that is
left without the argument it needs. -/
def MeetsRejection (scope : Scope) (parameters : List Parameter) (arguments : List Argument) :
    Prop :=
  ∃ index, scope.RejectsAt parameters arguments index ∧
    ∀ earlier < index, ¬ Parameter.UnboundAt parameters arguments.length earlier

variable {scope : Scope} {parameters : List Parameter} {arguments : List Argument}

/-- Before a parameter that rejects an argument no parameter is left without one. -/
theorem RejectsAt.bound_before {index : Nat} (rejects : scope.RejectsAt parameters arguments index) :
    ∀ earlier < index, ¬ Parameter.UnboundAt parameters arguments.length earlier := by
  obtain ⟨_, position, argument, _, given, here, _⟩ := rejects
  intro earlier before unbound
  obtain ⟨_, _, _, _, untaken⟩ := unbound
  obtain ⟨inside, _⟩ := List.getElem?_eq_some_iff.mp given
  exact untaken earlier (by omega) (by omega)

theorem exists_rejectsAt_iff (position : Nat) :
    (∃ index, scope.RejectsAt parameters arguments index) ↔
      ∃ use ∈ scope.takings parameters position arguments, use.fit.isAcceptable = false := by
  constructor
  · rintro ⟨_, parameter, index, argument, found, given, rfl, rejected⟩
    exact ⟨_, mem_takings_iff.mpr ⟨index, argument, parameter, given, found, rfl⟩, rejected⟩
  · rintro ⟨use, member, rejected⟩
    obtain ⟨index, argument, parameter, given, taken, rfl⟩ := mem_takings_iff.mp member
    exact ⟨_, parameter, index, argument, taken, given, rfl, rejected⟩

/-- The walk rejects an argument exactly when it meets a rejection. -/
theorem walk_argumentRejected_iff_meets (scope : Scope) (parameters : List Parameter)
    (position : Nat) (arguments : List Argument) :
    (scope.walk parameters position arguments).verdict = .argumentRejected ↔
      scope.MeetsRejection parameters arguments := by
  rw [walk_argumentRejected_iff, ← exists_rejectsAt_iff]
  exact exists_congr fun index => (and_iff_left_of_imp RejectsAt.bound_before).symm

/-- A walk does not look at the caller. -/
theorem walk_verdict_ne_receiverRejected (scope : Scope) (parameters : List Parameter)
    (position : Nat) (arguments : List Argument) :
    (scope.walk parameters position arguments).verdict ≠ .receiverRejected := by
  fun_induction walk scope parameters position arguments with
  | case1 | case2 | case4 | case6 | case8 => exact Verdict.noConfusion
  | case3 _ _ _ _ _ _ _ ih => exact ih
  | case5 _ _ _ _ _ _ _ _ ih => exact ih
  | case7 _ _ _ _ _ ih => exact ih

end Scope

/-! ## The score -/

namespace Fit

theorem rank_le_topRank (fit : Fit) : fit.rank ≤ topRank := by
  cases fit <;> simp [rank, topRank, offerRank, readRank, ambiguousRank, bottomRank]

/-- A fit that will do has one of three ranks. -/
theorem rank_of_isAcceptable {fit : Fit} (acceptable : fit.isAcceptable = true) :
    fit.rank = readRank ∨ fit.rank = offerRank ∨ fit.rank = topRank := by
  cases fit with
  | asIs => exact .inr (.inr rfl)
  | offered index => exact .inr (.inl rfl)
  | read reader => exact .inl rfl
  | ambiguous | impossible => cases acceptable

end Fit

namespace Assessment

theorem worstRank_cons (use : Use) (uses : List Use) :
    worstRank (use :: uses) = min use.fit.rank (worstRank uses) := by
  simp only [worstRank, List.foldr_cons]
  split <;> omega

theorem worstRank_le {uses : List Use} {use : Use} (member : use ∈ uses) :
    worstRank uses ≤ use.fit.rank := by
  induction uses with
  | nil => cases member
  | cons first uses ih =>
      rw [worstRank_cons]
      rcases List.mem_cons.mp member with rfl | member
      · exact Int.min_le_left _ _
      · exact Int.le_trans (Int.min_le_right _ _) (ih member)

/-- The worst rank is the top rank or that of some use. -/
theorem worstRank_attained (uses : List Use) :
    worstRank uses = Fit.topRank ∨ ∃ use ∈ uses, worstRank uses = use.fit.rank := by
  induction uses with
  | nil => exact .inl rfl
  | cons first uses ih =>
      rw [worstRank_cons]
      rcases Int.le_total first.fit.rank (worstRank uses) with lower | lower
      · exact .inr ⟨first, List.mem_cons_self, Int.min_eq_left lower⟩
      · rw [Int.min_eq_right lower]
        refine ih.imp_right fun ⟨use, member, same⟩ => ?_
        exact ⟨use, List.mem_cons_of_mem first member, same⟩

/-- **The worst rank among some uses is the least of their ranks.** -/
theorem isLeast_worstRank {uses : List Use} (nonempty : uses ≠ []) :
    IsLeast {rank | ∃ use ∈ uses, rank = use.fit.rank} (worstRank uses) := by
  constructor
  · rcases worstRank_attained uses with top | attained
    · -- the top rank is only the worst when every use has it
      obtain ⟨use, member⟩ := List.exists_mem_of_ne_nil uses nonempty
      refine ⟨use, member, Int.le_antisymm (worstRank_le member) ?_⟩
      rw [top]
      exact use.fit.rank_le_topRank
    · exact attained
  · rintro rank ⟨use, member, rfl⟩
    exact worstRank_le member

/-- Uses that will do have one of three worst ranks. -/
theorem worstRank_of_acceptable {uses : List Use}
    (acceptable : ∀ use ∈ uses, use.fit.isAcceptable = true) :
    worstRank uses = Fit.readRank ∨ worstRank uses = Fit.offerRank ∨
      worstRank uses = Fit.topRank := by
  rcases worstRank_attained uses with top | ⟨use, member, same⟩
  · exact .inr (.inr top)
  · rw [same]
    exact Fit.rank_of_isAcceptable (acceptable use member)

end Assessment

/-! ## Assessments -/

namespace Scope

/-- The receiver of an overload admits a caller: there is none, or it is optional, or the caller
is of its type. -/
def Admits (scope : Scope) (caller : Caller) (overload : Overload) : Prop :=
  ∀ receiver ∈ overload.receiver, receiver.optional = true ∨
    scope.declarations.isSubtype caller.type receiver.type = true

/-- The ranks of the arguments, each against its taker. -/
def ranks (scope : Scope) (parameters : List Parameter) (arguments : List Argument) : Set Int :=
  {rank | ∃ index argument parameter, arguments[index]? = some argument ∧
    Parameter.taker? parameters index = some parameter ∧
    rank = (scope.fit parameter argument).rank}

variable {scope : Scope} {call : Call} {overload : Overload}

theorem refused_iff_not_admits (scope : Scope) (caller : Caller) (overload : Overload) :
    (overload.receiver.any fun receiver =>
        !scope.acceptsReceiver caller receiver && !receiver.optional) = true ↔
      ¬ scope.Admits caller overload := by
  cases declared : overload.receiver with
  | none => simp [Admits, declared]
  | some receiver => simp [Admits, declared, acceptsReceiver, and_comm]

@[simp]
theorem overload_assess (scope : Scope) (call : Call) (overload : Overload) :
    (scope.assess call overload).overload = overload := by
  unfold assess
  split <;> rfl

/-- A caller that is not admitted settles the matter. -/
theorem assess_of_not_admits (refused : ¬ scope.Admits call.caller overload) :
    scope.assess call overload = ⟨overload, .receiverRejected, false, []⟩ := by
  unfold assess
  exact if_pos ((refused_iff_not_admits scope call.caller overload).mpr refused)

/-- For a caller that is admitted the walk decides. -/
theorem assess_of_admits (admits : scope.Admits call.caller overload) :
    scope.assess call overload =
      ⟨overload, (scope.walk overload.parameters 0 call.arguments).verdict,
        overload.receiver.any (scope.acceptsReceiver call.caller),
        (scope.walk overload.parameters 0 call.arguments).bindings⟩ := by
  unfold assess
  exact if_neg fun refused =>
    (refused_iff_not_admits scope call.caller overload).mp refused admits

theorem receiverRejected_iff :
    (scope.assess call overload).verdict = .receiverRejected ↔
      ¬ scope.Admits call.caller overload := by
  by_cases admits : scope.Admits call.caller overload
  · rw [assess_of_admits admits]
    exact iff_of_false (walk_verdict_ne_receiverRejected _ _ _ _) (not_not_intro admits)
  · rw [assess_of_not_admits admits]
    exact iff_of_true rfl admits

/-- A verdict other than a refused caller is the verdict of the walk on an admitted caller. -/
theorem verdict_eq_iff_walk {verdict : Verdict} (other : verdict ≠ .receiverRejected) :
    (scope.assess call overload).verdict = verdict ↔
      scope.Admits call.caller overload ∧
        (scope.walk overload.parameters 0 call.arguments).verdict = verdict := by
  by_cases admits : scope.Admits call.caller overload
  · rw [assess_of_admits admits]
    exact (and_iff_right admits).symm
  · rw [assess_of_not_admits admits]
    exact iff_of_false (Ne.symm other) fun both => admits both.1

/-- A matching assessment has on record what the walk left. -/
theorem bindings_of_matched (matched : (scope.assess call overload).verdict = .matched) :
    (scope.assess call overload).bindings =
      (scope.walk overload.parameters 0 call.arguments).bindings := by
  obtain ⟨admits, _⟩ := (verdict_eq_iff_walk Verdict.noConfusion).mp matched
  rw [assess_of_admits admits]

/-- What a matching assessment has bound. -/
theorem assess_binds (matched : (scope.assess call overload).verdict = .matched) :
    scope.Binds overload.parameters 0 call.arguments (scope.assess call overload).bindings := by
  rw [bindings_of_matched matched]
  exact binds_of_matched ((verdict_eq_iff_walk Verdict.noConfusion).mp matched).2

/-- A matching assessment uses every argument with its taker. -/
theorem assess_uses (matched : (scope.assess call overload).verdict = .matched) :
    (scope.assess call overload).uses =
      scope.takings overload.parameters 0 call.arguments :=
  (assess_binds matched).uses_eq

theorem assess_acceptable (matched : (scope.assess call overload).verdict = .matched) :
    ∀ use ∈ (scope.assess call overload).uses, use.fit.isAcceptable = true := by
  rw [assess_uses matched]
  exact acceptable_of_matched ((verdict_eq_iff_walk Verdict.noConfusion).mp matched).2

theorem score_of_matched {assessment : Assessment} (matched : assessment.verdict = .matched) :
    assessment.score = Assessment.worstRank assessment.uses := if_pos matched

theorem score_of_not_matched {assessment : Assessment}
    (unmatched : assessment.verdict ≠ .matched) : assessment.score = Fit.bottomRank :=
  if_neg unmatched

theorem score_of_assess_matched (matched : (scope.assess call overload).verdict = .matched) :
    (scope.assess call overload).score = Fit.readRank ∨
      (scope.assess call overload).score = Fit.offerRank ∨
      (scope.assess call overload).score = Fit.topRank := by
  rw [score_of_matched matched]
  exact Assessment.worstRank_of_acceptable (assess_acceptable matched)

/-- Only the verdict puts an overload out of the question: a match never has a score as bad as
that. -/
theorem isDisqualified_assess_iff (scope : Scope) (call : Call) (overload : Overload) :
    (scope.assess call overload).isDisqualified = true ↔
      (scope.assess call overload).verdict ≠ .matched := by
  rw [Assessment.isDisqualified, Bool.or_eq_true, decide_eq_true_iff, decide_eq_true_iff]
  refine or_iff_left_of_imp fun low matched => ?_
  rcases score_of_assess_matched matched with score | score | score <;>
    rw [score] at low <;> exact absurd low (by decide)

theorem ranks_eq_takings (scope : Scope) (parameters : List Parameter)
    (arguments : List Argument) (position : Nat) :
    scope.ranks parameters arguments =
      {rank | ∃ use ∈ scope.takings parameters position arguments, rank = use.fit.rank} := by
  ext rank
  constructor
  · rintro ⟨index, argument, parameter, given, taken, rfl⟩
    exact ⟨_, mem_takings_iff.mpr ⟨index, argument, parameter, given, taken, rfl⟩, rfl⟩
  · rintro ⟨use, member, rfl⟩
    obtain ⟨index, argument, parameter, given, taken, rfl⟩ := mem_takings_iff.mp member
    exact ⟨index, argument, parameter, given, taken, rfl⟩

/-- Every argument of a matching call has a taker. -/
theorem isSome_taker?_of_matched (matched : (scope.assess call overload).verdict = .matched)
    {index : Nat} (inside : index < call.arguments.length) :
    (Parameter.taker? overload.parameters index).isSome = true := by
  have used := getElem?_takings scope overload.parameters 0 call.arguments index
  rw [← (assess_binds matched).length_takings] at inside
  rw [List.getElem?_eq_getElem inside] at used
  obtain ⟨argument, _, taken⟩ := Option.bind_eq_some_iff.mp used.symm
  obtain ⟨parameter, found, _⟩ := Option.map_eq_some_iff.mp taken
  rw [found]
  rfl

/-- The score of a match is the least rank among its arguments. -/
theorem isLeast_score (matched : (scope.assess call overload).verdict = .matched)
    (nonempty : call.arguments ≠ []) :
    IsLeast (scope.ranks overload.parameters call.arguments)
      (scope.assess call overload).score := by
  have used : scope.takings overload.parameters 0 call.arguments ≠ [] := by
    intro none
    have length := (assess_binds matched).length_takings
    rw [none] at length
    exact nonempty (List.length_eq_zero_iff.mp length.symm)
  rw [score_of_matched matched, assess_uses matched, ranks_eq_takings _ _ _ 0]
  exact Assessment.isLeast_worstRank used

theorem score_of_no_arguments (matched : (scope.assess call overload).verdict = .matched)
    (none : call.arguments = []) : (scope.assess call overload).score = Fit.topRank := by
  rw [score_of_matched matched, assess_uses matched, none, takings_none]
  rfl

/-- **The closed form of an assessment.**  For every call and every overload, the verdict follows
from the receiver, from the takers of the arguments and from their number, and the score from the
ranks of the arguments against their takers. -/
theorem assess_closed_form (scope : Scope) (call : Call) (overload : Overload) :
    ((scope.assess call overload).verdict = .matched ↔
      scope.Admits call.caller overload ∧ scope.Suits overload.parameters call.arguments) ∧
    ((scope.assess call overload).verdict = .matched →
      (∀ index < call.arguments.length,
        (Parameter.taker? overload.parameters index).isSome = true) ∧
      (call.arguments = [] → (scope.assess call overload).score = 2147483647) ∧
      (call.arguments ≠ [] →
        IsLeast (scope.ranks overload.parameters call.arguments)
          (scope.assess call overload).score) ∧
      ((scope.assess call overload).score = 10 ∨ (scope.assess call overload).score = 20 ∨
        (scope.assess call overload).score = 2147483647)) ∧
    ((scope.assess call overload).verdict ≠ .matched →
      (scope.assess call overload).score = -1 ∧
        (scope.assess call overload).isDisqualified = true) ∧
    ((scope.assess call overload).verdict = .receiverRejected ↔
      ¬ scope.Admits call.caller overload) ∧
    ((scope.assess call overload).verdict = .argumentRejected ↔
      scope.Admits call.caller overload ∧
        scope.MeetsRejection overload.parameters call.arguments) ∧
    ((scope.assess call overload).verdict = .arityMismatch ↔
      scope.Admits call.caller overload ∧
        ¬ scope.Suits overload.parameters call.arguments ∧
        ¬ scope.MeetsRejection overload.parameters call.arguments) := by
  have matched : (scope.assess call overload).verdict = .matched ↔
      scope.Admits call.caller overload ∧ scope.Suits overload.parameters call.arguments := by
    rw [verdict_eq_iff_walk Verdict.noConfusion, walk_matched_iff_suits]
  have rejected : (scope.assess call overload).verdict = .argumentRejected ↔
      scope.Admits call.caller overload ∧
        scope.MeetsRejection overload.parameters call.arguments := by
    rw [verdict_eq_iff_walk Verdict.noConfusion, walk_argumentRejected_iff_meets]
  refine ⟨matched, fun isMatch => ?_, fun unmatched => ?_, receiverRejected_iff, rejected, ?_⟩
  · exact ⟨fun index => isSome_taker?_of_matched isMatch, score_of_no_arguments isMatch,
      isLeast_score isMatch, score_of_assess_matched isMatch⟩
  · exact ⟨score_of_not_matched unmatched,
      (isDisqualified_assess_iff scope call overload).mpr unmatched⟩
  · constructor
    · intro mismatch
      have admits : scope.Admits call.caller overload := by
        by_contra refused
        cases mismatch.symm.trans (receiverRejected_iff.mpr refused)
      refine ⟨admits, fun suits => ?_, fun meets => ?_⟩
      · cases mismatch.symm.trans (matched.mpr ⟨admits, suits⟩)
      · cases mismatch.symm.trans (rejected.mpr ⟨admits, meets⟩)
    · -- what the other three verdicts say is excluded, so only this one is left
      rintro ⟨admits, unsuited, unmet⟩
      cases verdict : (scope.assess call overload).verdict with
      | matched => exact absurd (matched.mp verdict).2 unsuited
      | receiverRejected => exact absurd admits (receiverRejected_iff.mp verdict)
      | argumentRejected => exact absurd (rejected.mp verdict).2 unmet
      | arityMismatch => rfl

end Scope

end OverloadResolution
