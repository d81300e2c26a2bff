import OverloadResolution.Proofs.Stability
import OverloadResolution.Proofs.TokenCalls

/-!
# Varargs written out

A vararg at the end of a parameter list can be written out: in its place stand required parameters
of its element type, one for each argument that is left for it (`Variadic`).  For every call this
comes to the same (`Scope.WritesOut`, `Variadic.resolve_writesOut`), although the vararg is served
by other loops, in the walk as well as in the conversion.

The two walks are compared first (`Variadic.walk_mirrors`).  They end with the same verdict, and
where they match, the uses that the vararg has in one share are those that its elements have one by
one.  Two conversions of the same uses then go side by side (`Attempt.Parallels`): they run the same
code, give the same values, and fail at the same use, where they may only name different parameters.
-/

set_option autoImplicit false

namespace OverloadResolution

/-! ## Overloads with and without the vararg -/

/-- A parameter that may stand for another when varargs are written out: the parameter itself, or
for a vararg a required parameter of its element type. -/
inductive Parameter.StandsFor : Parameter → Parameter → Prop where
  | itself (parameter : Parameter) : StandsFor parameter parameter
  | element (own name : Option String) (element : Ty) (nullable optional : Bool) :
      StandsFor (.positional own element false) (.vararg name element nullable optional)

/-- What an overload is made of whose last parameter is its only vararg. -/
structure Variadic where
  receiver : Option Receiver
  leading : List Parameter
  single : ∀ parameter ∈ leading, parameter.isVararg = false
  name : Option String
  element : Ty
  nullable : Bool
  optional : Bool

namespace Variadic

/-- The vararg. -/
def vararg (variadic : Variadic) : Parameter :=
  .vararg variadic.name variadic.element variadic.nullable variadic.optional

theorem isVararg_vararg (variadic : Variadic) : variadic.vararg.isVararg = true := rfl

/-- The overload with the vararg. -/
def collecting (variadic : Variadic) (action : Option Action) : Overload :=
  ⟨variadic.receiver, variadic.leading ++ [variadic.vararg], action⟩

/-- Required parameters of the element type, one for each of some names. -/
def elements (variadic : Variadic) (names : List (Option String)) : List Parameter :=
  names.map fun name => .positional name variadic.element false

theorem elements_cons (variadic : Variadic) (name : Option String)
    (names : List (Option String)) :
    variadic.elements (name :: names) =
      .positional name variadic.element false :: variadic.elements names := rfl

/-- The overload with the vararg written out. -/
def writtenOut (variadic : Variadic) (names : List (Option String)) (action : Option Action) :
    Overload :=
  ⟨variadic.receiver, variadic.leading ++ variadic.elements names, action⟩

theorem standsFor_of_mem_elements {variadic : Variadic} {names : List (Option String)}
    {parameter : Parameter} (member : parameter ∈ variadic.elements names) :
    parameter.StandsFor variadic.vararg := by
  obtain ⟨name, _, rfl⟩ := List.mem_map.mp member
  exact .element _ _ _ _ _

end Variadic

/-- The walk that an assessment has on record. -/
def Assessment.walk (assessment : Assessment) : Walk := ⟨assessment.verdict, assessment.bindings⟩

/-! ## The walks side by side -/

namespace Binding

/-- A parameter that got the one use of a task. -/
def ofTask (task : Task) : Binding := ⟨task.1, .one task.2⟩

theorem uses_ofTask (tasks : List Task) :
    (tasks.map ofTask).flatMap Binding.uses = tasks.map Prod.snd := by
  rw [List.flatMap_map, List.map_eq_flatMap]
  rfl

theorem tasks_ofTask (tasks : List Task) :
    (tasks.map ofTask).flatMap Binding.tasks = tasks := by
  rw [List.flatMap_map]
  exact List.flatMap_singleton' tasks

end Binding

namespace Scope

variable {scope : Scope} {parameter : Parameter} (parameters : List Parameter) (position : Nat)

theorem walk_cons_of_accepted (single : parameter.isVararg = false) {argument : Argument}
    (rest : List Argument)
    (accepted : (scope.use parameter position argument).fit.isAcceptable = true) :
    scope.walk (parameter :: parameters) position (argument :: rest) =
      (scope.walk parameters (position + 1) rest).after
        ⟨parameter, .one (scope.use parameter position argument)⟩ := by
  simp [walk, single, accepted]

theorem verdict_walk_cons_of_rejected (single : parameter.isVararg = false) {argument : Argument}
    (rest : List Argument)
    (rejected : (scope.use parameter position argument).fit.isAcceptable = false) :
    (scope.walk (parameter :: parameters) position (argument :: rest)).verdict =
      .argumentRejected := by
  simp [walk, single, rejected, Walk.endingAt]

theorem walk_cons_of_skipped (single : parameter.isVararg = false)
    (optional : parameter.isOptional = true) :
    scope.walk (parameter :: parameters) position [] =
      (scope.walk parameters position []).after ⟨parameter, .skipped⟩ := by
  simp [walk, single, optional]

theorem verdict_walk_cons_of_missing (single : parameter.isVararg = false)
    (required : parameter.isOptional = false) :
    (scope.walk (parameter :: parameters) position []).verdict = .arityMismatch := by
  simp [walk, single, required, Walk.endingAt]

end Scope

namespace Variadic

variable {scope : Scope} {variadic : Variadic} {names : List (Option String)} {position : Nat}
  {arguments : List Argument}

/-- The elements take the arguments as the vararg does. -/
theorem takings_elements (length : names.length = arguments.length) :
    scope.takings (variadic.elements names) position arguments =
      scope.useAll variadic.vararg position arguments := by
  induction arguments generalizing names position with
  | nil => exact Scope.takings_none scope _ _
  | cons argument rest ih =>
      cases names with
      | nil => cases length
      | cons name names =>
          rw [elements_cons, Scope.takings_single rfl, ih (Nat.succ.inj length)]
          rfl

/-- Elements that accept their arguments are bound to them one by one. -/
theorem walk_elements (length : names.length = arguments.length)
    (accepted : ∀ use ∈ scope.useAll variadic.vararg position arguments,
      use.fit.isAcceptable = true) :
    scope.walk (variadic.elements names) position arguments =
      ⟨.matched, ((variadic.elements names).zip
        (scope.useAll variadic.vararg position arguments)).map Binding.ofTask⟩ := by
  induction arguments generalizing names position with
  | nil =>
      cases names with
      | nil => rfl
      | cons => cases length
  | cons argument rest ih =>
      cases names with
      | nil => cases length
      | cons name names =>
          rw [Scope.useAll, List.forall_mem_cons] at accepted
          have own : (scope.use (.positional name variadic.element false) position
              argument).fit.isAcceptable = true := accepted.1
          rw [elements_cons, Scope.walk_cons_of_accepted _ _ rfl _ own,
            ih (Nat.succ.inj length) accepted.2]
          rfl

/-- A lone vararg that accepts its arguments is bound to all of them. -/
theorem walk_vararg (accepted : ∀ use ∈ scope.useAll variadic.vararg position arguments,
      use.fit.isAcceptable = true) :
    scope.walk [variadic.vararg] position arguments =
      ⟨.matched, [⟨variadic.vararg, .many (scope.useAll variadic.vararg position arguments)⟩]⟩ := by
  simp [Scope.walk, isVararg_vararg, List.all_eq_true.mpr accepted, Walk.after]

/-- How the walk past a vararg compares with the walk past its elements: both match, and the vararg
has in one share what its elements have one by one, or neither matches, for the same reason. -/
inductive Mirrors (variadic : Variadic) (names : List (Option String)) (leading : Nat) :
    Walk → Walk → Prop where
  | matched {bindings : List Binding} {tasks : List Task} (length : bindings.length = leading)
      (written : tasks.map Prod.fst = variadic.elements names) :
      Mirrors variadic names leading
        ⟨.matched, bindings ++ [⟨variadic.vararg, .many (tasks.map Prod.snd)⟩]⟩
        ⟨.matched, bindings ++ tasks.map Binding.ofTask⟩
  | unmatched {first second : Walk} (unmatched : first.verdict ≠ .matched)
      (same : first.verdict = second.verdict) : Mirrors variadic names leading first second

section Mirrors

variable {leading : Nat} {first second : Walk}

theorem Mirrors.after (mirrors : variadic.Mirrors names leading first second) (binding : Binding) :
    variadic.Mirrors names (leading + 1) (first.after binding) (second.after binding) := by
  cases mirrors with
  | @matched bindings tasks length written =>
      have longer : (binding :: bindings).length = leading + 1 := congrArg (· + 1) length
      exact .matched longer written
  | unmatched unmatched same => exact .unmatched unmatched same

theorem Mirrors.verdict_eq (mirrors : variadic.Mirrors names leading first second) :
    first.verdict = second.verdict := by
  cases mirrors with
  | matched => rfl
  | unmatched _ same => exact same

/-- Two walks that match have the same uses. -/
theorem Mirrors.uses_eq (mirrors : variadic.Mirrors names leading first second)
    (matched : first.verdict = .matched) : first.uses = second.uses := by
  cases mirrors with
  | @matched bindings tasks =>
      rw [Walk.uses, Walk.uses, List.flatMap_append, List.flatMap_append, Binding.uses_ofTask,
        List.flatMap_singleton]
      rfl
  | unmatched unmatched => exact absurd matched unmatched

/-- Two walks that match have the same uses for parameters that may stand for one another. -/
theorem Mirrors.tasks (mirrors : variadic.Mirrors names leading first second)
    (matched : first.verdict = .matched) :
    List.Forall₂ (fun task other => other.1.StandsFor task.1 ∧ other.2 = task.2)
      (first.bindings.flatMap Binding.tasks) (second.bindings.flatMap Binding.tasks) := by
  cases mirrors with
  | unmatched unmatched => exact absurd matched unmatched
  | @matched bindings tasks _ written =>
      have collected : Binding.tasks ⟨variadic.vararg, .many (tasks.map Prod.snd)⟩ =
          tasks.map fun task => (variadic.vararg, task.2) := List.map_map
      rw [List.flatMap_append, List.flatMap_append, List.flatMap_singleton, Binding.tasks_ofTask,
        collected]
      refine List.rel_append (List.forall₂_same.mpr fun task _ => ⟨.itself task.1, rfl⟩) ?_
      refine List.forall₂_map_left_iff.mpr (List.forall₂_same.mpr fun task member => ⟨?_, rfl⟩)
      exact standsFor_of_mem_elements (written ▸ List.mem_map_of_mem member)

end Mirrors

/-- Where no parameter comes before it, the vararg compares with its elements. -/
theorem walk_vararg_mirrors (length : names.length = arguments.length) :
    variadic.Mirrors names 0 (scope.walk [variadic.vararg] position arguments)
      (scope.walk (variadic.elements names) position arguments) := by
  cases accepted : (scope.useAll variadic.vararg position arguments).all fun use =>
      use.fit.isAcceptable with
  | true =>
      have each := List.all_eq_true.mp accepted
      have same : (variadic.elements names).length =
          (scope.useAll variadic.vararg position arguments).length := by
        rw [elements, List.length_map, Scope.length_useAll, length]
      rw [walk_elements length each, walk_vararg each]
      -- the tasks are the elements with the uses of the vararg, one to one
      nth_rewrite 1 [← List.map_snd_zip (Nat.le_of_eq same.symm)]
      exact .matched List.length_nil (List.map_fst_zip (Nat.le_of_eq same))
  | false =>
      obtain ⟨use, member, rejected⟩ := List.all_eq_false.mp accepted
      have rejects : ∃ use ∈ scope.useAll variadic.vararg position arguments,
          use.fit.isAcceptable = false := ⟨use, member, eq_false_of_ne_true rejected⟩
      have first : (scope.walk [variadic.vararg] position arguments).verdict =
          .argumentRejected := by
        rw [Scope.walk_argumentRejected_iff, Scope.takings_vararg variadic.isVararg_vararg]
        exact rejects
      have second : (scope.walk (variadic.elements names) position arguments).verdict =
          .argumentRejected := by
        rw [Scope.walk_argumentRejected_iff, takings_elements length]
        exact rejects
      refine .unmatched ?_ (first.trans second.symm)
      rw [first]
      exact Verdict.noConfusion

/-- **The walk past the vararg compares with the walk past its elements.** -/
theorem walk_mirrors {leading : List Parameter}
    (single : ∀ parameter ∈ leading, parameter.isVararg = false)
    (count : names.length = arguments.length - leading.length) :
    variadic.Mirrors names leading.length
      (scope.walk (leading ++ [variadic.vararg]) position arguments)
      (scope.walk (leading ++ variadic.elements names) position arguments) := by
  -- the difference that counts the elements stays the same while both lists are shortened
  induction leading generalizing position arguments with
  | nil => exact walk_vararg_mirrors count
  | cons parameter leading ih =>
      rw [List.forall_mem_cons] at single
      obtain ⟨here, single⟩ := single
      rw [List.cons_append, List.cons_append]
      cases arguments with
      | nil =>
          cases optional : parameter.isOptional with
          | true =>
              rw [Scope.walk_cons_of_skipped _ _ here optional,
                Scope.walk_cons_of_skipped _ _ here optional]
              have none : names.length = ([] : List Argument).length - leading.length := by
                simpa using count
              exact (ih single none).after _
          | false =>
              refine .unmatched ?_ ?_
              · rw [Scope.verdict_walk_cons_of_missing _ _ here optional]
                exact Verdict.noConfusion
              · rw [Scope.verdict_walk_cons_of_missing _ _ here optional,
                  Scope.verdict_walk_cons_of_missing _ _ here optional]
      | cons argument rest =>
          cases accepted : (scope.use parameter position argument).fit.isAcceptable with
          | true =>
              rw [Scope.walk_cons_of_accepted _ _ here rest accepted,
                Scope.walk_cons_of_accepted _ _ here rest accepted]
              have others : names.length = rest.length - leading.length := by
                simpa using count
              exact (ih single others).after _
          | false =>
              refine .unmatched ?_ ?_
              · rw [Scope.verdict_walk_cons_of_rejected _ _ here rest accepted]
                exact Verdict.noConfusion
              · rw [Scope.verdict_walk_cons_of_rejected _ _ here rest accepted,
                  Scope.verdict_walk_cons_of_rejected _ _ here rest accepted]

end Variadic

/-! ## The values of two parts -/

namespace Binding

variable {bindings : List Binding} {values : List Value}

/-- The values of some bindings come before the values of those after them. -/
theorem gather_append (others : List Binding)
    (length : values.length = (bindings.flatMap Binding.uses).length) (more : List Value) :
    gather (bindings ++ others) (values ++ more) =
      gather bindings values ++ gather others more := by
  induction bindings generalizing values with
  | nil =>
      cases List.length_eq_zero_iff.mp length
      rfl
  | cons binding bindings ih =>
      rw [List.flatMap_cons, List.length_append] at length
      have enough : binding.uses.length ≤ values.length := by omega
      have rest : (values.drop binding.uses.length).length =
          (bindings.flatMap Binding.uses).length := by
        rw [List.length_drop]
        omega
      have taken : (values ++ more).take binding.uses.length =
          values.take binding.uses.length := List.take_append_of_le_length enough
      have tail := ih rest
      rw [← List.drop_append_of_le_length enough] at tail
      rw [List.cons_append]
      obtain ⟨parameter, share⟩ := binding
      cases share with
      | one use =>
          simp only [gather, uses, Share.uses, List.length_singleton] at taken tail ⊢
          rw [taken, tail, List.append_assoc]
      | many uses =>
          simp only [gather, Binding.uses, Share.uses] at taken tail ⊢
          rw [taken, tail, List.cons_append]
      | skipped => exact congrArg (_ :: ·) tail
      | missing => exact congrArg (_ :: ·) tail

theorem gather_ofTask {tasks : List Task} (length : values.length = tasks.length) :
    gather (tasks.map ofTask) values = values := by
  induction tasks generalizing values with
  | nil => exact (List.length_eq_zero_iff.mp length).symm
  | cons task tasks ih =>
      cases values with
      | nil => cases length
      | cons value values => exact congrArg (value :: ·) (ih (Nat.succ.inj length))

/-- Every binding has one value. -/
theorem length_gather (length : values.length = (bindings.flatMap Binding.uses).length) :
    (gather bindings values).length = bindings.length := by
  induction bindings generalizing values with
  | nil => rfl
  | cons binding bindings ih =>
      rw [List.flatMap_cons, List.length_append] at length
      have rest : (gather bindings (values.drop binding.uses.length)).length =
          bindings.length := by
        apply ih
        rw [List.length_drop]
        omega
      obtain ⟨parameter, share⟩ := binding
      cases share with
      | one use =>
          have some : 1 ≤ values.length := Nat.le_of_add_right_le (Nat.le_of_eq length.symm)
          simp only [gather, uses, Share.uses, List.length_singleton] at rest ⊢
          rw [List.length_append, List.length_take, Nat.min_eq_left some, rest, List.length_cons,
            Nat.add_comm]
      | many | skipped | missing => exact congrArg (· + 1) rest

end Binding

/-! ## Conversions side by side -/

/-- Two conversions have come equally far, whatever is in their records. -/
structure Progress.Tallies (first second : Progress) : Prop where
  world : first.world = second.world
  performed : first.performed = second.performed

namespace Attempt

variable {α β : Type}

/-- Two results that are alike, but for the records and for the parameter that a failure names. -/
inductive Parallels : Except Failure α × Progress → Except Failure α × Progress → Prop where
  | succeeded {first second : Progress} (answer : α) (tallies : first.Tallies second) :
      Parallels (.ok answer, first) (.ok answer, second)
  | failed {first second : Progress} {failure : Failure} {parameter : Option Parameter}
      (blamed : Option.Rel Parameter.StandsFor parameter failure.parameter)
      (tallies : first.Tallies second) :
      Parallels (.error failure, first) (.error { failure with parameter := parameter }, second)

/-- Two attempts that go side by side go on so if what follows does. -/
theorem Parallels.andThen {attempt other : Attempt α} {next following : α → Attempt β}
    {first second : Progress} (parallels : Parallels (attempt first) (other second))
    (goesOn : ∀ answer {first second : Progress}, first.Tallies second →
      Parallels (next answer first) (following answer second)) :
    Parallels (Attempt.andThen attempt next first) (Attempt.andThen other following second) := by
  generalize attempted : attempt first = result at parallels
  generalize attemptedToo : other second = resultToo at parallels
  cases parallels with
  | succeeded answer tallies =>
      rw [andThen_of_ok attempted, andThen_of_ok attemptedToo]
      exact goesOn answer tallies
  | failed blamed tallies =>
      rw [andThen_of_error attempted, andThen_of_error attemptedToo]
      exact .failed blamed tallies

end Attempt

namespace Job

variable {parameter own : Parameter} {first second : Progress}

theorem reject_parallels (job : Job) (stands : own.StandsFor parameter) (argument : Argument)
    {error other : Diagnostic} (same : error.message = other.message)
    (tallies : first.Tallies second) :
    Attempt.Parallels (job.reject parameter argument error first)
      (job.reject own argument other second) := by
  unfold reject
  rw [← tallies.world]
  split
  · exact .failed .none tallies
  · have restated : job.conversionFailure own argument other =
        { job.conversionFailure parameter argument error with parameter := some own } := by
      rw [conversionFailure, conversionFailure, same]
    rw [restated]
    exact .failed (.some stands) ⟨rfl, tallies.performed⟩

theorem perform_tallies (job : Job) (position : Nat) (conversion : Conversion)
    (tallies : first.Tallies second) :
    (job.perform position conversion first).1 = (job.perform position conversion second).1 ∧
      (job.perform position conversion first).2.Tallies
        (job.perform position conversion second).2 := by
  unfold perform
  rw [← tallies.world, ← tallies.performed]
  exact ⟨rfl, rfl, rfl⟩

/-- A use is converted in the same way for every parameter that may stand for its own. -/
theorem convertUse_parallels (job : Job) (stands : own.StandsFor parameter) (use : Use)
    (tallies : first.Tallies second) :
    Attempt.Parallels (job.convertUse parameter use first) (job.convertUse own use second) := by
  unfold convertUse
  rw [← tallies.world]
  split
  · exact .failed .none tallies
  · cases use.plan with
    | deliver value => exact .succeeded value tallies
    | refuse obstacle => exact job.reject_parallels stands use.argument rfl tallies
    | run conversion =>
        obtain ⟨answered, tallies⟩ := job.perform_tallies use.position conversion tallies
        dsimp only
        generalize job.perform use.position conversion first = result at answered tallies ⊢
        generalize job.perform use.position conversion second = other at answered tallies ⊢
        obtain ⟨answer, first⟩ := result
        obtain ⟨_, second⟩ := other
        cases answered
        cases answer with
        | ok value => exact .succeeded value tallies
        | error error => exact job.reject_parallels stands use.argument rfl tallies

/-- **The same uses are converted in the same way**, whichever parameters they are for. -/
theorem convertTasks_parallels (job : Job) {tasks others : List Task}
    (same : List.Forall₂ (fun task other => other.1.StandsFor task.1 ∧ other.2 = task.2)
      tasks others) (tallies : first.Tallies second) :
    Attempt.Parallels (job.convertTasks tasks first) (job.convertTasks others second) := by
  induction same generalizing first second with
  | nil => exact .succeeded [] tallies
  | @cons task other tasks others here _ ih =>
      obtain ⟨parameter, use⟩ := task
      obtain ⟨own, _⟩ := other
      obtain ⟨stands, rfl⟩ := here
      refine (job.convertUse_parallels stands _ tallies).andThen fun value _ _ tallies => ?_
      exact (ih tallies).andThen fun values _ _ tallies => .succeeded (value :: values) tallies

end Job

/-! ## The two resolutions -/

namespace Variadic

/-- What the outcome with the vararg has to do with the outcome where it is written out.  On a
success the vararg has the array of what its elements have; failures differ at most in the parameter
that they name. -/
inductive Spells (variadic : Variadic) (names : List (Option String)) (first second : Overload) :
    Except Failure ResolvedCall → Except Failure ResolvedCall → Prop where
  | resolved (invocation : Invocation) {values elements : List Value}
      (leading : values.length = variadic.leading.length)
      (written : elements.length = names.length) :
      Spells variadic names first second
        (.ok ⟨{ invocation with
            arguments := values ++ [.array (.array variadic.element variadic.nullable) elements] },
          some first⟩)
        (.ok ⟨{ invocation with arguments := values ++ elements }, some second⟩)
  | failed {failure : Failure} {parameter : Option Parameter}
      (blamed : Option.Rel Parameter.StandsFor parameter failure.parameter) :
      Spells variadic names first second
        (.error failure) (.error { failure with parameter := parameter })

variable {scope : Scope} {call : Call} {variadic : Variadic} {names : List (Option String)}
  {action other : Option Action} {leading : Nat}

/-- What the vararg gathers into an array, its elements have one by one. -/
theorem Mirrors.gather {first second : Walk} (mirrors : variadic.Mirrors names leading first second)
    (matched : first.verdict = .matched) {values : List Value}
    (length : values.length = first.uses.length) :
    ∃ shared elements, shared.length = leading ∧ elements.length = names.length ∧
      Binding.gather first.bindings values =
        shared ++ [.array (.array variadic.element variadic.nullable) elements] ∧
      Binding.gather second.bindings values = shared ++ elements := by
  cases mirrors with
  | unmatched unmatched => exact absurd matched unmatched
  | @matched bindings tasks bound written =>
      have count : tasks.length = names.length := by
        rw [← List.length_map Prod.fst, written, elements, List.length_map]
      let used := (bindings.flatMap Binding.uses).length
      have total : values.length = used + tasks.length := by
        rw [length, Walk.uses, List.flatMap_append, List.length_append, List.flatMap_singleton]
        exact congrArg (used + ·) (List.length_map Prod.snd)
      -- the first values are those of the parameters that both have
      have early : (values.take used).length = used := by
        rw [List.length_take]
        omega
      have late : (values.drop used).length = tasks.length := by
        rw [List.length_drop]
        omega
      rw [← List.take_append_drop used values, Binding.gather_append _ early,
        Binding.gather_append _ early, Binding.gather_ofTask late]
      have all : (values.drop used).length = (tasks.map Prod.snd).length := by
        rw [late, List.length_map]
      have gathered := Job.gather_many variadic.vararg [] all []
      rw [List.append_nil] at gathered
      exact ⟨_, _, (Binding.length_gather early).trans bound, late.trans count,
        congrArg (Binding.gather bindings (values.take used) ++ ·) gathered, rfl⟩

/-- The assessments compare as the walks do, and agree on the receiver. -/
theorem assess_mirrors (scope : Scope)
    (count : names.length = call.arguments.length - variadic.leading.length)
    (action other : Option Action) :
    variadic.Mirrors names variadic.leading.length
      (scope.assess call (variadic.collecting action)).walk
      (scope.assess call (variadic.writtenOut names other)).walk ∧
    (scope.assess call (variadic.collecting action)).receiverBound =
      (scope.assess call (variadic.writtenOut names other)).receiverBound := by
  by_cases admits : scope.Admits call.caller (variadic.collecting action)
  · have admitsToo : scope.Admits call.caller (variadic.writtenOut names other) := admits
    rw [Scope.assess_of_admits admits, Scope.assess_of_admits admitsToo]
    exact ⟨walk_mirrors variadic.single count, rfl⟩
  · have refuses : ¬ scope.Admits call.caller (variadic.writtenOut names other) := admits
    rw [Scope.assess_of_not_admits admits, Scope.assess_of_not_admits refuses]
    exact ⟨.unmatched Verdict.noConfusion rfl, rfl⟩

theorem Mirrors.score_eq {first second : Assessment}
    (mirrors : variadic.Mirrors names leading first.walk second.walk) :
    first.score = second.score := by
  have verdict : first.verdict = second.verdict := mirrors.verdict_eq
  by_cases matched : first.verdict = .matched
  · rw [Scope.score_of_matched matched, Scope.score_of_matched (verdict.symm.trans matched)]
    exact congrArg Assessment.worstRank (mirrors.uses_eq matched)
  · have unmatched : second.verdict ≠ .matched := fun same => matched (verdict.trans same)
    rw [Scope.score_of_not_matched matched, Scope.score_of_not_matched unmatched]

/-- **Converting comes to the same.** -/
theorem convert_spells (job : Job) {first second : Assessment}
    (mirrors : variadic.Mirrors names variadic.leading.length first.walk second.walk)
    (matched : first.verdict = .matched) (bound : first.receiverBound = second.receiverBound)
    (world : World) :
    (job.convert first world).2.Tallies (job.convert second world).2 ∧
      variadic.Spells names first.overload second.overload (job.convert first world).1
        (job.convert second world).1 := by
  have parallels : Attempt.Parallels (job.convertTasks (Job.tasks first) (.start world))
      (job.convertTasks (Job.tasks second) (.start world)) :=
    job.convertTasks_parallels (mirrors.tasks matched) ⟨rfl, rfl⟩
  have run := job.convertTasks_run (Job.tasks first) (.start world)
  rw [Job.convert_eq, Job.convert_eq]
  generalize attempted : job.convertTasks (Job.tasks first) (.start world) = result
    at parallels run
  generalize attemptedToo : job.convertTasks (Job.tasks second) (.start world) = resultToo
    at parallels
  cases parallels with
  | failed blamed tallies =>
      rw [Attempt.andThen_of_error attempted, Attempt.andThen_of_error attemptedToo]
      exact ⟨tallies, .failed blamed⟩
  | succeeded values tallies =>
      rw [Attempt.andThen_of_ok attempted, Attempt.andThen_of_ok attemptedToo]
      have length : values.length = (Job.tasks first).length := run.length
      rw [← List.length_map Prod.snd, Job.map_snd_tasks] at length
      obtain ⟨shared, elements, leading, written, gathered, spread⟩ :=
        mirrors.gather matched length
      dsimp only [Assessment.walk] at gathered spread
      refine ⟨tallies, ?_⟩
      simp only [Attempt.succeed, Job.resolved, gathered, spread, bound]
      exact .resolved ⟨_, _, _, []⟩ leading written

/-- Two resolutions that run the same conversions in the same order, to the same effect, and whose
outcomes correspond. -/
structure Corresponds (variadic : Variadic) (names : List (Option String)) (first second : Overload)
    (resolution written : Resolution) : Prop where
  performed : resolution.performed = written.performed
  world : resolution.world = written.world
  outcome : variadic.Spells names first second resolution.outcome written.outcome

/-- A call comes to the same with an overload that ends with a vararg as with one where the vararg
is written out: they are assessed alike, and resolving the call against either alone corresponds. -/
structure WritesOut (variadic : Variadic) (names : List (Option String)) (first second : Overload)
    (assess : Overload → Assessment) (resolve : Overload → Resolution) : Prop where
  verdict : (assess first).verdict = (assess second).verdict
  score : (assess first).score = (assess second).score
  receiverBound : (assess first).receiverBound = (assess second).receiverBound
  corresponds : variadic.Corresponds names first second (resolve first) (resolve second)

variable {token : Token} {world : World}

/-- If the vararg makes for a match, its elements do, and both are converted. -/
theorem corresponds_of_viable (settings : Settings)
    (count : names.length = call.arguments.length - variadic.leading.length)
    (running : world.isRequested token = false)
    (viable : scope.Viable call (variadic.collecting action)) :
    variadic.Corresponds names (variadic.collecting action) (variadic.writtenOut names other)
      (scope.resolve settings token call [variadic.collecting action] world)
      (scope.resolve settings token call [variadic.writtenOut names other] world) := by
  obtain ⟨mirrors, bound⟩ := assess_mirrors scope count action other
  have viableToo : scope.Viable call (variadic.writtenOut names other) :=
    mirrors.verdict_eq.symm.trans viable
  have sole : scope.SoleLeader call [variadic.collecting action] 0 :=
    (Scope.exclusive_singleton _ _ _).soleLeader rfl viable
  have soleToo : scope.SoleLeader call [variadic.writtenOut names other] 0 :=
    (Scope.exclusive_singleton _ _ _).soleLeader rfl viableToo
  rw [Scope.resolve_of_soleLeader settings running rfl sole,
    Scope.resolve_of_soleLeader settings running rfl soleToo]
  obtain ⟨tallies, spells⟩ := convert_spells ⟨call, 1, token⟩ mirrors viable bound world
  rw [Scope.overload_assess, Scope.overload_assess] at spells
  exact ⟨tallies.performed, tallies.world, spells⟩

/-- If the vararg makes for no match, its elements do not either, and the failures are the same. -/
theorem corresponds_of_nonviable (settings : Settings)
    (count : names.length = call.arguments.length - variadic.leading.length)
    (running : world.isRequested token = false)
    (nonviable : ¬ scope.Viable call (variadic.collecting action)) :
    variadic.Corresponds names (variadic.collecting action) (variadic.writtenOut names other)
      (scope.resolve settings token call [variadic.collecting action] world)
      (scope.resolve settings token call [variadic.writtenOut names other] world) := by
  have verdict : (scope.assess call (variadic.collecting action)).verdict =
      (scope.assess call (variadic.writtenOut names other)).verdict :=
    (assess_mirrors scope count action other).1.verdict_eq
  have nonviableToo : ¬ scope.Viable call (variadic.writtenOut names other) := by
    intro viable
    exact nonviable (verdict.trans viable)
  have mismatch : scope.mismatch settings call [variadic.collecting action] =
      scope.mismatch settings call [variadic.writtenOut names other] := by
    simp only [Scope.mismatch, Scope.RefusesAll, List.forall_mem_singleton, verdict, ne_eq,
      List.cons_ne_nil]
  rw [Scope.resolve_of_nonviable running (List.forall_mem_singleton.mpr nonviable),
    Scope.resolve_of_nonviable running (List.forall_mem_singleton.mpr nonviableToo), mismatch]
  exact ⟨rfl, rfl, .failed .none⟩

/-- **A vararg is the same as writing its elements out.** -/
theorem resolve_writesOut (scope : Scope) (settings : Settings) (token : Token) (call : Call)
    (variadic : Variadic) {names : List (Option String)} (action other : Option Action)
    (count : names.length = call.arguments.length - variadic.leading.length) (world : World) :
    variadic.WritesOut names (variadic.collecting action) (variadic.writtenOut names other)
      (scope.assess call) fun overload => scope.resolve settings token call [overload] world := by
  obtain ⟨mirrors, bound⟩ := assess_mirrors scope count action other
  refine ⟨mirrors.verdict_eq, mirrors.score_eq, bound, ?_⟩
  cases requested : world.isRequested token with
  | true =>
      rw [Scope.resolve_of_requested scope settings call _ requested,
        Scope.resolve_of_requested scope settings call _ requested]
      exact ⟨rfl, rfl, .failed .none⟩
  | false =>
      by_cases viable : scope.Viable call (variadic.collecting action)
      · exact corresponds_of_viable settings count requested viable
      · exact corresponds_of_nonviable settings count requested viable

/-- Takes a first line and any number of others. -/
def lines : Variadic where
  receiver := none
  leading := [.required "first" .string]
  single := by decide
  name := some "others"
  element := .string
  nullable := false
  optional := false

/-- Of three lines two become an array, or the values of two parameters more. -/
theorem three_lines_written_out :
    ([some "second", some "third"] : List (Option String)).length =
        (Scope.echoing [.ofToken "a", .ofToken "b", .ofToken "c"]).arguments.length -
          lines.leading.length ∧
      (Scope.resolve ⟨.initial, none⟩ .initial .never
        (Scope.echoing [.ofToken "a", .ofToken "b", .ofToken "c"]) [lines.collecting none]
          .initial).outcome.toOption.map (fun resolved => resolved.invocation.arguments) =
        some [.string "a", .array (.array .string false) [.string "b", .string "c"]] ∧
      lines.WritesOut [some "second", some "third"] (lines.collecting none)
        (lines.writtenOut [some "second", some "third"] none)
        (Scope.assess ⟨.initial, none⟩
          (Scope.echoing [.ofToken "a", .ofToken "b", .ofToken "c"])) fun overload =>
        Scope.resolve ⟨.initial, none⟩ .initial .never
          (Scope.echoing [.ofToken "a", .ofToken "b", .ofToken "c"]) [overload] .initial :=
  ⟨rfl, rfl, resolve_writesOut _ _ _ _ lines none none rfl _⟩

end Variadic

end OverloadResolution
