import OverloadResolution.Proofs.Matching
import OverloadResolution.Resolution

/-!
# What resolving sees of a scope

A walk sees a scope only through the fits of the arguments that its parameters take
(`Scope.walk_congr`).  An assessment sees besides only whether the receiver accepts the caller
(`Scope.assess_congr`), and resolving sees nothing but the assessments (`Scope.resolve_congr`).  So
two scopes that agree on these cannot be told apart by a call, whatever else they declare or can
read.
-/

set_option autoImplicit false

namespace OverloadResolution

namespace Scope

variable {first second : Scope} {parameters : List Parameter} {position : Nat}
  {arguments : List Argument} {call : Call} {overload : Overload} {overloads : List Overload}

/-- Scopes in which every argument fits its taker alike have the same uses of a call. -/
theorem takings_congr
    (agree : ∀ index argument parameter, arguments[index]? = some argument →
      Parameter.taker? parameters index = some parameter →
        second.fit parameter argument = first.fit parameter argument) :
    second.takings parameters position arguments =
      first.takings parameters position arguments := by
  refine List.ext_getElem? fun index => ?_
  rw [getElem?_takings, getElem?_takings]
  cases given : arguments[index]? with
  | none => simp only [Option.bind_none]
  | some argument =>
      cases taken : Parameter.taker? parameters index with
      | none => simp only [Option.bind_some, Option.map_none]
      | some parameter =>
          simp only [Option.bind_some, Option.map_some, use,
            agree index argument parameter given taken]

/-- **A walk sees a scope only through the uses of the call.** -/
theorem walk_congr (same : second.takings parameters position arguments =
      first.takings parameters position arguments) :
    second.walk parameters position arguments = first.walk parameters position arguments := by
  induction parameters generalizing position arguments with
  | nil => cases arguments <;> rfl
  | cons parameter parameters ih =>
      -- after the last argument the two walks can only agree
      have rest (position : Nat) :
          second.walk parameters position [] = first.walk parameters position [] :=
        ih (by rw [takings_none, takings_none])
      cases vararg : parameter.isVararg with
      | true =>
          rw [takings_vararg vararg, takings_vararg vararg] at same
          simp only [walk, vararg, if_true, same, rest]
      | false =>
          cases arguments with
          | nil => simp only [walk, vararg, Bool.false_eq_true, if_false, rest]
          | cons argument arguments =>
              rw [takings_single vararg, takings_single vararg, List.cons.injEq] at same
              simp only [walk, vararg, Bool.false_eq_true, if_false, same.1, ih same.2]

/-- An assessment sees a scope only through the uses of the call and the caller's reception. -/
theorem assess_congr
    (receives : ∀ receiver ∈ overload.receiver,
      second.acceptsReceiver call.caller receiver = first.acceptsReceiver call.caller receiver)
    (takes : second.takings overload.parameters 0 call.arguments =
      first.takings overload.parameters 0 call.arguments) :
    second.assess call overload = first.assess call overload := by
  unfold assess
  rw [walk_congr takes]
  cases declared : overload.receiver with
  | none => rfl
  | some receiver => simp only [Option.any_some, receives receiver declared]

/-- **Resolving sees a scope only through the assessments.** -/
theorem resolve_congr {settings : Settings} {token : Token} {world : World}
    (same : ∀ overload ∈ overloads, second.assess call overload = first.assess call overload) :
    second.resolve settings token call overloads world =
      first.resolve settings token call overloads world := by
  have assessed : second.assessAll call overloads = first.assessAll call overloads :=
    List.map_congr_left same
  unfold resolve
  rw [assessed]

end Scope

end OverloadResolution
