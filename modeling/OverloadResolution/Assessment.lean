import OverloadResolution.Fit
import OverloadResolution.Overload

/-!
# Assessing an overload against a call

The parameters are walked from left to right against the arguments.  A parameter that takes any
number of arguments takes all that are left, and the fit of each is recorded even after one of them
is rejected; any other parameter takes one.  The walk ends at the first parameter that rejects an
argument or misses one, and arguments left over at the end spoil the match as well.

An assessment records what each walked parameter got.  The score is read off the record: it is the
worst rank among the fits used, and the top rank when nothing was used.  Nothing is converted here.
-/

set_option autoImplicit false

namespace OverloadResolution

/-- What came of the walk. -/
inductive Verdict where
  | matched
  | receiverRejected
  | arityMismatch
  | argumentRejected
deriving DecidableEq, Repr

/-- The words for a verdict. -/
def Verdict.render : Verdict → String
  | .matched => "matched"
  | .receiverRejected => "receiver rejected"
  | .arityMismatch => "arity mismatch"
  | .argumentRejected => "argument rejected"

/-- An argument as a parameter uses it: its position in the call, the argument, its fit. -/
structure Use where
  position : Nat
  argument : Argument
  fit : Fit

/-- What a parameter got: one argument, any number of them, none because it is optional, or none
although it needs one. -/
inductive Share where
  | one (use : Use)
  | many (uses : List Use)
  | skipped
  | missing

/-- The uses in a share, in order. -/
def Share.uses : Share → List Use
  | .one use => [use]
  | .many uses => uses
  | .skipped => []
  | .missing => []

/-- A walked parameter with what it got. -/
structure Binding where
  parameter : Parameter
  share : Share

/-- The uses in a binding, in order. -/
def Binding.uses (binding : Binding) : List Use := binding.share.uses

/-- How a walk ended, and what the walked parameters got. -/
structure Walk where
  verdict : Verdict
  bindings : List Binding

/-- The walk that ends at a parameter, with what that parameter got. -/
def Walk.endingAt (verdict : Verdict) (binding : Binding) : Walk := ⟨verdict, [binding]⟩

/-- The walk that goes on after a parameter. -/
def Walk.after (rest : Walk) (binding : Binding) : Walk :=
  ⟨rest.verdict, binding :: rest.bindings⟩

/-- What is known of an overload once it has been held against a call. -/
structure Assessment where
  overload : Overload
  verdict : Verdict
  receiverBound : Bool
  bindings : List Binding

namespace Assessment

/-- All uses, in order. -/
def uses (assessment : Assessment) : List Use := assessment.bindings.flatMap Binding.uses

/-- The worst rank among uses, and the top rank among none. -/
def worstRank (uses : List Use) : Int :=
  uses.foldr (fun use worst => if use.fit.rank < worst then use.fit.rank else worst) Fit.topRank

/-- The score: the worst rank used, or the bottom rank for an overload that does not match. -/
def score (assessment : Assessment) : Int :=
  if assessment.verdict = .matched then worstRank assessment.uses else Fit.bottomRank

/-- Whether the overload is out of the question. -/
def isDisqualified (assessment : Assessment) : Bool :=
  assessment.verdict ≠ .matched || assessment.score ≤ Fit.ambiguousRank

end Assessment

namespace Scope

/-- An argument as a parameter would use it. -/
def use (scope : Scope) (parameter : Parameter) (position : Nat) (argument : Argument) : Use :=
  ⟨position, argument, scope.fit parameter argument⟩

/-- All arguments from a position on, as a parameter would use them. -/
def useAll (scope : Scope) (parameter : Parameter) (position : Nat) : List Argument → List Use
  | [] => []
  | argument :: rest =>
    scope.use parameter position argument :: scope.useAll parameter (position + 1) rest

@[simp]
theorem length_useAll (scope : Scope) (parameter : Parameter) (position : Nat)
    (arguments : List Argument) :
    (scope.useAll parameter position arguments).length = arguments.length := by
  induction arguments generalizing position with
  | nil => rfl
  | cons argument rest ih => simp [useAll, ih]

/-- The uses of all arguments take the positions one after another. -/
theorem map_position_useAll (scope : Scope) (parameter : Parameter) (position : Nat)
    (arguments : List Argument) :
    (scope.useAll parameter position arguments).map Use.position =
      List.range' position arguments.length := by
  induction arguments generalizing position with
  | nil => rfl
  | cons argument rest ih => simp [useAll, use, ih, List.range'_succ]

/-- Walks parameters against the arguments from a position on. -/
def walk (scope : Scope) : List Parameter → (position : Nat) → List Argument → Walk
  | [], _, [] => ⟨.matched, []⟩
  | [], _, _ :: _ => ⟨.arityMismatch, []⟩
  | parameter :: parameters, position, arguments =>
    if parameter.isVararg then
      let uses := scope.useAll parameter position arguments
      if uses.all fun use => use.fit.isAcceptable then
        (scope.walk parameters (position + arguments.length) []).after ⟨parameter, .many uses⟩
      else .endingAt .argumentRejected ⟨parameter, .many uses⟩
    else
      match arguments with
      | argument :: rest =>
        let use := scope.use parameter position argument
        if use.fit.isAcceptable then
          (scope.walk parameters (position + 1) rest).after ⟨parameter, .one use⟩
        else .endingAt .argumentRejected ⟨parameter, .one use⟩
      | [] =>
        if parameter.isOptional then
          (scope.walk parameters position []).after ⟨parameter, .skipped⟩
        else .endingAt .arityMismatch ⟨parameter, .missing⟩

/-- Whether a caller can be the receiver. -/
def acceptsReceiver (scope : Scope) (caller : Caller) (receiver : Receiver) : Bool :=
  scope.declarations.isSubtype caller.type receiver.type

/-- Holds an overload against a call.  A caller that is refused by a receiver that is not optional
settles the matter before any argument is looked at. -/
def assess (scope : Scope) (call : Call) (overload : Overload) : Assessment :=
  let bound := overload.receiver.any (scope.acceptsReceiver call.caller)
  if overload.receiver.any fun receiver =>
      !scope.acceptsReceiver call.caller receiver && !receiver.optional then
    ⟨overload, .receiverRejected, false, []⟩
  else
    let walk := scope.walk overload.parameters 0 call.arguments
    ⟨overload, walk.verdict, bound, walk.bindings⟩

end Scope

end OverloadResolution
