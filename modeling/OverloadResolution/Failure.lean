import OverloadResolution.Diagnostic
import OverloadResolution.Numeral.Decimal
import OverloadResolution.Overload

/-!
# Why a call is not resolved

A failure names its kind, the command, and how many overloads were considered.  An ambiguous call
adds the overloads that tie, and a failed conversion adds the parameter, the token and the reason.
-/

set_option autoImplicit false

namespace OverloadResolution

/-- The kinds of failure. -/
inductive FailureKind where
  | noMatch
  | ambiguous
  | conversion
  | receiver
  | cancelled
deriving DecidableEq, Repr

/-- Why a call is not resolved. -/
structure Failure where
  kind : FailureKind
  callee : String
  considered : Nat
  candidates : List Overload
  parameter : Option Parameter
  raw : Option String
  reason : String

namespace Failure

/-- A failure that has nothing more to say than its kind. -/
def ofKind (kind : FailureKind) (callee : String) (considered : Nat) : Failure :=
  ⟨kind, callee, considered, [], none, none, ""⟩

/-- What the failure says. -/
def message (failure : Failure) : String :=
  match failure.kind with
  | .noMatch => "no matching variant among " ++ Decimal.text failure.considered ++ " candidate(s)"
  | .ambiguous =>
    "ambiguous call; " ++ Decimal.text failure.candidates.length ++
      " variants match equally well:" ++
      String.join (failure.candidates.map fun candidate => " " ++ candidate.render)
  | .conversion =>
    "cannot convert argument" ++
      (failure.raw.map fun raw => " '" ++ raw ++ "'").getD "" ++
      (failure.parameter.map fun parameter => " for parameter " ++ parameter.render).getD "" ++
      if failure.reason.isEmpty then "" else ": " ++ failure.reason
  | .receiver =>
    "caller is not accepted by any of " ++ Decimal.text failure.considered ++ " candidate(s)"
  | .cancelled => "resolution cancelled"

/-- The failure as an error about the command. -/
def diagnostic (failure : Failure) : Diagnostic := .error failure.callee failure.message

/-- Adds the failure to a report: the error first, and then a note for each overload that ties. -/
def addTo (failure : Failure) (report : Report) : Report :=
  failure.candidates.foldl
    (fun report candidate => report.add ⟨.note, "candidate: " ++ candidate.render, failure.callee⟩)
    (report.add failure.diagnostic)

end Failure

end OverloadResolution
