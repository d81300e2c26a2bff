import OverloadResolution.Assessment

/-!
# Choosing among assessed overloads

The assessments are gone through once, in the order of the list.  What is kept on the way is the
best score met so far and the assessments that have it: a better score drops all earlier leaders,
an equal one joins them, and an overload that is out of the question changes nothing.  A single
leader at the end is chosen.  Several leaders tie, and a tie is never broken: where an overload
stands in the list plays no part.
-/

set_option autoImplicit false

namespace OverloadResolution

/-- An assessment with its position in the list. -/
abbrev Candidate := Assessment × Nat

/-- The best score met so far, and the candidates that have it, in order. -/
structure Standing where
  best : Int
  leaders : List Candidate

namespace Standing

/-- Nobody leads yet. -/
def initial : Standing := ⟨Fit.bottomRank, []⟩

/-- A strictly better score drops everyone who led so far. -/
def raise (standing : Standing) (score : Int) : Standing :=
  if standing.best < score then ⟨score, []⟩ else standing

/-- The standing after one more candidate. -/
def enter (standing : Standing) (candidate : Candidate) : Standing :=
  if candidate.1.isDisqualified then standing
  else
    let raised := standing.raise candidate.1.score
    if candidate.1.score = raised.best then
      { raised with leaders := raised.leaders ++ [candidate] }
    else raised

/-- The standing after all candidates. -/
def ofAssessments (assessments : List Assessment) : Standing :=
  assessments.zipIdx.foldl enter initial

end Standing

/-- What choosing comes to.  The chosen overload is known with its position in the list. -/
inductive Selection where
  | chosen (position : Nat) (assessment : Assessment)
  | tied (leaders : List Assessment)
  | none

/-- Chooses among assessments. -/
def Selection.ofAssessments (assessments : List Assessment) : Selection :=
  match (Standing.ofAssessments assessments).leaders with
  | [] => .none
  | [(assessment, position)] => .chosen position assessment
  | entries => .tied (entries.map Prod.fst)

end OverloadResolution
