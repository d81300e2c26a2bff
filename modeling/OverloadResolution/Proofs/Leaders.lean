import OverloadResolution.Proofs.Matching
import OverloadResolution.Resolution

/-!
# Who leads

The one pass over the assessments keeps a best score and the candidates that have it.  What it
keeps reflects the part of the list that has been gone through (`Standing.Reflects`): the best score
bounds every score in play, and the leaders are those in play that reach it, in order.  Entering a
candidate preserves that (`Standing.Reflects.enter`), so it holds at the end of the list
(`Standing.reflects_ofAssessments`).

Read off at the end, the leaders are the candidates in play that none in play surpasses, wherever
they stand (`Standing.Reflects.mem_leaders_iff`, `Scope.leaders_eq_filter`).
-/

set_option autoImplicit false

namespace OverloadResolution

/-- An assessment in play has a score above that of no fit. -/
theorem Assessment.bottomRank_lt_score {assessment : Assessment}
    (inPlay : assessment.isDisqualified = false) : Fit.bottomRank < assessment.score := by
  have low : ¬ assessment.score ≤ Fit.ambiguousRank := by
    intro low
    simp [isDisqualified, low] at inPlay
  exact Int.lt_trans (by decide) (Int.lt_of_not_ge low)

/-- A candidate is in play, and none in play among some others has a better score. -/
def Candidate.Leads (others : List Candidate) (candidate : Candidate) : Prop :=
  candidate.1.isDisqualified = false ∧
    ∀ other ∈ others, other.1.isDisqualified = false → other.1.score ≤ candidate.1.score

namespace Standing

/-- What the standing says of the candidates gone through so far. -/
structure Reflects (standing : Standing) (seen : List Candidate) : Prop where
  upper : ∀ candidate ∈ seen, candidate.1.isDisqualified = false →
    candidate.1.score ≤ standing.best
  leaders : standing.leaders =
    seen.filter fun candidate =>
      !candidate.1.isDisqualified && decide (candidate.1.score = standing.best)
  idle : standing.leaders = [] → standing.best = Fit.bottomRank

theorem reflects_initial : initial.Reflects [] where
  upper := by simp
  leaders := rfl
  idle := fun _ => rfl

variable {standing : Standing} {seen : List Candidate}

/-- A bound on the scores in play, for one candidate more. -/
theorem upper_snoc {best : Int} {candidate : Candidate}
    (upper : ∀ other ∈ seen, other.1.isDisqualified = false → other.1.score ≤ best)
    (last : candidate.1.isDisqualified = false → candidate.1.score ≤ best) :
    ∀ other ∈ seen ++ [candidate], other.1.isDisqualified = false → other.1.score ≤ best := by
  rw [List.forall_mem_append, List.forall_mem_singleton]
  exact ⟨upper, last⟩

/-- A candidate that is out of the question changes nothing. -/
theorem Reflects.enter_disqualified (reflects : standing.Reflects seen) {candidate : Candidate}
    (disqualified : candidate.1.isDisqualified = true) :
    (standing.enter candidate).Reflects (seen ++ [candidate]) := by
  rw [enter, if_pos disqualified]
  refine ⟨upper_snoc reflects.upper fun inPlay => ?_, ?_, reflects.idle⟩
  · rw [disqualified] at inPlay
    cases inPlay
  · rw [List.filter_append, ← reflects.leaders]
    simp [disqualified]

/-- A better candidate leads alone. -/
theorem Reflects.enter_better (reflects : standing.Reflects seen) {candidate : Candidate}
    (inPlay : candidate.1.isDisqualified = false) (better : standing.best < candidate.1.score) :
    (standing.enter candidate).Reflects (seen ++ [candidate]) := by
  have entered : standing.enter candidate = ⟨candidate.1.score, [candidate]⟩ := by
    simp [enter, raise, inPlay, better]
  rw [entered]
  refine ⟨upper_snoc (fun other member otherInPlay => ?_) fun _ => Int.le_refl _, ?_, by simp⟩
  · exact Int.le_of_lt (Int.lt_of_le_of_lt (reflects.upper other member otherInPlay) better)
  · -- nobody seen before reaches the new best score
    have surpassed : seen.filter (fun other =>
        !other.1.isDisqualified && decide (other.1.score = candidate.1.score)) = [] := by
      refine List.filter_eq_nil_iff.mpr fun other member reaches => ?_
      rw [Bool.and_eq_true, Bool.not_eq_true', decide_eq_true_iff] at reaches
      have bound := reflects.upper other member reaches.1
      omega
    rw [List.filter_append, surpassed]
    simp [inPlay]

/-- An equal candidate joins the leaders. -/
theorem Reflects.enter_equal (reflects : standing.Reflects seen) {candidate : Candidate}
    (inPlay : candidate.1.isDisqualified = false) (equal : candidate.1.score = standing.best) :
    (standing.enter candidate).Reflects (seen ++ [candidate]) := by
  have entered : standing.enter candidate =
      ⟨standing.best, standing.leaders ++ [candidate]⟩ := by
    simp [enter, raise, inPlay, equal]
  rw [entered]
  refine ⟨upper_snoc reflects.upper fun _ => Int.le_of_eq equal, ?_, by simp⟩
  rw [List.filter_append, ← reflects.leaders]
  simp [inPlay, equal]

/-- A worse candidate changes nothing. -/
theorem Reflects.enter_worse (reflects : standing.Reflects seen) {candidate : Candidate}
    (inPlay : candidate.1.isDisqualified = false) (worse : candidate.1.score < standing.best) :
    (standing.enter candidate).Reflects (seen ++ [candidate]) := by
  have different : candidate.1.score ≠ standing.best := Int.ne_of_lt worse
  have entered : standing.enter candidate = standing := by
    simp [enter, raise, inPlay, different, Int.not_lt.mpr (Int.le_of_lt worse)]
  rw [entered]
  refine ⟨upper_snoc reflects.upper fun _ => Int.le_of_lt worse, ?_, reflects.idle⟩
  rw [List.filter_append, ← reflects.leaders]
  simp [different]

/-- **Entering a candidate keeps the standing true to the list.** -/
theorem Reflects.enter (reflects : standing.Reflects seen) (candidate : Candidate) :
    (standing.enter candidate).Reflects (seen ++ [candidate]) := by
  cases inPlay : candidate.1.isDisqualified with
  | true => exact reflects.enter_disqualified inPlay
  | false =>
      rcases Int.lt_trichotomy standing.best candidate.1.score with better | equal | worse
      · exact reflects.enter_better inPlay better
      · exact reflects.enter_equal inPlay equal.symm
      · exact reflects.enter_worse inPlay worse

theorem Reflects.foldl (reflects : standing.Reflects seen) (rest : List Candidate) :
    (rest.foldl Standing.enter standing).Reflects (seen ++ rest) := by
  induction rest generalizing standing seen with
  | nil =>
      rw [List.append_nil]
      exact reflects
  | cons candidate rest ih =>
      have entered := ih (reflects.enter candidate)
      rw [List.append_assoc, List.singleton_append] at entered
      exact entered

/-- **The standing at the end reflects the whole list.** -/
theorem reflects_ofAssessments (assessments : List Assessment) :
    (ofAssessments assessments).Reflects assessments.zipIdx :=
  reflects_initial.foldl assessments.zipIdx

theorem Reflects.mem_leaders_iff (reflects : standing.Reflects seen) {candidate : Candidate} :
    candidate ∈ standing.leaders ↔ candidate ∈ seen ∧ Candidate.Leads seen candidate := by
  rw [reflects.leaders, List.mem_filter, Bool.and_eq_true, Bool.not_eq_true', decide_eq_true_iff]
  refine and_congr_right fun member => and_congr_right fun inPlay => ?_
  constructor
  · intro reaches other otherMember otherInPlay
    rw [reaches]
    exact reflects.upper other otherMember otherInPlay
  · intro unsurpassed
    have bound := reflects.upper candidate member inPlay
    cases leaders : standing.leaders with
    | nil =>
        -- with nobody leading the best score would be that of no fit
        have above := Assessment.bottomRank_lt_score inPlay
        rw [← reflects.idle leaders] at above
        omega
    | cons leader rest =>
        have leads : leader ∈ standing.leaders := leaders ▸ List.mem_cons_self
        rw [reflects.leaders, List.mem_filter, Bool.and_eq_true, Bool.not_eq_true',
          decide_eq_true_iff] at leads
        have surpassed := unsurpassed leader leads.1 leads.2.1
        rw [leads.2.2] at surpassed
        omega

end Standing

/-! ## Leading overloads -/

namespace Scope

/-- An overload matches a call. -/
def Viable (scope : Scope) (call : Call) (overload : Overload) : Prop :=
  (scope.assess call overload).verdict = .matched

instance (scope : Scope) (call : Call) (overload : Overload) :
    Decidable (scope.Viable call overload) :=
  inferInstanceAs (Decidable ((scope.assess call overload).verdict = .matched))

/-- An overload matches a call with a score that no matching overload in a list surpasses. -/
def Leads (scope : Scope) (call : Call) (overloads : List Overload) (overload : Overload) : Prop :=
  scope.Viable call overload ∧ ∀ other ∈ overloads, scope.Viable call other →
    (scope.assess call other).score ≤ (scope.assess call overload).score

instance (scope : Scope) (call : Call) (overloads : List Overload) (overload : Overload) :
    Decidable (scope.Leads call overloads overload) :=
  inferInstanceAs (Decidable (_ ∧ ∀ other ∈ overloads, _ → _ ≤ _))

/-- The overload at a position of the list leads. -/
def LeadsAt (scope : Scope) (call : Call) (overloads : List Overload) (position : Nat) : Prop :=
  ∃ overload, overloads[position]? = some overload ∧ scope.Leads call overloads overload

/-- The overload at a position leads, and at no other position does one. -/
def SoleLeader (scope : Scope) (call : Call) (overloads : List Overload) (position : Nat) : Prop :=
  scope.LeadsAt call overloads position ∧
    ∀ other, scope.LeadsAt call overloads other → other = position

variable {scope : Scope} {call : Call} {overloads : List Overload}

theorem inPlay_iff_viable {overload : Overload} :
    (scope.assess call overload).isDisqualified = false ↔ scope.Viable call overload := by
  rw [← Bool.not_eq_true, isDisqualified_assess_iff, not_not]
  rfl

/-- An entry of the assessed list is the assessment of the overload at its position. -/
theorem mem_zipIdx_assessAll {assessment : Assessment} {position : Nat} :
    (assessment, position) ∈ (scope.assessAll call overloads).zipIdx ↔
      ∃ overload, overloads[position]? = some overload ∧
        assessment = scope.assess call overload := by
  rw [List.mem_zipIdx_iff_getElem?, assessAll, List.getElem?_map, Option.map_eq_some_iff]
  simp only [eq_comm (a := assessment)]

theorem leads_iff_candidate {overload : Overload} {position : Nat} :
    Candidate.Leads (scope.assessAll call overloads).zipIdx
        (scope.assess call overload, position) ↔
      scope.Leads call overloads overload := by
  refine and_congr inPlay_iff_viable ?_
  constructor
  · intro unsurpassed other member viable
    obtain ⟨index, found⟩ := List.mem_iff_getElem?.mp member
    exact unsurpassed (scope.assess call other, index)
      (mem_zipIdx_assessAll.mpr ⟨other, found, rfl⟩) (inPlay_iff_viable.mpr viable)
  · rintro unsurpassed ⟨assessment, index⟩ member inPlay
    obtain ⟨other, found, rfl⟩ := mem_zipIdx_assessAll.mp member
    exact unsurpassed other (List.mem_of_getElem? found) (inPlay_iff_viable.mp inPlay)

/-- The standing at the end of a list of overloads. -/
abbrev standing (scope : Scope) (call : Call) (overloads : List Overload) : Standing :=
  .ofAssessments (scope.assessAll call overloads)

theorem reflects_standing (scope : Scope) (call : Call) (overloads : List Overload) :
    (scope.standing call overloads).Reflects (scope.assessAll call overloads).zipIdx :=
  Standing.reflects_ofAssessments _

/-- The leaders of the assessed list are the overloads that lead, with their positions. -/
theorem mem_leaders_iff {assessment : Assessment} {position : Nat} :
    (assessment, position) ∈ (scope.standing call overloads).leaders ↔
      ∃ overload, overloads[position]? = some overload ∧
        assessment = scope.assess call overload ∧ scope.Leads call overloads overload := by
  rw [(scope.reflects_standing call overloads).mem_leaders_iff, mem_zipIdx_assessAll]
  constructor
  · rintro ⟨⟨overload, found, rfl⟩, leads⟩
    exact ⟨overload, found, rfl, leads_iff_candidate.mp leads⟩
  · rintro ⟨overload, found, rfl, leads⟩
    exact ⟨⟨overload, found, rfl⟩, leads_iff_candidate.mpr leads⟩

theorem mem_leader_positions_iff {position : Nat} :
    position ∈ (scope.standing call overloads).leaders.map Prod.snd ↔
      scope.LeadsAt call overloads position := by
  rw [List.mem_map]
  constructor
  · rintro ⟨⟨assessment, position⟩, leads, rfl⟩
    obtain ⟨overload, found, _, leads⟩ := mem_leaders_iff.mp leads
    exact ⟨overload, found, leads⟩
  · rintro ⟨overload, found, leads⟩
    exact ⟨(scope.assess call overload, position),
      mem_leaders_iff.mpr ⟨overload, found, rfl, leads⟩, rfl⟩

theorem nodup_leader_positions (scope : Scope) (call : Call) (overloads : List Overload) :
    ((scope.standing call overloads).leaders.map Prod.snd).Nodup := by
  rw [(scope.reflects_standing call overloads).leaders]
  refine List.Nodup.sublist (List.filter_sublist.map Prod.snd) ?_
  rw [List.zipIdx_map_snd]
  exact List.nodup_range'

theorem nonviable_of_idle (idle : (scope.standing call overloads).leaders = []) :
    ∀ overload ∈ overloads, ¬ scope.Viable call overload := by
  intro overload member viable
  have reflects := scope.reflects_standing call overloads
  obtain ⟨position, found⟩ := List.mem_iff_getElem?.mp member
  have inPlay := inPlay_iff_viable.mpr viable
  have bound := reflects.upper (scope.assess call overload, position)
    (mem_zipIdx_assessAll.mpr ⟨overload, found, rfl⟩) inPlay
  rw [reflects.idle idle] at bound
  exact absurd (Assessment.bottomRank_lt_score inPlay) (Int.not_lt.mpr bound)

/-- Reaching the best score in play is leading. -/
theorem reaches_iff_leads {overload : Overload} (member : overload ∈ overloads) :
    ((scope.assess call overload).isDisqualified = false ∧
        (scope.assess call overload).score = (scope.standing call overloads).best) ↔
      scope.Leads call overloads overload := by
  obtain ⟨position, found⟩ := List.mem_iff_getElem?.mp member
  have entry : (scope.assess call overload, position) ∈
      (scope.assessAll call overloads).zipIdx := mem_zipIdx_assessAll.mpr ⟨overload, found, rfl⟩
  have leading : (scope.assess call overload, position) ∈ (scope.standing call overloads).leaders ↔
      _ := (scope.reflects_standing call overloads).mem_leaders_iff
  rw [(scope.reflects_standing call overloads).leaders, List.mem_filter, and_iff_right entry,
    and_iff_right entry, leads_iff_candidate] at leading
  simpa using leading

/-- **The leaders are the overloads that lead**, in the order of the list. -/
theorem leaders_eq_filter (scope : Scope) (call : Call) (overloads : List Overload) :
    (scope.standing call overloads).leaders.map Prod.fst =
      (overloads.filter fun overload => scope.Leads call overloads overload).map
        (scope.assess call) := by
  let reaches (assessment : Assessment) : Bool :=
    !assessment.isDisqualified && decide (assessment.score = (scope.standing call overloads).best)
  calc (scope.standing call overloads).leaders.map Prod.fst
      = (((scope.assessAll call overloads).zipIdx).filter (reaches ∘ Prod.fst)).map Prod.fst := by
        rw [(scope.reflects_standing call overloads).leaders]
        rfl
    _ = (scope.assessAll call overloads).filter reaches := by
        rw [← List.filter_map, List.zipIdx_map_fst]
    _ = (overloads.filter (reaches ∘ scope.assess call)).map (scope.assess call) := by
        rw [assessAll, List.filter_map]
    _ = (overloads.filter fun overload => scope.Leads call overloads overload).map
          (scope.assess call) := by
        refine congrArg (List.map (scope.assess call)) (List.filter_congr fun overload member => ?_)
        rw [Bool.eq_iff_iff, decide_eq_true_iff, ← reaches_iff_leads member]
        simp [reaches]

/-- What choosing among the overloads comes to, and when. -/
inductive Selects (scope : Scope) (call : Call) (overloads : List Overload) : Selection → Prop where
  | chosen {position : Nat} {overload : Overload} (found : overloads[position]? = some overload)
      (sole : scope.SoleLeader call overloads position) :
      Selects scope call overloads (.chosen position (scope.assess call overload))
  | tied {first second : Nat} (distinct : first ≠ second)
      (leads : scope.LeadsAt call overloads first)
      (leadsToo : scope.LeadsAt call overloads second) :
      Selects scope call overloads (.tied
        ((overloads.filter fun overload => scope.Leads call overloads overload).map
          (scope.assess call)))
  | none (nonviable : ∀ overload ∈ overloads, ¬ scope.Viable call overload) :
      Selects scope call overloads .none

/-- **Choosing follows the number of leading positions.** -/
theorem selects_ofAssessments (scope : Scope) (call : Call) (overloads : List Overload) :
    scope.Selects call overloads (.ofAssessments (scope.assessAll call overloads)) := by
  have positions := @mem_leader_positions_iff scope call overloads
  have nodup := scope.nodup_leader_positions call overloads
  have filtered := scope.leaders_eq_filter call overloads
  unfold Selection.ofAssessments
  cases leaders : (scope.standing call overloads).leaders with
  | nil => exact .none (nonviable_of_idle leaders)
  | cons leader rest =>
      rw [leaders] at positions nodup filtered
      obtain ⟨assessment, position⟩ := leader
      cases rest with
      | nil =>
          obtain ⟨overload, found, rfl, leads⟩ :=
            mem_leaders_iff.mp (leaders ▸ List.mem_cons_self :
              (assessment, position) ∈ (scope.standing call overloads).leaders)
          refine .chosen found ⟨⟨overload, found, leads⟩, fun other otherLeads => ?_⟩
          exact List.mem_singleton.mp (positions.mpr otherLeads)
      | cons second rest =>
          have distinct : position ≠ second.2 := by
            intro same
            rw [List.map_cons, List.nodup_cons] at nodup
            exact nodup.1 (same ▸ List.mem_cons_self)
          have tied : scope.Selects call overloads (.tied _) :=
            .tied distinct (positions.mp List.mem_cons_self)
              (positions.mp (List.mem_cons_of_mem _ List.mem_cons_self))
          rw [← filtered] at tied
          exact tied

end Scope

end OverloadResolution
