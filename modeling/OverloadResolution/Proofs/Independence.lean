import OverloadResolution.Proofs.Agreement
import OverloadResolution.Proofs.Resolving
import OverloadResolution.Registry.Builtin

/-!
# Independence from the readers

Readers are looked for only where an argument fits neither as it is nor through an offer, and a fit
by reading ranks below both.  An overload that matches without a reader (`Assessment.Unread`) is
therefore assessed alike with any readers (`Scope.assess_of_unread`).

Other readers may revive overloads that were out of the question, and may change how arguments fit
the overloads that lose.  But an overload that is assessed differently with them needs a reader in
either case, so it stays below all those that need none (`Scope.unread_assess`).  If the best match
needs none, the positions that lead are the same with any readers (`Scope.leadsAt_iff_of_unread`),
and so is what the call comes to (`Scope.resolve_of_unread`).
-/

set_option autoImplicit false

namespace OverloadResolution

/-- The overload matches, and no argument has to be read for it. -/
def Assessment.Unread (assessment : Assessment) : Prop := Fit.offerRank ≤ assessment.score

instance (assessment : Assessment) : Decidable assessment.Unread :=
  inferInstanceAs (Decidable (Fit.offerRank ≤ assessment.score))

theorem Assessment.Unread.matched {assessment : Assessment} (unread : assessment.Unread) :
    assessment.verdict = .matched := by
  by_contra unmatched
  rw [Unread, Scope.score_of_not_matched unmatched] at unread
  exact absurd unread (by decide)

/-- Two resolutions choose the same position, run the same conversions to the same effect, and come
to the same outcome.  Only what they trace may differ. -/
structure Resolution.Agrees (first second : Resolution) : Prop where
  chosen : first.chosen = second.chosen
  performed : first.performed = second.performed
  world : first.world = second.world
  outcome : first.outcome = second.outcome

namespace Scope

variable {declarations : Declarations} {first second : Option Registry} {call : Call}
  {overload : Overload} {overloads : List Overload} {position : Nat}

/-! ## One argument -/

theorem fitType_of_unread {expected : Ty} {argument : Argument}
    (unread : Fit.offerRank ≤ (fitType ⟨declarations, first⟩ expected argument).rank) :
    fitType ⟨declarations, second⟩ expected argument =
      fitType ⟨declarations, first⟩ expected argument := by
  unfold fitType at unread ⊢
  cases suits : declarations.isSubtype argument.content.type expected with
  | true => rfl
  | false =>
      simp only [suits, Bool.false_eq_true, if_false] at unread ⊢
      cases offered : argument.offers.findIdx? fun offer =>
          declarations.isSubtype offer.out expected with
      | some index => rfl
      | none =>
          -- neither a reader nor the lack of one ranks that high
          simp only [offered] at unread
          split at unread <;>
            exact absurd unread (by simp [Fit.rank, Fit.offerRank, Fit.readRank, Fit.bottomRank])

/-- An argument that fits without a reader fits alike with any readers. -/
theorem fit_of_unread {parameter : Parameter} {argument : Argument}
    (unread : Fit.offerRank ≤ (fit ⟨declarations, first⟩ parameter argument).rank) :
    fit ⟨declarations, second⟩ parameter argument =
      fit ⟨declarations, first⟩ parameter argument := by
  cases parameter with
  | positional => exact fitType_of_unread unread
  | vararg => exact fitType_of_unread unread
  | keyword => rfl

/-! ## One overload -/

/-- **An overload that matches without a reader is assessed alike with any readers.** -/
theorem assess_of_unread (unread : (assess ⟨declarations, first⟩ call overload).Unread) :
    assess ⟨declarations, second⟩ call overload = assess ⟨declarations, first⟩ call overload := by
  refine assess_congr (fun _ _ => rfl) (takings_congr ?_)
  intro index argument parameter given taken
  have used : use ⟨declarations, first⟩ parameter (0 + index) argument ∈
      (assess ⟨declarations, first⟩ call overload).uses := by
    rw [assess_uses unread.matched]
    exact mem_takings_iff.mpr ⟨index, argument, parameter, given, taken, rfl⟩
  have bound := Assessment.worstRank_le used
  rw [← score_of_matched unread.matched] at bound
  exact fit_of_unread (Int.le_trans unread bound)

/-- An overload that matches without a reader does so with any readers. -/
theorem unread_assess (unread : (assess ⟨declarations, first⟩ call overload).Unread) :
    (assess ⟨declarations, second⟩ call overload).Unread := by
  rw [assess_of_unread unread]
  exact unread

/-! ## The overloads that lead -/

/-- Some overload of a list matches without a reader. -/
def Unread (scope : Scope) (call : Call) (overloads : List Overload) : Prop :=
  ∃ overload ∈ overloads, (scope.assess call overload).Unread

theorem Unread.exchange (unread : Unread ⟨declarations, first⟩ call overloads) :
    Unread ⟨declarations, second⟩ call overloads := by
  obtain ⟨overload, member, unread⟩ := unread
  exact ⟨overload, member, unread_assess unread⟩

/-- Whoever leads where a match needs no reader needs none either. -/
theorem Leads.unread (unread : Unread ⟨declarations, first⟩ call overloads)
    (leads : Leads ⟨declarations, first⟩ call overloads overload) :
    (assess ⟨declarations, first⟩ call overload).Unread := by
  obtain ⟨other, member, unread⟩ := unread
  exact Int.le_trans unread (leads.2 other member unread.matched)

theorem Leads.exchange (unread : Unread ⟨declarations, first⟩ call overloads)
    (leads : Leads ⟨declarations, first⟩ call overloads overload) :
    Leads ⟨declarations, second⟩ call overloads overload := by
  have own := leads.unread unread
  have same : assess ⟨declarations, second⟩ call overload =
      assess ⟨declarations, first⟩ call overload := assess_of_unread own
  unfold Leads Viable
  rw [same]
  refine ⟨leads.1, ?_⟩
  intro other member viable
  by_cases needless : (assess ⟨declarations, second⟩ call other).Unread
  · have back : assess ⟨declarations, first⟩ call other =
        assess ⟨declarations, second⟩ call other := assess_of_unread needless
    rw [← back] at viable ⊢
    exact leads.2 other member viable
  · exact Int.le_trans (Int.le_of_lt (Int.not_le.mp needless)) own

/-- **The positions that lead do not depend on readers that the best match does not need.** -/
theorem leadsAt_iff_of_unread (unread : Unread ⟨declarations, first⟩ call overloads) :
    LeadsAt ⟨declarations, second⟩ call overloads position ↔
      LeadsAt ⟨declarations, first⟩ call overloads position := by
  constructor
  · rintro ⟨overload, found, leads⟩
    exact ⟨overload, found, leads.exchange unread.exchange⟩
  · rintro ⟨overload, found, leads⟩
    exact ⟨overload, found, leads.exchange unread⟩

theorem ambiguity_of_unread (unread : Unread ⟨declarations, first⟩ call overloads) :
    ambiguity ⟨declarations, second⟩ call overloads =
      ambiguity ⟨declarations, first⟩ call overloads := by
  have same : ∀ overload ∈ overloads,
      decide (Leads ⟨declarations, second⟩ call overloads overload) =
        decide (Leads ⟨declarations, first⟩ call overloads overload) := by
    intro overload _
    rw [decide_eq_decide]
    exact ⟨fun leads => leads.exchange unread.exchange, fun leads => leads.exchange unread⟩
  unfold ambiguity
  rw [List.filter_congr same]

/-! ## The call -/

theorem failed_agrees (settings : Settings) (records others : List Record) (world : World)
    (failure : Failure) :
    Resolution.Agrees (failed settings records world failure)
      (failed settings others world failure) :=
  ⟨rfl, rfl, rfl, rfl⟩

theorem converted_agrees (settings : Settings) (records others : List Record) (job : Job)
    (position : Nat) (assessment : Assessment) (world : World) :
    Resolution.Agrees (converted settings records job position assessment world)
      (converted settings others job position assessment world) :=
  ⟨rfl, rfl, rfl, rfl⟩

/-- **A call whose best match needs no reader comes to the same with any readers.** -/
theorem resolve_of_unread (first second : Option Registry) (settings : Settings) (token : Token)
    (world : World) (unread : Unread ⟨declarations, first⟩ call overloads) :
    Resolution.Agrees (resolve ⟨declarations, first⟩ settings token call overloads world)
      (resolve ⟨declarations, second⟩ settings token call overloads world) := by
  have course := resolve_course ⟨declarations, first⟩ settings token call overloads world
  generalize resolve ⟨declarations, first⟩ settings token call overloads world = resolution
    at course ⊢
  cases course with
  | cancelled requested =>
      rw [resolve_of_requested _ settings call overloads requested]
      exact failed_agrees settings _ _ world _
  | @converted position overload running found sole =>
      have solitary : SoleLeader ⟨declarations, second⟩ call overloads position :=
        ⟨(leadsAt_iff_of_unread unread).mpr sole.1,
          fun other leads => sole.2 other ((leadsAt_iff_of_unread unread).mp leads)⟩
      obtain ⟨leader, leaderFound, leads⟩ := sole.1
      cases found.symm.trans leaderFound
      have same : assess ⟨declarations, second⟩ call overload =
          assess ⟨declarations, first⟩ call overload := assess_of_unread (leads.unread unread)
      rw [resolve_of_soleLeader settings running found solitary, same]
      exact converted_agrees settings _ _ _ position _ world
  | tied running distinct leads leadsToo =>
      have same : ambiguity ⟨declarations, second⟩ call overloads =
          ambiguity ⟨declarations, first⟩ call overloads := ambiguity_of_unread unread
      rw [resolve_of_leadsAt settings running distinct ((leadsAt_iff_of_unread unread).mpr leads)
        ((leadsAt_iff_of_unread unread).mpr leadsToo), same]
      exact failed_agrees settings _ _ world _
  | refused _ nonviable | unmatched _ nonviable =>
      obtain ⟨overload, member, needless⟩ := unread
      exact absurd needless.matched (nonviable overload member)

/-- A token that comes with a conversion to an integer, and a token without one. -/
def weighing : Call :=
  echoing [⟨.token "five", [⟨"int", .int, some fun _ => pure (.ok (.integer .int 5))⟩]⟩,
    .ofToken "2.5"]

/-- Takes a count and a label. -/
def tag : Overload := ⟨none, [.required "count" .int, .required "label" .string], none⟩

/-- Takes a count and a weight. -/
def weigh : Overload := ⟨none, [.required "count" .int, .required "weight" .double], none⟩

/-- The readers of the primitive types, but none for truth values. -/
def unsure : Registry := Registry.builtin.plusList [⟨.boolean, none⟩]

/-- With readers the weight could be read, but the label still comes first. -/
theorem tag_agrees :
    Unread ⟨.initial, none⟩ weighing [weigh, tag] ∧
      ¬ Viable ⟨.initial, none⟩ weighing weigh ∧ Viable ⟨.initial, some unsure⟩ weighing weigh ∧
      Resolution.Agrees (resolve ⟨.initial, none⟩ .initial .never weighing [weigh, tag] .initial)
        (resolve ⟨.initial, some unsure⟩ .initial .never weighing [weigh, tag] .initial) := by
  have unread : Unread ⟨.initial, none⟩ weighing [weigh, tag] :=
    ⟨tag, List.mem_cons_of_mem weigh List.mem_cons_self, by decide +kernel⟩
  exact ⟨unread, by decide +kernel, by decide +kernel,
    resolve_of_unread none (some unsure) .initial .never .initial unread⟩

end Scope

end OverloadResolution
