import Mathlib.Data.List.Forall2
import OverloadResolution.Proofs.Matching
import OverloadResolution.Registry.Builtin

/-!
# More readers never make a match worse

Putting readers above a registry may replace some of its own, but takes none away: what could be
read before can be read after (`Registry.Overriding.keeps`).  An argument then fits with the rank it
had, unless it did not fit at all and is read now (`Scope.fit_gains`).

From the arguments this goes over to assessments (`Scope.assess_notWorsened`).  An overload that
matches still does, with the same arguments in the same places and each of them at the same rank.
An overload that matches only now has an argument that is read now, so it comes last among all that
match.
-/

set_option autoImplicit false

namespace OverloadResolution

/-! ## Registries -/

namespace Registry

variable {table : Declarations} {base extended : Registry}

/-- The ways to put readers above a registry: those of another registry, or a list of them in which
none is missing. -/
inductive Overriding (base : Registry) : Registry → Prop where
  | plus (overrides : Registry) : Overriding base (base.plus overrides)
  | plusList {registrations : List Registration}
      (supplied : ∀ registration ∈ registrations, registration.reader.isSome = true) :
      Overriding base (base.plusList registrations)

/-- Whatever can be read with the first registry can be read with the second. -/
def Keeps (table : Declarations) (base extended : Registry) : Prop :=
  ∀ expected, base.lookup table expected ≠ none → extended.lookup table expected ≠ none

/-- The first listed registration above a type decides, and the base where there is none. -/
theorem lookup_plusList (table : Declarations) (expected : Ty) (base : Registry)
    (registrations : List Registration) :
    (base.plusList registrations).lookup table expected =
      match compatible? table (registrations.map Registration.entry) expected with
      | some entry => entry.reader
      | none => base.lookup table expected := by
  cases registrations <;> rfl

/-- **Readers that are put above a registry leave what it can read.** -/
theorem Overriding.keeps (table : Declarations) (overriding : Overriding base extended) :
    base.Keeps table extended := by
  intro expected known
  cases overriding with
  | plus overrides =>
      rw [lookup_plus]
      cases overrides.lookup table expected with
      | none => exact known
      | some reader => exact Option.some_ne_none reader
  | plusList supplied =>
      rw [lookup_plusList]
      split
      · next entry admitted =>
          obtain ⟨registration, registered, rfl⟩ :=
            List.mem_map.mp (List.mem_of_find?_eq_some admitted)
          exact Option.isSome_iff_ne_none.mp (supplied registration registered)
      · exact known

end Registry

/-! ## Arguments -/

/-- The second fit has the rank of the first, or makes up for its lack by reading. -/
def Fit.Gains (before after : Fit) : Prop :=
  after.rank = before.rank ∨ before = .impossible ∧ after.rank = Fit.readRank

/-- Whether a fit will do is seen from its rank. -/
theorem Fit.isAcceptable_congr {first second : Fit} (same : second.rank = first.rank) :
    second.isAcceptable = first.isAcceptable := by
  simp only [isAcceptable, same]

theorem Fit.Gains.rank_eq {before after : Fit} (gains : before.Gains after)
    (acceptable : before.isAcceptable = true) : after.rank = before.rank := by
  refine gains.resolve_right ?_
  rintro ⟨rfl, _⟩
  cases acceptable

/-- A fit that will do only now is one by reading. -/
theorem Fit.Gains.rank_eq_readRank {before after : Fit} (gains : before.Gains after)
    (unfit : before.isAcceptable = false) (acceptable : after.isAcceptable = true) :
    after.rank = Fit.readRank := by
  rcases gains with same | ⟨_, read⟩
  · rw [Fit.isAcceptable_congr same, unfit] at acceptable
    cases acceptable
  · exact read

namespace Scope

variable {declarations : Declarations} {base extended : Registry}

theorem fitType_gains (keeps : base.Keeps declarations extended) (expected : Ty)
    (argument : Argument) :
    (fitType ⟨declarations, some base⟩ expected argument).Gains
      (fitType ⟨declarations, some extended⟩ expected argument) := by
  unfold fitType
  cases declarations.isSubtype argument.content.type expected with
  | true => exact .inl rfl
  | false =>
      simp only [Bool.false_eq_true, if_false]
      cases argument.offers.findIdx? fun offer => declarations.isSubtype offer.out expected with
      | some index => exact .inl rfl
      | none =>
          cases argument.content.raw? with
          | none => exact .inl rfl
          | some raw =>
              simp only [reader?, Option.bind_some]
              cases found : extended.lookup declarations expected with
              | none =>
                  have unknown : base.lookup declarations expected = none :=
                    Classical.byContradiction fun known => keeps expected known found
                  rw [unknown]
                  exact .inl rfl
              | some reader =>
                  cases base.lookup declarations expected with
                  | none => exact .inr ⟨rfl, rfl⟩
                  | some other => exact .inl rfl

/-- **An argument fits with the rank it had, or is read now where it did not fit.** -/
theorem fit_gains (keeps : base.Keeps declarations extended) (parameter : Parameter)
    (argument : Argument) :
    (fit ⟨declarations, some base⟩ parameter argument).Gains
      (fit ⟨declarations, some extended⟩ parameter argument) := by
  cases parameter with
  | positional _ type _ => exact fitType_gains keeps type argument
  | vararg _ element _ _ => exact fitType_gains keeps element argument
  | keyword => exact .inl rfl

end Scope

/-! ## Assessments that differ in fits only -/

/-- The rank of the fit with which an argument is used. -/
def Use.rank (use : Use) : Int := use.fit.rank

/-- The same argument in the same place, used at the same rank. -/
structure Use.Matches (first second : Use) : Prop where
  position : second.position = first.position
  argument : second.argument = first.argument
  rank : second.rank = first.rank

/-- A parameter got the same arguments, at the same ranks. -/
inductive Binding.Matches : Binding → Binding → Prop where
  | one {parameter : Parameter} {first second : Use} (same : first.Matches second) :
      Matches ⟨parameter, .one first⟩ ⟨parameter, .one second⟩
  | many {parameter : Parameter} {first second : List Use}
      (same : List.Forall₂ Use.Matches first second) :
      Matches ⟨parameter, .many first⟩ ⟨parameter, .many second⟩
  | skipped (parameter : Parameter) : Matches ⟨parameter, .skipped⟩ ⟨parameter, .skipped⟩

/-- The worst rank among uses depends on nothing but their ranks. -/
theorem Assessment.worstRank_congr {first second : List Use}
    (same : second.map Use.rank = first.map Use.rank) : worstRank second = worstRank first := by
  have read (uses : List Use) : worstRank uses = (uses.map Use.rank).foldr min Fit.topRank := by
    induction uses with
    | nil => rfl
    | cons use uses ih => rw [worstRank_cons, ih, List.map_cons, List.foldr_cons, Use.rank]
  rw [read, read, same]

namespace Scope

variable {first second : Scope} {parameters : List Parameter} {position : Nat}
  {arguments : List Argument} {bindings others : List Binding}

@[simp]
theorem use_rank (scope : Scope) (parameter : Parameter) (position : Nat) (argument : Argument) :
    (scope.use parameter position argument).rank = (scope.fit parameter argument).rank := rfl

/-- Where every argument has one rank in two scopes, so have the uses of a call. -/
theorem map_rank_takings
    (agree : ∀ index argument parameter, arguments[index]? = some argument →
      Parameter.taker? parameters index = some parameter →
        (second.fit parameter argument).rank = (first.fit parameter argument).rank) :
    (second.takings parameters position arguments).map Use.rank =
      (first.takings parameters position arguments).map Use.rank := by
  refine List.ext_getElem? fun index => ?_
  rw [List.getElem?_map, List.getElem?_map, getElem?_takings, getElem?_takings]
  -- each case is rewritten first, for comparing the two sides as they stand unfolds both fits
  cases given : arguments[index]? with
  | none => simp only [Option.bind_none]
  | some argument =>
      cases taken : Parameter.taker? parameters index with
      | none => simp only [Option.bind_some, Option.map_none]
      | some parameter =>
          simp only [Option.bind_some, Option.map_some, use_rank]
          rw [agree index argument parameter given taken]

theorem useAll_matches {parameter : Parameter}
    (same : (second.useAll parameter position arguments).map Use.rank =
      (first.useAll parameter position arguments).map Use.rank) :
    List.Forall₂ Use.Matches (first.useAll parameter position arguments)
      (second.useAll parameter position arguments) := by
  induction arguments generalizing position with
  | nil => exact .nil
  | cons argument arguments ih =>
      rw [useAll, useAll, List.map_cons, List.map_cons, List.cons.injEq] at same
      exact .cons ⟨rfl, rfl, same.1⟩ (ih same.2)

/-- Two bindings of the same parameters by the same arguments differ at most in the fits. -/
theorem Binds.matches (binds : first.Binds parameters position arguments bindings)
    (bindsToo : second.Binds parameters position arguments others)
    (same : (second.takings parameters position arguments).map Use.rank =
      (first.takings parameters position arguments).map Use.rank) :
    List.Forall₂ Binding.Matches bindings others := by
  induction binds generalizing others with
  | nil =>
      cases bindsToo
      exact .nil
  | many vararg _ ih =>
      rw [takings_vararg vararg, takings_vararg vararg] at same
      cases bindsToo with
      | many _ rest => exact .cons (.many (useAll_matches same)) (ih rest (by simp))
      | one single | skipped single => cases vararg.symm.trans single
  | one single _ ih =>
      rw [takings_single single, takings_single single, List.map_cons, List.map_cons,
        List.cons.injEq] at same
      cases bindsToo with
      | many vararg => cases vararg.symm.trans single
      | one _ rest => exact .cons (.one ⟨rfl, rfl, same.1⟩) (ih rest same.2)
  | @skipped parameter _ _ _ single _ _ ih =>
      cases bindsToo with
      | many vararg => cases vararg.symm.trans single
      | skipped _ _ rest => exact .cons (.skipped parameter) (ih rest (by simp))

end Scope

/-- The second assessment of an overload is not worse than the first: a match stays the same match,
and a match that is new is by reading. -/
structure Assessment.NotWorsened (before after : Assessment) : Prop where
  /-- A match keeps its score, its receiver, and the arguments of its parameters at their ranks. -/
  kept : before.verdict = .matched →
    after.verdict = .matched ∧ after.score = before.score ∧
      after.receiverBound = before.receiverBound ∧
      List.Forall₂ Binding.Matches before.bindings after.bindings
  gained : before.verdict ≠ .matched → after.verdict = .matched → after.score = 10

namespace Scope

variable {declarations : Declarations} {base extended : Registry} {call : Call}
  {overload : Overload}

/-- In a match every argument keeps its rank. -/
theorem map_rank_takings_of_matched (keeps : base.Keeps declarations extended)
    (matched : (assess ⟨declarations, some base⟩ call overload).verdict = .matched) :
    (takings ⟨declarations, some extended⟩ overload.parameters 0 call.arguments).map Use.rank =
      (takings ⟨declarations, some base⟩ overload.parameters 0 call.arguments).map Use.rank := by
  have walked := ((verdict_eq_iff_walk Verdict.noConfusion).mp matched).2
  refine map_rank_takings fun index argument parameter given taken => ?_
  exact (fit_gains keeps parameter argument).rank_eq
    (acceptable_of_matched walked _ (mem_takings_iff.mpr ⟨index, argument, parameter, given, taken,
      rfl⟩))

/-- A match stays one. -/
theorem matched_of_keeps (keeps : base.Keeps declarations extended)
    (matched : (assess ⟨declarations, some base⟩ call overload).verdict = .matched) :
    (assess ⟨declarations, some extended⟩ call overload).verdict = .matched := by
  have same := map_rank_takings_of_matched keeps matched
  obtain ⟨admits, walked⟩ := (verdict_eq_iff_walk Verdict.noConfusion).mp matched
  refine (verdict_eq_iff_walk Verdict.noConfusion).mpr ⟨admits, ?_⟩
  rw [walk_matched_iff_suits, suits_iff_takings 0] at walked ⊢
  refine ⟨fun use used => ?_, walked.2⟩
  have ranked : use.rank ∈
      (takings ⟨declarations, some base⟩ overload.parameters 0 call.arguments).map Use.rank :=
    same ▸ List.mem_map_of_mem used
  obtain ⟨other, otherUsed, rank⟩ := List.mem_map.mp ranked
  rw [Fit.isAcceptable_congr (show use.fit.rank = other.fit.rank from rank.symm)]
  exact walked.1 other otherUsed

/-- Only an argument that is read now lets an overload match that did not. -/
theorem exists_read_of_gained (keeps : base.Keeps declarations extended)
    (unmatched : (assess ⟨declarations, some base⟩ call overload).verdict ≠ .matched)
    (matched : (assess ⟨declarations, some extended⟩ call overload).verdict = .matched) :
    ∃ use ∈ (assess ⟨declarations, some extended⟩ call overload).uses,
      use.fit.rank = Fit.readRank := by
  have acceptable := assess_acceptable matched
  rw [assess_uses matched] at acceptable ⊢
  obtain ⟨admits, walked⟩ := (verdict_eq_iff_walk Verdict.noConfusion).mp matched
  have covers := ((walk_matched_iff_suits _ _ _ _).mp walked).covers
  -- the receiver and the number of arguments will do, so it was an argument that did not fit
  have rejected : ¬ ∀ use ∈ takings ⟨declarations, some base⟩ overload.parameters 0 call.arguments,
      use.fit.isAcceptable = true := by
    intro accepted
    refine unmatched ((verdict_eq_iff_walk Verdict.noConfusion).mpr ⟨admits, ?_⟩)
    exact (walk_matched_iff_covers accepted).mpr covers
  simp only [not_forall, Bool.not_eq_true] at rejected
  obtain ⟨use, used, unfit⟩ := rejected
  obtain ⟨index, argument, parameter, given, taken, rfl⟩ := mem_takings_iff.mp used
  have usedNow : use ⟨declarations, some extended⟩ parameter (0 + index) argument ∈
      takings ⟨declarations, some extended⟩ overload.parameters 0 call.arguments :=
    mem_takings_iff.mpr ⟨index, argument, parameter, given, taken, rfl⟩
  exact ⟨_, usedNow, (fit_gains keeps parameter argument).rank_eq_readRank unfit
    (acceptable _ usedNow)⟩

/-- **Readers that are put above those at hand never make a match worse.** -/
theorem assess_notWorsened (declarations : Declarations)
    (overriding : Registry.Overriding base extended) (call : Call) (overload : Overload) :
    Assessment.NotWorsened (assess ⟨declarations, some base⟩ call overload)
      (assess ⟨declarations, some extended⟩ call overload) := by
  have keeps := overriding.keeps declarations
  constructor
  · intro matched
    have matchedToo := matched_of_keeps keeps matched
    have same := map_rank_takings_of_matched keeps matched
    have admits := ((verdict_eq_iff_walk Verdict.noConfusion).mp matched).1
    have admitsToo := ((verdict_eq_iff_walk Verdict.noConfusion).mp matchedToo).1
    refine ⟨matchedToo, ?_, ?_, (assess_binds matched).matches (assess_binds matchedToo) same⟩
    · rw [score_of_matched matched, score_of_matched matchedToo, assess_uses matched,
        assess_uses matchedToo]
      exact Assessment.worstRank_congr same
    · rw [assess_of_admits admits, assess_of_admits admitsToo]
      rfl
  · intro unmatched matched
    obtain ⟨use, used, read⟩ := exists_read_of_gained keeps unmatched matched
    have bound := Assessment.worstRank_le used
    rw [← score_of_matched matched, read] at bound
    rcases score_of_assess_matched matched with score | score | score
    · exact score
    · rw [score] at bound
      exact absurd bound (by decide)
    · rw [score] at bound
      exact absurd bound (by decide)

/-- Players, whom nobody can read yet. -/
def player : Ty := .named "Player" false

/-- Takes every token as the name of a player. -/
def playerReader : Reader := .ofFunction "Player" fun raw => .ok (.object player raw)

/-- The readers of the primitive types, with one for players above them. -/
def withPlayers : Registry := Registry.builtin.plusList [⟨player, some playerReader⟩]

/-- Takes a player, and reasons that need no reader. -/
def kick : Overload :=
  ⟨none, [.required "player" player, .vararg (some "reasons") .string false false], none⟩

/-- A player is named, and two reasons. -/
def kicking : Call :=
  ⟨⟨"console", .any⟩, "kick", [.ofToken "eve", .ofToken "spam", .ofToken "noise"]⟩

/-- Nobody can be kicked until players can be read, and then as the worst of all matches. -/
theorem kick_notWorsened :
    Registry.Overriding .builtin withPlayers ∧
      (assess ⟨.initial, some .builtin⟩ kicking kick).verdict ≠ .matched ∧
      (assess ⟨.initial, some withPlayers⟩ kicking kick).verdict = .matched ∧
      Assessment.NotWorsened (assess ⟨.initial, some .builtin⟩ kicking kick)
        (assess ⟨.initial, some withPlayers⟩ kicking kick) := by
  have overriding : Registry.Overriding .builtin withPlayers := .plusList (by decide)
  exact ⟨overriding, by decide +kernel, by decide +kernel,
    assess_notWorsened .initial overriding kicking kick⟩

end Scope

end OverloadResolution
