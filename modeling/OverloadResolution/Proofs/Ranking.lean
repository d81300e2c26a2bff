import Mathlib.Order.Bounds.Basic
import OverloadResolution.Proofs.Fitting
import OverloadResolution.Registry.Builtin

/-!
# The strongest way in which an argument fits

Three ways may be open to an argument where a type is expected, each with a rank of its own
(`Scope.Way`).  The matcher tries them in a fixed order and takes the first, without a look at their
ranks.  As the order is that of the ranks, the way that it takes is the strongest of those that are
open, and among the offers that will do it takes the first (`Scope.Fits.isGreatest`,
`Scope.Fits.isLeast`).

A keyword has no ways to choose from; all other parameters expect a type (`Parameter.expected?`),
and for them this says how an argument fits (`Scope.fit_takesStrongest`).
-/

set_option autoImplicit false

namespace OverloadResolution

/-- The type that a parameter expects of a single argument; a vararg expects its element type.  A
keyword goes by the spelling. -/
def Parameter.expected? : Parameter → Option Ty
  | .positional _ type _ => some type
  | .vararg _ element _ _ => some element
  | .keyword _ _ => none

/-- The type of an argument is read off the value that it carries, and is that of strings if it
carries none. -/
theorem Content.type_eq (content : Content) :
    content.type = (content.value?.map Value.type).getD .string := by
  cases content <;> rfl

namespace Scope

/-- The ways that are open to an argument where a type is expected, by rank: to hand over the value
that it is without a conversion, to take an offer that promises a suitable type, and to read its
token with the reader for the type. -/
inductive Way (scope : Scope) (expected : Ty) (argument : Argument) : Int → Prop where
  | asIs (suits : scope.declarations.isSubtype argument.content.asValue.type expected = true) :
      Way scope expected argument 2147483647
  | offered {offer : Offer} (listed : offer ∈ argument.offers)
      (suits : scope.declarations.isSubtype offer.out expected = true) :
      Way scope expected argument 20
  | read {raw : String} {reader : Reader} (token : argument.content.raw? = some raw)
      (known : scope.reader? expected = some reader) : Way scope expected argument 10

variable {scope : Scope} {expected : Ty} {argument : Argument} {taken : Fit}

/-- A fit that will do is by one of the ways that are open. -/
theorem Fits.way (fits : scope.Fits expected argument taken)
    (acceptable : taken.isAcceptable = true) : scope.Way expected argument taken.rank := by
  cases fits with
  | asIs suits => exact .asIs suits
  | offered other found suits first => exact .offered (List.mem_of_getElem? found) suits
  | read other unoffered token known => exact .read token known
  | impossible => cases acceptable

/-- No way that is open is stronger than the fit. -/
theorem Fits.rank_le (fits : scope.Fits expected argument taken) {rank : Int}
    (way : scope.Way expected argument rank) : rank ≤ taken.rank := by
  cases way with
  | asIs suits =>
      cases fits with
      | asIs => exact Int.le_refl _
      | offered other | read other | impossible other => cases other.symm.trans suits
  | offered listed suits =>
      cases fits with
      | asIs => exact (by decide : (20 : Int) ≤ Fit.topRank)
      | offered => exact Int.le_refl _
      | read other unoffered | impossible other unoffered =>
          cases (unoffered _ listed).symm.trans suits
  | read token known =>
      cases fits with
      | asIs => exact (by decide : (10 : Int) ≤ Fit.topRank)
      | offered => exact (by decide : (10 : Int) ≤ Fit.offerRank)
      | read => exact Int.le_refl _
      | impossible other unoffered unread =>
          rcases unread with none | none
          · cases none.symm.trans token
          · cases none.symm.trans known

/-- An argument to which some way is open fits. -/
theorem Fits.isAcceptable (fits : scope.Fits expected argument taken) {rank : Int}
    (way : scope.Way expected argument rank) : taken.isAcceptable = true := by
  have reached := fits.rank_le way
  cases fits with
  | asIs | offered | read => rfl
  | impossible => cases way <;> exact absurd reached (by decide)

/-- **An argument fits in the strongest way that is open to it.** -/
theorem Fits.isGreatest (fits : scope.Fits expected argument taken)
    (way : ∃ rank, scope.Way expected argument rank) :
    IsGreatest {rank | scope.Way expected argument rank} taken.rank := by
  obtain ⟨rank, way⟩ := way
  exact ⟨fits.way (fits.isAcceptable way), fun other otherWay => fits.rank_le otherWay⟩

/-- An argument to which no way is open does not fit. -/
theorem Fits.eq_impossible (fits : scope.Fits expected argument taken)
    (none : ¬ ∃ rank, scope.Way expected argument rank) : taken = .impossible := by
  cases fits with
  | asIs suits => exact absurd ⟨_, .asIs suits⟩ none
  | offered other found suits => exact absurd ⟨_, .offered (List.mem_of_getElem? found) suits⟩ none
  | read other unoffered token known => exact absurd ⟨_, .read token known⟩ none
  | impossible => rfl

/-- **Of the offers that promise a suitable type the first is taken.** -/
theorem Fits.isLeast {index : Nat} (fits : scope.Fits expected argument (.offered index)) :
    IsLeast {index | ∃ offer, argument.offers[index]? = some offer ∧
      scope.declarations.isSubtype offer.out expected = true} index := by
  cases fits with
  | offered other found suits first =>
      refine ⟨⟨_, found, suits⟩, ?_⟩
      rintro earlier ⟨offer, foundEarlier, suitsEarlier⟩
      by_contra before
      cases (first earlier (Nat.lt_of_not_le before) offer foundEarlier).symm.trans suitsEarlier

/-- A parameter that expects a type holds its arguments against that type. -/
theorem fit_eq_fitType (scope : Scope) {parameter : Parameter}
    (expects : parameter.expected? = some expected) (argument : Argument) :
    scope.fit parameter argument = scope.fitType expected argument := by
  cases parameter with
  | positional | vararg =>
      cases expects
      rfl
  | keyword => cases expects

/-- What the ways that are open to an argument say about how it fits a parameter. -/
structure TakesStrongest (scope : Scope) (expected : Ty) (parameter : Parameter)
    (argument : Argument) : Prop where
  /-- What is looked at is the type of the value that would be handed over. -/
  native : argument.content.asValue.type = (argument.content.value?.map Value.type).getD .string
  /-- The rank is the greatest among the ways that are open. -/
  strongest : (∃ rank, scope.Way expected argument rank) →
    IsGreatest {rank | scope.Way expected argument rank} (scope.fit parameter argument).rank
  /-- It is the bottom rank if none is. -/
  closed : (¬ ∃ rank, scope.Way expected argument rank) →
    (scope.fit parameter argument).rank = -1
  /-- An offer that is taken is the first to promise a suitable type. -/
  first : ∀ index, scope.fit parameter argument = .offered index →
    IsLeast {index | ∃ offer, argument.offers[index]? = some offer ∧
      scope.declarations.isSubtype offer.out expected = true} index
  /-- The parameter accepts the argument exactly if some way is open. -/
  accepts_iff : scope.accepts parameter argument = true ↔
    ∃ rank, scope.Way expected argument rank

/-- **Every parameter takes an argument in the strongest way that is open to it.** -/
theorem fit_takesStrongest (scope : Scope) {parameter : Parameter}
    (expects : parameter.expected? = some expected) (argument : Argument) :
    scope.TakesStrongest expected parameter argument := by
  have fits := scope.fits_fitType expected argument
  rw [← scope.fit_eq_fitType expects argument] at fits
  refine { native := argument.content.type_eq, strongest := fits.isGreatest, closed := ?closed,
           first := ?first, accepts_iff := ⟨?some, ?accepted⟩ }
  case closed =>
    intro none
    rw [fits.eq_impossible none]
    rfl
  case first =>
    intro index offered
    rw [offered] at fits
    exact fits.isLeast
  case some => exact fun accepted => ⟨_, fits.way accepted⟩
  case accepted =>
    rintro ⟨rank, way⟩
    exact fits.isAcceptable way

/-- A token that could be read as a number, with three offers, of which two promise one. -/
def seven : Argument where
  content := .token "7"
  offers := [⟨"text", .string, none⟩, ⟨"digit", .int, none⟩, ⟨"number", .int, none⟩]

/-- The second offer is taken, before the third and before reading. -/
theorem seven_takesStrongest :
    (Parameter.required "count" .int).expected? = some .int ∧
      (fit ⟨.initial, some .builtin⟩ (.required "count" .int) seven matches .offered 1) = true ∧
      Way ⟨.initial, some .builtin⟩ .int seven 10 ∧
      TakesStrongest ⟨.initial, some .builtin⟩ .int (.required "count" .int) seven := by
  have known : (reader? ⟨.initial, some .builtin⟩ .int).isSome = true := by decide +kernel
  obtain ⟨reader, known⟩ := Option.isSome_iff_exists.mp known
  exact ⟨rfl, by decide +kernel, .read rfl known, fit_takesStrongest _ rfl seven⟩

end Scope

end OverloadResolution
