import OverloadResolution.Fit

/-!
# The ways in which an argument fits

An argument fits where a type is expected in the first of three ways that is open to it, and not at
all if none is.  `Scope.Fits` lists the ways with what each of them takes, the ways before it being
closed, and `Scope.fits_fitType` says that the fit of an argument is always one of the list.
-/

set_option autoImplicit false

namespace OverloadResolution

namespace Scope

/-- How an argument can fit where a type is expected, and when it fits so. -/
inductive Fits (scope : Scope) (expected : Ty) (argument : Argument) : Fit → Prop where
  | asIs (suits : scope.declarations.isSubtype argument.content.type expected = true) :
      Fits scope expected argument .asIs
  | offered {index : Nat} {offer : Offer}
      (other : scope.declarations.isSubtype argument.content.type expected = false)
      (found : argument.offers[index]? = some offer)
      (suits : scope.declarations.isSubtype offer.out expected = true)
      (first : ∀ earlier < index, ∀ offer, argument.offers[earlier]? = some offer →
        scope.declarations.isSubtype offer.out expected = false) :
      Fits scope expected argument (.offered index)
  | read {raw : String} {reader : Reader}
      (other : scope.declarations.isSubtype argument.content.type expected = false)
      (unoffered : ∀ offer ∈ argument.offers,
        scope.declarations.isSubtype offer.out expected = false)
      (token : argument.content.raw? = some raw)
      (known : scope.reader? expected = some reader) :
      Fits scope expected argument (.read (some reader))
  | impossible (other : scope.declarations.isSubtype argument.content.type expected = false)
      (unoffered : ∀ offer ∈ argument.offers,
        scope.declarations.isSubtype offer.out expected = false)
      (unread : argument.content.raw? = none ∨ scope.reader? expected = none) :
      Fits scope expected argument .impossible

/-- **An argument fits in one of the ways of the list.** -/
theorem fits_fitType (scope : Scope) (expected : Ty) (argument : Argument) :
    scope.Fits expected argument (scope.fitType expected argument) := by
  unfold fitType
  cases other : scope.declarations.isSubtype argument.content.type expected with
  | true => exact .asIs other
  | false =>
      simp only [Bool.false_eq_true, if_false]
      cases offered : argument.offers.findIdx? fun offer =>
          scope.declarations.isSubtype offer.out expected with
      | some index =>
          obtain ⟨inside, suits, first⟩ := List.findIdx?_eq_some_iff_getElem.mp offered
          refine .offered other (List.getElem?_eq_getElem inside) suits ?_
          intro earlier before offer found
          obtain ⟨_, rfl⟩ := List.getElem?_eq_some_iff.mp found
          exact eq_false_of_ne_true (first earlier before)
      | none =>
          have unoffered := List.findIdx?_eq_none_iff.mp offered
          cases token : argument.content.raw? with
          | none => exact .impossible other unoffered (.inl token)
          | some raw =>
              cases known : scope.reader? expected with
              | none => exact .impossible other unoffered (.inr known)
              | some reader => exact .read other unoffered token known

end Scope

end OverloadResolution
