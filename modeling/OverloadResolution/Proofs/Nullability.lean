import Mathlib.Data.List.Forall2
import OverloadResolution.Proofs.Combining
import OverloadResolution.Proofs.Provenance

/-!
# Registries and null

Whether a type itself admits null plays no part in a registry.  On the side of the request a lookup
looks at the type without its null and at its classifier, in every layer of the registry
(`Registry.lookup_congr_nonNull`).  On the side of the keys a registration is kept under its
classifier, so registrations for types that differ in their own nullability alone are kept as the
same entry (`Registration.renulled_iff`), however the registry is put together from them
(`Recipe.Renulled.registry_eq`).

Nothing more of a type is ignored.  Two types that differ otherwise, be it in the nullability of an
array's elements, are told apart by some registry (`Registry.nonNull_eq_of_lookup_eq`).
-/

set_option autoImplicit false

namespace OverloadResolution

/-- Without their own null, types are the same exactly if their classifiers are. -/
theorem Ty.nonNull_eq_iff {first second : Ty} :
    first.nonNull = second.nonNull ↔ first.classifier = second.classifier := by
  simp [nonNull, eq_iff_classifier_eq]

@[simp]
theorem Ty.nonNull_orNull (type : Ty) : type.orNull.nonNull = type.nonNull := by
  cases type <;> rfl

/-! ## Requests -/

namespace Registry

variable {table : Declarations} {first second : Ty}

/-- An overlay is made of the entries that keep its registrations. -/
theorem plusList_eq (base : Registry) (registrations : List Registration) :
    base.plusList registrations =
      if (registrations.map Registration.entry).isEmpty then base
      else .overlay base (registrations.map Registration.entry) := by
  rw [plusList, List.isEmpty_map]

/-- **A lookup sees of a type what is left without its own null.** -/
theorem lookup_congr_nonNull (same : first.nonNull = second.nonNull) (registry : Registry) :
    registry.lookup table first = registry.lookup table second := by
  have key := Ty.nonNull_eq_iff.mp same
  induction registry with
  | empty => rfl
  | entries list => simp only [lookup, compatible?, key, same]
  | layered base overrides baseIh overridesIh => rw [lookup, lookup, baseIh, overridesIh]
  | overlay base list ih => simp only [lookup, compatible?, same, ih]

/-- A lookup sees all of that: types with the same reader in every registry are the same without
their own null. -/
theorem nonNull_eq_of_lookup_eq
    (alike : ∀ registry : Registry, registry.lookup table first = registry.lookup table second) :
    first.nonNull = second.nonNull := by
  refine Ty.nonNull_eq_iff.mpr (Classical.byContradiction fun other => ?_)
  -- a registry with different readers for the two
  have looked := alike (ofList [⟨first, some .string⟩, ⟨second, some .boolean⟩])
  have strings : (some Reader.string : Option Reader) = some .boolean := by
    simpa [lookup, ofList, withKey?, Registration.entry, other] using looked
  have labels := congrArg Reader.label (Option.some.inj strings)
  exact absurd labels (by decide)

end Registry

/-! ## Keys -/

/-- The same reader, for types that differ in their own nullability at most. -/
structure Registration.Renulled (first second : Registration) : Prop where
  type : first.type.nonNull = second.type.nonNull
  reader : first.reader = second.reader

/-- **Such registrations are kept as the same entry**, and no others are. -/
theorem Registration.renulled_iff {first second : Registration} :
    first.Renulled second ↔ first.entry = second.entry := by
  rw [Registration.entry, Registration.entry, Entry.mk.injEq, ← Ty.nonNull_eq_iff]
  exact ⟨fun renulled => ⟨renulled.type, renulled.reader⟩, fun both => ⟨both.1, both.2⟩⟩

/-- Lists of registrations are kept as the same entries exactly if they are such one by one. -/
theorem Registration.forall₂_renulled_iff {first second : List Registration} :
    List.Forall₂ Registration.Renulled first second ↔
      first.map Registration.entry = second.map Registration.entry := by
  have pointwise : Registration.Renulled = fun first second => first.entry = second.entry := by
    funext first second
    exact propext Registration.renulled_iff
  rw [pointwise]
  calc List.Forall₂ (fun first second => first.entry = second.entry) first second
      ↔ List.Forall₂ (· = ·) (first.map Registration.entry) (second.map Registration.entry) := by
        rw [List.forall₂_map_left_iff, List.forall₂_map_right_iff]
    _ ↔ first.map Registration.entry = second.map Registration.entry := by
        rw [List.forall₂_eq_eq_eq]

namespace Recipe

/-- The same recipe, with keys that differ in their own nullability at most. -/
inductive Renulled : Recipe → Recipe → Prop where
  | empty : Renulled .empty .empty
  | list {first second : List Registration}
      (each : List.Forall₂ Registration.Renulled first second) :
      Renulled (.list first) (.list second)
  | history {first second : List Registration}
      (each : List.Forall₂ Registration.Renulled first second) :
      Renulled (.history first) (.history second)
  | plus {base otherBase overrides otherOverrides : Recipe} (below : Renulled base otherBase)
      (above : Renulled overrides otherOverrides) :
      Renulled (.plus base overrides) (.plus otherBase otherOverrides)
  | plusList {base otherBase : Recipe} {first second : List Registration}
      (below : Renulled base otherBase)
      (each : List.Forall₂ Registration.Renulled first second) :
      Renulled (.plusList base first) (.plusList otherBase second)

/-- **Recipes whose keys differ in their own nullability make the same registry.** -/
theorem Renulled.registry_eq {recipe other : Recipe} (renulled : recipe.Renulled other) :
    recipe.registry = other.registry := by
  induction renulled with
  | empty => rfl
  | list each =>
      simp only [registry, Registry.ofList, Registration.forall₂_renulled_iff.mp each]
  | history each =>
      simp only [registry, Registry.ofHistory, List.map_reverse,
        Registration.forall₂_renulled_iff.mp each]
  | plus _ _ below above => simp only [registry, below, above]
  | plusList _ each below =>
      simp only [registry, Registry.plusList_eq, below, Registration.forall₂_renulled_iff.mp each]

/-- **A registry does not look at the null of types, and at all the rest of them.**  It answers a
lookup for a type with or without null in the same way, and answers every lookup in the same way and
lists the same entries if it is put together with keys that differ in their own nullability.  Types
that differ in anything else are told apart as requests by some registry, and as keys by the
list. -/
theorem ignoresNull (table : Declarations) (recipe : Recipe) :
    (∀ expected, recipe.registry.lookup table expected.orNull =
        recipe.registry.lookup table expected) ∧
      (∀ other, recipe.Renulled other → Registry.Alike table recipe.registry other.registry) ∧
      (∀ first second : Ty,
        (∀ registry : Registry, registry.lookup table first = registry.lookup table second) ↔
          first.nonNull = second.nonNull) ∧
      ∀ first second : List Registration,
        (Registry.ofList first).toList = (Registry.ofList second).toList ↔
          List.Forall₂ Registration.Renulled first second := by
  refine ⟨fun expected => ?_, fun other renulled => ?_, fun first second => ?_,
    fun first second => Registration.forall₂_renulled_iff.symm⟩
  · exact Registry.lookup_congr_nonNull (Ty.nonNull_orNull expected) recipe.registry
  · rw [renulled.registry_eq]
    exact ⟨fun _ => rfl, rfl⟩
  · exact ⟨Registry.nonNull_eq_of_lookup_eq, Registry.lookup_congr_nonNull⟩

/-- Readers of integers and of arrays of them, made in all ways.  The integers are registered twice,
and the arrays of integers beside the arrays that may hold null. -/
def integers (nullable : Bool) : Recipe :=
  .plusList
    (.plus (.list [⟨Ty.any.withNullable nullable, some fiveReader⟩])
      (.history [⟨.int, none⟩, ⟨Ty.int.withNullable nullable, some .string⟩,
        ⟨.array Ty.int.orNull nullable, some .string⟩]))
    [⟨.array .int nullable, some fiveReader⟩]

/-- It does not matter whether the keys admit null. -/
theorem integers_renulled :
    (integers false).Renulled (integers true) ∧
      Registry.Alike .initial (integers false).registry (integers true).registry := by
  have renulled : (integers false).Renulled (integers true) :=
    .plusList
      (.plus (.list (.cons ⟨rfl, rfl⟩ .nil))
        (.history (.cons ⟨rfl, rfl⟩ (.cons ⟨rfl, rfl⟩ (.cons ⟨rfl, rfl⟩ .nil)))))
      (.cons ⟨rfl, rfl⟩ .nil)
  obtain ⟨_, alike, _⟩ := ignoresNull .initial (integers false)
  exact ⟨renulled, alike (integers true) renulled⟩

/-- But it matters whether the elements of arrays do. -/
example (nullable : Bool) :
    (integers nullable).registry.lookup .initial (.arrayOf .int) = some fiveReader ∧
      (integers nullable).registry.lookup .initial (.arrayOf Ty.int.orNull) = some .string :=
  ⟨rfl, rfl⟩

end Recipe

end OverloadResolution
