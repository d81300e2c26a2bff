import OverloadResolution.Proofs.Ordering
import OverloadResolution.Registry.Builtin

/-!
# Layers of a registry

A registry is made of parts, and a lookup asks at most one entry of each part: the entry that
decides for the part, because its key is the type looked up or the first that is above it
(`Registry.deciding`).  The first of these entries that holds a reader answers
(`Registry.lookup_eq_findSome?`), and there are any exactly if the registry has a key above the type
at all (`Registry.deciding_eq_nil_iff`).

Where a registry is put above another, its keys should hide the base: the base is there for the
types that no key of the overrides is above (`Registry.Layers`).  This is so as long as the entries
of the overrides hold readers.  An entry without one decides for its part but does not answer, and
then the base is asked all the same (`Registry.layers_iff`, `Registry.missing_reader_unveils_base`).
-/

set_option autoImplicit false

namespace OverloadResolution.Registry

variable {table : Declarations} {expected : Ty}

/-! ## The entries that decide -/

/-- Whether some key of a registry is above a type, null aside. -/
def HasKeyAbove (table : Declarations) (expected : Ty) (registry : Registry) : Prop :=
  ∃ entry ∈ registry.toList, table.isSubtype expected.nonNull entry.key.toTy = true

/-- The entries that decide on a type, one at most for each part of the registry, in the order in
which they are asked.  What lies under an overlay is not asked if the overlay has an entry. -/
def deciding (table : Declarations) (expected : Ty) : Registry → List Entry
  | .empty => []
  | .entries list =>
    ((withKey? list expected.classifier).or (compatible? table list expected)).toList
  | .layered base overrides =>
    overrides.deciding table expected ++ base.deciding table expected
  | .overlay base list =>
    match compatible? table list expected with
    | some entry => [entry]
    | none => base.deciding table expected

/-- **A lookup answers with the first reader among the entries that decide.** -/
theorem lookup_eq_findSome? (table : Declarations) (expected : Ty) (registry : Registry) :
    registry.lookup table expected =
      (registry.deciding table expected).findSome? Entry.reader := by
  induction registry with
  | empty => rfl
  | entries list =>
      rw [lookup, deciding]
      cases (withKey? list expected.classifier).or (compatible? table list expected) with
      | none => rfl
      | some entry => simp
  | layered base overrides baseIh overridesIh =>
      rw [lookup, deciding, List.findSome?_append, baseIh, overridesIh]
  | overlay base list ih =>
      rw [lookup, deciding]
      cases compatible? table list expected with
      | none => exact ih
      | some entry => simp

/-- The very key of a type is above it. -/
theorem isSubtype_of_withKey? {list : List Entry} {entry : Entry}
    (found : withKey? list expected.classifier = some entry) :
    table.isSubtype expected.nonNull entry.key.toTy = true := by
  have same := List.find?_some found
  rw [of_decide_eq_true same, Ty.toTy_classifier]
  exact Declarations.isSubtype_self table expected.nonNull

/-- What decides is an entry of the registry, with a key above the type. -/
theorem mem_of_mem_deciding {registry : Registry} {entry : Entry}
    (decides : entry ∈ registry.deciding table expected) :
    entry ∈ registry.toList ∧ table.isSubtype expected.nonNull entry.key.toTy = true := by
  induction registry with
  | empty => cases decides
  | entries list =>
      rw [deciding, Option.mem_toList, Option.or_eq_some_iff] at decides
      rcases decides with keyed | ⟨_, admitted⟩
      · exact ⟨List.mem_of_find?_eq_some keyed, isSubtype_of_withKey? keyed⟩
      · have above := List.find?_some admitted
        exact ⟨List.mem_of_find?_eq_some admitted, above⟩
  | layered base overrides baseIh overridesIh =>
      rcases List.mem_append.mp decides with first | second
      · obtain ⟨member, above⟩ := overridesIh first
        exact ⟨List.mem_append_left base.toList member, above⟩
      · obtain ⟨member, above⟩ := baseIh second
        exact ⟨List.mem_append_right overrides.toList member, above⟩
  | overlay base list ih =>
      rw [deciding] at decides
      split at decides
      · next admitted =>
          obtain rfl := List.mem_singleton.mp decides
          have above := List.find?_some admitted
          exact ⟨List.mem_append_left base.toList (List.mem_of_find?_eq_some admitted), above⟩
      · obtain ⟨member, above⟩ := ih decides
        exact ⟨List.mem_append_right list member, above⟩

/-- A list without an entry that is above a type has no key above it. -/
theorem compatible?_eq_none_iff {list : List Entry} :
    compatible? table list expected = none ↔
      ∀ entry ∈ list, table.isSubtype expected.nonNull entry.key.toTy = false := by
  simp only [compatible?, List.find?_eq_none, Bool.not_eq_true]

/-- **No entry decides exactly if no key is above the type.** -/
theorem deciding_eq_nil_iff {registry : Registry} :
    registry.deciding table expected = [] ↔ ¬ registry.HasKeyAbove table expected := by
  constructor
  · intro undecided
    rintro ⟨entry, member, above⟩
    induction registry with
    | empty => cases member
    | entries list =>
        rw [deciding, Option.toList_eq_nil_iff, Option.or_eq_none_iff,
          compatible?_eq_none_iff] at undecided
        cases above.symm.trans (undecided.2 entry member)
    | layered base overrides baseIh overridesIh =>
        rw [deciding, List.append_eq_nil_iff] at undecided
        rcases List.mem_append.mp member with first | second
        · exact overridesIh undecided.1 first
        · exact baseIh undecided.2 second
    | overlay base list ih =>
        rw [deciding] at undecided
        split at undecided
        · cases undecided
        · next unlisted =>
            rcases List.mem_append.mp member with first | second
            · cases above.symm.trans (compatible?_eq_none_iff.mp unlisted entry first)
            · exact ih undecided second
  · intro unkeyed
    refine List.eq_nil_iff_forall_not_mem.mpr fun entry decides => unkeyed ?_
    exact ⟨entry, mem_of_mem_deciding decides⟩

/-- A lookup is in vain exactly if no entry that decides holds a reader. -/
theorem lookup_eq_none_iff {registry : Registry} :
    registry.lookup table expected = none ↔
      ∀ entry ∈ registry.deciding table expected, entry.reader = none := by
  rw [lookup_eq_findSome?, List.findSome?_eq_none_iff]

/-! ## Overrides above a base -/

/-- The rule of layers, for a type: the overrides answer where they have a key above the type, and
the base where they have none. -/
structure Layers (table : Declarations) (expected : Ty) (base overrides : Registry) : Prop where
  hides : overrides.HasKeyAbove table expected →
    (base.plus overrides).lookup table expected = overrides.lookup table expected
  shows : ¬ overrides.HasKeyAbove table expected →
    (base.plus overrides).lookup table expected = base.lookup table expected

/-- Where the overrides have no key above the type, the base answers. -/
theorem lookup_plus_of_not_hasKeyAbove (base : Registry) {overrides : Registry}
    (unkeyed : ¬ overrides.HasKeyAbove table expected) :
    (base.plus overrides).lookup table expected = base.lookup table expected := by
  rw [lookup_plus, lookup_eq_findSome? table expected overrides, deciding_eq_nil_iff.mpr unkeyed]
  rfl

/-- Overrides whose entries above the type all hold readers answer wherever they have one. -/
theorem lookup_ne_none_of_supplied {registry : Registry}
    (supplied : ∀ entry ∈ registry.toList,
      table.isSubtype expected.nonNull entry.key.toTy = true → entry.reader.isSome = true)
    (keyed : registry.HasKeyAbove table expected) : registry.lookup table expected ≠ none := by
  intro vain
  obtain ⟨entry, decides⟩ := List.exists_mem_of_ne_nil _
    (mt deciding_eq_nil_iff.mp (not_not_intro keyed))
  obtain ⟨member, above⟩ := mem_of_mem_deciding decides
  have holds := supplied entry member above
  rw [lookup_eq_none_iff.mp vain entry decides] at holds
  cases holds

/-- **What answers for a registry above another**, and when that is by the rule of layers.  The base
is asked exactly if no entry that decides in the overrides holds a reader.  This goes against the
rule where the overrides have a key above the type and the base has a reader for it, and nowhere
else; so it never does if the entries of the overrides hold readers. -/
theorem layers_iff (table : Declarations) (expected : Ty) (base overrides : Registry) :
    (base.plus overrides).lookup table expected =
        (overrides.deciding table expected ++ base.deciding table expected).findSome?
          Entry.reader ∧
      (Layers table expected base overrides ↔
        ¬ (overrides.HasKeyAbove table expected ∧
          (∀ entry ∈ overrides.deciding table expected, entry.reader = none) ∧
          base.lookup table expected ≠ none)) ∧
      ((∀ entry ∈ overrides.toList,
          table.isSubtype expected.nonNull entry.key.toTy = true → entry.reader.isSome = true) →
        Layers table expected base overrides) := by
  have condition : Layers table expected base overrides ↔
      ¬ (overrides.HasKeyAbove table expected ∧
        (∀ entry ∈ overrides.deciding table expected, entry.reader = none) ∧
        base.lookup table expected ≠ none) := by
    rw [← lookup_eq_none_iff]
    constructor
    · rintro ⟨hides, _⟩ ⟨keyed, vain, answered⟩
      have hidden := hides keyed
      rw [lookup_plus, vain, Option.none_or] at hidden
      exact answered hidden
    · intro harmless
      refine ⟨fun keyed => ?_, lookup_plus_of_not_hasKeyAbove base⟩
      rw [lookup_plus]
      cases found : overrides.lookup table expected with
      | some reader => rfl
      | none =>
          rw [Option.none_or]
          exact Classical.byContradiction fun answered => harmless ⟨keyed, found, answered⟩
  refine ⟨?_, condition, fun supplied => condition.mpr ?_⟩
  · rw [lookup_plus, List.findSome?_append, ← lookup_eq_findSome?, ← lookup_eq_findSome?]
  · rintro ⟨keyed, vain, _⟩
    exact lookup_ne_none_of_supplied supplied keyed (lookup_eq_none_iff.mpr vain)

/-- Integers are registered without a reader. -/
def withoutIntegers : Registry := .ofList [⟨.int, none⟩]

/-- A key without a reader lets the base through. -/
theorem missing_reader_unveils_base :
    Declarations.Reachable .initial ∧ withoutIntegers.HasKeyAbove .initial .int ∧
      withoutIntegers.lookup .initial .int = none ∧
      (builtin.plus withoutIntegers).lookup .initial .int =
        some (.integral .int (-2147483648) 2147483647) ∧
      ¬ Layers .initial .int builtin withoutIntegers := by
  have keyed : withoutIntegers.HasKeyAbove .initial .int :=
    ⟨_, List.mem_singleton_self _, Declarations.isSubtype_self .initial .int⟩
  have answered : (builtin.plus withoutIntegers).lookup .initial .int =
      some (.integral .int (-2147483648) 2147483647) := rfl
  refine ⟨.initial, keyed, rfl, answered, fun layers => ?_⟩
  cases (layers.hides keyed).symm.trans answered

end OverloadResolution.Registry
