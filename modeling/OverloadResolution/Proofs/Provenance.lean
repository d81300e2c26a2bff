import OverloadResolution.Proofs.Layering
import OverloadResolution.Proofs.Ordering
import OverloadResolution.Proofs.Typing
import OverloadResolution.Registry.Builtin

/-!
# Where readers come from

A registry is put together from registrations (`Recipe`).  Whichever way that is done, the reader
that a lookup answers with was registered, and for a type that is above the type in question, null
aside (`Recipe.exists_registration_of_lookup`).

All that is known of a reader that is found is therefore what was promised when it was registered:
that it yields values of the type it was registered for.  This type may be wider than the one looked
up, and then the reader need not yield values of the latter; it does so where its own type is
assignable to the one looked up (`Recipe.lookup_reads`).
-/

set_option autoImplicit false

namespace OverloadResolution

/-! ## Lookup answers with an entry -/

/-- A reader is found in an entry with a key above the type, null aside. -/
theorem Registry.exists_entry_of_lookup {table : Declarations} {expected : Ty} {reader : Reader}
    {registry : Registry} (looked : registry.lookup table expected = some reader) :
    ∃ entry ∈ registry.toList, entry.reader = some reader ∧
      table.isSubtype expected.nonNull entry.key.toTy = true := by
  rw [lookup_eq_findSome?] at looked
  obtain ⟨entry, decides, supplied⟩ := List.exists_of_findSome?_eq_some looked
  obtain ⟨member, above⟩ := mem_of_mem_deciding decides
  exact ⟨entry, member, supplied, above⟩

/-! ## Recipes -/

/-- How a registry is put together. -/
inductive Recipe where
  | empty
  | list (registrations : List Registration)
  | history (registrations : List Registration)
  | plus (base overrides : Recipe)
  | plusList (base : Recipe) (registrations : List Registration)

namespace Recipe

/-- The registry that is put together. -/
def registry : Recipe → Registry
  | .empty => .empty
  | .list registrations => .ofList registrations
  | .history registrations => .ofHistory registrations
  | .plus base overrides => base.registry.plus overrides.registry
  | .plusList base registrations => base.registry.plusList registrations

/-- Everything that is registered on the way, even if something later takes its place. -/
def registrations : Recipe → List Registration
  | .empty => []
  | .list registrations => registrations
  | .history registrations => registrations
  | .plus base overrides => overrides.registrations ++ base.registrations
  | .plusList base registrations => registrations ++ base.registrations

/-- A registry has no entries but those of registrations. -/
theorem exists_registration {recipe : Recipe} {entry : Entry}
    (member : entry ∈ recipe.registry.toList) :
    ∃ registration ∈ recipe.registrations, registration.entry = entry := by
  induction recipe with
  | empty => cases member
  | list registrations => exact List.mem_map.mp member
  | history registrations =>
      have kept := (Registry.firstOfEachKey_sublist _).subset member
      obtain ⟨registration, member, same⟩ := List.mem_map.mp kept
      exact ⟨registration, List.mem_reverse.mp member, same⟩
  | plus base overrides baseIh overridesIh =>
      rw [registry, Registry.toList_plus] at member
      rcases List.mem_append.mp member with first | second
      · obtain ⟨registration, member, same⟩ := overridesIh first
        exact ⟨registration, List.mem_append_left base.registrations member, same⟩
      · obtain ⟨registration, member, same⟩ := baseIh second
        exact ⟨registration, List.mem_append_right overrides.registrations member, same⟩
  | plusList base registrations ih =>
      rw [registry, Registry.toList_plusList] at member
      rcases List.mem_append.mp member with first | second
      · obtain ⟨registration, member, same⟩ := List.mem_map.mp first
        exact ⟨registration, List.mem_append_left base.registrations member, same⟩
      · obtain ⟨registration, member, same⟩ := ih second
        exact ⟨registration, List.mem_append_right registrations member, same⟩

/-- **A reader that is found was registered**, for a type above the one looked up, null aside. -/
theorem exists_registration_of_lookup {table : Declarations} {recipe : Recipe} {expected : Ty}
    {reader : Reader} (looked : recipe.registry.lookup table expected = some reader) :
    ∃ registration ∈ recipe.registrations, registration.reader = some reader ∧
      table.isSubtype expected.nonNull registration.type.nonNull = true := by
  obtain ⟨entry, member, supplied, admitted⟩ := Registry.exists_entry_of_lookup looked
  obtain ⟨registration, registered, rfl⟩ := exists_registration member
  rw [Registration.entry, Ty.toTy_classifier] at admitted
  exact ⟨registration, registered, supplied, admitted⟩

end Recipe

/-! ## Promises -/

/-- The reader, if there is one, yields values of the type that it is registered for. -/
def Registration.KeepsPromise (table : Declarations) (registration : Registration) : Prop :=
  ∀ reader ∈ registration.reader, reader.Reads table registration.type

/-! ## The readers of the primitive types -/

namespace Reader

variable {table : Declarations}

theorem ofFunction_reads {label : String} {read : String → Except Diagnostic Value} {expected : Ty}
    (typed : ∀ raw value, read raw = .ok value → table.isSubtype value.type expected = true) :
    (ofFunction label read).Reads table expected :=
  fun raw _ _ value answered => typed raw value answered

theorem integral_reads (table : Declarations) (type : Ty) (low high : Int64) :
    (integral type low high).Reads table type := by
  refine ofFunction_reads fun raw value answered => ?_
  unfold readIntegral at answered
  split at answered
  · cases answered
  · split at answered
    · cases answered
    · cases answered
      exact Declarations.isSubtype_self table type

theorem floating_reads (table : Declarations) (type : Ty) (single : Bool) :
    (floating type single).Reads table type := by
  refine ofFunction_reads fun raw value answered => ?_
  unfold readFloating at answered
  split at answered
  · cases answered
  · split at answered
    · cases answered
    · cases answered
      exact Declarations.isSubtype_self table type

theorem boolean_reads (table : Declarations) : boolean.Reads table .boolean := by
  refine ofFunction_reads fun raw value answered => ?_
  unfold readBoolean at answered
  split at answered
  · cases answered
    exact Declarations.isSubtype_self table .boolean
  · split at answered
    · cases answered
      exact Declarations.isSubtype_self table .boolean
    · cases answered

theorem string_reads (table : Declarations) : string.Reads table .string := by
  refine ofFunction_reads fun raw value answered => ?_
  cases answered
  exact Declarations.isSubtype_self table .string

end Reader

theorem Registration.keepsPromise_iff {table : Declarations} {type : Ty} {reader : Reader} :
    KeepsPromise table ⟨type, some reader⟩ ↔ reader.Reads table type := by
  simp only [KeepsPromise, Option.mem_def, Option.some.injEq, forall_eq']

/-- **The builtin readers keep their promises.** -/
theorem Registry.builtinRegistrations_keepPromises (table : Declarations) :
    ∀ registration ∈ builtinRegistrations, registration.KeepsPromise table := by
  simp only [builtinRegistrations, List.forall_mem_cons, Registration.keepsPromise_iff,
    Reader.integral_reads, Reader.floating_reads, Reader.boolean_reads, Reader.string_reads,
    List.not_mem_nil, false_implies, implies_true, and_true]

/-! ## What a lookup promises -/

/-- **A reader that is found keeps the promise it was registered with.**  So it yields values of the
type looked up if the type that it is registered for is assignable to that. -/
theorem Recipe.lookup_reads {table : Declarations} (reachable : Declarations.Reachable table)
    {recipe : Recipe}
    (promises : ∀ registration ∈ recipe.registrations, registration.KeepsPromise table)
    {expected : Ty} {reader : Reader}
    (looked : recipe.registry.lookup table expected = some reader) :
    ∃ registration ∈ recipe.registrations, registration.reader = some reader ∧
      table.isSubtype expected.nonNull registration.type.nonNull = true ∧
      reader.Reads table registration.type ∧
      (table.isSubtype registration.type expected = true → reader.Reads table expected) := by
  obtain ⟨registration, member, supplied, above⟩ := exists_registration_of_lookup looked
  have reads := promises registration member reader supplied
  exact ⟨registration, member, supplied, above, reads,
    fun suits raw context => (reads raw context).trans reachable suits⟩

/-- Reads every token as the integer five. -/
def fiveReader : Reader := .ofFunction "five" fun _ => .ok (.integer .int 5)

theorem fiveReader_reads {table : Declarations} {expected : Ty}
    (wide : table.isSubtype .int expected = true) : fiveReader.Reads table expected := by
  refine Reader.ofFunction_reads fun raw value answered => ?_
  cases answered
  exact wide

/-- Five for whatever has no reader of its own. -/
def fallingBack : Recipe :=
  .plus (.list [⟨Ty.any.orNull, some fiveReader⟩]) (.history Registry.builtinRegistrations)

theorem fallingBack_keepsPromises (table : Declarations) :
    ∀ registration ∈ fallingBack.registrations, registration.KeepsPromise table := by
  refine List.forall_mem_append.mpr ⟨Registry.builtinRegistrations_keepPromises table, ?_⟩
  exact List.forall_mem_singleton.mpr
    (Registration.keepsPromise_iff.mpr (fiveReader_reads (Declarations.isSubtype_any table nofun)))

/-- Truth values have a reader of their own. -/
theorem fallingBack_reads_boolean :
    Declarations.Reachable .initial ∧
      (∀ registration ∈ fallingBack.registrations, registration.KeepsPromise .initial) ∧
      fallingBack.registry.lookup .initial .boolean = some .boolean ∧
      ∃ registration ∈ fallingBack.registrations, registration.reader = some .boolean ∧
        Declarations.initial.isSubtype Ty.boolean.nonNull registration.type.nonNull = true ∧
        Reader.boolean.Reads .initial registration.type ∧
        (Declarations.initial.isSubtype registration.type .boolean = true →
          Reader.boolean.Reads .initial .boolean) := by
  have looked : fallingBack.registry.lookup .initial .boolean = some .boolean := rfl
  exact ⟨.initial, fallingBack_keepsPromises _, looked,
    Recipe.lookup_reads .initial (fallingBack_keepsPromises _) looked⟩

/-- A reader that is registered for all values serves truth values, and reads the integer five. -/
theorem fiveReader_serves_boolean :
    Declarations.Reachable .initial ∧
      (∀ registration ∈ (Recipe.list [⟨.any, some fiveReader⟩]).registrations,
        registration.KeepsPromise .initial) ∧
      (Recipe.list [⟨.any, some fiveReader⟩]).registry.lookup .initial .boolean =
        some fiveReader ∧
      ¬ fiveReader.Reads .initial .boolean := by
  refine ⟨.initial, ?_, rfl, ?_⟩
  · exact List.forall_mem_singleton.mpr
      (Registration.keepsPromise_iff.mpr (fiveReader_reads (Declarations.isSubtype_any _ nofun)))
  · intro reads
    have five := reads "five" ⟨⟨"console", .any⟩, .never⟩ .initial (.integer .int 5) rfl
    exact absurd five (by decide +kernel)

end OverloadResolution
