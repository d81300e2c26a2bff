import OverloadResolution.Proofs.Overriding
import OverloadResolution.Proofs.Layering

/-!
# Combining registries

Two registries are alike if neither a lookup nor the list of their entries tells them apart
(`Registry.Alike`).  Seen in this way it does not matter how registries that are put above one
another are grouped, nor how lists are, and a registry without entries adds nothing on either side
(`Registry.plus_laws`).  Only the empty registry leaves the other one as it is; any other one
without entries stays in the value, as a layer that answers no lookup
(`Registry.lookup_of_unlisted`).

A list can be put above a registry by itself, and then the first entry above a type decides; or it
can be made a registry first, and then the very key of a type goes before the keys above it.  The
two are alike for lists that name the more specific of two types first (`Registry.SpecificFirst`).
In such a list no key above a type stands in front of the type's own key
(`Registry.SpecificFirst.compatible?_of_withKey?`).  The entries must hold readers too: one without
hides the base in a list, but not in a registry (`Registry.plusList_alike_plus_ofList`).
-/

set_option autoImplicit false

namespace OverloadResolution.Registry

variable {table : Declarations} {expected : Ty}

/-- Registries that answer every lookup alike and list the same entries. -/
structure Alike (table : Declarations) (first second : Registry) : Prop where
  lookup : ∀ expected, first.lookup table expected = second.lookup table expected
  toList : first.toList = second.toList

/-! ## Registries above one another -/

theorem plus_assoc_alike (table : Declarations) (base middle top : Registry) :
    Alike table ((base.plus middle).plus top) (base.plus (middle.plus top)) where
  lookup expected := by simp only [lookup_plus, Option.or_assoc]
  toList := by simp only [toList_plus, List.append_assoc]

/-- A registry without entries answers no lookup. -/
theorem lookup_of_unlisted {registry : Registry} (unlisted : registry.toList = []) :
    registry.lookup table expected = none := by
  rw [lookup_eq_none_iff]
  intro entry decides
  have member := (mem_of_mem_deciding decides).1
  rw [unlisted] at member
  cases member

theorem plus_unlisted_alike (table : Declarations) (base : Registry) {bare : Registry}
    (unlisted : bare.toList = []) : Alike table (base.plus bare) base where
  lookup expected := by rw [lookup_plus, lookup_of_unlisted unlisted, Option.none_or]
  toList := by rw [toList_plus, unlisted, List.nil_append]

theorem unlisted_plus_alike (table : Declarations) (overrides : Registry) {bare : Registry}
    (unlisted : bare.toList = []) : Alike table (bare.plus overrides) overrides where
  lookup expected := by rw [lookup_plus, lookup_of_unlisted unlisted, Option.or_none]
  toList := by rw [toList_plus, unlisted, List.append_nil]

/-! ## Lists above one another -/

/-- What decides in one list before another is what decides in the first, or else in the second. -/
theorem compatible?_append (table : Declarations) (expected : Ty) (above below : List Entry) :
    compatible? table (above ++ below) expected =
      (compatible? table above expected).or (compatible? table below expected) :=
  List.find?_append

theorem plusList_plusList_alike (table : Declarations) (base : Registry)
    (below above : List Registration) :
    Alike table ((base.plusList below).plusList above) (base.plusList (above ++ below)) where
  lookup expected := by
    rw [lookup_plusList, lookup_plusList, lookup_plusList, List.map_append, compatible?_append]
    -- an entry of the upper list decides even when it holds no reader
    cases compatible? table (above.map Registration.entry) expected with
    | some entry => rfl
    | none => rfl
  toList := by simp only [toList_plusList, List.map_append, List.append_assoc]

/-- **The laws of combining.**  Registries above one another may be grouped in any way, the empty
registry leaves any other as it is, another one without entries makes no difference that is seen,
and two lists above a registry are one list. -/
theorem plus_laws (table : Declarations) (base middle top : Registry) :
    Alike table ((base.plus middle).plus top) (base.plus (middle.plus top)) ∧
      base.plus .empty = base ∧ empty.plus base = base ∧
      (∀ bare : Registry, bare.toList = [] →
        Alike table (base.plus bare) base ∧ Alike table (bare.plus base) base) ∧
      ∀ below above : List Registration,
        Alike table ((base.plusList below).plusList above) (base.plusList (above ++ below)) := by
  refine ⟨plus_assoc_alike table base middle top, plus_empty base, empty_plus base, ?_,
    plusList_plusList_alike table base⟩
  intro bare unlisted
  exact ⟨plus_unlisted_alike table base unlisted, unlisted_plus_alike table base unlisted⟩

/-- A registry made of no registrations is not the empty one, so combining keeps it as a layer; but
nobody sees it there. -/
theorem builtin_with_unlisted :
    (ofHistory []).toList = [] ∧ builtin.plus (ofHistory []) ≠ builtin ∧
      Alike .initial (builtin.plus (ofHistory [])) builtin ∧
      Alike .initial ((ofHistory []).plus builtin) builtin := by
  obtain ⟨_, _, _, unseen, _⟩ := plus_laws .initial builtin builtin builtin
  exact ⟨rfl, nofun, unseen (ofHistory []) rfl⟩

/-! ## A list or a registry above another registry -/

/-- No registration is for a type below that of an earlier one, null aside, unless both are for the
same type. -/
def SpecificFirst (table : Declarations) (registrations : List Registration) : Prop :=
  registrations.Pairwise fun earlier later =>
    table.isSubtype later.type.nonNull earlier.type.nonNull = true →
      later.type.classifier = earlier.type.classifier

instance (table : Declarations) (registrations : List Registration) :
    Decidable (SpecificFirst table registrations) :=
  inferInstanceAs (Decidable (List.Pairwise _ registrations))

/-- In terms of the entries: no key is below an earlier one, unless it is the same. -/
theorem SpecificFirst.pairwise_entries {registrations : List Registration}
    (ordered : SpecificFirst table registrations) :
    (registrations.map Registration.entry).Pairwise fun earlier later =>
      table.isSubtype later.key.toTy earlier.key.toTy = true → later.key = earlier.key := by
  apply List.pairwise_map.mpr
  apply ordered.imp
  intro earlier later same below
  simp only [Registration.entry, Ty.toTy_classifier] at below
  exact same below

/-- **Where the more specific types come first, the key of a type is the first one above it.** -/
theorem SpecificFirst.compatible?_of_withKey? {registrations : List Registration} {entry : Entry}
    (ordered : SpecificFirst table registrations)
    (keyed : withKey? (registrations.map Registration.entry) expected.classifier = some entry) :
    compatible? table (registrations.map Registration.entry) expected = some entry := by
  have pairwise := ordered.pairwise_entries
  generalize registrations.map Registration.entry = list at pairwise keyed
  obtain ⟨found, front, behind, rfl, others⟩ := List.find?_eq_some_iff_append.mp keyed
  have key : entry.key = expected.classifier := of_decide_eq_true found
  refine List.find?_eq_some_iff_append.mpr
    ⟨isSubtype_of_withKey? keyed, front, behind, rfl, fun earlier member => ?_⟩
  -- a key in front that is above the type would be the key of the type
  have same := (List.pairwise_append.mp pairwise).2.2 earlier member entry List.mem_cons_self
  have other : earlier.key ≠ expected.classifier := by simpa using others earlier member
  rw [key, Ty.toTy_classifier] at same
  simpa using fun above => other (same above).symm

/-- Then the search for the very key makes no difference. -/
theorem SpecificFirst.withKey?_or {registrations : List Registration}
    (ordered : SpecificFirst table registrations) (expected : Ty) :
    (withKey? (registrations.map Registration.entry) expected.classifier).or
        (compatible? table (registrations.map Registration.entry) expected) =
      compatible? table (registrations.map Registration.entry) expected := by
  cases keyed : withKey? (registrations.map Registration.entry) expected.classifier with
  | none => exact Option.none_or
  | some entry => exact (ordered.compatible?_of_withKey? keyed).symm

/-- **The two ways to put a list above a registry are alike** if the list names the more specific
types first and none of its entries lacks a reader. -/
theorem plusList_alike_plus_ofList (base : Registry) {registrations : List Registration}
    (supplied : ∀ registration ∈ registrations, registration.reader.isSome = true)
    (ordered : SpecificFirst table registrations) :
    Alike table (base.plusList registrations) (base.plus (ofList registrations)) where
  lookup expected := by
    rw [lookup_plusList, lookup_plus, ofList, lookup, ordered.withKey?_or]
    cases admitted : compatible? table (registrations.map Registration.entry) expected with
    | none => rfl
    | some entry =>
        obtain ⟨registration, registered, rfl⟩ :=
          List.mem_map.mp (List.mem_of_find?_eq_some admitted)
        obtain ⟨reader, held⟩ := Option.isSome_iff_exists.mp (supplied registration registered)
        rw [Option.bind_some, Registration.entry, held, Option.some_or]
  toList := by
    rw [toList_plusList, toList_plus]
    rfl

/-- Readers for the kinds of senders, for arrays of bots, and for everything else.  The users have
two, of which the second is never used. -/
def senderReaders : List Registration :=
  [⟨.named "Member" false, some .string⟩, ⟨.named "User" true, some .boolean⟩,
    ⟨.named "Bot" false, some (.integral .int 0 9)⟩, ⟨.named "User" false, some .string⟩,
    ⟨.arrayOf (.named "Bot" false), some .string⟩,
    ⟨.named "Sender" false, some (.floating .double false)⟩, ⟨.any, some .boolean⟩]

/-- Members are users and bots, and these are senders. -/
theorem senderReaders_alike :
    (∀ registration ∈ senderReaders, registration.reader.isSome = true) ∧
      SpecificFirst .senders senderReaders ∧
      Alike .senders (builtin.plusList senderReaders) (builtin.plus (ofList senderReaders)) := by
  have supplied : ∀ registration ∈ senderReaders, registration.reader.isSome = true := by decide
  have ordered : SpecificFirst .senders senderReaders := by decide +kernel
  exact ⟨supplied, ordered, plusList_alike_plus_ofList builtin supplied ordered⟩

/-- With the top type in front, only the registry still has the reader of truth values. -/
example :
    (empty.plusList [⟨.any, some .string⟩, ⟨.boolean, some .boolean⟩]).lookup .initial .boolean =
        some .string ∧
      (empty.plus (ofList [⟨.any, some .string⟩, ⟨.boolean, some .boolean⟩])).lookup .initial
        .boolean = some .boolean :=
  ⟨rfl, rfl⟩

end OverloadResolution.Registry
