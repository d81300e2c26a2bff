import Mathlib.Data.List.Nodup
import OverloadResolution.Registry.Basic

/-!
# Registries built from a history

A registry is built by going through the registrations from the latest to the first, and keeping
each one whose classifier is not among those kept before (`Registry.keep`, `Registry.latest`).  The
keys of a registration are compared as they were given; only what is kept loses its nullability
(`Registry.ofHistory_eq_ofList`).

What is kept was the last of its classifier, and the later it was registered, the earlier it stands
(`Registry.ListsLatest`).  One turn keeps this up, whether it keeps its registration or drops it
(`Registry.ListsLatest.keep`).  A registration is dropped only behind one of the same classifier,
and a lookup looks at nothing else of a key.  So nothing that is dropped is ever missed
(`Registry.find?_latest`).
-/

set_option autoImplicit false

namespace OverloadResolution.Registry

variable {registrations later kept : List Registration} {registration first : Registration}
  {list : List Entry} {entry newer older : Entry} {position late early : Nat}

/-! ## Building, turn by turn -/

/-- One turn of building: a registration is kept unless one of its classifier is kept already. -/
def keep (kept : List Registration) (registration : Registration) : List Registration :=
  if kept.any fun other => other.type.classifier = registration.type.classifier then kept
  else kept ++ [registration]

/-- The registrations that are kept when the latest is looked at first. -/
def latest (registrations : List Registration) : List Registration :=
  registrations.reverse.foldl keep []

/-- The first registration is looked at when all later ones have been. -/
theorem latest_cons (first : Registration) (later : List Registration) :
    latest (first :: later) = keep (latest later) first := by
  simp [latest, List.foldl_append]

/-- A registration is dropped exactly if its classifier is a key of what is kept. -/
theorem map_entry_keep (kept : List Registration) (registration : Registration) :
    (keep kept registration).map Registration.entry =
      if registration.type.classifier ∈ (kept.map Registration.entry).map Entry.key then
        kept.map Registration.entry
      else kept.map Registration.entry ++ [registration.entry] := by
  unfold keep
  by_cases seen : ∃ other ∈ kept, other.type.classifier = registration.type.classifier
  · simp [Registration.entry, seen]
  · simp [Registration.entry, seen]

/-- Going through registrations on top of some that are kept adds the first of each key that is
new. -/
theorem map_entry_foldl_keep (scan kept : List Registration) :
    (scan.foldl keep kept).map Registration.entry =
      kept.map Registration.entry ++
        (firstOfEachKey (scan.map Registration.entry)).filter
          fun entry => entry.key ∉ (kept.map Registration.entry).map Entry.key := by
  induction scan generalizing kept with
  | nil => simp [firstOfEachKey]
  | cons registration scan ih =>
      rw [List.foldl_cons, ih, map_entry_keep, List.map_cons, firstOfEachKey, List.filter_cons,
        List.filter_filter]
      by_cases seen : registration.type.classifier ∈ (kept.map Registration.entry).map Entry.key
      · have dropped : registration.entry.key ∈ (kept.map Registration.entry).map Entry.key := seen
        rw [if_pos seen, if_neg (by simpa using dropped)]
        congr 1
        apply List.filter_congr
        intro entry _
        by_cases same : entry.key = registration.entry.key
        · have listed := dropped
          rw [← same] at listed
          rw [decide_eq_false (not_not_intro listed)]
          rfl
        · simp [same]
      · have new : registration.entry.key ∉ (kept.map Registration.entry).map Entry.key := seen
        rw [if_neg seen, if_pos (by simpa using new), List.append_assoc, List.singleton_append]
        congr 2
        apply List.filter_congr
        intro entry _
        simp only [List.map_append, List.map_cons, List.map_nil, List.mem_append,
          List.mem_singleton, not_or, Bool.decide_and, ne_eq]

/-- **The registry built from a history lists the registrations that are kept.** -/
theorem ofHistory_eq_ofList (registrations : List Registration) :
    ofHistory registrations = ofList (latest registrations) := by
  rw [ofHistory, ofList, latest, map_entry_foldl_keep]
  simp

/-! ## What is kept -/

/-- The registration at a position is kept as an entry, and no later one has its classifier. -/
def LastAt (registrations : List Registration) (position : Nat) (entry : Entry) : Prop :=
  registrations[position]?.map Registration.entry = some entry ∧
    ∀ later ∈ registrations.drop (position + 1), later.type.classifier ≠ entry.key

/-- A list holds the last registration of each classifier, the latest of all in front. -/
structure ListsLatest (registrations : List Registration) (list : List Entry) : Prop where
  /-- The entries are those of registrations that were the last of their classifier. -/
  mem_iff : ∀ entry, entry ∈ list ↔ ∃ position, LastAt registrations position entry
  /-- An entry stands in front of those that were registered before it. -/
  ordered : list.Pairwise fun newer older =>
    ∃ late early, early < late ∧ LastAt registrations late newer ∧
      LastAt registrations early older
  /-- No classifier that was registered is missing. -/
  covers : ∀ registration ∈ registrations, registration.type.classifier ∈ list.map Entry.key

/-- What was registered last before a registration is made in front still was. -/
theorem LastAt.cons (last : LastAt registrations position entry) (first : Registration) :
    LastAt (first :: registrations) (position + 1) entry := last

/-- In front of others, a registration is the last of its classifier if they have another. -/
theorem lastAt_zero_iff :
    LastAt (first :: later) 0 entry ↔
      first.entry = entry ∧ ∀ other ∈ later, other.type.classifier ≠ entry.key := by
  simp [LastAt]

/-- The last registration of a classifier is the one in front or one of the others. -/
theorem exists_lastAt_cons_iff :
    (∃ position, LastAt (first :: later) position entry) ↔
      (first.entry = entry ∧ ∀ other ∈ later, other.type.classifier ≠ entry.key) ∨
        ∃ position, LastAt later position entry := by
  constructor
  · rintro ⟨position, last⟩
    cases position with
    | zero => exact .inl (lastAt_zero_iff.mp last)
    | succ position => exact .inr ⟨position, last⟩
  · rintro (alone | ⟨position, last⟩)
    · exact ⟨0, lastAt_zero_iff.mpr alone⟩
    · exact ⟨position + 1, last.cons first⟩

/-- What was the last of its classifier was registered. -/
theorem LastAt.exists_mem (last : LastAt registrations position entry) :
    ∃ registration ∈ registrations, registration.entry = entry := by
  obtain ⟨registration, found, same⟩ := Option.map_eq_some_iff.mp last.1
  exact ⟨registration, List.mem_of_getElem? found, same⟩

/-- The last registrations of two classifiers at different positions have different keys. -/
theorem LastAt.key_ne (newest : LastAt registrations late newer)
    (oldest : LastAt registrations early older) (before : early < late) :
    newer.key ≠ older.key := by
  obtain ⟨registration, found, rfl⟩ := Option.map_eq_some_iff.mp newest.1
  apply oldest.2 registration
  apply List.mem_iff_getElem?.mpr
  refine ⟨late - (early + 1), ?_⟩
  rw [List.getElem?_drop, ← found]
  congr 1
  omega

namespace ListsLatest

/-- Where a classifier is listed, some registration has it. -/
theorem exists_of_mem_keys (lists : ListsLatest registrations list) {key : Classifier}
    (listed : key ∈ list.map Entry.key) :
    ∃ registration ∈ registrations, registration.type.classifier = key := by
  obtain ⟨entry, member, rfl⟩ := List.mem_map.mp listed
  obtain ⟨position, last⟩ := (lists.mem_iff entry).mp member
  obtain ⟨registration, registered, rfl⟩ := last.exists_mem
  exact ⟨registration, registered, rfl⟩

/-- **One turn of building keeps the last registrations listed.** -/
theorem keep (lists : ListsLatest later (kept.map Registration.entry)) (first : Registration) :
    ListsLatest (first :: later) ((Registry.keep kept first).map Registration.entry) := by
  have moved : (kept.map Registration.entry).Pairwise fun newer older =>
      ∃ late early, early < late ∧ LastAt (first :: later) late newer ∧
        LastAt (first :: later) early older := by
    apply lists.ordered.imp
    rintro newer older ⟨late, early, before, newest, oldest⟩
    exact ⟨late + 1, early + 1, Nat.succ_lt_succ before, newest.cons first, oldest.cons first⟩
  rw [map_entry_keep]
  by_cases seen : first.type.classifier ∈ (kept.map Registration.entry).map Entry.key
  · rw [if_pos seen]
    refine ⟨fun entry => ?mem_iff, moved, List.forall_mem_cons.mpr ⟨seen, lists.covers⟩⟩
    case mem_iff =>
      rw [exists_lastAt_cons_iff, lists.mem_iff]
      refine (or_iff_right ?_).symm
      rintro ⟨rfl, alone⟩
      obtain ⟨other, registered, same⟩ := lists.exists_of_mem_keys seen
      exact alone other registered same
  · have alone : ∀ other ∈ later, other.type.classifier ≠ first.entry.key := by
      intro other registered same
      apply seen
      rw [show first.type.classifier = other.type.classifier from same.symm]
      exact lists.covers other registered
    rw [if_neg seen]
    refine ⟨fun entry => ?mem_iff, ?ordered, ?covers⟩
    case mem_iff =>
      rw [exists_lastAt_cons_iff, List.mem_append, List.mem_singleton, lists.mem_iff, or_comm]
      apply or_congr_left
      constructor
      · rintro rfl
        exact ⟨rfl, alone⟩
      · rintro ⟨rfl, _⟩
        rfl
    case ordered =>
      apply List.pairwise_append.mpr
      refine ⟨moved, List.pairwise_singleton _ _, ?_⟩
      intro newer member older oldest
      obtain rfl := List.mem_singleton.mp oldest
      obtain ⟨position, newest⟩ := (lists.mem_iff newer).mp member
      exact ⟨position + 1, 0, Nat.succ_pos position, newest.cons first,
        lastAt_zero_iff.mpr ⟨rfl, alone⟩⟩
    case covers =>
      rw [List.map_append]
      intro other registered
      rcases List.mem_cons.mp registered with rfl | registered
      · exact List.mem_append_right _ (List.mem_singleton.mpr rfl)
      · exact List.mem_append_left _ (lists.covers other registered)

/-- **What is kept of a history is listed by the last registrations.** -/
theorem latest (registrations : List Registration) :
    ListsLatest registrations ((Registry.latest registrations).map Registration.entry) := by
  induction registrations with
  | nil => exact ⟨by simp [Registry.latest, LastAt], .nil, nofun⟩
  | cons first later ih =>
      rw [latest_cons]
      exact ih.keep first

/-- No two entries have the same classifier. -/
theorem nodup (lists : ListsLatest registrations list) : (list.map Entry.key).Nodup := by
  apply List.pairwise_map.mpr
  apply lists.ordered.imp
  rintro newer older ⟨late, early, before, newest, oldest⟩
  exact newest.key_ne oldest before

end ListsLatest

/-! ## What is dropped is not missed -/

/-- **A test of keys finds the same entry among all registrations, the latest first, as among those
that are kept.** -/
theorem find?_latest (test : Classifier → Bool) (registrations : List Registration) :
    ((latest registrations).map Registration.entry).find? (fun entry => test entry.key) =
      (registrations.reverse.map Registration.entry).find? fun entry => test entry.key := by
  induction registrations with
  | nil => rfl
  | cons first later ih =>
      rw [latest_cons, map_entry_keep, List.reverse_cons, List.map_append, List.find?_append, ← ih]
      by_cases seen : first.type.classifier ∈
          ((latest later).map Registration.entry).map Entry.key
      · rw [if_pos seen]
        cases found : ((latest later).map Registration.entry).find?
            fun entry => test entry.key with
        | some entry => rfl
        | none =>
            -- the entry that stands for the one dropped fails the test, and so does that one
            obtain ⟨entry, member, same⟩ := List.mem_map.mp seen
            have fails := List.find?_eq_none.mp found entry member
            rw [same] at fails
            simp [Registration.entry, fails]
      · rw [if_neg seen, List.find?_append]
        rfl

/-- **Building a registry from a history keeps the last registration of each classifier, and no
lookup can tell.**  A lookup in what is built answers as one in the list of all registrations, the
latest first; and what is built lists each classifier that was registered once, as a type without
null. -/
theorem ofHistory_keepsLatest (registrations : List Registration) :
    (∀ (table : Declarations) (type : Ty),
        (ofHistory registrations).lookup table type =
          (ofList registrations.reverse).lookup table type) ∧
      ListsLatest registrations (ofHistory registrations).toList ∧
      ((ofHistory registrations).toList.map Entry.key).Nodup ∧
      (∀ registration ∈ registrations,
        ((ofHistory registrations).toList.map Entry.key).count registration.type.classifier = 1) ∧
      ∀ entry ∈ (ofHistory registrations).toList, entry.key.toTy.isNullable = false := by
  have lists := ListsLatest.latest registrations
  rw [ofHistory_eq_ofList]
  refine ⟨?lookup, lists, lists.nodup, ?once, ?solid⟩
  case lookup =>
    intro table type
    simp only [lookup, ofList, withKey?, compatible?]
    rw [find?_latest fun key => key = type.classifier,
      find?_latest fun key => table.isSubtype type.nonNull key.toTy]
  case once =>
    intro registration registered
    exact List.count_eq_one_of_mem lists.nodup (lists.covers registration registered)
  case solid =>
    intro entry _
    cases entry.key <;> rfl

/-- The integers are registered twice, and the second time for null as well. -/
example : (ofHistory [⟨.int, none⟩, ⟨.string, some .string⟩,
    ⟨Ty.int.orNull, some .boolean⟩]).toList =
      [⟨.named "Int", some .boolean⟩, ⟨.named "String", some .string⟩] := rfl

end OverloadResolution.Registry
