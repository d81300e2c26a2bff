import OverloadResolution.Declarations
import OverloadResolution.Reader

/-!
# Registries of readers

A registry answers, for a type, which reader produces values that may be given where the type is
expected.  Keys are classifiers, so nullability plays no part on either side.  An entry may hold no
reader at all.  There are four ways to make a registry, and they differ in what an entry without a
reader hides:

* `entries`: an entry with the very key decides, otherwise the first entry whose key admits the
  type; the entry that decides answers for the registry even when it holds no reader.
* `layered`: the base is asked whenever the overrides answer with no reader.
* `overlay`: the first entry whose key admits the type decides, with no preference for the very key
  and whether or not it holds a reader; the base is asked only when there is no such entry.
* `empty`: the one registry that combining leaves out.  A registry of no entries that was made some
  other way answers alike, but combining keeps it.
-/

set_option autoImplicit false

namespace OverloadResolution

/-- A type with the reader to use for it, or with none. -/
structure Registration where
  type : Ty
  reader : Option Reader

/-- A registration as it is kept: under the classifier of its type. -/
structure Entry where
  key : Classifier
  reader : Option Reader

/-- The entry that keeps a registration. -/
def Registration.entry (registration : Registration) : Entry :=
  ⟨registration.type.classifier, registration.reader⟩

/-- A registry of readers. -/
inductive Registry where
  | empty
  | entries (list : List Entry)
  | layered (base overrides : Registry)
  | overlay (base : Registry) (list : List Entry)

namespace Registry

/-- The first entry with a key. -/
def withKey? (list : List Entry) (key : Classifier) : Option Entry :=
  list.find? fun entry => entry.key = key

/-- The first entry whose key admits values of a type, null aside. -/
def compatible? (table : Declarations) (list : List Entry) (type : Ty) : Option Entry :=
  list.find? fun entry => table.isSubtype type.nonNull entry.key.toTy

/-- The reader to use where a type is expected. -/
def lookup (table : Declarations) (type : Ty) : Registry → Option Reader
  | .empty => none
  | .entries list =>
    ((withKey? list type.classifier).or (compatible? table list type)).bind Entry.reader
  | .layered base overrides => (overrides.lookup table type).or (base.lookup table type)
  | .overlay base list =>
    match compatible? table list type with
    | some entry => entry.reader
    | none => base.lookup table type

/-- All entries, those that are asked first in front. -/
def toList : Registry → List Entry
  | .empty => []
  | .entries list => list
  | .layered base overrides => overrides.toList ++ base.toList
  | .overlay base list => list ++ base.toList

/-- The registry of registrations as they are listed. -/
def ofList (registrations : List Registration) : Registry :=
  .entries (registrations.map Registration.entry)

/-- Keeps the first entry of each key. -/
def firstOfEachKey : List Entry → List Entry
  | [] => []
  | entry :: rest => entry :: (firstOfEachKey rest).filter fun other => other.key ≠ entry.key

theorem firstOfEachKey_sublist (list : List Entry) : (firstOfEachKey list).Sublist list := by
  induction list with
  | nil => exact .slnil
  | cons entry rest ih => exact .cons_cons entry (List.filter_sublist.trans ih)

/-- The registry of registrations made one after another: of each classifier the latest counts, and
the latest of all comes first. -/
def ofHistory (registrations : List Registration) : Registry :=
  .entries (firstOfEachKey (registrations.reverse.map Registration.entry))

/-- Whether this is the registry that combining leaves out. -/
def isEmpty : Registry → Bool
  | .empty => true
  | _ => false

/-- Puts overrides above a base; the empty registry is left out on either side. -/
def plus (base overrides : Registry) : Registry :=
  if overrides.isEmpty then base
  else if base.isEmpty then overrides
  else .layered base overrides

/-- Puts listed registrations above a base; an empty list changes nothing. -/
def plusList (base : Registry) (registrations : List Registration) : Registry :=
  if registrations.isEmpty then base else .overlay base (registrations.map Registration.entry)

@[simp]
theorem isEmpty_iff {registry : Registry} : registry.isEmpty = true ↔ registry = .empty := by
  cases registry <;> simp [isEmpty]

@[simp]
theorem plus_empty (base : Registry) : base.plus .empty = base := by
  simp [plus, isEmpty]

@[simp]
theorem empty_plus (overrides : Registry) : empty.plus overrides = overrides := by
  cases overrides <;> simp [plus, isEmpty]

@[simp]
theorem plusList_nil (base : Registry) : base.plusList [] = base := by
  simp [plusList]

/-- Combining asks the overrides first, whichever way it stores the two. -/
theorem lookup_plus (table : Declarations) (type : Ty) (base overrides : Registry) :
    (base.plus overrides).lookup table type =
      (overrides.lookup table type).or (base.lookup table type) := by
  unfold plus
  split
  · next isEmpty => simp [isEmpty_iff.mp isEmpty, lookup]
  · split
    · next isEmpty => simp [isEmpty_iff.mp isEmpty, lookup]
    · rfl

/-- Combining lists the overrides first. -/
theorem toList_plus (base overrides : Registry) :
    (base.plus overrides).toList = overrides.toList ++ base.toList := by
  unfold plus
  split
  · next isEmpty => simp [isEmpty_iff.mp isEmpty, toList]
  · split
    · next isEmpty => simp [isEmpty_iff.mp isEmpty, toList]
    · rfl

/-- Putting a list above a base lists it first. -/
theorem toList_plusList (base : Registry) (registrations : List Registration) :
    (base.plusList registrations).toList =
      registrations.map Registration.entry ++ base.toList := by
  cases registrations with
  | nil => rw [plusList_nil, List.map_nil, List.nil_append]
  | cons => rfl

end Registry

end OverloadResolution
