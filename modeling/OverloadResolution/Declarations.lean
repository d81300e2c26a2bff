import OverloadResolution.Ty
import OverloadResolution.Diagnostic

/-!
# Declared names and assignability

A table of declarations lists, for each declared name, the names directly above it.  A name may
only be declared over names that are declared already, so the edges of a table that grew from the
initial one by `declare` always point to older names.

`isNominalSubtype` searches the table with a worklist and a list of the names already expanded.
The search is well founded: expanding a name removes its declaration from what is still unexpanded,
and that pays for the names it pushes.  `isSubtype` lifts the relation on names to all types:
null is never given where it is not admitted, arrays vary with their elements, and the top type
admits everything, declared or not.
-/

set_option autoImplicit false

namespace OverloadResolution

/-- One declared name with the names directly above it. -/
structure Declaration where
  name : String
  supers : List String
deriving DecidableEq, Repr

/-- The declared names, oldest first. -/
structure Declarations where
  entries : List Declaration
deriving DecidableEq, Repr

namespace Declarations

/-- The declarations that every table starts from: the top type, and the primitive types directly
below it. -/
def initial : Declarations where
  entries := ⟨Ty.anyName, []⟩ :: Ty.primitives.map fun type => ⟨type.name, [Ty.anyName]⟩

/-- The names directly above a name, if the name is declared. -/
def supersOf? (table : Declarations) (name : String) : Option (List String) :=
  (table.entries.find? fun entry => entry.name = name).map (·.supers)

/-- Whether a name is declared. -/
def isDeclared (table : Declarations) (name : String) : Bool :=
  table.entries.any fun entry => entry.name = name

/-- The table with one more declaration; a name with nothing named above it lies below the top. -/
def add (table : Declarations) (name : String) (supers : List String) : Declarations where
  entries := table.entries ++ [⟨name, if supers.isEmpty then [Ty.anyName] else supers⟩]

/-- Declares a name over names that are declared already.  The name itself is not among those, so
it cannot stand above itself. -/
def declare (table : Declarations) (name : String) (supers : List String) :
    Except Diagnostic Declarations :=
  if table.isDeclared name then
    .error (.error name "type is already declared")
  else
    match supers.find? fun super => !table.isDeclared super with
    | some unknown => .error (.error name ("unknown supertype '" ++ unknown ++ "'"))
    | none => .ok (table.add name supers)

/-- The tables that declaring leads to.  A refused declaration leaves the table as it is, so it adds
none. -/
inductive Reachable : Declarations → Prop where
  | initial : Reachable .initial
  | declare {table next : Declarations} {name : String} {supers : List String}
      (reachable : Reachable table) (declared : table.declare name supers = .ok next) :
      Reachable next

/-- One declared edge: the upper name is listed directly above the lower one. -/
def Edge (table : Declarations) (lower upper : String) : Prop :=
  ∃ supers, table.supersOf? lower = some supers ∧ upper ∈ supers

/-- One or more declared edges. -/
inductive Path (table : Declarations) : String → String → Prop where
  | edge {lower upper : String} (step : table.Edge lower upper) : Path table lower upper
  | cons {lower middle upper : String} (step : table.Edge lower middle)
      (rest : Path table middle upper) : Path table lower upper

/-! ## The search -/

/-- What expanding every name outside a list can still push: each declaration counts itself and
the names above it. -/
def unexpanded (expanded : List String) : List Declaration → Nat
  | [] => 0
  | entry :: rest =>
    (if entry.name ∈ expanded then 0 else entry.supers.length + 1) + unexpanded expanded rest

theorem unexpanded_cons_le (entries : List Declaration) (name : String) (expanded : List String) :
    unexpanded (name :: expanded) entries ≤ unexpanded expanded entries := by
  induction entries with
  | nil => exact Nat.le_refl _
  | cons entry rest ih =>
    refine Nat.add_le_add ?_ ih
    by_cases seen : entry.name ∈ expanded
    · simp only [List.mem_cons, seen, or_true, if_true]
      exact Nat.le_refl _
    · simp only [seen, if_false]
      split
      · exact Nat.zero_le _
      · exact Nat.le_refl _

/-- Expanding a declared name for the first time takes its declaration out of the measure. -/
theorem unexpanded_cons_add_le {entries : List Declaration} {entry : Declaration} {name : String}
    {expanded : List String} (found : entries.find? (fun entry => entry.name = name) = some entry)
    (fresh : name ∉ expanded) :
    unexpanded (name :: expanded) entries + entry.supers.length + 1 ≤
      unexpanded expanded entries := by
  induction entries with
  | nil => simp at found
  | cons first rest ih =>
    by_cases same : first.name = name
    · rw [List.find?_cons_of_pos (by simpa using same)] at found
      cases found
      have smaller := unexpanded_cons_le rest name expanded
      simp only [unexpanded, same, List.mem_cons_self, if_true, fresh, if_false]
      omega
    · rw [List.find?_cons_of_neg (by simpa using same)] at found
      have smaller := ih found
      simp only [unexpanded, List.mem_cons, same, false_or]
      omega

/-- Whether the goal is directly above some name that the worklist leads to.  The most recently
pushed name is expanded first, and a name is expanded at most once. -/
def searchAbove (table : Declarations) (goal : String) (worklist expanded : List String) : Bool :=
  match worklist with
  | [] => false
  | current :: rest =>
    if current ∈ expanded then searchAbove table goal rest expanded
    else
      match _found : table.entries.find? fun entry => entry.name = current with
      | none => searchAbove table goal rest (current :: expanded)
      | some entry =>
        if goal ∈ entry.supers then true
        else searchAbove table goal (entry.supers.reverse ++ rest) (current :: expanded)
termination_by unexpanded expanded table.entries + worklist.length
decreasing_by
  · simp
  · have smaller := unexpanded_cons_le table.entries current expanded
    simp only [List.length_cons]
    omega
  · rename_i fresh _
    have smaller := unexpanded_cons_add_le _found fresh
    simp only [List.length_append, List.length_reverse, List.length_cons]
    omega

/-- Whether one name is another or lies below it.  The top name is above every name, declared or
not. -/
def isNominalSubtype (table : Declarations) (sub super : String) : Bool :=
  sub = super || super = Ty.anyName || table.searchAbove super [sub] []

/-- Whether a value of the first type may be given where the second is expected. -/
def isSubtype (table : Declarations) (sub super : Ty) : Bool :=
  if sub.isNullable && !super.isNullable then false
  else
    match sub, super with
    | .named subName _, .named superName _ => table.isNominalSubtype subName superName
    | .array _ _, .named superName _ => superName = Ty.anyName
    | .named _ _, .array _ _ => false
    | .array subElement _, .array superElement _ => table.isSubtype subElement superElement

@[simp]
theorem isNominalSubtype_self (table : Declarations) (name : String) :
    table.isNominalSubtype name name = true := by
  simp [isNominalSubtype]

@[simp]
theorem isNominalSubtype_any (table : Declarations) (name : String) :
    table.isNominalSubtype name Ty.anyName = true := by
  simp [isNominalSubtype]

theorem isDeclared_add (table : Declarations) (name other : String) (supers : List String) :
    (table.add name supers).isDeclared other = (table.isDeclared other || name = other) := by
  simp [isDeclared, add]

end Declarations

end OverloadResolution
