import Mathlib.Order.Defs.Unbundled
import OverloadResolution.Proofs.Assignability

/-!
# Assignability is a partial order

A declaration lists names that are declared already, so a table that grew by declaring is closed:
whatever stands above a name is declared itself (`Declarations.Closed`,
`Declarations.Closed.declare`, `Declarations.Reachable.closed`).  In a closed table nothing is
listed above a name that is not declared.  A new name therefore has no path leading to it, and the
paths from all other names stay what they were (`Declarations.Closed.path_declare_iff`).

It follows that no name is above itself (`Declarations.Reachable.not_path_self`), so assignability
of names is antisymmetric, and with it assignability of types.  Together with the laws of
reflexivity and transitivity this makes it a partial order, in which null and the top type stand
where they should (`Declarations.Reachable.isSubtype_partialOrder`).
-/

set_option autoImplicit false

namespace OverloadResolution

namespace Declarations

variable {table next : Declarations} {name lower upper : String} {supers : List String}

/-! ## Requests to declare -/

/-- The table that a request to declare a name leaves behind; a refused one leaves it as it is. -/
def request (table : Declarations) (declaration : Declaration) : Declarations :=
  (table.declare declaration.name declaration.supers).toOption.getD table

theorem request_of_ok {declaration : Declaration}
    (declared : table.declare declaration.name declaration.supers = .ok next) :
    table.request declaration = next := by
  rw [request, declared]
  rfl

theorem request_of_error {declaration : Declaration} {error : Diagnostic}
    (refused : table.declare declaration.name declaration.supers = .error error) :
    table.request declaration = table := by
  rw [request, refused]
  rfl

/-- The table after several requests, refused or not. -/
def requestAll (table : Declarations) (requests : List Declaration) : Declarations :=
  requests.foldl request table

theorem Reachable.request (reachable : Reachable table) (declaration : Declaration) :
    Reachable (table.request declaration) := by
  cases outcome : table.declare declaration.name declaration.supers with
  | error error =>
      rw [request_of_error outcome]
      exact reachable
  | ok next =>
      rw [request_of_ok outcome]
      exact .declare reachable outcome

theorem Reachable.requestAll (reachable : Reachable table) (requests : List Declaration) :
    Reachable (table.requestAll requests) := by
  induction requests generalizing table with
  | nil => exact reachable
  | cons declaration requests ih => exact ih (reachable.request declaration)

/-- The tables that declaring leads to are those that any requests leave behind. -/
theorem reachable_iff_requestAll :
    Reachable table ↔ ∃ requests, table = initial.requestAll requests := by
  constructor
  · intro reachable
    induction reachable with
    | initial => exact ⟨[], rfl⟩
    | @declare table next name supers _ declared ih =>
        obtain ⟨requests, rfl⟩ := ih
        refine ⟨requests ++ [⟨name, supers⟩], ?_⟩
        rw [requestAll, List.foldl_append]
        exact (request_of_ok declared).symm
  · rintro ⟨requests, rfl⟩
    exact Reachable.initial.requestAll requests

/-! ## Names above others are declared -/

theorem isDeclared_eq_isSome (table : Declarations) (name : String) :
    table.isDeclared name = (table.supersOf? name).isSome := by
  rw [supersOf?, Option.isSome_map, List.isSome_find?]
  rfl

theorem supersOf?_of_not_isDeclared (unknown : table.isDeclared name = false) :
    table.supersOf? name = none := by
  rw [isDeclared_eq_isSome] at unknown
  exact Option.not_isSome_iff_eq_none.mp (ne_true_of_eq_false unknown)

/-- Nothing is listed above a name that is not declared. -/
theorem not_edge_of_not_isDeclared (unknown : table.isDeclared lower = false) :
    ¬ table.Edge lower upper := by
  rintro ⟨supers, declared, _⟩
  cases (supersOf?_of_not_isDeclared unknown).symm.trans declared

/-- The table knows the top, and whatever stands above a name. -/
structure Closed (table : Declarations) : Prop where
  top : table.isDeclared Ty.anyName = true
  above : ∀ lower upper, table.Edge lower upper → table.isDeclared upper = true

/-- A declaration keeps the edges of all other names. -/
theorem edge_declare_iff (declared : table.declare name supers = .ok next) (other : lower ≠ name) :
    next.Edge lower upper ↔ table.Edge lower upper := by
  obtain ⟨_, _, rfl⟩ := declare_eq_ok_iff.mp declared
  rw [Edge, supersOf?_add, if_neg other.symm, Option.or_none]
  rfl

/-- A declaration adds no edge that leads to the new name, or to an unknown one. -/
theorem Closed.isDeclared_of_edge_declare (closed : table.Closed)
    (declared : table.declare name supers = .ok next) (edge : next.Edge lower upper) :
    table.isDeclared upper = true := by
  by_cases same : lower = name
  · obtain ⟨fresh, known, rfl⟩ := declare_eq_ok_iff.mp declared
    obtain ⟨listed, found, member⟩ := edge
    rw [supersOf?_add, same, supersOf?_of_not_isDeclared fresh, Option.none_or, if_pos rfl]
      at found
    cases found
    split at member
    · rw [List.mem_singleton.mp member]
      exact closed.top
    · exact known upper member
  · exact closed.above lower upper ((edge_declare_iff declared same).mp edge)

theorem isDeclared_declare_iff (declared : table.declare name supers = .ok next) (other : String) :
    next.isDeclared other = true ↔ table.isDeclared other = true ∨ other = name := by
  obtain ⟨_, _, rfl⟩ := declare_eq_ok_iff.mp declared
  rw [isDeclared_add, Bool.or_eq_true, decide_eq_true_iff, eq_comm (a := name)]

/-- **A declaration keeps a table closed.** -/
theorem Closed.declare (closed : table.Closed) (declared : table.declare name supers = .ok next) :
    next.Closed where
  top := (isDeclared_declare_iff declared _).mpr (.inl closed.top)
  above _ upper edge := by
    have known := closed.isDeclared_of_edge_declare declared edge
    exact (isDeclared_declare_iff declared upper).mpr (.inl known)

/-- To begin with, only the top is listed above other names. -/
theorem eq_any_of_edge_initial (edge : initial.Edge lower upper) : upper = Ty.anyName := by
  obtain ⟨supers, declared, member⟩ := edge
  obtain ⟨entry, found, rfl⟩ := Option.map_eq_some_iff.mp declared
  have listed : ∀ entry ∈ initial.entries, ∀ super ∈ entry.supers, super = Ty.anyName := by
    decide
  exact listed entry (List.mem_of_find?_eq_some found) upper member

theorem closed_initial : initial.Closed where
  top := by decide
  above lower upper edge := by
    rw [eq_any_of_edge_initial edge]
    decide

theorem Reachable.closed (reachable : Reachable table) : table.Closed := by
  induction reachable with
  | initial => exact closed_initial
  | declare _ declared ih => exact ih.declare declared

/-! ## Paths after a declaration -/

/-- A path ends with an edge. -/
theorem Path.exists_last_edge (path : table.Path lower upper) :
    ∃ below, table.Edge below upper := by
  induction path with
  | edge step => exact ⟨_, step⟩
  | cons _ _ ih => exact ih

/-- A path that starts outside a name stays outside it and is a path of another table, if every edge
does and is. -/
theorem Path.transfer {first second : Declarations}
    (keeps : ∀ lower upper, lower ≠ name → first.Edge lower upper →
      second.Edge lower upper ∧ upper ≠ name)
    (path : first.Path lower upper) (other : lower ≠ name) : second.Path lower upper := by
  induction path with
  | @edge lower upper step => exact .edge (keeps lower upper other step).1
  | @cons lower middle upper step _ ih =>
      obtain ⟨kept, outside⟩ := keeps lower middle other step
      exact .cons kept (ih outside)

/-- **A declaration keeps the paths from all other names.**  None of them leads through the new
name, because nothing older lies below it. -/
theorem Closed.path_declare_iff (closed : table.Closed)
    (declared : table.declare name supers = .ok next) (other : lower ≠ name) :
    next.Path lower upper ↔ table.Path lower upper := by
  have older {upper : String} (known : table.isDeclared upper = true) : upper ≠ name := by
    rintro rfl
    cases known.symm.trans (declare_eq_ok_iff.mp declared).1
  constructor
  · intro path
    refine path.transfer (fun lower upper other step => ?_) other
    have known := closed.isDeclared_of_edge_declare declared step
    exact ⟨(edge_declare_iff declared other).mp step, older known⟩
  · intro path
    refine path.transfer (fun lower upper other step => ?_) other
    exact ⟨(edge_declare_iff declared other).mpr step, older (closed.above lower upper step)⟩

/-- No path leads to a new name. -/
theorem Closed.not_path_to_declared (closed : table.Closed)
    (declared : table.declare name supers = .ok next) : ¬ next.Path lower name := by
  intro path
  obtain ⟨below, step⟩ := path.exists_last_edge
  have fresh := (declare_eq_ok_iff.mp declared).1
  cases (closed.isDeclared_of_edge_declare declared step).symm.trans fresh

/-- **No name is above itself.** -/
theorem Reachable.not_path_self (reachable : Reachable table) (name : String) :
    ¬ table.Path name name := by
  induction reachable with
  | initial =>
      intro path
      -- a cycle would lead through the top, and nothing is above that
      obtain ⟨below, last⟩ := path.exists_last_edge
      obtain ⟨upper, first⟩ := path.exists_edge
      rw [eq_any_of_edge_initial last] at first
      exact Reachable.initial.top upper first
  | @declare table next new supers reachable declared ih =>
      intro path
      by_cases same : name = new
      · rw [same] at path
        exact reachable.closed.not_path_to_declared declared path
      · exact ih ((reachable.closed.path_declare_iff declared same).mp path)

/-! ## The laws of a partial order -/

theorem Reachable.isNominalSubtype_antisymm (reachable : Reachable table)
    (below : table.isNominalSubtype lower upper = true)
    (above : table.isNominalSubtype upper lower = true) : lower = upper := by
  rcases (table.isNominalSubtype_iff lower upper).mp below with same | rfl | path
  · exact same
  · exact reachable.eq_any_of_isNominalSubtype above
  · rcases (table.isNominalSubtype_iff upper lower).mp above with same | rfl | back
    · exact same.symm
    · exact (reachable.eq_any_of_isNominalSubtype below).symm
    · exact absurd (path.trans back) (reachable.not_path_self lower)

@[simp]
theorem isSubtype_self (table : Declarations) (type : Ty) : table.isSubtype type type = true := by
  induction type with
  | named name nullable => exact isSubtype_named_iff.mpr ⟨id, isNominalSubtype_self table name⟩
  | array element nullable ih => exact isSubtype_array_iff.mpr ⟨id, ih⟩

/-- Null is never given where it is not admitted. -/
theorem isNullable_of_isSubtype {sub super : Ty} (below : table.isSubtype sub super = true)
    (nullable : sub.isNullable = true) : super.isNullable = true := by
  unfold isSubtype at below
  cases admits : super.isNullable with
  | true => rfl
  | false => simp [nullable, admits] at below

/-- Types that are assignable to each other are the same. -/
theorem Reachable.isSubtype_antisymm (reachable : Reachable table) {first second : Ty}
    (below : table.isSubtype first second = true) (above : table.isSubtype second first = true) :
    first = second := by
  have nullable : first.isNullable = second.isNullable := by
    rw [Bool.eq_iff_iff]
    exact ⟨isNullable_of_isSubtype below, isNullable_of_isSubtype above⟩
  induction first generalizing second with
  | named name _ =>
      cases second with
      | named =>
          have same := reachable.isNominalSubtype_antisymm (isSubtype_named_iff.mp below).2
            (isSubtype_named_iff.mp above).2
          exact Ty.eq_iff_classifier_eq.mpr ⟨congrArg Classifier.named same, nullable⟩
      | array => exact absurd below not_isSubtype_named_array
  | array element _ ih =>
      cases second with
      | named => exact absurd above not_isSubtype_named_array
      | array other =>
          have lower := (isSubtype_array_iff.mp below).2
          have upper := (isSubtype_array_iff.mp above).2
          have same := ih lower upper <| Bool.eq_iff_iff.mpr
            ⟨isNullable_of_isSubtype lower, isNullable_of_isSubtype upper⟩
          exact Ty.eq_iff_classifier_eq.mpr ⟨congrArg Classifier.array same, nullable⟩

/-- The top type is above every type, as far as null is admitted. -/
theorem isSubtype_any (table : Declarations) {type : Ty} {nullable : Bool}
    (admits : type.isNullable = true → nullable = true) :
    table.isSubtype type (Ty.any.withNullable nullable) = true := by
  cases type with
  | named name _ => exact isSubtype_named_iff.mpr ⟨admits, isNominalSubtype_any table name⟩
  | array element _ => exact isSubtype_array_named_iff.mpr ⟨admits, rfl⟩

/-- **Assignability is a partial order on all types**, declared or not.  The nullable top type is
above every type, the top type above every type without null, and null is not lost on the way
up. -/
theorem Reachable.isSubtype_partialOrder (reachable : Reachable table) :
    IsPartialOrder Ty (fun sub super => table.isSubtype sub super = true) ∧
      (∀ type, table.isSubtype type Ty.any.orNull = true) ∧
      (∀ type, type.isNullable = false → table.isSubtype type .any = true) ∧
      (∀ sub super, sub.isNullable = true → super.isNullable = false →
        table.isSubtype sub super = false) := by
  refine ⟨?_, fun type => isSubtype_any table fun _ => rfl, ?_, ?_⟩
  · exact
      { refl := table.isSubtype_self
        trans := fun _ _ _ below above => reachable.isSubtype_trans below above
        antisymm := fun _ _ below above => reachable.isSubtype_antisymm below above }
  · intro type solid
    exact isSubtype_any table fun nullable => solid.symm.trans nullable
  · intro sub super nullable solid
    refine eq_false_of_ne_true fun below => ?_
    cases (isNullable_of_isSubtype below nullable).symm.trans solid

/-- Senders of messages.  Of the seven requests three are refused: a user cannot be declared again,
nor anything over itself or over an unknown name. -/
def senders : Declarations := initial.requestAll
  [⟨"Sender", []⟩, ⟨"User", ["Sender"]⟩, ⟨"Bot", ["Sender", "Sender"]⟩,
    ⟨"Member", ["User", "Bot", "Sender"]⟩, ⟨"User", ["Member"]⟩, ⟨"Ghost", ["Ghost"]⟩,
    ⟨"Guest", ["Visitor"]⟩]

/-- A member is a user and a bot, and both are senders. -/
theorem senders_partialOrder :
    Reachable senders ∧
      IsPartialOrder Ty (fun sub super => senders.isSubtype sub super = true) ∧
      (∀ type, senders.isSubtype type Ty.any.orNull = true) ∧
      (∀ type, type.isNullable = false → senders.isSubtype type .any = true) ∧
      (∀ sub super, sub.isNullable = true → super.isNullable = false →
        senders.isSubtype sub super = false) := by
  have reachable : Reachable senders := Reachable.initial.requestAll _
  exact ⟨reachable, reachable.isSubtype_partialOrder⟩

end Declarations

end OverloadResolution
