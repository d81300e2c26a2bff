import OverloadResolution.Proofs.Agreement
import OverloadResolution.Proofs.Ordering

/-!
# Declaring is conservative

What a type is assignable to is read off the names above its innermost name alone
(`Declarations.isSubtype_mono`).  A declaration keeps the paths from all other names, and the new
name had nothing above it before, so nothing that was assignable ceases to be, and only types over
the new name can become assignable to more (`Declarations.Reachable.isSubtype_request`,
`Declarations.Reachable.isSubtype_request_of_ne`).

Resolving asks for what is above the types of the caller, the arguments, the offers and the
parameters.  The types of receivers and the keys of registries only ever stand above these, so they
may be built from the new name without a difference.  A call and overloads that keep clear of the
name are therefore resolved as before (`Declarations.Reachable.conservative`).
-/

set_option autoImplicit false

namespace OverloadResolution

/-- No type that a call brings is the named type, or an array over it. -/
structure Call.Avoids (call : Call) (name : String) : Prop where
  caller : call.caller.type.innermost ≠ name
  contents : ∀ argument ∈ call.arguments, argument.content.type.innermost ≠ name
  offers : ∀ argument ∈ call.arguments, ∀ offer ∈ argument.offers, offer.out.innermost ≠ name

/-- No parameter is of the named type, or of arrays over it. -/
def Overload.Avoids (overload : Overload) (name : String) : Prop :=
  ∀ parameter ∈ overload.parameters, parameter.type.innermost ≠ name

namespace Declarations

variable {table next : Declarations} {name lower upper : String} {supers : List String}
  {sub super : Ty}

/-! ## Refusals -/

/-- A request is refused when its name is declared already, or something that is to stand above it
is not declared. -/
theorem declare_error_iff :
    (∃ error, table.declare name supers = .error error) ↔
      table.isDeclared name = true ∨ ∃ super ∈ supers, table.isDeclared super = false := by
  constructor
  · rintro ⟨error, refused⟩
    by_contra admissible
    obtain ⟨fresh, known⟩ := not_or.mp admissible
    have accepted : table.declare name supers = .ok (table.add name supers) :=
      declare_eq_ok_iff.mpr ⟨eq_false_of_ne_true fresh,
        fun super member => eq_true_of_ne_false fun unknown => known ⟨super, member, unknown⟩, rfl⟩
    cases refused.symm.trans accepted
  · intro inadmissible
    cases outcome : table.declare name supers with
    | error error => exact ⟨error, rfl⟩
    | ok next =>
        obtain ⟨fresh, known, _⟩ := declare_eq_ok_iff.mp outcome
        rcases inadmissible with taken | ⟨super, member, unknown⟩
        · cases fresh.symm.trans taken
        · cases unknown.symm.trans (known super member)

/-- Nothing can be declared above itself. -/
theorem exists_error_of_mem (self : name ∈ supers) :
    ∃ error, table.declare name supers = .error error := by
  refine declare_error_iff.mpr ?_
  cases taken : table.isDeclared name with
  | true => exact .inl rfl
  | false => exact .inr ⟨name, self, taken⟩

/-! ## Assignability after a request -/

/-- Whatever is kept above the innermost name of a type is kept above the type. -/
theorem isSubtype_mono
    (kept : ∀ upper, table.isNominalSubtype sub.innermost upper = true →
      next.isNominalSubtype sub.innermost upper = true)
    (below : table.isSubtype sub super = true) : next.isSubtype sub super = true := by
  induction sub generalizing super with
  | named name nullable =>
      cases super with
      | array => exact absurd below not_isSubtype_named_array
      | named =>
          obtain ⟨admits, lower⟩ := isSubtype_named_iff.mp below
          exact isSubtype_named_iff.mpr ⟨admits, kept _ lower⟩
  | array element nullable ih =>
      cases super with
      | named => exact isSubtype_array_named_iff.mpr (isSubtype_array_named_iff.mp below)
      | array =>
          obtain ⟨admits, lower⟩ := isSubtype_array_iff.mp below
          exact isSubtype_array_iff.mpr ⟨admits, ih kept lower⟩

/-- A declaration changes nothing above other names. -/
theorem Closed.isNominalSubtype_declare_iff (closed : table.Closed)
    (declared : table.declare name supers = .ok next) (other : lower ≠ name) :
    next.isNominalSubtype lower upper = true ↔ table.isNominalSubtype lower upper = true := by
  rw [isNominalSubtype_iff, isNominalSubtype_iff, closed.path_declare_iff declared other]

/-- A declaration keeps what is above any name; nothing was listed above the new one. -/
theorem Closed.isNominalSubtype_declare (closed : table.Closed)
    (declared : table.declare name supers = .ok next)
    (below : table.isNominalSubtype lower upper = true) :
    next.isNominalSubtype lower upper = true := by
  by_cases same : lower = name
  · have fresh := (declare_eq_ok_iff.mp declared).1
    rw [isNominalSubtype_iff] at below ⊢
    refine below.imp id (Or.imp id fun path => ?_)
    obtain ⟨_, step⟩ := path.exists_edge
    rw [same] at step
    exact absurd step (not_edge_of_not_isDeclared fresh)
  · exact (closed.isNominalSubtype_declare_iff declared same).mpr below

/-- **A request keeps what is assignable.** -/
theorem Reachable.isSubtype_request (reachable : Reachable table) (declaration : Declaration)
    (below : table.isSubtype sub super = true) :
    (table.request declaration).isSubtype sub super = true := by
  cases outcome : table.declare declaration.name declaration.supers with
  | error error =>
      rw [request_of_error outcome]
      exact below
  | ok next =>
      rw [request_of_ok outcome]
      exact isSubtype_mono (fun _ => reachable.closed.isNominalSubtype_declare outcome) below

/-- **A request changes no answer about types over other names.** -/
theorem Reachable.isSubtype_request_of_ne (reachable : Reachable table) {declaration : Declaration}
    (other : sub.innermost ≠ declaration.name) (super : Ty) :
    (table.request declaration).isSubtype sub super = table.isSubtype sub super := by
  refine Bool.eq_iff_iff.mpr ⟨fun below => ?_, reachable.isSubtype_request declaration⟩
  cases outcome : table.declare declaration.name declaration.supers with
  | error error =>
      rw [request_of_error outcome] at below
      exact below
  | ok next =>
      rw [request_of_ok outcome] at below
      exact isSubtype_mono
        (fun _ => (reachable.closed.isNominalSubtype_declare_iff outcome other).mp) below

end Declarations

/-! ## Calls in tables that agree -/

/-- A lookup asks only for what is above the type it is for. -/
theorem Registry.lookup_congr {table next : Declarations} {expected : Ty}
    (same : ∀ super, next.isSubtype expected.nonNull super = table.isSubtype expected.nonNull super)
    (registry : Registry) : registry.lookup next expected = registry.lookup table expected := by
  have admitted (list : List Entry) :
      compatible? next list expected = compatible? table list expected := by
    simp only [compatible?, same]
  induction registry with
  | empty => rfl
  | entries list => simp only [lookup, admitted]
  | layered base overrides baseIh overridesIh => simp only [lookup, baseIh, overridesIh]
  | overlay base list ih => simp only [lookup, admitted, ih]

namespace Scope

variable {table next : Declarations} {registry : Option Registry} {argument : Argument}

/-- A fit asks only for what is above the types of the argument and its offers, and above the type
that is expected. -/
theorem fitType_congr {expected : Ty}
    (content : ∀ super, next.isSubtype argument.content.type super =
      table.isSubtype argument.content.type super)
    (offers : ∀ offer ∈ argument.offers, ∀ super,
      next.isSubtype offer.out super = table.isSubtype offer.out super)
    (same : ∀ super, next.isSubtype expected.nonNull super =
      table.isSubtype expected.nonNull super) :
    fitType ⟨next, registry⟩ expected argument = fitType ⟨table, registry⟩ expected argument := by
  have answers : argument.offers.map (fun offer => next.isSubtype offer.out expected) =
      argument.offers.map (fun offer => table.isSubtype offer.out expected) :=
    List.map_congr_left fun offer member => offers offer member expected
  have suitable : argument.offers.findIdx? (fun offer => next.isSubtype offer.out expected) =
      argument.offers.findIdx? (fun offer => table.isSubtype offer.out expected) := by
    simpa only [List.findIdx?_map, Function.comp_def, id] using congrArg (List.findIdx? id) answers
  have readers : reader? ⟨next, registry⟩ expected = reader? ⟨table, registry⟩ expected := by
    simp only [reader?, Registry.lookup_congr same]
  unfold fitType
  rw [content, suitable, readers]

variable {call : Call} {overload : Overload} {declaration : Declaration}

/-- An overload that keeps clear of a name is assessed as before against a call that does, too. -/
theorem assess_request (reachable : Declarations.Reachable table)
    (clear : call.Avoids declaration.name) (apart : overload.Avoids declaration.name) :
    assess ⟨table.request declaration, registry⟩ call overload =
      assess ⟨table, registry⟩ call overload := by
  refine assess_congr ?_ (takings_congr ?_)
  · intro receiver _
    exact reachable.isSubtype_request_of_ne clear.caller receiver.type
  · intro index argument parameter given taken
    have argued := List.mem_of_getElem? given
    have fits (expected : Ty) (other : expected.innermost ≠ declaration.name) :
        fitType ⟨table.request declaration, registry⟩ expected argument =
          fitType ⟨table, registry⟩ expected argument := by
      refine fitType_congr ?_ ?_ ?_
      · exact reachable.isSubtype_request_of_ne (clear.contents argument argued)
      · intro offer member
        exact reachable.isSubtype_request_of_ne (clear.offers argument argued offer member)
      · refine reachable.isSubtype_request_of_ne ?_
        rwa [Ty.nonNull, Ty.innermost_withNullable]
    have other := apart parameter (List.mem_of_getElem? taken)
    cases parameter with
    | positional => exact fits _ other
    | vararg => exact fits _ other
    | keyword => rfl

end Scope

namespace Declarations

/-- What a request to declare a name changes, and what it does not. -/
structure Conservative (table : Declarations) (declaration : Declaration) : Prop where
  /-- A request is refused if its name is declared already, or something that is to stand above it
  is not declared, and not otherwise. -/
  refused_iff : (∃ error, table.declare declaration.name declaration.supers = .error error) ↔
    table.isDeclared declaration.name = true ∨
      ∃ super ∈ declaration.supers, table.isDeclared super = false
  /-- It is refused if its name is to stand above itself. -/
  overItself : declaration.name ∈ declaration.supers →
    ∃ error, table.declare declaration.name declaration.supers = .error error
  /-- A refused request changes no answer. -/
  refused : ∀ error, table.declare declaration.name declaration.supers = .error error →
    (table.request declaration).isDeclared = table.isDeclared ∧
      (table.request declaration).isSubtype = table.isSubtype
  /-- An accepted one declares its name, which was new, and no other. -/
  accepted : ∀ next, table.declare declaration.name declaration.supers = .ok next →
    table.request declaration = next ∧ table.isDeclared declaration.name = false ∧
      ∀ other, next.isDeclared other = true ↔
        table.isDeclared other = true ∨ other = declaration.name
  /-- What was assignable stays so. -/
  kept : ∀ sub super, table.isSubtype sub super = true →
    (table.request declaration).isSubtype sub super = true
  /-- Only the types over the name can become assignable to more. -/
  unchanged : ∀ sub super, sub.innermost ≠ declaration.name →
    (table.request declaration).isSubtype sub super = table.isSubtype sub super
  /-- A call and overloads that keep clear of the name are resolved as before, with any readers. -/
  resolved : ∀ (registry : Option Registry) (settings : Settings) (token : Token) (call : Call)
    (overloads : List Overload) (world : World), call.Avoids declaration.name →
      (∀ overload ∈ overloads, overload.Avoids declaration.name) →
        Scope.resolve ⟨table.request declaration, registry⟩ settings token call overloads world =
          Scope.resolve ⟨table, registry⟩ settings token call overloads world

/-- **Declaring is conservative.** -/
theorem Reachable.conservative {table : Declarations} (reachable : Reachable table)
    (declaration : Declaration) : table.Conservative declaration where
  refused_iff := declare_error_iff
  overItself := exists_error_of_mem
  refused error refused := by
    rw [request_of_error refused]
    exact ⟨rfl, rfl⟩
  accepted next accepted :=
    ⟨request_of_ok accepted, (declare_eq_ok_iff.mp accepted).1, isDeclared_declare_iff accepted⟩
  kept _ _ := reachable.isSubtype_request declaration
  unchanged _ super other := reachable.isSubtype_request_of_ne other super
  resolved _ _ _ _ _ _ clear apart :=
    Scope.resolve_congr fun overload member =>
      Scope.assess_request reachable clear (apart overload member)

/-- Levels are declared as integers.  Before, an array of levels was no array of integers. -/
theorem levels_conservative :
    Reachable initial ∧ initial.Conservative ⟨"Level", ["Int"]⟩ ∧
      initial.isSubtype (.arrayOf (.named "Level" false)) (.arrayOf .int) = false ∧
      (initial.request ⟨"Level", ["Int"]⟩).isSubtype (.arrayOf (.named "Level" false))
        (.arrayOf .int) = true :=
  ⟨.initial, Reachable.initial.conservative _, by decide +kernel, by decide +kernel⟩

end Declarations

end OverloadResolution
