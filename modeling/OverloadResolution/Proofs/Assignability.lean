import OverloadResolution.Declarations

/-!
# Assignability

The search for a name above another finds one exactly when declared edges lead there
(`Declarations.searchAbove_iff_path`).  Soundness follows the search.  For completeness it keeps an
invariant on the names that it has expanded: none of them lies directly below the goal, and all
names above them are expanded or waiting (`Declarations.Explored`).  When nothing waits any more, no
path can leave the expanded names, so none leads to the goal.

So assignability of names is the reflexive and transitive closure of the declared edges, with the
top name put above everything.  That alone does not make it transitive: a name above the top would
have to be above all others too.  No table that grew by declaring has one, because the top name is
declared to begin with and is never declared again (`Declarations.Reachable.top`).
-/

set_option autoImplicit false

namespace OverloadResolution

namespace Declarations

variable {table : Declarations} {lower upper goal name : String}

/-! ## Declared edges -/

theorem edge_iff_of_find? {entry : Declaration}
    (found : (table.entries.find? fun entry => entry.name = lower) = some entry) :
    table.Edge lower upper ↔ upper ∈ entry.supers := by
  simp [Edge, supersOf?, found]

theorem not_edge_of_find? (missing : (table.entries.find? fun entry => entry.name = lower) = none) :
    ¬ table.Edge lower upper := by
  simp [Edge, supersOf?, missing]

/-- A path can be followed by another one. -/
theorem Path.trans {first middle last : String} (path : table.Path first middle)
    (rest : table.Path middle last) : table.Path first last := by
  induction path with
  | edge step => exact .cons step rest
  | cons step _ ih => exact .cons step (ih rest)

/-- A path begins with an edge. -/
theorem Path.exists_edge (path : table.Path lower upper) : ∃ next, table.Edge lower next := by
  cases path with
  | edge step => exact ⟨upper, step⟩
  | cons step _ => exact ⟨_, step⟩

/-! ## The search is sound and complete -/

/-- What is found lies above some waiting name. -/
theorem path_of_searchAbove {worklist expanded : List String}
    (found : table.searchAbove goal worklist expanded = true) :
    ∃ name ∈ worklist, table.Path name goal := by
  fun_induction searchAbove table goal worklist expanded with
  | case1 => cases found
  | case2 expanded current rest seen ih =>
      obtain ⟨name, member, path⟩ := ih found
      exact ⟨name, List.mem_cons_of_mem current member, path⟩
  | case3 expanded current rest fresh missing ih =>
      obtain ⟨name, member, path⟩ := ih found
      exact ⟨name, List.mem_cons_of_mem current member, path⟩
  | case4 expanded current rest fresh entry declared above =>
      exact ⟨current, List.mem_cons_self, .edge ((edge_iff_of_find? declared).mpr above)⟩
  | case5 expanded current rest fresh entry declared other ih =>
      obtain ⟨name, member, path⟩ := ih found
      rcases List.mem_append.mp member with super | waiting
      · have step := (edge_iff_of_find? declared).mpr (List.mem_reverse.mp super)
        exact ⟨current, List.mem_cons_self, .cons step path⟩
      · exact ⟨name, List.mem_cons_of_mem current waiting, path⟩

/-- What the search knows of the names it has expanded: the goal is not directly above any of them,
and the names that are have been expanded or are waiting. -/
def Explored (table : Declarations) (goal : String) (worklist expanded : List String) : Prop :=
  ∀ lower ∈ expanded, ∀ upper, table.Edge lower upper →
    upper ≠ goal ∧ (upper ∈ expanded ∨ upper ∈ worklist)

namespace Explored

variable {current : String} {rest expanded : List String}

/-- A name that is expanded already need not wait. -/
theorem skip (explored : table.Explored goal (current :: rest) expanded)
    (seen : current ∈ expanded) : table.Explored goal rest expanded := by
  intro lower member upper step
  obtain ⟨other, covered⟩ := explored lower member upper step
  refine ⟨other, covered.elim .inl fun waiting => ?_⟩
  rcases List.mem_cons.mp waiting with rfl | waiting
  · exact .inl seen
  · exact .inr waiting

/-- A name is expanded by putting the names above it on the worklist. -/
theorem expand (explored : table.Explored goal (current :: rest) expanded)
    (supers : List String)
    (above : ∀ upper, table.Edge current upper → upper ≠ goal ∧ upper ∈ supers) :
    table.Explored goal (supers ++ rest) (current :: expanded) := by
  intro lower member upper step
  rcases List.mem_cons.mp member with rfl | member
  · obtain ⟨other, pushed⟩ := above upper step
    exact ⟨other, .inr (List.mem_append_left rest pushed)⟩
  · obtain ⟨other, covered⟩ := explored lower member upper step
    refine ⟨other, ?_⟩
    rcases covered with seen | waiting
    · exact .inl (List.mem_cons_of_mem current seen)
    · rcases List.mem_cons.mp waiting with rfl | waiting
      · exact .inl List.mem_cons_self
      · exact .inr (List.mem_append_right supers waiting)

/-- When nothing waits, the goal is not above any expanded name. -/
theorem not_path (explored : table.Explored goal [] expanded) :
    ∀ name ∈ expanded, ¬ table.Path name goal := by
  intro name member path
  induction path with
  | edge step => exact (explored _ member _ step).1 rfl
  | cons step _ ih =>
      rcases (explored _ member _ step).2 with seen | waiting
      · exact ih explored seen
      · cases waiting

end Explored

/-- What is not found lies above no waiting name. -/
theorem not_path_of_searchAbove {worklist expanded : List String}
    (explored : table.Explored goal worklist expanded)
    (missed : table.searchAbove goal worklist expanded = false) :
    ∀ name, name ∈ worklist ∨ name ∈ expanded → ¬ table.Path name goal := by
  fun_induction searchAbove table goal worklist expanded with
  | case1 expanded =>
      rintro name (waiting | seen)
      · cases waiting
      · exact explored.not_path name seen
  | case2 expanded current rest seen ih =>
      rintro name (waiting | member)
      · rcases List.mem_cons.mp waiting with rfl | waiting
        · exact ih (explored.skip seen) missed name (.inr seen)
        · exact ih (explored.skip seen) missed name (.inl waiting)
      · exact ih (explored.skip seen) missed name (.inr member)
  | case3 expanded current rest fresh missing ih =>
      have next := explored.expand [] fun upper step =>
        absurd step (not_edge_of_find? missing)
      intro name member
      exact ih next missed name (by grind)
  | case4 => cases missed
  | case5 expanded current rest fresh entry declared other ih =>
      have next := explored.expand entry.supers.reverse fun upper step => by
        have super := (edge_iff_of_find? declared).mp step
        exact ⟨fun same => other (same ▸ super), List.mem_reverse.mpr super⟩
      intro name member
      exact ih next missed name (by grind)

/-- **The search finds a name exactly when declared edges lead to it.** -/
theorem searchAbove_iff_path (table : Declarations) (lower upper : String) :
    table.searchAbove upper [lower] [] = true ↔ table.Path lower upper := by
  constructor
  · intro found
    obtain ⟨name, member, path⟩ := path_of_searchAbove found
    obtain rfl := List.mem_singleton.mp member
    exact path
  · intro path
    refine eq_true_of_ne_false fun missed => ?_
    have explored : table.Explored upper [lower] [] := fun _ member => by cases member
    exact not_path_of_searchAbove explored missed lower (.inl List.mem_cons_self) path

/-- Assignability of names without the search. -/
theorem isNominalSubtype_iff (table : Declarations) (lower upper : String) :
    table.isNominalSubtype lower upper = true ↔
      lower = upper ∨ upper = Ty.anyName ∨ table.Path lower upper := by
  simp [isNominalSubtype, searchAbove_iff_path, or_assoc]

/-- No path leads to a name that is not listed above any other. -/
theorem not_path_of_unlisted (unlisted : ∀ entry ∈ table.entries, upper ∉ entry.supers) :
    ¬ table.Path lower upper := by
  intro path
  induction path with
  | edge step =>
      obtain ⟨supers, declared, member⟩ := step
      obtain ⟨entry, found, rfl⟩ := Option.map_eq_some_iff.mp declared
      exact unlisted entry (List.mem_of_find?_eq_some found) member
  | cons _ _ ih => exact ih unlisted

/-- Below a name that is not listed above any other there is only the name itself, unless it is the
top. -/
theorem eq_of_isNominalSubtype_of_unlisted
    (unlisted : ∀ entry ∈ table.entries, upper ∉ entry.supers) (proper : upper ≠ Ty.anyName)
    (below : table.isNominalSubtype lower upper = true) : lower = upper := by
  rcases (table.isNominalSubtype_iff lower upper).mp below with same | top | path
  · exact same
  · exact absurd top proper
  · exact absurd path (not_path_of_unlisted unlisted)

/-! ## Tables that grew by declaring -/

theorem supersOf?_add (table : Declarations) (name other : String) (supers : List String) :
    (table.add name supers).supersOf? other =
      (table.supersOf? other).or
        (if name = other then some (if supers.isEmpty then [Ty.anyName] else supers)
          else none) := by
  rw [supersOf?, add, List.find?_append, Option.map_or]
  by_cases same : name = other <;> simp [supersOf?, same]

/-- Declaring succeeds for a fresh name over declared names, and adds it. -/
theorem declare_eq_ok_iff {next : Declarations} {supers : List String} :
    table.declare name supers = .ok next ↔
      table.isDeclared name = false ∧ (∀ super ∈ supers, table.isDeclared super = true) ∧
        next = table.add name supers := by
  unfold declare
  cases fresh : table.isDeclared name with
  | true => simp
  | false =>
      cases unknown : supers.find? fun super => !table.isDeclared super with
      | none =>
          have known : ∀ super ∈ supers, table.isDeclared super = true := by
            simpa using List.find?_eq_none.mp unknown
          constructor
          · intro declared
            cases declared
            exact ⟨rfl, known, rfl⟩
          · rintro ⟨_, _, rfl⟩
            rfl
      | some super =>
          have undeclared : table.isDeclared super = false := by
            simpa using List.find?_some unknown
          refine iff_of_false (fun declared => by cases declared) ?_
          rintro ⟨_, known, _⟩
          cases undeclared.symm.trans (known super (List.mem_of_find?_eq_some unknown))

/-- The top name is declared, with nothing above it. -/
theorem Reachable.supersOf?_any (reachable : Reachable table) :
    table.supersOf? Ty.anyName = some [] := by
  induction reachable with
  | initial => rfl
  | declare _ declared ih =>
      obtain ⟨_, _, rfl⟩ := declare_eq_ok_iff.mp declared
      rw [supersOf?_add, ih, Option.some_or]

/-- No edge leads from the top. -/
theorem Reachable.top (reachable : Reachable table) (upper : String) :
    ¬ table.Edge Ty.anyName upper := by
  rintro ⟨supers, declared, member⟩
  cases reachable.supersOf?_any.symm.trans declared
  cases member

/-- Only the top name is above the top. -/
theorem Reachable.eq_any_of_isNominalSubtype (reachable : Reachable table)
    (above : table.isNominalSubtype Ty.anyName upper = true) : upper = Ty.anyName := by
  rcases (table.isNominalSubtype_iff Ty.anyName upper).mp above with same | top | path
  · exact same.symm
  · exact top
  · obtain ⟨next, step⟩ := path.exists_edge
    exact absurd step (reachable.top next)

/-- **Assignability of names is transitive.** -/
theorem Reachable.isNominalSubtype_trans (reachable : Reachable table)
    {first middle last : String} (below : table.isNominalSubtype first middle = true)
    (above : table.isNominalSubtype middle last = true) :
    table.isNominalSubtype first last = true := by
  rcases (table.isNominalSubtype_iff first middle).mp below with rfl | rfl | path
  · exact above
  · rw [reachable.eq_any_of_isNominalSubtype above]
    exact isNominalSubtype_any table first
  · refine (table.isNominalSubtype_iff first last).mpr ?_
    rcases (table.isNominalSubtype_iff middle last).mp above with rfl | top | rest
    · exact .inr (.inr path)
    · exact .inr (.inl top)
    · exact .inr (.inr (path.trans rest))

/-! ## Assignability of types -/

section Types

variable {name superName : String} {element superElement : Ty} {nullable superNullable : Bool}

theorem isSubtype_named_iff :
    table.isSubtype (.named name nullable) (.named superName superNullable) = true ↔
      (nullable = true → superNullable = true) ∧ table.isNominalSubtype name superName = true := by
  cases nullable <;> cases superNullable <;> simp [isSubtype, Ty.isNullable]

theorem isSubtype_array_iff :
    table.isSubtype (.array element nullable) (.array superElement superNullable) = true ↔
      (nullable = true → superNullable = true) ∧ table.isSubtype element superElement = true := by
  cases nullable <;> cases superNullable <;> simp [isSubtype, Ty.isNullable]

theorem isSubtype_array_named_iff :
    table.isSubtype (.array element nullable) (.named superName superNullable) = true ↔
      (nullable = true → superNullable = true) ∧ superName = Ty.anyName := by
  cases nullable <;> cases superNullable <;> simp [isSubtype, Ty.isNullable]

theorem not_isSubtype_named_array :
    ¬ table.isSubtype (.named name nullable) (.array superElement superNullable) = true := by
  cases nullable <;> cases superNullable <;> simp [isSubtype, Ty.isNullable]

end Types

/-- **Assignability is transitive.** -/
theorem Reachable.isSubtype_trans (reachable : Reachable table) {first middle last : Ty}
    (below : table.isSubtype first middle = true) (above : table.isSubtype middle last = true) :
    table.isSubtype first last = true := by
  induction first generalizing middle last with
  | named name nullable =>
      cases middle with
      | array => exact absurd below not_isSubtype_named_array
      | named =>
          cases last with
          | array => exact absurd above not_isSubtype_named_array
          | named =>
              obtain ⟨admits, lower⟩ := isSubtype_named_iff.mp below
              obtain ⟨admitsToo, upper⟩ := isSubtype_named_iff.mp above
              exact isSubtype_named_iff.mpr
                ⟨admitsToo ∘ admits, reachable.isNominalSubtype_trans lower upper⟩
  | array element nullable ih =>
      cases middle with
      | named =>
          -- only the top name is above an array, and nothing else is above the top name
          obtain ⟨admits, rfl⟩ := isSubtype_array_named_iff.mp below
          cases last with
          | array => exact absurd above not_isSubtype_named_array
          | named =>
              obtain ⟨admitsToo, upper⟩ := isSubtype_named_iff.mp above
              exact isSubtype_array_named_iff.mpr
                ⟨admitsToo ∘ admits, reachable.eq_any_of_isNominalSubtype upper⟩
      | array =>
          obtain ⟨admits, lower⟩ := isSubtype_array_iff.mp below
          cases last with
          | named =>
              obtain ⟨admitsToo, top⟩ := isSubtype_array_named_iff.mp above
              exact isSubtype_array_named_iff.mpr ⟨admitsToo ∘ admits, top⟩
          | array =>
              obtain ⟨admitsToo, upper⟩ := isSubtype_array_iff.mp above
              exact isSubtype_array_iff.mpr ⟨admitsToo ∘ admits, ih lower upper⟩

end Declarations

end OverloadResolution
