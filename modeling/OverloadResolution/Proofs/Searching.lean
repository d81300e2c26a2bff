import Mathlib.Logic.Function.Iterate
import OverloadResolution.Proofs.Ordering

/-!
# The search for a name above another, turn by turn

The search takes one name off its worklist at each turn, and it may put several others on.  A name
can wait many times over, because it is looked up in the expanded names only when it is taken off.
So the worklist alone does not shrink, nor do the names that are not expanded yet.  What shrinks
with every turn is the two together: a name that is expanded for the first time takes with it the
declaration that pays for the names it puts on the worklist (`Search.potential_turn_lt`).

No turn changes what the search will answer (`Search.answer_turn`).  Hence the search is over after
as many turns as there are declared names and edges, and two more, and it then knows whether
declared edges lead to the goal (`Search.iterate_turn`, `search_decides`).  None of this asks for
more than a table: the lists of names above a name may repeat names, meet again further up, or lead
to names that are not declared.
-/

set_option autoImplicit false

namespace OverloadResolution

namespace Declarations

/-- Where the search stands before a turn, or what it has found out. -/
inductive Search where
  | looking (worklist expanded : List String)
  | done (found : Bool)
deriving DecidableEq, Repr

namespace Search

variable {table : Declarations} {goal : String}

/-- One turn of the search.  The name that waits in front is skipped if it was expanded before. -/
def turn (table : Declarations) (goal : String) : Search → Search
  | .done found => .done found
  | .looking [] _ => .done false
  | .looking (current :: rest) expanded =>
    if current ∈ expanded then .looking rest expanded
    else
      match table.supersOf? current with
      | none => .looking rest (current :: expanded)
      | some supers =>
        if goal ∈ supers then .done true
        else .looking (supers.reverse ++ rest) (current :: expanded)

/-- What the search will answer. -/
def answer (table : Declarations) (goal : String) : Search → Bool
  | .done found => found
  | .looking worklist expanded => table.searchAbove goal worklist expanded

/-- How many turns are left at most: one for each name that waits or can still come to wait, and one
to see that none does. -/
def potential (table : Declarations) : Search → Nat
  | .done _ => 0
  | .looking worklist expanded => unexpanded expanded table.entries + worklist.length + 1

/-- **No turn changes what the search will answer.** -/
theorem answer_turn (table : Declarations) (goal : String) (search : Search) :
    answer table goal (turn table goal search) = answer table goal search := by
  cases search with
  | done found => rfl
  | looking worklist expanded =>
      cases worklist with
      | nil => simp [turn, answer, searchAbove]
      | cons current rest =>
          rw [turn, answer, searchAbove]
          by_cases seen : current ∈ expanded
          · simp [seen, answer]
          · cases found : table.entries.find? fun entry => entry.name = current with
            | none => simp [seen, supersOf?, found, answer]
            | some entry =>
                by_cases above : goal ∈ entry.supers
                · simp [seen, supersOf?, found, above, answer]
                · simp [seen, supersOf?, found, above, answer]

/-- **Every turn of a search that is not over takes one off the turns that are left.** -/
theorem potential_turn_lt (table : Declarations) (goal : String)
    (worklist expanded : List String) :
    potential table (turn table goal (.looking worklist expanded)) <
      potential table (.looking worklist expanded) := by
  cases worklist with
  | nil => simp [turn, potential]
  | cons current rest =>
      rw [turn]
      by_cases seen : current ∈ expanded
      · simp [seen, potential]
      · have fewer := unexpanded_cons_le table.entries current expanded
        cases found : table.entries.find? fun entry => entry.name = current with
        | none =>
            simp only [seen, supersOf?, found, Option.map_none, if_false, potential,
              List.length_cons]
            omega
        | some entry =>
            have paid := unexpanded_cons_add_le found seen
            by_cases above : goal ∈ entry.supers
            · simp [seen, supersOf?, found, above, potential]
            · simp only [seen, supersOf?, found, above, Option.map_some, if_false, potential,
                List.length_append, List.length_reverse, List.length_cons]
              omega

/-- **After the turns that are left the search is over**, with the answer it was bound to give, and
further turns change nothing. -/
theorem iterate_turn {turns : Nat} {search : Search} (enough : potential table search ≤ turns) :
    (turn table goal)^[turns] search = .done (answer table goal search) := by
  induction turns generalizing search with
  | zero =>
      cases search with
      | done found => rfl
      | looking worklist expanded => simp [potential] at enough
  | succ turns ih =>
      rw [Function.iterate_succ_apply, ← answer_turn]
      apply ih
      cases search with
      | done found => exact Nat.zero_le turns
      | looking worklist expanded =>
          have fewer := potential_turn_lt table goal worklist expanded
          omega

end Search

/-- The declared names and the declared edges of a table, counted together. -/
def size (table : Declarations) : Nat := unexpanded [] table.entries

/-- No path leads from a name that is not declared. -/
theorem not_path_of_not_isDeclared {table : Declarations} {name upper : String}
    (unknown : table.isDeclared name = false) : ¬ table.Path name upper := by
  intro path
  obtain ⟨next, step⟩ := path.exists_edge
  exact not_edge_of_not_isDeclared unknown step

/-- **The search for a name above another comes to an end, and decides whether there is a path.**
This holds of every table, so of all that requests to declare lead to. -/
theorem search_decides (table : Declarations) :
    -- the loop is over after so many turns, and knows whether declared edges lead to the goal
    (∀ sub super turns, table.size + 2 ≤ turns →
      ∃ found, (Search.turn table super)^[turns] (.looking [sub] []) = .done found ∧
        (found = true ↔ table.Path sub super) ∧
        table.isNominalSubtype sub super =
          (decide (sub = super) || decide (super = Ty.anyName) || found)) ∧
      (∀ sub super, table.isNominalSubtype sub super = true ↔
        super = Ty.anyName ∨ sub = super ∨ table.Path sub super) ∧
      -- a name that is not declared lies below itself and the top only
      (∀ name, table.isDeclared name = false →
        ∀ super, table.isNominalSubtype name super = true ↔
          super = name ∨ super = Ty.anyName) := by
  refine ⟨?terminates, ?decides, ?undeclared⟩
  case terminates =>
    intro sub super turns enough
    refine ⟨table.searchAbove super [sub] [], ?_, table.searchAbove_iff_path sub super, rfl⟩
    apply Search.iterate_turn
    exact enough
  case decides =>
    intro sub super
    rw [isNominalSubtype_iff]
    exact or_left_comm
  case undeclared =>
    intro name unknown super
    rw [isNominalSubtype_iff, eq_comm (a := name)]
    simp only [not_path_of_not_isDeclared unknown, or_false]

/-- A member is a sender by three ways, one of them listed twice; a visitor was never declared. -/
example :
    let table := (((initial.add "Sender" []).add "User" ["Sender"]).add
      "Bot" ["Sender", "Sender"]).add "Member" ["User", "Bot", "Sender"]
    table.isNominalSubtype "Member" "Sender" = true ∧
      table.isNominalSubtype "Visitor" "Sender" = false := by
  decide +kernel

end Declarations

end OverloadResolution
