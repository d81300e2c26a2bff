import OverloadResolution.Proofs.Cancellation
import OverloadResolution.Proofs.Typing

/-!
# Calls whose arguments are tokens

A call that comes in as text brings tokens and nothing else.  When every reader of the scope is a
function of the token (`Scope.IsPlain`), what such a call comes to can be said without a record of
what has run: an argument becomes the token itself or what its reader makes of the token
(`Fit.Makes`), and the parameters of an overload are given values from the tokens one after another
(`Scope.Gives`).

Resolving then leaves the world as it is (`Scope.resolve_world_of_plain`).  Where at most one
overload matches (`Scope.Exclusive`) it is never ambiguous, and it succeeds exactly when the tokens
give values to the parameters of some overload that admits the caller
(`Scope.resolves_iff_gives`).
-/

set_option autoImplicit false

namespace OverloadResolution

/-- A reader that is a function of the token. -/
def Reader.IsPlain (reader : Reader) : Prop := ∃ label read, reader = .ofFunction label read

/-- What becomes of a token, by the way in which it fits. -/
inductive Fit.Makes (raw : String) : Fit → Except Diagnostic Value → Prop where
  | asIs : Makes raw .asIs (.ok (.string raw))
  | read (label : String) (read : String → Except Diagnostic Value) :
      Makes raw (.read (some (.ofFunction label read))) (read raw)

/-- What becomes of a used argument that is a token. -/
def Use.Makes (use : Use) (answer : Except Diagnostic Value) : Prop :=
  ∃ raw, use.argument = .ofToken raw ∧ use.fit.Makes raw answer

namespace Scope

/-- Every reader that is ever used is a function of the token. -/
def IsPlain (scope : Scope) : Prop :=
  ∀ expected reader, scope.reader? expected = some reader → reader.IsPlain

/-- The value that a parameter takes a token for. -/
def Takes (scope : Scope) (parameter : Parameter) (raw : String) (value : Value) : Prop :=
  (scope.fit parameter (.ofToken raw)).Makes raw (.ok value)

/-- The values that tokens give to parameters. -/
inductive Gives (scope : Scope) : List Parameter → List String → List Value → Prop where
  | nil : Gives scope [] [] []
  | one {parameter : Parameter} {parameters : List Parameter} {raw : String}
      {tokens : List String} {value : Value} {values : List Value}
      (single : parameter.isVararg = false) (taken : scope.Takes parameter raw value)
      (rest : Gives scope parameters tokens values) :
      Gives scope (parameter :: parameters) (raw :: tokens) (value :: values)
  | many {parameter : Parameter} {parameters : List Parameter} {tokens : List String}
      {elements values : List Value} (vararg : parameter.isVararg = true)
      (taken : List.Forall₂ (scope.Takes parameter) tokens elements)
      (rest : Gives scope parameters [] values) :
      Gives scope (parameter :: parameters) tokens (.array parameter.type elements :: values)
  | skipped {parameter : Parameter} {parameters : List Parameter} {values : List Value}
      (single : parameter.isVararg = false) (optional : parameter.isOptional = true)
      (rest : Gives scope parameters [] values) :
      Gives scope (parameter :: parameters) [] (.nullOf parameter.type :: values)

end Scope

/-! ## What becomes of a token -/

theorem Run.pure_injective {α : Type} {first second : α}
    (same : (pure first : Run α) = pure second) : first = second :=
  congrArg Prod.fst (congrFun same World.initial)

theorem Reader.read_injective {label other : String} {read read' : String → Except Diagnostic Value}
    (same : ofFunction label read = ofFunction other read') (raw : String) :
    read raw = read' raw := by
  have reads := congrArg (fun reader => reader.read raw ⟨⟨"", .any⟩, .never⟩) same
  exact Run.pure_injective reads

/-- A token becomes one thing only. -/
theorem Fit.Makes.unique {raw : String} {fit : Fit} {first second : Except Diagnostic Value}
    (makes : fit.Makes raw first) (makesToo : fit.Makes raw second) : first = second := by
  generalize sameFit : fit = other at makesToo
  cases makes with
  | asIs =>
      cases makesToo with
      | asIs => rfl
      | read => cases sameFit
  | read label read =>
      cases makesToo with
      | asIs => cases sameFit
      | read label' read' =>
          exact Reader.read_injective (Option.some.inj (Fit.read.inj sameFit)) raw

theorem Fit.Makes.isAcceptable {raw : String} {fit : Fit} {answer : Except Diagnostic Value}
    (makes : fit.Makes raw answer) : fit.isAcceptable = true := by
  cases makes <;> rfl

theorem Argument.ofToken_injective {first second : String}
    (same : Argument.ofToken first = .ofToken second) : first = second :=
  Content.token.inj (congrArg Argument.content same)

namespace Use

variable {use : Use} {context : ReadContext} {answer : Except Diagnostic Value} {value : Value}

theorem makes_of_takes {scope : Scope} {parameter : Parameter} {position : Nat} {raw : String}
    (taken : scope.Takes parameter raw value) :
    (scope.use parameter position (.ofToken raw)).Makes (.ok value) :=
  ⟨raw, rfl, taken⟩

theorem Makes.takes {scope : Scope} {parameter : Parameter} {position : Nat} {raw : String}
    (makes : (scope.use parameter position (.ofToken raw)).Makes (.ok value)) :
    scope.Takes parameter raw value := by
  obtain ⟨other, same, makes⟩ := makes
  cases Argument.ofToken_injective same
  exact makes

/-- An argument that becomes a value does not fail to be converted. -/
theorem Makes.not_fails (makes : use.Makes (.ok value)) {first last : World} :
    ¬ use.Fails context first last := by
  obtain ⟨position, argument, fit⟩ := use
  obtain ⟨raw, rfl, makes⟩ := makes
  generalize answered : Except.ok value = answer at makes
  intro fails
  cases makes with
  | asIs =>
      cases fails with
      | refused indirect => exact indirect rfl
      | answered called => cases called
  | read label read =>
      cases fails with
      | refused _ uncalled => cases uncalled
      | answered called failed =>
          cases called
          cases answered.trans (Prod.mk.inj failed).1

/-- A use of a token whose reader, if it has one, is plain. -/
def IsPlain (use : Use) : Prop :=
  (∃ raw, use.argument = .ofToken raw) ∧ ∀ reader, use.fit = .read (some reader) → reader.IsPlain

/-- The code that such a use calls for gives what becomes of the token, and has no effect. -/
theorem IsPlain.called (plain : use.IsPlain) {conversion : Conversion}
    (called : use.conversion? = some conversion) :
    ∃ answer, use.Makes answer ∧ conversion.run context = pure answer := by
  obtain ⟨position, argument, fit⟩ := use
  obtain ⟨⟨raw, rfl⟩, reads⟩ := plain
  cases fit with
  | read reader? =>
      cases reader? with
      | none => cases called
      | some reader =>
          obtain ⟨label, read, rfl⟩ := reads reader rfl
          cases called
          exact ⟨read raw, ⟨raw, rfl, .read label read⟩, rfl⟩
  | offered | asIs | ambiguous | impossible => cases called

end Use

/-- Conversions without effects leave the world as it is. -/
theorem Ran.last_eq_of_pure {context : ReadContext} {first last : World}
    {records : List Performed} (ran : Ran context first records last)
    (still : ∀ record ∈ records, ∃ answer, record.conversion.run context = pure answer) :
    last = first := by
  rw [ran.last_eq, List.flatMap_eq_nil_iff.mpr, World.after_nil]
  intro record member
  obtain ⟨answer, same⟩ := still record member
  rw [Performed.effects, same]
  rfl

/-- A null of a type made nullable is the null of that type. -/
theorem Value.eq_nullOf {value : Value} {type : Ty} (null : value.isNull = true)
    (typed : value.type = type.orNull) : value = .nullOf type := by
  cases value with
  | null classifier =>
      have same := congrArg Ty.classifier typed
      simp only [Value.type, Ty.orNull, Ty.classifier_withNullable, Ty.classifier_toTy] at same
      rw [same, nullOf]
  | boolean | integer | floating | string | array | object => cases null

/-! ## Tokens and parameters -/

namespace Scope

variable {scope : Scope} {parameters : List Parameter} {position : Nat} {tokens : List String}
  {bindings : List Binding} {values : List Value}

/-- The fit of an argument that is read is by the reader of some type. -/
theorem known_of_fit {parameter : Parameter} {argument : Argument} {reader : Reader}
    (read : scope.fit parameter argument = .read (some reader)) :
    ∃ expected, scope.reader? expected = some reader := by
  cases parameter with
  | positional _ type _ =>
      have fits := scope.fits_fitType type argument
      rw [show scope.fitType type argument = _ from read] at fits
      cases fits with
      | read _ _ _ known => exact ⟨type, known⟩
  | vararg _ element _ _ =>
      have fits := scope.fits_fitType element argument
      rw [show scope.fitType element argument = _ from read] at fits
      cases fits with
      | read _ _ _ known => exact ⟨element, known⟩
  | keyword _ word =>
      rw [fit] at read
      split at read <;> cases read

/-- In a plain scope a use of a token is plain. -/
theorem IsPlain.use (plain : scope.IsPlain) (parameter : Parameter) (position : Nat)
    (raw : String) : (scope.use parameter position (.ofToken raw)).IsPlain := by
  refine ⟨⟨raw, rfl⟩, fun reader read => ?_⟩
  obtain ⟨expected, known⟩ := known_of_fit read
  exact plain expected reader known

theorem IsPlain.takings (plain : scope.IsPlain) :
    ∀ use ∈ scope.takings parameters position (tokens.map .ofToken), use.IsPlain := by
  intro use member
  obtain ⟨index, argument, parameter, given, _, rfl⟩ := mem_takings_iff.mp member
  rw [List.getElem?_map] at given
  obtain ⟨raw, _, rfl⟩ := Option.map_eq_some_iff.mp given
  exact plain.use parameter _ raw

/-- The uses of a vararg give what it takes the tokens for. -/
theorem forall₂_takes {gives : Use → Value → Prop} {parameter : Parameter}
    {elements : List Value}
    (takes : ∀ position raw value, gives (scope.use parameter position (.ofToken raw)) value →
      scope.Takes parameter raw value)
    (given : List.Forall₂ gives (scope.useAll parameter position (tokens.map .ofToken))
      elements) : List.Forall₂ (scope.Takes parameter) tokens elements := by
  induction tokens generalizing position elements with
  | nil =>
      cases given
      exact .nil
  | cons raw tokens ih =>
      cases given with
      | cons first others => exact .cons (takes position raw _ first) (ih others)

/-- What parameters hold, when each use holds what becomes of its token, is what the tokens give
them. -/
theorem Binds.gives {holds : Use → Value → Prop}
    (takes : ∀ parameter position raw value,
      holds (scope.use parameter position (.ofToken raw)) value → scope.Takes parameter raw value)
    (binds : scope.Binds parameters position (tokens.map .ofToken) bindings)
    (held : List.Forall₂ (Binding.Holds holds) bindings values) :
    scope.Gives parameters tokens values := by
  generalize mapped : tokens.map Argument.ofToken = arguments at binds
  induction binds generalizing tokens values with
  | nil =>
      cases held
      cases List.map_eq_nil_iff.mp mapped
      exact .nil
  | many vararg rest ih =>
      subst mapped
      cases held with
      | cons first others =>
          cases first with
          | many _ given => exact .many vararg (forall₂_takes (takes _) given) (ih others rfl)
  | one single rest ih =>
      obtain ⟨raw, tokens, rfl, rfl, rfl⟩ := List.map_eq_cons_iff.mp mapped
      cases held with
      | cons first others =>
          cases first with
          | one _ given => exact .one single (takes _ _ raw _ given) (ih others rfl)
  | skipped single optional rest ih =>
      cases List.map_eq_nil_iff.mp mapped
      cases held with
      | cons first others =>
          cases first with
          | skipped _ _ null typed =>
              rw [Value.eq_nullOf null typed]
              exact .skipped single optional (ih others rfl)

/-- A parameter takes a token for one value only. -/
theorem takes_rightUnique (scope : Scope) (parameter : Parameter) :
    Relator.RightUnique (scope.Takes parameter) :=
  fun _ _ _ taken takenToo => Except.ok.inj (taken.unique takenToo)

/-- Tokens give parameters one list of values only. -/
theorem Gives.unique {others : List Value} (gives : scope.Gives parameters tokens values)
    (givesToo : scope.Gives parameters tokens others) : values = others := by
  induction gives generalizing others with
  | nil =>
      cases givesToo
      rfl
  | one single taken _ ih =>
      cases givesToo with
      | one _ takenToo rest => rw [takes_rightUnique scope _ taken takenToo, ih rest]
      | many vararg => cases vararg.symm.trans single
  | many vararg taken _ ih =>
      cases givesToo with
      | one single => cases single.symm.trans vararg
      | skipped single => cases single.symm.trans vararg
      | many _ takenToo rest =>
          rw [List.right_unique_forall₂' (takes_rightUnique scope _) taken takenToo, ih rest]
  | skipped single optional _ ih =>
      cases givesToo with
      | skipped _ _ rest => rw [ih rest]
      | many vararg => cases vararg.symm.trans single

theorem gives_nil_iff : scope.Gives [] tokens values ↔ tokens = [] ∧ values = [] := by
  constructor
  · intro gives
    cases gives
    exact ⟨rfl, rfl⟩
  · rintro ⟨rfl, rfl⟩
    exact .nil

/-- A parameter that needs one token takes the first. -/
theorem gives_required_iff {parameter : Parameter} (single : parameter.isVararg = false)
    (required : parameter.isOptional = false) :
    scope.Gives (parameter :: parameters) tokens values ↔
      ∃ raw rest value others, tokens = raw :: rest ∧ values = value :: others ∧
        scope.Takes parameter raw value ∧ scope.Gives parameters rest others := by
  constructor
  · intro gives
    cases gives with
    | one _ taken rest => exact ⟨_, _, _, _, rfl, rfl, taken, rest⟩
    | many vararg => cases vararg.symm.trans single
    | skipped _ optional => cases optional.symm.trans required
  · rintro ⟨raw, rest, value, others, rfl, rfl, taken, gives⟩
    exact .one single taken gives

/-- A last parameter that is optional takes a token or is null. -/
theorem gives_optional_iff {parameter : Parameter} (single : parameter.isVararg = false)
    (optional : parameter.isOptional = true) :
    scope.Gives [parameter] tokens values ↔
      (tokens = [] ∧ values = [.nullOf parameter.type]) ∨
        ∃ raw value, tokens = [raw] ∧ values = [value] ∧ scope.Takes parameter raw value := by
  constructor
  · intro gives
    cases gives with
    | one _ taken rest =>
        obtain ⟨rfl, rfl⟩ := gives_nil_iff.mp rest
        exact .inr ⟨_, _, rfl, rfl, taken⟩
    | many vararg => cases vararg.symm.trans single
    | skipped _ _ rest =>
        obtain ⟨_, rfl⟩ := gives_nil_iff.mp rest
        exact .inl ⟨rfl, rfl⟩
  · rintro (⟨rfl, rfl⟩ | ⟨raw, value, rfl, rfl, taken⟩)
    · exact .skipped single optional .nil
    · exact .one single taken .nil

/-- A last parameter that takes any number of tokens takes them all. -/
theorem gives_vararg_iff {parameter : Parameter} (vararg : parameter.isVararg = true) :
    scope.Gives [parameter] tokens values ↔
      ∃ elements, values = [.array parameter.type elements] ∧
        List.Forall₂ (scope.Takes parameter) tokens elements := by
  constructor
  · intro gives
    cases gives with
    | one single => cases single.symm.trans vararg
    | skipped single => cases single.symm.trans vararg
    | many _ taken rest =>
        obtain ⟨_, rfl⟩ := gives_nil_iff.mp rest
        exact ⟨_, rfl, taken⟩
  · rintro ⟨elements, rfl, taken⟩
    exact .many vararg taken .nil

theorem makes_of_mem_useAll {parameter : Parameter} {elements : List Value}
    (taken : List.Forall₂ (scope.Takes parameter) tokens elements) :
    ∀ use ∈ scope.useAll parameter position (tokens.map .ofToken),
      ∃ value, use.Makes (.ok value) := by
  induction taken generalizing position with
  | nil => exact fun use member => nomatch member
  | cons first _ ih =>
      rw [List.map_cons, useAll, List.forall_mem_cons]
      exact ⟨⟨_, Use.makes_of_takes first⟩, ih⟩

/-- Parameters that tokens give values to match, and each use of a token makes a value. -/
theorem Gives.matched (gives : scope.Gives parameters tokens values) (position : Nat) :
    (scope.walk parameters position (tokens.map .ofToken)).verdict = .matched ∧
      ∀ use ∈ scope.takings parameters position (tokens.map .ofToken),
        ∃ value, use.Makes (.ok value) := by
  induction gives generalizing position with
  | nil => exact ⟨rfl, fun use member => nomatch member⟩
  | one single taken _ ih =>
      obtain ⟨matched, makes⟩ := ih (position + 1)
      rw [List.map_cons, takings_single single, List.forall_mem_cons]
      refine ⟨?_, ⟨_, Use.makes_of_takes taken⟩, makes⟩
      simp only [walk, single, Bool.false_eq_true, if_false, use, taken.isAcceptable, if_true]
      exact matched
  | @many parameter parameters tokens elements values vararg taken _ ih =>
      obtain ⟨matched, _⟩ := ih (position + (tokens.map Argument.ofToken).length)
      have makes : ∀ use ∈ scope.useAll parameter position (tokens.map .ofToken),
          ∃ value, use.Makes (.ok value) := makes_of_mem_useAll taken
      have acceptable : ((scope.useAll parameter position (tokens.map .ofToken)).all fun use =>
          use.fit.isAcceptable) = true := by
        refine List.all_eq_true.mpr fun use member => ?_
        obtain ⟨_, _, _, made⟩ := makes use member
        exact made.isAcceptable
      rw [takings_vararg vararg]
      refine ⟨?_, makes⟩
      simp only [walk, vararg, if_true, acceptable]
      exact matched
  | skipped single optional _ ih =>
      obtain ⟨matched, _⟩ := ih position
      rw [List.map_nil, takings_none]
      refine ⟨?_, fun use member => nomatch member⟩
      simp only [walk, single, Bool.false_eq_true, if_false, optional, if_true]
      exact matched

end Scope

/-- Parameters that need one argument each cover as many arguments as they are. -/
theorem Parameter.covers_required_iff {parameters : List Parameter}
    (required : ∀ parameter ∈ parameters,
      parameter.isVararg = false ∧ parameter.isOptional = false) (count : Nat) :
    Covers parameters count ↔ count = parameters.length := by
  induction parameters generalizing count with
  | nil => exact covers_nil_iff count
  | cons parameter parameters ih =>
      obtain ⟨⟨single, needed⟩, others⟩ := List.forall_mem_cons.mp required
      cases count with
      | zero =>
          rw [covers_single_zero_iff single, needed]
          exact iff_of_false (fun both => Bool.false_ne_true both.1) (Nat.succ_ne_zero _).symm
      | succ count =>
          rw [covers_single_succ_iff single, ih others, List.length_cons, Nat.succ_inj]

/-! ## Resolving calls whose arguments are tokens -/

namespace Scope

/-- The call that tokens make. -/
def tokenCall (caller : Caller) (callee : String) (tokens : List String) : Call :=
  ⟨caller, callee, tokens.map .ofToken⟩

/-- What is handed over when the parameters of an overload are given values. -/
def handOver (scope : Scope) (caller : Caller) (callee : String) (overload : Overload)
    (values : List Value) : ResolvedCall where
  invocation :=
    { callee := callee
      caller := caller
      receiver := if overload.receiver.any (scope.acceptsReceiver caller) then some caller else none
      arguments := values }
  overload := some overload

/-- At most one overload of a list matches a call. -/
def Exclusive (scope : Scope) (call : Call) (overloads : List Overload) : Prop :=
  ∀ (first second : Nat) (overload other : Overload), overloads[first]? = some overload →
    scope.Viable call overload → overloads[second]? = some other → scope.Viable call other →
      first = second

section Exclusive

variable {scope : Scope} {settings : Settings} {token : Token} {call : Call}
  {overloads : List Overload} {overload : Overload} {world : World}

theorem exclusive_singleton (scope : Scope) (call : Call) (overload : Overload) :
    scope.Exclusive call [overload] := by
  intro first second _ _ found _ foundToo _
  obtain ⟨inside, _⟩ := List.getElem?_eq_some_iff.mp found
  obtain ⟨insideToo, _⟩ := List.getElem?_eq_some_iff.mp foundToo
  rw [List.length_singleton] at inside insideToo
  omega

/-- Overloads whose parameters need one argument each, in different numbers, exclude each other. -/
theorem exclusive_of_required (call : Call)
    (required : ∀ overload ∈ overloads, ∀ parameter ∈ overload.parameters,
      parameter.isVararg = false ∧ parameter.isOptional = false)
    (distinct : (overloads.map fun overload => overload.parameters.length).Nodup) :
    scope.Exclusive call overloads := by
  have length_of_viable : ∀ overload ∈ overloads, scope.Viable call overload →
      call.arguments.length = overload.parameters.length := by
    intro overload member viable
    obtain ⟨_, matched⟩ := (verdict_eq_iff_walk Verdict.noConfusion).mp viable
    have covers := ((walk_matched_iff_suits _ _ _ _).mp matched).covers
    exact (Parameter.covers_required_iff (required overload member) _).mp covers
  intro first second overload other found viable foundToo viableToo
  have length := length_of_viable overload (List.mem_of_getElem? found) viable
  have lengthToo := length_of_viable other (List.mem_of_getElem? foundToo) viableToo
  obtain ⟨inside, _⟩ := List.getElem?_eq_some_iff.mp found
  refine (List.getElem?_inj (by rwa [List.length_map]) distinct).mp ?_
  rw [List.getElem?_map, List.getElem?_map, found, foundToo, Option.map_some, Option.map_some,
    ← length, ← lengthToo]

/-- The only overload that matches leads alone. -/
theorem Exclusive.soleLeader (exclusive : scope.Exclusive call overloads) {position : Nat}
    (found : overloads[position]? = some overload) (viable : scope.Viable call overload) :
    scope.SoleLeader call overloads position := by
  refine ⟨⟨overload, found, viable, fun other member otherViable => ?_⟩, ?_⟩
  · obtain ⟨index, otherFound⟩ := List.mem_iff_getElem?.mp member
    cases exclusive _ _ _ _ found viable otherFound otherViable
    cases found.symm.trans otherFound
    exact Int.le_refl _
  · rintro index ⟨other, otherFound, otherViable, _⟩
    exact exclusive _ _ _ _ otherFound otherViable found viable

/-- Where at most one overload matches nothing is ambiguous. -/
theorem Exclusive.not_ambiguous (exclusive : scope.Exclusive call overloads) :
    ¬ (scope.resolve settings token call overloads world).FailsWith .ambiguous := by
  have course := scope.resolve_course settings token call overloads world
  generalize scope.resolve settings token call overloads world = resolution at course
  intro ambiguous
  cases course with
  | cancelled | refused | unmatched => cases failsWith_failed_iff.mp ambiguous
  | converted => exact not_failsWith_converted (by decide) (by decide) ambiguous
  | tied _ distinct leads leadsToo =>
      obtain ⟨_, found, viable, _⟩ := leads
      obtain ⟨_, foundToo, viableToo, _⟩ := leadsToo
      exact distinct (exclusive _ _ _ _ found viable foundToo viableToo)

end Exclusive

variable {scope : Scope} {settings : Settings} {token : Token} {caller : Caller}
  {callee : String} {tokens : List String} {overloads : List Overload} {world : World}

/-- What an assessment calls for is called for by one of its uses. -/
theorem exists_called {assessment : Assessment} {position : Nat} {conversion : Conversion}
    (planned : (position, conversion) ∈ assessment.planned) :
    ∃ use ∈ assessment.uses, use.conversion? = some conversion := by
  obtain ⟨use, member, own⟩ := List.mem_flatMap.mp planned
  obtain ⟨called, found, same⟩ := Option.map_eq_some_iff.mp (Option.mem_toList.mp own)
  cases same
  exact ⟨use, member, found⟩

/-- In a plain scope the arguments of an assessed overload are plain. -/
theorem IsPlain.assess (plain : scope.IsPlain) {overload : Overload}
    (viable : scope.Viable (tokenCall caller callee tokens) overload) :
    ∀ use ∈ (scope.assess (tokenCall caller callee tokens) overload).uses, use.IsPlain := by
  rw [assess_uses viable]
  exact plain.takings

/-- **Resolving a call of tokens in a plain scope leaves the world as it is.** -/
theorem resolve_world_of_plain (plain : scope.IsPlain) :
    (scope.resolve settings token (tokenCall caller callee tokens) overloads world).world =
      world := by
  have course := scope.resolve_course settings token (tokenCall caller callee tokens) overloads world
  generalize scope.resolve settings token (tokenCall caller callee tokens) overloads world =
    resolution at course
  cases course with
  | cancelled | tied | refused | unmatched => rfl
  | @converted position overload running found sole =>
      obtain ⟨ran, initial, _⟩ := Job.convert_runs
        ⟨tokenCall caller callee tokens, overloads.length, token⟩
        (scope.assess (tokenCall caller callee tokens) overload) world
      refine ran.last_eq_of_pure fun record member => ?_
      obtain ⟨use, used, called⟩ := exists_called (initial.subset (List.mem_map_of_mem member))
      obtain ⟨answer, _, pure⟩ := (plain.assess (sole.viable found) use used).called called
      exact ⟨answer, pure⟩

theorem resolved_eq_handOver {call : Call} {considered : Nat} {overload : Overload}
    {values : List Value} (viable : scope.Viable call overload) :
    Job.resolved ⟨call, considered, token⟩ (scope.assess call overload) values =
      scope.handOver call.caller call.callee overload values := by
  obtain ⟨admits, _⟩ := (verdict_eq_iff_walk Verdict.noConfusion).mp viable
  rw [assess_of_admits admits]
  rfl

/-- What is resolved was given values by the tokens. -/
theorem gives_of_resolves (plain : scope.IsPlain) {resolved : ResolvedCall}
    (resolves : (scope.resolve settings token (tokenCall caller callee tokens) overloads
      world).outcome = .ok resolved) :
    ∃ overload ∈ overloads, scope.Admits caller overload ∧ ∃ values,
      scope.Gives overload.parameters tokens values ∧
        resolved = scope.handOver caller callee overload values := by
  obtain ⟨overload, member, viable, outcomes, rfl, converts⟩ := resolve_converts resolves
  obtain ⟨admits, _⟩ := (verdict_eq_iff_walk Verdict.noConfusion).mp viable
  have asIs : ∀ use : Use, use.fit = .asIs → use.IsPlain →
      use.Makes (.ok use.argument.content.asValue) := by
    rintro use direct ⟨⟨raw, token⟩, _⟩
    refine ⟨raw, token, ?_⟩
    rw [direct, token]
    exact .asIs
  have answered : ∀ (use : Use) (conversion : Conversion) (world : World) (value : Value),
      use.conversion? = some conversion →
      ((conversion.run ⟨caller, token⟩).perform world).1 = .ok value → use.IsPlain →
        use.Makes (.ok value) := by
    intro use conversion world value called answered plain
    obtain ⟨answer, makes, pure⟩ := plain.called called
    rw [pure] at answered
    cases answered
    exact makes
  have binds := assess_binds viable
  have holds : List.Forall₂ (Binding.Holds fun use value => use.IsPlain → use.Makes (.ok value))
      (scope.assess (tokenCall caller callee tokens) overload).bindings
      (Binding.gather (scope.assess (tokenCall caller callee tokens) overload).bindings
        outcomes) := binds.holds_gather (converts.forall₂ asIs answered)
  have gives := binds.gives (fun parameter position raw value makes =>
    (makes (plain.use parameter position raw)).takes) holds
  exact ⟨overload, member, admits, _, gives, resolved_eq_handOver viable⟩

/-- An overload that admits the caller and is given values by the tokens matches. -/
theorem Gives.viable {overload : Overload} {values : List Value}
    (gives : scope.Gives overload.parameters tokens values)
    (admits : scope.Admits caller overload) :
    scope.Viable (tokenCall caller callee tokens) overload :=
  (verdict_eq_iff_walk Verdict.noConfusion).mpr ⟨admits, (gives.matched 0).1⟩

/-- Where such an overload leads alone the call is resolved. -/
theorem Gives.resolves (plain : scope.IsPlain) (running : world.isRequested token = false)
    {overload : Overload} {values : List Value}
    (gives : scope.Gives overload.parameters tokens values)
    (admits : scope.Admits caller overload) {position : Nat}
    (found : overloads[position]? = some overload)
    (sole : scope.SoleLeader (tokenCall caller callee tokens) overloads position) :
    ∃ resolved, (scope.resolve settings token (tokenCall caller callee tokens) overloads
      world).outcome = .ok resolved := by
  have viable : scope.Viable (tokenCall caller callee tokens) overload := gives.viable admits
  have still : (scope.resolve settings token (tokenCall caller callee tokens) overloads
    world).world = world := resolve_world_of_plain plain
  rw [resolve_of_soleLeader settings running found sole] at still ⊢
  cases outcome : (Job.convert ⟨tokenCall caller callee tokens, overloads.length, token⟩
      (scope.assess (tokenCall caller callee tokens) overload) world).1 with
  | ok resolved => exact ⟨resolved, outcome⟩
  | error failure =>
      obtain ⟨earlier, culprit, later, _, middle, parts, _, fails⟩ := Job.convert_failsAt outcome
      cases fails with
      | cancelled _ requested =>
          rw [show (Job.convert _ _ _).2.world = world from still] at requested
          cases requested.symm.trans running
      | conversion _ _ fails =>
          have used : culprit ∈ (scope.assess (tokenCall caller callee tokens) overload).uses := by
            rw [parts]
            exact List.mem_append_right _ List.mem_cons_self
          rw [assess_uses viable] at used
          obtain ⟨value, makes⟩ := (gives.matched 0).2 culprit used
          exact absurd fails makes.not_fails

/-- **A call of tokens is resolved exactly when the tokens give values to the parameters of an
overload that admits the caller**, and these values are handed over. -/
theorem resolves_iff_gives (plain : scope.IsPlain) (running : world.isRequested token = false)
    (exclusive : scope.Exclusive (tokenCall caller callee tokens) overloads)
    {resolved : ResolvedCall} :
    (scope.resolve settings token (tokenCall caller callee tokens) overloads world).outcome =
        .ok resolved ↔
      ∃ overload ∈ overloads, scope.Admits caller overload ∧ ∃ values,
        scope.Gives overload.parameters tokens values ∧
          resolved = scope.handOver caller callee overload values := by
  refine ⟨gives_of_resolves plain, ?_⟩
  rintro ⟨overload, member, admits, values, gives, rfl⟩
  obtain ⟨position, found⟩ := List.mem_iff_getElem?.mp member
  have viable : scope.Viable (tokenCall caller callee tokens) overload := gives.viable admits
  obtain ⟨resolved, resolves⟩ :
      ∃ resolved, (scope.resolve settings token (tokenCall caller callee tokens) overloads
        world).outcome = .ok resolved :=
    gives.resolves plain running admits found (exclusive.soleLeader found viable)
  -- whatever was resolved comes from the same overload, and so from the same values
  obtain ⟨other, otherMember, otherAdmits, others, otherGives, rfl⟩ :=
    gives_of_resolves plain resolves
  obtain ⟨index, otherFound⟩ := List.mem_iff_getElem?.mp otherMember
  cases exclusive _ _ _ _ found viable otherFound (otherGives.viable otherAdmits)
  cases found.symm.trans otherFound
  rw [resolves, gives.unique otherGives]

end Scope

end OverloadResolution
