import OverloadResolution.Proofs.Assignability
import OverloadResolution.Proofs.Delivery
import OverloadResolution.Proofs.Fitting

/-!
# The types of what is delivered

Code from outside is trusted with types: an offer states the type that its conversion yields, and a
reader is asked for because of the type it reads.  If both keep to that, every parameter that takes
its arguments by type gets a value that suits it (`Scope.resolve_wellTyped`).  The argument behind
the value fits in one of three ways, and each of them yields a suitable type; where an offer is
taken, its own type lies in between, so assignability has to be transitive.

A keyword is not matched by type.  It looks at the token, but it is given what its argument is
without any conversion, and that is the value that the argument carries, if it carries one.
So a keyword gets the string it spells exactly if no other value comes with the token
(`Scope.resolve_keywords`), which nothing ensures (`Scope.keyword_given_truth_value`).
-/

set_option autoImplicit false

namespace OverloadResolution

/-! ## Runs over all uses -/

/-- What holds of each way to convert a use holds of all uses that were converted. -/
theorem Converts.forall₂ {context : ReadContext} {gives : Use → Value → Prop} {first last : World}
    {uses : List Use} {values : List Value}
    (asIs : ∀ use : Use, use.fit = .asIs → gives use use.argument.content.asValue)
    (answered : ∀ use conversion world value, use.conversion? = some conversion →
      ((conversion.run context).perform world).1 = .ok value → gives use value)
    (converts : Converts context first uses values last) : List.Forall₂ gives uses values := by
  induction converts with
  | done => exact .nil
  | asIs direct _ ih => exact .cons (asIs _ direct) ih
  | convert called performed _ ih =>
      exact .cons (answered _ _ _ _ called (congrArg Prod.fst performed)) ih

namespace Scope

variable {scope : Scope} {settings : Settings} {token : Token} {call : Call}
  {overloads : List Overload} {overload : Overload} {world : World} {resolved : ResolvedCall}

/-- What holds of each way to convert a use holds of the values of a resolved call. -/
theorem resolve_holds (gives : Use → Value → Prop)
    (asIs : ∀ use : Use, use.fit = .asIs → gives use use.argument.content.asValue)
    (answered : ∀ use conversion world value, use.conversion? = some conversion →
      ((conversion.run ⟨call.caller, token⟩).perform world).1 = .ok value → gives use value)
    (resolves : (scope.resolve settings token call overloads world).outcome = .ok resolved) :
    ∃ overload ∈ overloads, scope.Viable call overload ∧ resolved.overload = some overload ∧
      List.Forall₂ (Binding.Holds gives) (scope.assess call overload).bindings
        resolved.invocation.arguments := by
  obtain ⟨overload, member, matched, values, rfl, converts⟩ := resolve_converts resolves
  exact ⟨overload, member, matched, congrArg some (overload_assess scope call overload),
    (assess_binds matched).holds_gather (converts.forall₂ asIs answered)⟩

/-- The use of an argument by a matching overload has a fit that will do. -/
theorem acceptable_of_mem_bindings (matched : scope.Viable call overload) {binding : Binding}
    (member : binding ∈ (scope.assess call overload).bindings) {use : Use}
    (used : use ∈ binding.uses) : use.fit.isAcceptable = true :=
  assess_acceptable matched use (List.mem_flatMap.mpr ⟨binding, member, used⟩)

end Scope

/-! ## Promises about types -/

/-- Whatever a run answers, errors aside, has a type that suits where a type is expected. -/
def Run.Yields (table : Declarations) (run : Run (Except Diagnostic Value)) (expected : Ty) :
    Prop :=
  ∀ world value, (run.perform world).1 = .ok value → table.isSubtype value.type expected = true

/-- The conversions that come with an argument yield the types that are stated for them. -/
def Argument.KeepsPromises (table : Declarations) (argument : Argument) : Prop :=
  ∀ offer ∈ argument.offers, ∀ convert ∈ offer.convert,
    (convert argument.content).Yields table offer.out

/-- A reader yields values of a type from every token. -/
def Reader.Reads (table : Declarations) (reader : Reader) (expected : Ty) : Prop :=
  ∀ raw context, (reader.read raw context).Yields table expected

theorem Run.Yields.trans {table : Declarations} (reachable : Declarations.Reachable table)
    {run : Run (Except Diagnostic Value)} {middle expected : Ty} (yields : run.Yields table middle)
    (suits : table.isSubtype middle expected = true) : run.Yields table expected :=
  fun world value answered => reachable.isSubtype_trans (yields world value answered) suits

namespace Scope

variable {scope : Scope}

/-- Every reader that a scope has for a type reads that type. -/
def ReadsTypes (scope : Scope) : Prop :=
  ∀ expected reader, scope.reader? expected = some reader →
    reader.Reads scope.declarations expected

/-- The conversion that a fitting argument calls for yields the type that it was fitted to. -/
theorem Fits.yields {expected : Ty} {use : Use} {context : ReadContext} {conversion : Conversion}
    (fits : scope.Fits expected use.argument use.fit)
    (reachable : Declarations.Reachable scope.declarations) (readers : scope.ReadsTypes)
    (promises : use.argument.KeepsPromises scope.declarations)
    (called : use.conversion? = some conversion) :
    (conversion.run context).Yields scope.declarations expected := by
  obtain ⟨position, argument, fit⟩ := use
  cases fits with
  | asIs => cases called
  | offered _ found suits _ =>
      simp only [Use.conversion?, found, Option.bind_some, Option.map_eq_some_iff] at called
      obtain ⟨convert, supplied, rfl⟩ := called
      have yields := promises _ (List.mem_of_getElem? found) convert supplied
      exact yields.trans reachable suits
  | read _ _ spelled known =>
      simp only [Use.conversion?, spelled, Option.map_some, Option.some.injEq] at called
      obtain rfl := called
      exact readers expected _ known _ context
  | impossible => cases called

end Scope

/-! ## Parameters that take arguments by type -/

/-- The value of a parameter suits it: one argument gives a value of a suitable type, any number of
them an array of the very type with suitable elements, and none a null of the type made nullable.
Nothing is said of keywords. -/
inductive Binding.WellTyped (table : Declarations) : Binding → Value → Prop where
  | positional {name : Option String} {type : Ty} {optional : Bool} {use : Use} {value : Value}
      (suits : table.isSubtype value.type type = true) :
      WellTyped table ⟨.positional name type optional, .one use⟩ value
  | vararg {name : Option String} {element : Ty} {nullable optional : Bool} {uses : List Use}
      {elements : List Value} (length : elements.length = uses.length)
      (suit : ∀ value ∈ elements, table.isSubtype value.type element = true) :
      WellTyped table ⟨.vararg name element nullable optional, .many uses⟩
        (.array (.array element nullable) elements)
  | skipped {parameter : Parameter} {value : Value} (null : value.isNull = true)
      (typed : value.type = parameter.type.orNull) : WellTyped table ⟨parameter, .skipped⟩ value
  | keyword {name : Option String} {word : Keyword} {use : Use} {value : Value} :
      WellTyped table ⟨.keyword name word, .one use⟩ value

/-- A value suits every type that the used argument was fitted to, if the conversions that came with
the argument can be trusted. -/
def Use.Fulfils (scope : Scope) (use : Use) (value : Value) : Prop :=
  use.argument.KeepsPromises scope.declarations → ∀ expected,
    use.fit = scope.fitType expected use.argument →
      scope.declarations.isSubtype value.type expected = true

section Typing

variable {scope : Scope}

/-- Handing an argument over as it is fulfils what it was fitted to. -/
theorem Use.fulfils_of_asIs {use : Use} (direct : use.fit = .asIs) :
    use.Fulfils scope use.argument.content.asValue := by
  intro _ expected fitted
  have fits := scope.fits_fitType expected use.argument
  rw [← fitted, direct] at fits
  cases fits with
  | asIs suits => exact suits

/-- A conversion fulfils what its argument was fitted to. -/
theorem Use.fulfils_of_answer (reachable : Declarations.Reachable scope.declarations)
    (readers : scope.ReadsTypes) {use : Use} {context : ReadContext} {conversion : Conversion}
    {world : World} {value : Value} (called : use.conversion? = some conversion)
    (answered : ((conversion.run context).perform world).1 = .ok value) :
    use.Fulfils scope value := by
  intro promises expected fitted
  have fits := scope.fits_fitType expected use.argument
  rw [← fitted] at fits
  exact fits.yields reachable readers promises called world value answered

/-- Elements suit the type that all their uses were fitted to. -/
theorem suit_of_fulfils {uses : List Use} {elements : List Value} {expected : Ty}
    (given : List.Forall₂ (Use.Fulfils scope) uses elements)
    (promises : ∀ use ∈ uses, use.argument.KeepsPromises scope.declarations)
    (fitted : ∀ use ∈ uses, use.fit = scope.fitType expected use.argument) :
    ∀ value ∈ elements, scope.declarations.isSubtype value.type expected = true := by
  induction given with
  | nil =>
      intro value member
      cases member
  | cons fulfils _ ih =>
      rw [List.forall_mem_cons] at promises fitted ⊢
      exact ⟨fulfils promises.1 expected fitted.1, ih promises.2 fitted.2⟩

/-- **What a parameter holds is well typed**, if each use gives what it was fitted to. -/
theorem Binding.Holds.wellTyped {binding : Binding} {value : Value}
    (holds : binding.Holds (Use.Fulfils scope) value) (formed : binding.Formed scope)
    (promises : ∀ use ∈ binding.uses, use.argument.KeepsPromises scope.declarations) :
    binding.WellTyped scope.declarations value := by
  have recorded : ∀ use ∈ binding.uses,
      use = scope.use binding.parameter use.position use.argument := by
    intro use used
    exact formed.eq_use used
  cases holds with
  | @one parameter use value single fulfils =>
      have fit := congrArg Use.fit (recorded use (List.mem_singleton_self use))
      cases parameter with
      | positional name type optional =>
          exact .positional (fulfils (promises use (List.mem_singleton_self use)) type fit)
      | vararg => cases single
      | keyword => exact .keyword
  | @many parameter uses elements vararg given =>
      cases parameter with
      | positional => cases vararg
      | vararg name element nullable optional =>
          refine .vararg given.length_eq.symm (suit_of_fulfils given promises ?_)
          intro use used
          exact congrArg Use.fit (recorded use used)
      | keyword => cases vararg
  | skipped single optional null typed => exact .skipped null typed

end Typing

namespace Scope

variable {scope : Scope} {settings : Settings} {token : Token} {call : Call}
  {overloads : List Overload} {world : World} {resolved : ResolvedCall}

/-- **The values of a resolved call suit its parameters**, if offers and readers keep to their
types. -/
theorem resolve_wellTyped (reachable : Declarations.Reachable scope.declarations)
    (promises : ∀ argument ∈ call.arguments, argument.KeepsPromises scope.declarations)
    (readers : scope.ReadsTypes)
    (resolves : (scope.resolve settings token call overloads world).outcome = .ok resolved) :
    ∃ overload ∈ overloads, resolved.overload = some overload ∧
      ∃ bindings, scope.Binds overload.parameters 0 call.arguments bindings ∧
        List.Forall₂ (Binding.WellTyped scope.declarations) bindings
          resolved.invocation.arguments := by
  obtain ⟨overload, member, matched, chosen, holds⟩ :=
    resolve_holds (Use.Fulfils scope) (fun _ direct => Use.fulfils_of_asIs direct)
      (fun _ _ _ _ called answered => Use.fulfils_of_answer reachable readers called answered)
      resolves
  refine ⟨overload, member, chosen, _, assess_binds matched, ?_⟩
  have formed : ∀ binding ∈ (scope.assess call overload).bindings, binding.Formed scope ∧
      ∀ use ∈ binding.uses, use.argument.KeepsPromises scope.declarations := by
    intro binding bound
    refine ⟨formed_assess matched binding bound, ?_⟩
    intro use used
    obtain ⟨argument, given, same⟩ := recorded_assess matched bound used
    rw [same]
    exact promises argument (List.mem_of_getElem? given)
  refine ((List.forall₂_and_left _ _).mpr ⟨formed, holds⟩).imp ?_
  rintro binding value ⟨⟨formed, promises⟩, holds⟩
  exact holds.wellTyped formed promises

/-- Levels, which are some of the integers. -/
def level : Ty := .named "Level" false

/-- Reads every token as the same level. -/
def levelReader : Reader := .ofFunction "Level" fun _ => .ok (.integer level 5)

/-- Declares levels, and has a reader for them. -/
def leveled : Scope where
  declarations := Declarations.initial.add "Level" ["Int"]
  registry := some (.ofList [⟨level, some levelReader⟩])

theorem reachable_leveled : Declarations.Reachable leveled.declarations :=
  .declare .initial (Declarations.declare_eq_ok_iff.mpr ⟨by decide, by decide, rfl⟩)

/-- The types below levels are levels. -/
theorem classifier_of_isSubtype_level {type : Ty}
    (below : leveled.declarations.isSubtype type.nonNull level = true) :
    type.classifier = level.classifier := by
  cases type with
  | named name nullable =>
      have nominal := (Declarations.isSubtype_named_iff.mp below).2
      have same := Declarations.eq_of_isNominalSubtype_of_unlisted (by decide) (by decide) nominal
      exact congrArg Classifier.named same
  | array element nullable =>
      have top := (Declarations.isSubtype_array_named_iff.mp below).2
      exact absurd top (by decide)

/-- The reader for levels is used for them only. -/
theorem readsTypes_leveled : leveled.ReadsTypes := by
  intro expected reader known raw context world value answered
  obtain ⟨registry, made, looked⟩ := Option.bind_eq_some_iff.mp known
  cases made
  obtain ⟨entry, decides, supplied⟩ := Option.bind_eq_some_iff.mp looked
  have entered : entry = Registration.entry ⟨level, some levelReader⟩ ∧
      expected.classifier = level.classifier := by
    rcases Option.or_eq_some_iff.mp decides with keyed | ⟨_, admitted⟩
    · have same := List.find?_some keyed
      obtain rfl := List.mem_singleton.mp (List.mem_of_find?_eq_some keyed)
      exact ⟨rfl, (of_decide_eq_true same).symm⟩
    · have below := List.find?_some admitted
      obtain rfl := List.mem_singleton.mp (List.mem_of_find?_eq_some admitted)
      exact ⟨rfl, classifier_of_isSubtype_level below⟩
  obtain ⟨rfl, same⟩ := entered
  cases supplied
  cases answered
  cases expected with
  | named name nullable =>
      cases same
      exact Declarations.isSubtype_named_iff.mpr
        ⟨Bool.noConfusion, Declarations.isNominalSubtype_self _ _⟩
  | array element nullable => cases same

/-- A token with a conversion to a level. -/
def raised : Argument :=
  ⟨.token "high", [⟨"level", level, some fun _ => pure (.ok (.integer level 9))⟩]⟩

theorem keepsPromises_raised : raised.KeepsPromises leveled.declarations := by
  intro offer member convert supplied world value answered
  obtain rfl := List.mem_singleton.mp member
  cases supplied
  cases answered
  decide +kernel

/-- A level that is to be converted, and two that are to be read. -/
def givenLevels : List Argument := [raised, .ofToken "a", .ofToken "b"]

/-- Takes an integer, any number of levels, and perhaps a label. -/
def arrange : Overload where
  receiver := none
  parameters := [.required "first" .int, .vararg (some "others") level false false,
    .optional "label" .string]
  action := none

/-- The level that is converted stands for the integer, the two that are read form an array of
levels, and the label is null. -/
theorem arrange_wellTyped :
    Declarations.Reachable leveled.declarations ∧
      (∀ argument ∈ givenLevels, argument.KeepsPromises leveled.declarations) ∧
      leveled.ReadsTypes ∧
      ∃ resolved : ResolvedCall,
        (leveled.resolve .initial .never (echoing givenLevels) [arrange] .initial).outcome =
          .ok resolved ∧
        resolved.invocation.arguments.map Value.type =
          [level, .array level false, Ty.string.orNull] ∧
        ∃ overload ∈ [arrange], resolved.overload = some overload ∧
          ∃ bindings, leveled.Binds overload.parameters 0 givenLevels bindings ∧
            List.Forall₂ (Binding.WellTyped leveled.declarations) bindings
              resolved.invocation.arguments := by
  have promises : ∀ argument ∈ givenLevels, argument.KeepsPromises leveled.declarations := by
    intro argument member
    simp only [givenLevels, List.mem_cons, List.not_mem_nil, or_false] at member
    rcases member with rfl | rfl | rfl
    · exact keepsPromises_raised
    · intro offer unoffered
      cases unoffered
    · intro offer unoffered
      cases unoffered
  have types : ((leveled.resolve .initial .never (echoing givenLevels) [arrange]
      .initial).outcome.toOption.map fun resolved =>
        resolved.invocation.arguments.map Value.type) =
          some [level, .array level false, Ty.string.orNull] := by
    decide +kernel
  cases resolves : (leveled.resolve .initial .never (echoing givenLevels) [arrange]
      .initial).outcome with
  | error failure =>
      rw [resolves] at types
      cases types
  | ok resolved =>
      rw [resolves] at types
      exact ⟨reachable_leveled, promises, readsTypes_leveled, resolved, rfl,
        Option.some.inj types,
        resolve_wellTyped reachable_leveled promises readsTypes_leveled resolves⟩

end Scope

/-! ## Keywords -/

/-- An argument whose token is known is that token, unless it carries a value. -/
theorem Content.asValue_of_raw? {content : Content} {raw : String}
    (token : content.raw? = some raw) : content.asValue = content.value?.getD (.string raw) := by
  cases content with
  | token other =>
      cases token
      rfl
  | carried value other => rfl

/-- A keyword accepts the token that it is spelled like, and that without a conversion. -/
theorem Scope.fit_keyword_acceptable (scope : Scope) {name : Option String} {word : Keyword}
    {argument : Argument}
    (acceptable : (scope.fit (.keyword name word) argument).isAcceptable = true) :
    scope.fit (.keyword name word) argument = .asIs ∧
      argument.content.raw? = some word.literal := by
  by_cases spells : argument.content.raw? = some word.literal
  · exact ⟨if_pos spells, spells⟩
  · rw [fit, if_neg spells] at acceptable
    cases acceptable

/-- A use without a conversion gives the argument's own value. -/
def Use.HandsOver (use : Use) (value : Value) : Prop :=
  use.fit = .asIs → value = use.argument.content.asValue

/-- The argument of a keyword has its literal as the token, and the keyword is given the value that
the argument carries, or else the string that it spells. -/
inductive Binding.Spelled : Binding → Value → Prop where
  | keyword {name : Option String} {word : Keyword} {use : Use} {value : Value}
      (spells : use.argument.content.raw? = some word.literal)
      (given : value = use.argument.content.value?.getD (.string word.literal)) :
      Spelled ⟨.keyword name word, .one use⟩ value
  | other {binding : Binding} {value : Value}
      (typed : ∀ name word, binding.parameter ≠ .keyword name word) : Spelled binding value

/-- If the argument of a keyword carries a value, it is the string that the keyword spells. -/
def Binding.Unopposed (binding : Binding) : Prop :=
  ∀ name word, binding.parameter = .keyword name word → ∀ use ∈ binding.uses,
    ∀ value ∈ use.argument.content.value?, value = .string word.literal

/-- What a keyword holds has been spelled. -/
theorem Binding.Holds.spelled {scope : Scope} {binding : Binding} {value : Value}
    (holds : binding.Holds Use.HandsOver value) (formed : binding.Formed scope)
    (acceptable : ∀ use ∈ binding.uses, use.fit.isAcceptable = true) : binding.Spelled value := by
  cases holds with
  | @one parameter use value single handsOver =>
      cases parameter with
      | keyword name word =>
          have recorded : use.fit = scope.fit (.keyword name word) use.argument :=
            congrArg Use.fit (formed.eq_use (List.mem_singleton_self use))
          have accepted := acceptable use (List.mem_singleton_self use)
          rw [recorded] at accepted
          obtain ⟨direct, spells⟩ := scope.fit_keyword_acceptable accepted
          have given := handsOver (recorded.trans direct)
          rw [Content.asValue_of_raw? spells] at given
          exact .keyword spells given
      | positional | vararg => exact .other fun _ _ => Parameter.noConfusion
  | many vararg _ =>
      refine .other ?_
      rintro name word rfl
      cases vararg
  | skipped _ optional _ _ =>
      refine .other ?_
      rintro name word rfl
      cases optional

/-- A keyword is given the string that it spells exactly if no other value is in its way. -/
theorem Binding.Spelled.unopposed_iff {binding : Binding} {value : Value}
    (spelled : binding.Spelled value) :
    binding.Unopposed ↔ ∀ name word, binding.parameter = .keyword name word →
      value = .string word.literal := by
  cases spelled with
  | @keyword name word use value spells given =>
      constructor
      · intro unopposed name word same
        cases same
        cases carried : use.argument.content.value? with
        | none =>
            rw [given, carried]
            rfl
        | some other =>
            rw [given, carried]
            exact unopposed name word rfl use (List.mem_singleton_self use) other carried
      · intro literal name word same other used value carried
        cases same
        obtain rfl := List.mem_singleton.mp used
        have same := literal name word rfl
        rw [given, carried] at same
        exact same
  | other typed =>
      constructor
      · intro _ name word same
        exact absurd same (typed name word)
      · intro _ name word same
        exact absurd same (typed name word)

/-- Each keyword of the overload is given the string that it spells. -/
def ResolvedCall.SpellsKeywords (resolved : ResolvedCall) : Prop :=
  ∀ overload ∈ resolved.overload, ∀ (index : Nat) (name : Option String) (word : Keyword),
    overload.parameters[index]? = some (.keyword name word) →
      resolved.invocation.arguments[index]? = some (.string word.literal)

/-- The keywords of a list of bindings, by position. -/
theorem forall_unopposed_iff {bindings : List Binding} {values : List Value}
    (spelled : List.Forall₂ Binding.Spelled bindings values) :
    (∀ binding ∈ bindings, binding.Unopposed) ↔
      ∀ (index : Nat) (name : Option String) (word : Keyword),
        (bindings.map Binding.parameter)[index]? = some (.keyword name word) →
          values[index]? = some (.string word.literal) := by
  induction spelled with
  | nil => simp
  | @cons binding value bindings values first _ ih =>
      rw [List.forall_mem_cons, first.unopposed_iff, ih]
      constructor
      · rintro ⟨head, tail⟩ index name word found
        cases index with
        | zero => exact congrArg some (head name word (Option.some.inj found))
        | succ index => exact tail index name word found
      · intro all
        refine ⟨fun name word same => ?_, fun index => all (index + 1)⟩
        exact Option.some.inj (all 0 name word (congrArg some same))

namespace Scope

variable {scope : Scope} {settings : Settings} {token : Token} {call : Call}
  {overloads : List Overload} {world : World} {resolved : ResolvedCall}

/-- **What the keywords of a resolved call are given**, and when that is the strings they spell. -/
theorem resolve_keywords
    (resolves : (scope.resolve settings token call overloads world).outcome = .ok resolved) :
    ∃ overload ∈ overloads, resolved.overload = some overload ∧
      ∃ bindings, scope.Binds overload.parameters 0 call.arguments bindings ∧
        List.Forall₂ Binding.Spelled bindings resolved.invocation.arguments ∧
        (resolved.SpellsKeywords ↔ ∀ binding ∈ bindings, binding.Unopposed) := by
  have asIs : ∀ use : Use, use.fit = .asIs → use.HandsOver use.argument.content.asValue :=
    fun _ _ _ => rfl
  have answered : ∀ (use : Use) (conversion : Conversion) (world : World) (value : Value),
      use.conversion? = some conversion →
        ((conversion.run ⟨call.caller, token⟩).perform world).1 = .ok value →
          use.HandsOver value := by
    intro use conversion world value called _ direct
    rw [Use.conversion?, direct] at called
    cases called
  obtain ⟨overload, member, matched, chosen, holds⟩ :=
    resolve_holds Use.HandsOver asIs answered resolves
  have binds := assess_binds matched
  have formed : ∀ binding ∈ (scope.assess call overload).bindings, binding.Formed scope ∧
      ∀ use ∈ binding.uses, use.fit.isAcceptable = true :=
    fun binding bound => ⟨formed_assess matched binding bound,
      fun use used => acceptable_of_mem_bindings matched bound used⟩
  have spelled : List.Forall₂ Binding.Spelled (scope.assess call overload).bindings
      resolved.invocation.arguments := by
    refine ((List.forall₂_and_left _ _).mpr ⟨formed, holds⟩).imp ?_
    rintro binding value ⟨⟨formed, acceptable⟩, holds⟩
    exact holds.spelled formed acceptable
  refine ⟨overload, member, chosen, _, binds, spelled, ?_⟩
  rw [forall_unopposed_iff spelled, binds.parameters_eq, ResolvedCall.SpellsKeywords, chosen]
  simp

/-- A keyword that switches something on. -/
def onWord : Keyword := ⟨"on", by decide, by decide⟩

/-- Takes the word `on` and nothing else. -/
def switchOn : Overload := ⟨none, [.keyword none onWord], none⟩

/-- The truth value that was read from the word `on` before. -/
def readOn : Argument := ⟨.carried (.boolean true) (some "on"), []⟩

/-- The word is spelled, but the switch is given the truth value. -/
theorem switchOn_keywords :
    ∃ resolved : ResolvedCall,
      (resolve ⟨.initial, none⟩ .initial .never (echoing [readOn]) [switchOn] .initial).outcome =
        .ok resolved ∧
      resolved.invocation.arguments = [.boolean true] ∧
      ∃ overload ∈ [switchOn], resolved.overload = some overload ∧
        ∃ bindings, Binds ⟨.initial, none⟩ overload.parameters 0 [readOn] bindings ∧
          List.Forall₂ Binding.Spelled bindings resolved.invocation.arguments ∧
          (resolved.SpellsKeywords ↔ ∀ binding ∈ bindings, binding.Unopposed) := by
  have resolves : (resolve ⟨.initial, none⟩ .initial .never (echoing [readOn]) [switchOn]
      .initial).outcome = .ok _ := rfl
  exact ⟨_, resolves, rfl, resolve_keywords resolves⟩

/-- A keyword need not be given a string. -/
theorem keyword_given_truth_value :
    ¬ ∀ (scope : Scope) (settings : Settings) (token : Token) (call : Call)
      (overloads : List Overload) (world : World) (resolved : ResolvedCall),
      (scope.resolve settings token call overloads world).outcome = .ok resolved →
        resolved.SpellsKeywords := by
  intro spells
  unfold ResolvedCall.SpellsKeywords at spells
  have resolves : (resolve ⟨.initial, none⟩ .initial .never (echoing [readOn]) [switchOn]
      .initial).outcome = .ok ⟨⟨"echo", ⟨"console", .any⟩, none, [.boolean true]⟩,
        some switchOn⟩ := rfl
  have given := spells _ _ _ _ _ _ _ resolves switchOn rfl 0 none onWord rfl
  cases given

end Scope

end OverloadResolution
