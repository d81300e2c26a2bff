import OverloadResolution.CommandLine.Tool
import OverloadResolution.Proofs.Provenance
import OverloadResolution.Proofs.TokenCalls

/-!
# What the commands answer

For each command and each list of tokens there is at most one thing that the command has to say: a
line, or the fault that keeps it from having one (`Answers`).  All that the actions rely on, that
arguments are there and hold what is read from them, is settled when a call is resolved, so an
action that runs answers (`answers_of_gives`), and an answer is reached whenever there is one
(`Answers.given`).  At most one overload of a command takes a list of tokens
(`exclusive_of_mem_commands`), so no call is ever ambiguous.

What a call comes to follows (`Comes`, `call_comes`): it writes the line that is answered, or
reports the fault, or says why nothing is answered.  A run that reaches a command is such a call
behind what is listed (`run_comes`).
-/

set_option autoImplicit false

namespace OverloadResolution

/-! ## The readers of the tool -/

theorem Registry.isPlain_of_mem_builtinRegistrations {registration : Registration}
    (member : registration ∈ builtinRegistrations) {reader : Reader}
    (supplied : registration.reader = some reader) : reader.IsPlain := by
  simp only [builtinRegistrations, List.mem_cons, List.not_mem_nil, or_false] at member
  rcases member with rfl | rfl | rfl | rfl | rfl | rfl | rfl | rfl <;>
    · cases supplied
      exact ⟨_, _, rfl⟩

namespace Scope

variable {scope : Scope} {parameter : Parameter} {raw : String} {value : Value}

/-- A parameter that a token fits as it is takes it for the string it spells. -/
theorem takes_iff_of_asIs (fit : scope.fit parameter (.ofToken raw) = .asIs) :
    scope.Takes parameter raw value ↔ value = .string raw := by
  rw [Takes, fit]
  constructor
  · intro makes
    exact Except.ok.inj (makes.unique .asIs)
  · rintro rfl
    exact .asIs

/-- A parameter that reads a token takes it for what is read. -/
theorem takes_iff_of_read {label : String} {read : String → Except Diagnostic Value}
    (fit : scope.fit parameter (.ofToken raw) = .read (some (.ofFunction label read))) :
    scope.Takes parameter raw value ↔ read raw = .ok value := by
  rw [Takes, fit]
  constructor
  · intro makes
    exact (makes.unique (.read label read)).symm
  · intro same
    rw [← same]
    exact .read label read

end Scope

namespace CommandLine

theorem scope_isPlain : scope.IsPlain := by
  intro expected reader known
  have looked : (Recipe.history Registry.builtinRegistrations).registry.lookup scope.declarations
      expected = some reader := known
  obtain ⟨registration, member, supplied, _⟩ := Recipe.exists_registration_of_lookup looked
  exact Registry.isPlain_of_mem_builtinRegistrations member supplied

/-- A token is read as an integer of 32 bits. -/
def ReadsInt (raw : String) (number : Int64) : Prop :=
  Reader.readIntegral .int (-2147483648) 2147483647 raw = .ok (.integer .int number)

/-- A token is read as an integer of 64 bits. -/
def ReadsLong (raw : String) (number : Int64) : Prop :=
  Reader.readIntegral .long Int64.minValue Int64.maxValue raw = .ok (.integer .long number)

theorem readsInt_rightUnique : Relator.RightUnique ReadsInt := by
  intro raw first second read readToo
  cases read.symm.trans readToo
  rfl

theorem readsLong_rightUnique : Relator.RightUnique ReadsLong := by
  intro raw first second read readToo
  cases read.symm.trans readToo
  rfl

/-- A value that is read as an integer is one, of the type that is read. -/
theorem exists_of_readIntegral {type : Ty} {low high : Int64} {raw : String} {value : Value}
    (read : Reader.readIntegral type low high raw = .ok value) :
    ∃ number, value = .integer type number := by
  unfold Reader.readIntegral at read
  split at read
  · cases read
  · split at read
    · cases read
    · cases read
      exact ⟨_, rfl⟩

/-- A parameter that reads an integer takes a token for the integer that is read. -/
theorem takes_iff_of_integral {parameter : Parameter} {raw : String} {value : Value} {type : Ty}
    {low high : Int64}
    (fit : scope.fit parameter (.ofToken raw) = .read (some (.integral type low high))) :
    scope.Takes parameter raw value ↔
      ∃ number, value = .integer type number ∧
        Reader.readIntegral type low high raw = .ok (.integer type number) := by
  rw [Scope.takes_iff_of_read fit]
  constructor
  · intro read
    obtain ⟨number, rfl⟩ := exists_of_readIntegral read
    exact ⟨number, rfl, read⟩
  · rintro ⟨number, rfl, read⟩
    exact read

theorem fit_string (raw : String) : scope.fitType .string (.ofToken raw) = .asIs :=
  if_pos (scope.declarations.isSubtype_self .string)

theorem fit_int (raw : String) :
    scope.fitType .int (.ofToken raw) =
      .read (some (.integral .int (-2147483648) 2147483647)) := by
  have other : scope.declarations.isSubtype .string .int = false := by decide +kernel
  exact if_neg (ne_true_of_eq_false other)

theorem fit_long (raw : String) :
    scope.fitType .long (.ofToken raw) =
      .read (some (.integral .long Int64.minValue Int64.maxValue)) := by
  have other : scope.declarations.isSubtype .string .long = false := by decide +kernel
  exact if_neg (ne_true_of_eq_false other)

theorem takes_string_iff {parameter : Parameter} {raw : String} {value : Value}
    (typed : scope.fit parameter (.ofToken raw) = scope.fitType .string (.ofToken raw)) :
    scope.Takes parameter raw value ↔ value = .string raw :=
  Scope.takes_iff_of_asIs (typed.trans (fit_string raw))

theorem takes_int_iff {parameter : Parameter} {raw : String} {value : Value}
    (typed : scope.fit parameter (.ofToken raw) = scope.fitType .int (.ofToken raw)) :
    scope.Takes parameter raw value ↔
      ∃ number, value = .integer .int number ∧ ReadsInt raw number :=
  takes_iff_of_integral (typed.trans (fit_int raw))

theorem takes_long_iff {parameter : Parameter} {raw : String} {value : Value}
    (typed : scope.fit parameter (.ofToken raw) = scope.fitType .long (.ofToken raw)) :
    scope.Takes parameter raw value ↔
      ∃ number, value = .integer .long number ∧ ReadsLong raw number :=
  takes_iff_of_integral (typed.trans (fit_long raw))

/-- The keyword takes the token that is spelled like it. -/
theorem takes_addKeyword_iff {raw : String} {value : Value} :
    scope.Takes (.keyword none addKeyword) raw value ↔ raw = "add" ∧ value = .string "add" := by
  by_cases spelled : raw = "add"
  · subst spelled
    rw [Scope.takes_iff_of_asIs rfl, and_iff_right rfl]
  · have unfit : scope.fit (.keyword none addKeyword) (.ofToken raw) = .impossible :=
      if_neg fun same => spelled (Option.some.inj same)
    rw [Scope.Takes, unfit]
    refine iff_of_false ?_ fun both => spelled both.1
    intro makes
    cases makes

/-! ## What the tokens give to the parameters of each overload -/

section Gives

variable {tokens : List String} {values : List Value}

theorem gives_add_iff :
    scope.Gives [.keyword none addKeyword, .required "n" .int] tokens values ↔
      ∃ raw number, tokens = ["add", raw] ∧ values = [.string "add", .integer .int number] ∧
        ReadsInt raw number := by
  constructor
  · intro gives
    obtain ⟨word, rest, keyword, others, rfl, rfl, spelled, gives⟩ :=
      (Scope.gives_required_iff rfl rfl).mp gives
    obtain ⟨raw, rest, value, others, rfl, rfl, taken, gives⟩ :=
      (Scope.gives_required_iff rfl rfl).mp gives
    obtain ⟨rfl, rfl⟩ := Scope.gives_nil_iff.mp gives
    obtain ⟨rfl, rfl⟩ := takes_addKeyword_iff.mp spelled
    obtain ⟨number, rfl, read⟩ := (takes_int_iff rfl).mp taken
    exact ⟨raw, number, rfl, rfl, read⟩
  · rintro ⟨raw, number, rfl, rfl, read⟩
    exact .one rfl (takes_addKeyword_iff.mpr ⟨rfl, rfl⟩)
      (.one rfl ((takes_int_iff rfl).mpr ⟨number, rfl, read⟩) .nil)

theorem gives_target_iff :
    scope.Gives [.required "target" .string] tokens values ↔
      ∃ raw, tokens = [raw] ∧ values = [.string raw] := by
  constructor
  · intro gives
    obtain ⟨raw, rest, value, others, rfl, rfl, taken, gives⟩ :=
      (Scope.gives_required_iff rfl rfl).mp gives
    obtain ⟨rfl, rfl⟩ := Scope.gives_nil_iff.mp gives
    obtain rfl := (takes_string_iff rfl).mp taken
    exact ⟨raw, rfl, rfl⟩
  · rintro ⟨raw, rfl, rfl⟩
    exact .one rfl ((takes_string_iff rfl).mpr rfl) .nil

theorem gives_divide_iff :
    scope.Gives [.required "a" .long, .required "b" .long] tokens values ↔
      ∃ first second dividend divisor, tokens = [first, second] ∧
        values = [.integer .long dividend, .integer .long divisor] ∧
        ReadsLong first dividend ∧ ReadsLong second divisor := by
  constructor
  · intro gives
    obtain ⟨first, rest, value, others, rfl, rfl, taken, gives⟩ :=
      (Scope.gives_required_iff rfl rfl).mp gives
    obtain ⟨second, rest, value, others, rfl, rfl, takenToo, gives⟩ :=
      (Scope.gives_required_iff rfl rfl).mp gives
    obtain ⟨rfl, rfl⟩ := Scope.gives_nil_iff.mp gives
    obtain ⟨dividend, rfl, read⟩ := (takes_long_iff rfl).mp taken
    obtain ⟨divisor, rfl, readToo⟩ := (takes_long_iff rfl).mp takenToo
    exact ⟨first, second, dividend, divisor, rfl, rfl, read, readToo⟩
  · rintro ⟨first, second, dividend, divisor, rfl, rfl, read, readToo⟩
    exact .one rfl ((takes_long_iff rfl).mpr ⟨dividend, rfl, read⟩)
      (.one rfl ((takes_long_iff rfl).mpr ⟨divisor, rfl, readToo⟩) .nil)

theorem gives_greet_iff :
    scope.Gives [.optional "name" .string] tokens values ↔
      (tokens = [] ∧ values = [.nullOf .string]) ∨
        ∃ raw, tokens = [raw] ∧ values = [.string raw] := by
  rw [Scope.gives_optional_iff rfl rfl]
  refine or_congr_right (exists_congr fun raw => ?_)
  constructor
  · rintro ⟨value, tokens, rfl, taken⟩
    obtain rfl := (takes_string_iff rfl).mp taken
    exact ⟨tokens, rfl⟩
  · rintro ⟨tokens, rfl⟩
    exact ⟨.string raw, tokens, rfl, (takes_string_iff rfl).mpr rfl⟩

theorem forall₂_takes_int_iff {elements : List Value} :
    List.Forall₂ (scope.Takes (.vararg (some "numbers") .int false false)) tokens elements ↔
      ∃ numbers, elements = numbers.map (.integer .int) ∧
        List.Forall₂ ReadsInt tokens numbers := by
  constructor
  · intro taken
    induction taken with
    | nil => exact ⟨[], rfl, .nil⟩
    | cons first _ ih =>
        obtain ⟨number, rfl, read⟩ := (takes_int_iff rfl).mp first
        obtain ⟨numbers, rfl, reads⟩ := ih
        exact ⟨number :: numbers, rfl, .cons read reads⟩
  · rintro ⟨numbers, rfl, reads⟩
    refine List.forall₂_map_right_iff.mpr (reads.imp fun raw number read => ?_)
    exact (takes_int_iff rfl).mpr ⟨number, rfl, read⟩

theorem gives_sum_iff :
    scope.Gives [.vararg (some "numbers") .int false false] tokens values ↔
      ∃ numbers, values = [.array (.array .int false) (numbers.map (.integer .int))] ∧
        List.Forall₂ ReadsInt tokens numbers := by
  rw [Scope.gives_vararg_iff rfl]
  constructor
  · rintro ⟨elements, rfl, taken⟩
    obtain ⟨numbers, rfl, reads⟩ := forall₂_takes_int_iff.mp taken
    exact ⟨numbers, rfl, reads⟩
  · rintro ⟨numbers, rfl, reads⟩
    exact ⟨_, rfl, forall₂_takes_int_iff.mpr ⟨numbers, rfl, reads⟩⟩

theorem forall₂_takes_string_iff {elements : List Value} :
    List.Forall₂ (scope.Takes (.vararg (some "words") .string false false)) tokens elements ↔
      elements = tokens.map .string := by
  constructor
  · intro taken
    induction taken with
    | nil => rfl
    | cons first _ ih => rw [(takes_string_iff rfl).mp first, ih, List.map_cons]
  · rintro rfl
    exact List.forall₂_map_right_iff.mpr
      (List.forall₂_same.mpr fun raw _ => (takes_string_iff rfl).mpr rfl)

theorem gives_say_iff :
    scope.Gives [.vararg (some "words") .string false false] tokens values ↔
      values = [.array (.array .string false) (tokens.map .string)] := by
  rw [Scope.gives_vararg_iff rfl]
  constructor
  · rintro ⟨elements, rfl, taken⟩
    rw [forall₂_takes_string_iff.mp taken]
    rfl
  · rintro rfl
    exact ⟨_, rfl, forall₂_takes_string_iff.mpr rfl⟩

end Gives

/-! ## Answers -/

/-- The words of a message, put together from left to right. -/
def joined (words : List String) : String :=
  words.foldl (fun text word => (if text.isEmpty then text else text ++ " ") ++ word) ""

/-- What a command has to say to a caller about a list of tokens: a line, or the fault that keeps it
from having one. -/
inductive Answers (caller : Caller) : String → List String → Except Fault String → Prop where
  | add {raw : String} {number : Int64} (read : ReadsInt raw number) :
      Answers caller "foo" ["add", raw] (.ok ("foo: added " ++ integerText number))
  | target (raw : String) : Answers caller "foo" [raw] (.ok ("foo: target " ++ raw))
  | sum {tokens : List String} {numbers : List Int64}
      (reads : List.Forall₂ ReadsInt tokens numbers) :
      Answers caller "sum" tokens (.ok ("sum: " ++ integerText (numbers.foldl (· + ·) 0)))
  | say (tokens : List String)
      (user : scope.declarations.isSubtype caller.type userType = true) :
      Answers caller "say" tokens (.ok (caller.name ++ " says: " ++ joined tokens))
  | greetCaller : Answers caller "greet" [] (.ok ("Hello, " ++ caller.name ++ "!"))
  | greet (raw : String) : Answers caller "greet" [raw] (.ok ("Hello, " ++ raw ++ "!"))
  | divide {first second : String} {dividend divisor : Int64}
      (read : ReadsLong first dividend) (readToo : ReadsLong second divisor) :
      Answers caller "divide" [first, second]
        ((quotient dividend divisor).map fun result => "divide: " ++ integerText result)

theorem total_map_integer (type : Ty) (start : Int64) (numbers : List Int64) :
    total start (numbers.map (.integer type)) = .ok (numbers.foldl (· + ·) start) := by
  induction numbers generalizing start with
  | nil => rfl
  | cons number numbers ih => exact ih (start + number)

theorem joinWords_map_string (start : String) (words : List String) :
    joinWords start (words.map .string) =
      .ok (words.foldl (fun text word => (if text.isEmpty then text else text ++ " ") ++ word)
        start) := by
  induction words generalizing start with
  | nil => rfl
  | cons word words ih => exact ih _

/-- The line for integers that are given as one array. -/
theorem sumLine_eq {invocation : Invocation} {type element : Ty} {numbers : List Int64}
    (given : invocation.arguments = [.array type (numbers.map (.integer element))]) :
    sumLine invocation = .ok ("sum: " ++ integerText (numbers.foldl (· + ·) 0)) := by
  have elements : invocation.elements 0 = .ok (numbers.map (.integer element)) := by
    simp [Invocation.elements, given, Value.elements?]
  simp only [sumLine, elements, bind, Except.bind, total_map_integer]
  rfl

/-- The line for words that are given as one array, when there is a receiver. -/
theorem sayLine_eq {invocation : Invocation} {receiver : Caller} {type : Ty}
    {words : List String} (received : invocation.receiver = some receiver)
    (given : invocation.arguments = [.array type (words.map .string)]) :
    sayLine invocation = .ok (receiver.name ++ " says: " ++ joined words) := by
  have name : invocation.receiverName = .ok receiver.name := by
    simp [Invocation.receiverName, received]
  have elements : invocation.elements 0 = .ok (words.map .string) := by
    simp [Invocation.elements, given, Value.elements?]
  simp only [sayLine, name, elements, bind, Except.bind, joinWords_map_string]
  rfl

/-- The line for two integers. -/
theorem divideLine_eq {invocation : Invocation} {type other : Ty} {dividend divisor : Int64}
    (given : invocation.arguments = [.integer type dividend, .integer other divisor]) :
    divideLine invocation =
      (quotient dividend divisor).map fun result => "divide: " ++ integerText result := by
  have first : invocation.integer 0 = .ok dividend := by
    simp [Invocation.integer, given, Value.integer?]
  have second : invocation.integer 1 = .ok divisor := by
    simp [Invocation.integer, given, Value.integer?]
  simp only [divideLine, first, second, bind, Except.bind]
  cases quotient dividend divisor <;> rfl

/-- A command that is found by name is one of the commands, and has the name. -/
theorem mem_of_command? {name : String} {command : Command}
    (found : command? name = some command) : command ∈ commands ∧ command.name = name := by
  refine ⟨List.mem_of_find?_eq_some found, ?_⟩
  have named := List.find?_some found
  exact of_decide_eq_true named

section Answers

variable {caller : Caller} {tokens : List String} {values : List Value} {command : Command}
  {overload : Overload}

/-- A caller that `say` admits is a user. -/
theorem user_of_admits {parameters : List Parameter} {line : Invocation → Except Fault String}
    (admits : scope.Admits caller (writing (some ⟨userType, false⟩) parameters line)) :
    scope.declarations.isSubtype caller.type userType = true :=
  (admits _ rfl).resolve_left Bool.false_ne_true

/-- **An action that runs answers.**  All that it looks at is there. -/
theorem answers_of_gives (member : command ∈ commands) (listed : overload ∈ command.overloads)
    (admits : scope.Admits caller overload) (gives : scope.Gives overload.parameters tokens values) :
    ∃ line, overload = writing overload.receiver overload.parameters line ∧
      Answers caller command.name tokens
        (line (scope.handOver caller command.name overload values).invocation) := by
  simp only [commands, List.mem_cons, List.not_mem_nil, or_false] at member
  rcases member with rfl | rfl | rfl | rfl | rfl <;>
    simp only [List.mem_cons, List.not_mem_nil, or_false] at listed
  case inl =>
    rcases listed with rfl | rfl
    · obtain ⟨raw, number, rfl, rfl, read⟩ := gives_add_iff.mp gives
      exact ⟨addLine, rfl, .add read⟩
    · obtain ⟨raw, rfl, rfl⟩ := gives_target_iff.mp gives
      exact ⟨targetLine, rfl, .target raw⟩
  case inr.inl =>
    subst listed
    obtain ⟨numbers, rfl, reads⟩ := gives_sum_iff.mp gives
    refine ⟨sumLine, rfl, ?_⟩
    rw [sumLine_eq rfl]
    exact .sum reads
  case inr.inr.inl =>
    subst listed
    obtain rfl := gives_say_iff.mp gives
    have user := user_of_admits admits
    refine ⟨sayLine, rfl, ?_⟩
    rw [sayLine_eq (if_pos user) rfl]
    exact .say tokens user
  case inr.inr.inr.inl =>
    subst listed
    rcases gives_greet_iff.mp gives with ⟨rfl, rfl⟩ | ⟨raw, rfl, rfl⟩
    · exact ⟨greetLine, rfl, .greetCaller⟩
    · exact ⟨greetLine, rfl, .greet raw⟩
  case inr.inr.inr.inr =>
    subst listed
    obtain ⟨first, second, dividend, divisor, rfl, rfl, read, readToo⟩ := gives_divide_iff.mp gives
    refine ⟨divideLine, rfl, ?_⟩
    rw [divideLine_eq rfl]
    exact .divide read readToo

theorem admits_of_no_receiver {parameters : List Parameter}
    {line : Invocation → Except Fault String} :
    scope.Admits caller (writing none parameters line) :=
  fun _ declared => nomatch declared

/-- **An answer is reached.**  Its tokens give values to the parameters of an overload that admits
the caller. -/
theorem Answers.given {name : String} {result : Except Fault String}
    (answers : Answers caller name tokens result) (found : command? name = some command) :
    ∃ overload ∈ command.overloads, scope.Admits caller overload ∧
      ∃ values, scope.Gives overload.parameters tokens values := by
  cases answers with
  | add read =>
      cases found
      exact ⟨_, List.mem_cons_self, admits_of_no_receiver, _,
        gives_add_iff.mpr ⟨_, _, rfl, rfl, read⟩⟩
  | target raw =>
      cases found
      exact ⟨_, List.mem_cons_of_mem _ List.mem_cons_self, admits_of_no_receiver, _,
        gives_target_iff.mpr ⟨raw, rfl, rfl⟩⟩
  | sum reads =>
      cases found
      exact ⟨_, List.mem_cons_self, admits_of_no_receiver, _,
        gives_sum_iff.mpr ⟨_, rfl, reads⟩⟩
  | say _ user =>
      cases found
      refine ⟨_, List.mem_cons_self, ?_, _, gives_say_iff.mpr rfl⟩
      rintro receiver declared
      cases declared
      exact .inr user
  | greetCaller =>
      cases found
      exact ⟨_, List.mem_cons_self, admits_of_no_receiver, _,
        gives_greet_iff.mpr (.inl ⟨rfl, rfl⟩)⟩
  | greet raw =>
      cases found
      exact ⟨_, List.mem_cons_self, admits_of_no_receiver, _,
        gives_greet_iff.mpr (.inr ⟨raw, rfl, rfl⟩)⟩
  | divide read readToo =>
      cases found
      exact ⟨_, List.mem_cons_self, admits_of_no_receiver, _,
        gives_divide_iff.mpr ⟨_, _, _, _, rfl, rfl, read, readToo⟩⟩

/-- **There is at most one answer.** -/
theorem Answers.unique {name : String} {first second : Except Fault String}
    (answers : Answers caller name tokens first) (answersToo : Answers caller name tokens second) :
    first = second := by
  generalize named : name = other at answersToo
  generalize listed : tokens = others at answersToo
  -- only answers of one command to lists of one form are left
  cases answers <;> cases answersToo <;>
    first | exact absurd named (by decide) | cases listed
  case add.add _ read _ readToo => rw [readsInt_rightUnique read readToo]
  case sum.sum _ reads _ readsToo =>
    rw [List.right_unique_forall₂' readsInt_rightUnique reads readsToo]
  case divide.divide read readToo _ _ other otherToo =>
    rw [readsLong_rightUnique read other, readsLong_rightUnique readToo otherToo]
  all_goals rfl

/-- At most one overload of a command takes a call, in whatever scope. -/
theorem exclusive_of_mem_commands (member : command ∈ commands) (scope : Scope) (call : Call) :
    scope.Exclusive call command.overloads := by
  simp only [commands, List.mem_cons, List.not_mem_nil, or_false] at member
  rcases member with rfl | rfl | rfl | rfl | rfl
  case inl => exact Scope.exclusive_of_required call (by decide) (by decide)
  all_goals exact Scope.exclusive_singleton scope call _

end Answers

/-! ## Calls -/

/-- What is written for a line, if there is one. -/
def written : Except Fault String → List Effect
  | .ok text => [.write (text ++ "\n")]
  | .error _ => []

section Calls

variable {resolved : ResolvedCall} {receiver : Option Receiver} {parameters : List Parameter}
  {line : Invocation → Except Fault String} {token : Token} {world : World}

/-- An action that writes a line has finished once it has started. -/
theorem execute_writing (running : world.isRequested token = false)
    (writes : resolved.overload = some (writing receiver parameters line)) :
    resolved.execute token world =
      (.finished ((line resolved.invocation).map fun _ => ()),
        written (line resolved.invocation)) := by
  rw [ResolvedCall.execute_of_running _ running]
  simp only [ResolvedCall.start, writes, writing, Action.immediate]
  cases line resolved.invocation <;> rfl

theorem complete_writing (running : world.isRequested token = false)
    (writes : resolved.overload = some (writing receiver parameters line)) :
    resolved.complete token world =
      (((line resolved.invocation).map fun _ => ()).mapError fun fault =>
        .error resolved.invocation.callee fault.report, written (line resolved.invocation)) := by
  simp only [ResolvedCall.complete, bind, Run.andThen, execute_writing running writes]
  cases line resolved.invocation <;> rfl

end Calls

/-- What a call of a command comes to, beside a trace. -/
inductive Comes (caller : Caller) (name : String) (tokens : List String) (trace : String) :
    Outcome → Prop where
  | answered {text : String} (answers : Answers caller name tokens (.ok text)) :
      Comes caller name tokens trace ⟨0, text ++ "\n", trace⟩
  | faulted {fault : Fault} (answers : Answers caller name tokens (.error fault)) :
      Comes caller name tokens trace
        ⟨2, "", trace ++ (Diagnostic.error name fault.report).print⟩
  | unanswered (failure : Failure) (silent : ∀ result, ¬ Answers caller name tokens result) :
      Comes caller name tokens trace ⟨1, "", trace ++ (failure.addTo .empty).print⟩

/-- What is resolved answers, and what answers is resolved. -/
theorem resolved_answers {settings : Settings} {token : Token} {world : World} {caller : Caller}
    {command : Command} (member : command ∈ commands) {tokens : List String}
    {resolved : ResolvedCall}
    (resolves : (scope.resolve settings token (Scope.tokenCall caller command.name tokens)
      command.overloads world).outcome = .ok resolved) :
    ∃ receiver parameters line,
      resolved.overload = some (writing receiver parameters line) ∧
      resolved.invocation.callee = command.name ∧
      Answers caller command.name tokens (line resolved.invocation) := by
  obtain ⟨overload, listed, admits, values, gives, rfl⟩ :=
    Scope.gives_of_resolves scope_isPlain resolves
  obtain ⟨line, writes, answers⟩ := answers_of_gives member listed admits gives
  exact ⟨_, _, line, congrArg some writes, rfl, answers⟩

theorem silent_of_unresolved {settings : Settings} {token : Token} {world : World}
    (running : world.isRequested token = false) {caller : Caller} {name : String}
    {command : Command} (found : command? name = some command) {tokens : List String}
    {failure : Failure}
    (fails : (scope.resolve settings token (Scope.tokenCall caller command.name tokens)
      command.overloads world).outcome = .error failure) (result : Except Fault String) :
    ¬ Answers caller name tokens result := by
  intro answers
  obtain ⟨member, _⟩ := mem_of_command? found
  obtain ⟨overload, listed, admits, values, gives⟩ := answers.given found
  have resolves : (scope.resolve settings token (Scope.tokenCall caller command.name tokens)
      command.overloads world).outcome =
        .ok (scope.handOver caller command.name overload values) :=
    (Scope.resolves_iff_gives scope_isPlain running
      (exclusive_of_mem_commands member scope _)).mpr
        ⟨overload, listed, admits, values, gives, rfl⟩
  cases fails.symm.trans resolves

section Outcome

variable {settings : Settings} {caller : Caller} {command : Command} {tokens : List String}
  {resolved : ResolvedCall} {effects : List Effect}

/-- The resolution of a call of the tool. -/
abbrev resolution (settings : Settings) (caller : Caller) (command : Command)
    (tokens : List String) : Resolution :=
  scope.resolve settings .never (Scope.tokenCall caller command.name tokens) command.overloads
    .initial

theorem call_of_unresolved {failure : Failure}
    (fails : (resolution settings caller command tokens).outcome = .error failure) :
    call settings caller command tokens =
      ⟨1, "", Record.lines (resolution settings caller command tokens).trace ++
        (failure.addTo .empty).print⟩ := by
  simp only [resolution, Scope.tokenCall] at fails ⊢
  simp only [call, fails]

theorem call_of_completed
    (resolves : (resolution settings caller command tokens).outcome = .ok resolved)
    (completed : resolved.complete .never .initial = (.ok (), effects)) :
    call settings caller command tokens =
      ⟨0, String.join (World.initial.after effects).transcript,
        Record.lines (resolution settings caller command tokens).trace⟩ := by
  have still : (resolution settings caller command tokens).world = .initial :=
    Scope.resolve_world_of_plain scope_isPlain
  simp only [resolution, Scope.tokenCall] at resolves still ⊢
  simp only [call, resolves, still, Run.perform, completed]

theorem call_of_uncompleted {error : Diagnostic}
    (resolves : (resolution settings caller command tokens).outcome = .ok resolved)
    (completed : resolved.complete .never .initial = (.error error, effects)) :
    call settings caller command tokens =
      ⟨2, String.join (World.initial.after effects).transcript,
        Record.lines (resolution settings caller command tokens).trace ++ error.print⟩ := by
  have still : (resolution settings caller command tokens).world = .initial :=
    Scope.resolve_world_of_plain scope_isPlain
  simp only [resolution, Scope.tokenCall] at resolves still ⊢
  simp only [call, resolves, still, Run.perform, completed]

end Outcome

/-- **A call comes to what its command answers.** -/
theorem call_comes (settings : Settings) (caller : Caller) {name : String} {command : Command}
    (found : command? name = some command) (tokens : List String) :
    ∃ records, Comes caller name tokens (Record.lines (Record.admitted settings.mode records))
      (call settings caller command tokens) := by
  obtain ⟨member, rfl⟩ := mem_of_command? found
  obtain ⟨records, trace⟩ := scope.resolve_trace settings .never
    (Scope.tokenCall caller command.name tokens) command.overloads .initial
  refine ⟨records, ?_⟩
  rw [← trace]
  cases outcome : (resolution settings caller command tokens).outcome with
  | error failure =>
      rw [call_of_unresolved outcome]
      exact .unanswered failure (silent_of_unresolved rfl found outcome)
  | ok resolved =>
      obtain ⟨receiver, parameters, line, writes, callee, answers⟩ :=
        resolved_answers member outcome
      have completed := complete_writing (rfl : World.initial.isRequested .never = false) writes
      rw [callee] at completed
      cases said : line resolved.invocation with
      | ok text =>
          rw [said] at answers completed
          rw [call_of_completed outcome completed]
          exact .answered answers
      | error fault =>
          rw [said] at answers completed
          rw [call_of_uncompleted outcome completed]
          exact .faulted answers

/-! ## Runs -/

/-- What stands in front of the output of a command. -/
def Options.front (options : Options) : String := if options.list then listing else ""

section Runs

variable {words : List String} {options : Options} {name : String} {tokens : List String}

/-- A run on a command that is there, by a caller in a role, is a call behind what is listed. -/
theorem run_comes_of_caller (environment : Environment) {caller : Caller}
    (read : Options.initial.read words = .options options (name :: tokens))
    (known : caller? options.role = some caller) (found : (command? name).isSome) :
    ∃ trace outcome, Comes caller name tokens trace outcome ∧
      run environment words = { outcome with out := options.front ++ outcome.out } := by
  obtain ⟨command, found⟩ := Option.isSome_iff_exists.mp found
  obtain ⟨records, comes⟩ := call_comes (settingsOf environment options) caller found tokens
  refine ⟨_, _, comes, ?_⟩
  simp only [run, read, runWith, callByName, known, found, Options.front]

theorem Comes.of_line {caller : Caller} {trace text : String} {outcome : Outcome}
    (comes : Comes caller name tokens trace outcome)
    (answers : Answers caller name tokens (.ok text)) :
    outcome.status = 0 ∧ outcome.out = text ++ "\n" := by
  cases comes with
  | answered other =>
      cases answers.unique other
      exact ⟨rfl, rfl⟩
  | faulted other => cases answers.unique other
  | unanswered _ silent => exact absurd answers (silent _)

end Runs

end CommandLine

end OverloadResolution
