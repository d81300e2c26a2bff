import OverloadResolution.Proofs.Readiness
import OverloadResolution.Proofs.TokenCalls
import OverloadResolution.Registry.Builtin

/-!
# Whom a failed conversion blames

The arguments of a chosen overload are converted one after another, each in the world that those
before it have left behind (`Assessment.worldAt`).  In that world an argument may fail
(`Assessment.FailsAt`), and nothing that comes after a failure is looked at any more.  As long as
nobody requests a cancellation, a resolution fails to convert exactly if some argument fails, and
then it blames the first one that does: its own token, the parameter that takes it, and the message
that it failed with (`Scope.Blames`, `Scope.resolve_blamesFirst`).

The first to fail is determined by the uses alone.  Where uses have been converted none of them
fails (`Converts.not_failsBy`), so the use that stops the loop is the least that does.
-/

set_option autoImplicit false

namespace OverloadResolution

/-! ## The world at each argument -/

/-- The world after a use, whether or not the code that it calls for answers with an error. -/
def Use.worldAfter (context : ReadContext) (world : World) (use : Use) : World :=
  match use.conversion? with
  | some conversion => ((conversion.run context).perform world).2
  | none => world

namespace Assessment

/-- The world in which the use of the argument at an index begins, when the uses are carried out one
after another. -/
def worldAt (context : ReadContext) (world : World) (assessment : Assessment) (index : Nat) :
    World :=
  (assessment.uses.take index).foldl (Use.worldAfter context) world

/-- The argument at an index fails to be converted in the world in which its use begins, and a
message explains why. -/
def FailsAt (context : ReadContext) (world : World) (assessment : Assessment) (index : Nat)
    (message : String) : Prop :=
  ∃ use, assessment.uses[index]? = some use ∧
    use.FailsBy context (assessment.worldAt context world index) message

end Assessment

section Uses

variable {context : ReadContext} {first last world : World} {use : Use} {uses : List Use}
  {values : List Value} {message other : String}

theorem Use.worldAfter_of_asIs (context : ReadContext) (world : World) (direct : use.fit = .asIs) :
    use.worldAfter context world = world := by
  simp [worldAfter, conversion?, direct]

theorem Use.worldAfter_of_called {conversion : Conversion} {answer : Except Diagnostic Value}
    {next : World} (called : use.conversion? = some conversion)
    (answered : (conversion.run context).perform world = (answer, next)) :
    use.worldAfter context world = next := by
  simp [worldAfter, called, answered]

/-- An argument that fits as it is never fails. -/
theorem Use.not_failsBy_of_asIs (direct : use.fit = .asIs) :
    ¬ use.FailsBy context world message := by
  intro fails
  cases fails with
  | answered called => cases (Ready.asIs direct).conversion?_eq.symm.trans called
  | unsupplied lacking =>
      obtain ⟨index, offer, through, _⟩ := lacking
      cases direct.symm.trans through

/-- A use that calls for code fails if that code answers with an error, and only then. -/
theorem Use.failsBy_iff_of_called {conversion : Conversion}
    (called : use.conversion? = some conversion) :
    use.FailsBy context world message ↔
      ∃ error, ((conversion.run context).perform world).1 = .error error ∧
        message = error.message := by
  constructor
  · intro fails
    cases fails with
    | @answered other error otherCalled erred =>
        cases called.symm.trans otherCalled
        exact ⟨error, erred, rfl⟩
    | unsupplied lacking => cases called.symm.trans (Ready.unsupplied lacking).conversion?_eq
  · rintro ⟨error, erred, rfl⟩
    exact .answered called erred

/-- A use fails with one message at most. -/
theorem Use.FailsBy.unique (fails : use.FailsBy context world message)
    (failsToo : use.FailsBy context world other) : message = other := by
  cases fails with
  | answered called erred =>
      obtain ⟨error, erredToo, rfl⟩ := (failsBy_iff_of_called called).mp failsToo
      cases erred.symm.trans erredToo
      rfl
  | unsupplied lacking =>
      cases failsToo with
      | answered called => cases called.symm.trans (Ready.unsupplied lacking).conversion?_eq
      | unsupplied => rfl

/-- Uses that have been converted leave behind the world that their conversions lead to. -/
theorem Converts.last_eq (converts : Converts context first uses values last) :
    last = uses.foldl (Use.worldAfter context) first := by
  induction converts with
  | done => rfl
  | asIs direct _ ih => rw [List.foldl_cons, Use.worldAfter_of_asIs context _ direct, ih]
  | convert called answered _ ih =>
      rw [List.foldl_cons, Use.worldAfter_of_called called answered, ih]

/-- **Of uses that have been converted none fails.** -/
theorem Converts.not_failsBy (converts : Converts context first uses values last) {index : Nat}
    (found : uses[index]? = some use) :
    ¬ use.FailsBy context ((uses.take index).foldl (Use.worldAfter context) first) message := by
  induction converts generalizing index with
  | done => cases found
  | asIs direct _ ih =>
      cases index with
      | zero =>
          cases found
          exact Use.not_failsBy_of_asIs direct
      | succ index =>
          rw [List.take_succ_cons, List.foldl_cons, Use.worldAfter_of_asIs context _ direct]
          exact ih found
  | convert called answered _ ih =>
      cases index with
      | zero =>
          cases found
          rw [List.take_zero, List.foldl_nil, Use.failsBy_iff_of_called called, answered]
          rintro ⟨error, erred, _⟩
          cases erred
      | succ index =>
          rw [List.take_succ_cons, List.foldl_cons, Use.worldAfter_of_called called answered]
          exact ih found

end Uses

/-- An argument fails with one message at most. -/
theorem Assessment.FailsAt.unique {context : ReadContext} {world : World} {assessment : Assessment}
    {index : Nat} {message other : String}
    (fails : assessment.FailsAt context world index message)
    (failsToo : assessment.FailsAt context world index other) : message = other := by
  obtain ⟨use, found, fails⟩ := fails
  obtain ⟨_, foundToo, failsToo⟩ := failsToo
  cases found.symm.trans foundToo
  exact fails.unique failsToo

/-! ## The parameter that takes an argument -/

namespace Scope

variable {scope : Scope} {parameters : List Parameter} {position : Nat}
  {arguments : List Argument} {bindings : List Binding}

/-- Without arguments there is nothing to be done. -/
theorem Binds.tasks_eq_nil (binds : scope.Binds parameters position [] bindings) :
    bindings.flatMap Binding.tasks = [] := by
  have none := binds.uses_eq
  rw [takings_none, List.flatMap_eq_nil_iff] at none
  refine List.flatMap_eq_nil_iff.mpr fun binding member => ?_
  rw [Binding.tasks, none binding member, List.map_nil]

/-- **The argument at an index is converted for the parameter that takes it.** -/
theorem Binds.taker?_eq (binds : scope.Binds parameters position arguments bindings) {index : Nat}
    {parameter : Parameter} {use : Use}
    (found : (bindings.flatMap Binding.tasks)[index]? = some (parameter, use)) :
    Parameter.taker? parameters index = some parameter := by
  induction binds generalizing index with
  | nil => cases found
  | many vararg rest _ =>
      rw [List.flatMap_cons, rest.tasks_eq_nil, List.append_nil] at found
      obtain ⟨_, _, same⟩ := List.mem_map.mp (List.mem_of_getElem? found)
      cases same
      exact Parameter.taker?_cons_vararg vararg index
  | one single _ ih =>
      cases index with
      | zero =>
          cases found
          exact Parameter.taker?_cons_single_zero single
      | succ index =>
          rw [Parameter.taker?_cons_single_succ single]
          exact ih found
  | skipped _ _ rest _ =>
      have none : ([] : List Task)[index]? = some (parameter, use) := by
        rw [← rest.tasks_eq_nil]
        exact found
      cases none

/-! ## The first argument to fail -/

/-- A resolution fails to convert the argument at an index, and blames it with a message. -/
structure Blames (scope : Scope) (token : Token) (call : Call) (overload : Overload)
    (considered : Nat) (world : World) (resolution : Resolution) (index : Nat) (message : String) :
    Prop where
  /-- The failure names the parameter that takes the argument, the token of the argument if it has
  one, and the message; there is no resolved call. -/
  outcome : ∃ argument parameter, call.arguments[index]? = some argument ∧
    Parameter.taker? overload.parameters index = some parameter ∧
    resolution.outcome = .error
      { Failure.ofKind .conversion call.callee considered with
        parameter := some parameter
        raw := argument.content.raw?
        reason := message }
  /-- Every argument before it has been converted. -/
  converted : ∃ values, Converts ⟨call.caller, token⟩ world
    ((scope.assess call overload).uses.take index) values
    ((scope.assess call overload).worldAt ⟨call.caller, token⟩ world index)
  /-- No code that an argument after it calls for has run. -/
  performed : resolution.performed.map Performed.key =
    ((scope.assess call overload).uses.take (index + 1)).flatMap Use.planned

variable {settings : Settings} {token : Token} {call : Call} {overloads : List Overload}
  {overload : Overload} {world : World} {failure : Failure}

/-- **A failed conversion blames the first argument that fails.** -/
theorem blames_of_converted {records : List Record} {considered place : Nat}
    (matched : scope.Viable call overload)
    (failed : (converted settings records ⟨call, considered, token⟩ place
      (scope.assess call overload) world).outcome = .error failure)
    (conversion : failure.kind = .conversion) :
    ∃ index message,
      (scope.assess call overload).FailsAt ⟨call.caller, token⟩ world index message ∧
      (∀ earlier < index, ∀ other,
        ¬ (scope.assess call overload).FailsAt ⟨call.caller, token⟩ world earlier other) ∧
      scope.Blames token call overload considered world
        (converted settings records ⟨call, considered, token⟩ place (scope.assess call overload)
          world) index message := by
  obtain ⟨done, parameter, use, rest, values, middle, message, parts, converts, advances, fails,
    rfl, final⟩ := Job.failsBy_of_convert matched.ready failed conversion
  have uses : (scope.assess call overload).uses =
      done.map Prod.snd ++ use :: rest.map Prod.snd := by
    rw [← Job.map_snd_tasks, parts, List.map_append, List.map_cons]
  have before : (scope.assess call overload).uses.take done.length = done.map Prod.snd := by
    rw [uses, List.take_left' (List.length_map _)]
  have reached : (scope.assess call overload).worldAt ⟨call.caller, token⟩ world done.length =
      middle.world := by
    rw [Assessment.worldAt, before]
    exact converts.last_eq.symm
  have found : (scope.assess call overload).uses[done.length]? = some use := by
    rw [uses]
    simp
  refine ⟨done.length, message, ⟨use, found, ?_⟩, ?_, ?_⟩
  · rw [reached]
    exact fails
  · rintro earlier less other ⟨spared, sparedFound, sparedFails⟩
    have inside : earlier < (done.map Prod.snd).length := by
      rw [List.length_map]
      exact less
    rw [uses, List.getElem?_append_left inside] at sparedFound
    rw [Assessment.worldAt, uses, List.take_append_of_le_length (Nat.le_of_lt inside)]
      at sparedFails
    exact converts.not_failsBy sparedFound sparedFails
  · have taken : (Job.tasks (scope.assess call overload))[done.length]? =
        some (parameter, use) := by
      rw [parts]
      simp
    have given := found
    rw [assess_uses matched, getElem?_takings] at given
    obtain ⟨argument, present, used⟩ := Option.bind_eq_some_iff.mp given
    obtain ⟨taker, _, rfl⟩ := Option.map_eq_some_iff.mp used
    refine ⟨⟨argument, parameter, present, (assess_binds matched).taker?_eq taken, failed⟩,
      ⟨values, ?_⟩, ?_⟩
    · rw [before, reached]
      exact converts
    · obtain ⟨ran, performed, _, keys⟩ := advances.trans final
      have recorded : (converted settings records ⟨call, considered, token⟩ place
          (scope.assess call overload) world).performed = ran := performed
      rw [recorded, keys, List.take_add_one, before, found, List.flatMap_append, List.flatMap_map,
        Option.toList_some, List.flatMap_singleton]

/-- A conversion that nobody cancels and that fails blames an argument; one that succeeds finds no
argument to blame. -/
theorem failsWith_or_not_failsAt {records : List Record} {considered place : Nat}
    (undisturbed : (converted settings records ⟨call, considered, token⟩ place
      (scope.assess call overload) world).world.isRequested token = false) :
    (∃ failure, (converted settings records ⟨call, considered, token⟩ place
        (scope.assess call overload) world).outcome = .error failure ∧
      failure.kind = .conversion) ∨
    ((∃ resolved, (converted settings records ⟨call, considered, token⟩ place
        (scope.assess call overload) world).outcome = .ok resolved) ∧
      ∀ index message,
        ¬ (scope.assess call overload).FailsAt ⟨call.caller, token⟩ world index message) := by
  let job : Job := ⟨call, considered, token⟩
  cases outcome : (job.convert (scope.assess call overload) world).1 with
  | error failure =>
      refine .inl ⟨failure, outcome, ?_⟩
      refine (Job.convert_reports outcome).kind.resolve_left fun cancelled => ?_
      cases undisturbed.symm.trans ((Job.convert_cancelled_iff outcome).mp cancelled)
  | ok resolved =>
      obtain ⟨values, _, run⟩ := Job.convert_run_of_ok outcome
      have converts := run.converts
      rw [Job.map_snd_tasks] at converts
      refine .inr ⟨⟨resolved, outcome⟩, ?_⟩
      rintro index message ⟨use, found, fails⟩
      exact converts.not_failsBy found fails

/-- **If nobody requests a cancellation, the first argument that fails is blamed.**  Where one
overload leads alone, its conversion fails exactly if some argument does, and the failure is about
the first of them. -/
theorem resolve_blamesFirst {position : Nat} (found : overloads[position]? = some overload)
    (sole : scope.SoleLeader call overloads position)
    (undisturbed : (scope.resolve settings token call overloads world).world.isRequested token =
      false) :
    ((scope.resolve settings token call overloads world).FailsWith .conversion ↔
      ∃ index message,
        (scope.assess call overload).FailsAt ⟨call.caller, token⟩ world index message) ∧
    ∀ index message,
      IsLeast {index | ∃ message,
        (scope.assess call overload).FailsAt ⟨call.caller, token⟩ world index message} index →
      (scope.assess call overload).FailsAt ⟨call.caller, token⟩ world index message →
        scope.Blames token call overload overloads.length world
          (scope.resolve settings token call overloads world) index message := by
  have running : world.isRequested token = false := by
    apply eq_false_of_ne_true
    intro requested
    rw [resolve_of_requested scope settings call overloads requested] at undisturbed
    cases requested.symm.trans undisturbed
  rw [resolve_of_soleLeader settings running found sole] at undisturbed ⊢
  rcases failsWith_or_not_failsAt undisturbed with
    ⟨failure, failed, conversion⟩ | ⟨⟨resolved, resolves⟩, spared⟩
  · obtain ⟨first, reason, fails, before, blames⟩ :=
      blames_of_converted (sole.viable found) failed conversion
    refine ⟨iff_of_true ⟨failure, failed, conversion⟩ ⟨first, reason, fails⟩, ?_⟩
    intro index message least failsToo
    obtain rfl : index = first := by
      refine Nat.le_antisymm (least.2 ⟨reason, fails⟩) (Nat.le_of_not_lt fun earlier => ?_)
      exact before index earlier message failsToo
    obtain rfl := fails.unique failsToo
    exact blames
  · refine ⟨iff_of_false ?_ ?_, ?_⟩
    · rintro ⟨failure, failed, _⟩
      cases resolves.symm.trans failed
    · rintro ⟨index, message, fails⟩
      exact spared index message fails
    · intro index message _ fails
      exact absurd fails (spared index message)

/-- Takes a label and then numbers. -/
def tally : Overload :=
  ⟨none, [.required "label" .string, .vararg (some "numbers") .int false false], none⟩

/-- A call with a label and three tokens, the second of which is no number. -/
def tallying : Call := echoing [.ofToken "a", .ofToken "1", .ofToken "x", .ofToken "2"]

/-- The token that is no number is blamed, although a number comes after it. -/
theorem second_number_blamed :
    ([tally][0]? = some tally ∧ SoleLeader ⟨.initial, some .builtin⟩ tallying [tally] 0 ∧
      (resolve ⟨.initial, some .builtin⟩ .initial .never tallying [tally]
        .initial).world.isRequested .never = false) ∧
    Blames ⟨.initial, some .builtin⟩ .never tallying tally 1 .initial
      (resolve ⟨.initial, some .builtin⟩ .initial .never tallying [tally] .initial) 2
      "cannot parse 'x' as Int" := by
  have sole : SoleLeader ⟨.initial, some .builtin⟩ tallying [tally] 0 :=
    (exclusive_singleton _ _ _).soleLeader rfl (by decide +kernel)
  let number : Reader := .integral .int (-2147483648) 2147483647
  have uses : (assess ⟨.initial, some .builtin⟩ tallying tally).uses =
      [⟨0, .ofToken "a", .asIs⟩, ⟨1, .ofToken "1", .read (some number)⟩,
        ⟨2, .ofToken "x", .read (some number)⟩, ⟨3, .ofToken "2", .read (some number)⟩] := by
    with_unfolding_all rfl
  have fails : (assess ⟨.initial, some .builtin⟩ tallying tally).FailsAt
      ⟨tallying.caller, .never⟩ .initial 2 "cannot parse 'x' as Int" := by
    refine ⟨⟨2, .ofToken "x", .read (some number)⟩, ?_, ?_⟩
    · rw [uses]
      rfl
    · exact (Use.failsBy_iff_of_called rfl).mpr ⟨Reader.unreadable "x" "Int", rfl, rfl⟩
  refine ⟨⟨rfl, sole, rfl⟩, (resolve_blamesFirst rfl sole rfl).2 2 _ ⟨⟨_, fails⟩, ?_⟩ fails⟩
  rintro index ⟨message, use, found, failed⟩
  rw [uses] at found
  by_contra before
  obtain rfl | rfl : index = 0 ∨ index = 1 := by omega
  · cases found
    exact Use.not_failsBy_of_asIs rfl failed
  · cases found
    obtain ⟨error, erred, _⟩ := (Use.failsBy_iff_of_called rfl).mp failed
    cases erred

end Scope

end OverloadResolution
