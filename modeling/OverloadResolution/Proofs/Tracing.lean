import OverloadResolution.Proofs.ToolContract

/-!
# What tracing changes

A trace tells of a resolution and takes no part in it: resolutions that differ in the mode alone
agree in all but the trace (`Scope.resolve_eq_withTrace`).

For the tool this says what a trace costs its users.  Command lines may differ in valid trace
options wherever an option may stand (`Retraced`); then reading them comes to the same but for the
mode (`withoutMode_read_eq`).  The mode may also come from the environment.  Whatever it is, the
status and the output are those of a run that traces nothing, and the error stream is the one of
that run behind the trace of the resolution that the run reaches (`traceOf`, `Shows`, `run_traced`).
-/

set_option autoImplicit false

namespace OverloadResolution

/-! ## Resolutions in different modes -/

namespace Scope

variable (scope : Scope) (folds : Bool) (token : Token) (call : Call) (overloads : List Overload)
  (world : World)

/-- **The mode of a resolution decides its trace only.** -/
theorem resolve_eq_withTrace (mode other : TraceMode) :
    scope.resolve ⟨mode, folds⟩ token call overloads world =
      { scope.resolve ⟨other, folds⟩ token call overloads world with
        trace := (scope.resolve ⟨mode, folds⟩ token call overloads world).trace } := by
  unfold resolve
  dsimp only
  split
  · rfl
  · split
    · rfl
    · rfl
    · split <;> rfl

/-- In the mode that traces nothing there is no trace. -/
theorem resolve_trace_off :
    (scope.resolve ⟨.off, folds⟩ token call overloads world).trace = [] := by
  obtain ⟨records, trace⟩ := scope.resolve_trace ⟨.off, folds⟩ token call overloads world
  rw [trace, Record.admitted_off]

end Scope

namespace CommandLine

/-! ## Command lines that differ in trace options -/

/-- A word that says how much to trace. -/
def IsTraceOption (word : String) : Prop :=
  word = "--trace" ∨ ∃ text, word = "--trace=" ++ text ∧ (TraceMode.ofWord? text).isSome = true

/-- An option that is a word of its own: neither does it want the next word, nor does it end the
options. -/
def IsLoneOption (word : String) : Prop :=
  (∃ text, word = "--" ++ text) ∧ word ≠ "--as" ∧ word ≠ "--"

/-- Command lines that differ at most in valid trace options, each of them at a place where an
option may stand.  The value of another option is no such place, and nothing is after the point from
which on the two agree. -/
inductive Retraced : List String → List String → Prop where
  | same (words : List String) : Retraced words words
  | left {option : String} {words others : List String} (valid : IsTraceOption option)
      (rest : Retraced words others) : Retraced (option :: words) others
  | right {option : String} {words others : List String} (valid : IsTraceOption option)
      (rest : Retraced words others) : Retraced words (option :: others)
  | lone {option : String} {words others : List String} (lone : IsLoneOption option)
      (rest : Retraced words others) : Retraced (option :: words) (option :: others)
  | role (role : String) {words others : List String} (rest : Retraced words others) :
      Retraced ("--as" :: role :: words) ("--as" :: role :: others)

theorem after?_append (front text : String) : after? front (front ++ text) = some text := by
  simp [after?]

/-- A mode that is spelled behind its option is the one that is read. -/
theorem ofString_of_ofWord? {text : String} {mode : TraceMode}
    (recognised : TraceMode.ofWord? text = some mode) :
    Word.ofString ("--trace=" ++ text) = .trace mode := by
  have apart : ∀ word : String, (∀ chars, "--trace=".toList ++ chars ≠ word.toList) →
      "--trace=" ++ text ≠ word := by
    rintro word other rfl
    exact other text.toList String.toList_append.symm
  rw [Word.ofString, if_neg (apart _ (by simp)), if_neg (apart _ (by simp)),
    if_neg (apart _ (by simp)), after?_append]
  simp [recognised]

theorem ofString_of_isTraceOption {word : String} (valid : IsTraceOption word) :
    ∃ mode, Word.ofString word = .trace mode := by
  rcases valid with rfl | ⟨text, rfl, recognised⟩
  · exact ⟨.summary, rfl⟩
  · obtain ⟨mode, known⟩ := Option.isSome_iff_exists.mp recognised
    exact ⟨mode, ofString_of_ofWord? known⟩

theorem ofString_of_isLoneOption {word : String} (lone : IsLoneOption word) :
    Word.ofString word ≠ .role ∧ Word.ofString word ≠ .terminator ∧
      Word.ofString word ≠ .command := by
  obtain ⟨⟨text, dashed⟩, role, terminator⟩ := lone
  have front : (after? "--" word).isSome = true := by rw [dashed, after?_append]; rfl
  unfold Word.ofString
  rw [if_neg role, if_neg terminator, if_pos front]
  split_ifs
  · simp
  · simp
  · simp
  · split
    · split <;> simp
    · simp

/-- What reading comes to, whatever the mode. -/
def Reading.withoutMode : Reading → Reading
  | .options given rest => .options { given with mode := none } rest
  | reading => reading

/-- Readings that come to the same are one, or end with options that differ in the mode only. -/
theorem Reading.eq_or_of_withoutMode_eq {reading other : Reading}
    (same : reading.withoutMode = other.withoutMode) :
    reading = other ∨ ∃ options given rest, reading = .options options rest ∧
      other = .options given rest ∧
        { options with mode := none } = { given with mode := none } := by
  cases reading with
  | options options rest =>
      cases other with
      | options given others =>
          obtain ⟨agree, rfl⟩ := Reading.options.inj same
          exact .inr ⟨options, given, rest, rfl, rfl, agree⟩
      | version | wrong => cases same
  | version =>
      cases other with
      | version => exact .inl rfl
      | wrong | options => cases same
  | wrong error =>
      cases other with
      | wrong => exact .inl same
      | version | options => cases same

section Reading

variable {options : Options} {word : String} {rest : List String}

theorem read_of_list (listing : Word.ofString word = .list) :
    options.read (word :: rest) = Options.read { options with list := true } rest := by
  rw [Options.read.eq_def]
  simp only [listing]

theorem read_of_trace {mode : TraceMode} (tracing : Word.ofString word = .trace mode) :
    options.read (word :: rest) = Options.read { options with mode := some mode } rest := by
  rw [Options.read.eq_def]
  simp only [tracing]

theorem read_of_role {role : String} (naming : Word.ofString word = .role) :
    options.read (word :: role :: rest) = Options.read { options with role := role } rest := by
  rw [Options.read.eq_def]
  simp only [naming]

end Reading

/-- What was read about the mode before has no part in what else reading comes to. -/
theorem withoutMode_read (options : Options) (mode : Option TraceMode) (words : List String) :
    (Options.read { options with mode := mode } words).withoutMode =
      (options.read words).withoutMode := by
  fun_induction Options.read options words generalizing mode with
  | case1 => rfl
  | case2 options word rest version =>
      rw [Options.read.eq_def]
      simp only [version]
  | case3 options word rest list ih => rw [read_of_list list, ← ih mode]
  | case4 options word rest mode tracing => rw [read_of_trace tracing]
  | case5 options word rest text bad =>
      rw [Options.read.eq_def]
      simp only [bad]
  | case6 options word naming =>
      rw [Options.read.eq_def]
      simp only [naming]
  | case7 options word naming role rest ih => rw [read_of_role naming, ← ih mode]
  | case8 options word rest terminator =>
      rw [Options.read.eq_def]
      simp only [terminator]
      rfl
  | case9 options word rest unknown =>
      rw [Options.read.eq_def]
      simp only [unknown]
  | case10 options word rest command =>
      rw [Options.read.eq_def]
      simp only [command]
      rfl

/-- **Trace options that are read come to nothing but a mode.** -/
theorem withoutMode_read_eq {words others : List String} (retraced : Retraced words others)
    (options : Options) :
    (options.read words).withoutMode = (options.read others).withoutMode := by
  induction retraced generalizing options with
  | same words => rfl
  | left valid _ ih =>
      obtain ⟨mode, tracing⟩ := ofString_of_isTraceOption valid
      rw [read_of_trace tracing, withoutMode_read, ih]
  | right valid _ ih =>
      obtain ⟨mode, tracing⟩ := ofString_of_isTraceOption valid
      rw [read_of_trace tracing, ih]
      exact (withoutMode_read options (some mode) _).symm
  | @lone option words others lone _ ih =>
      obtain ⟨role, terminator, command⟩ := ofString_of_isLoneOption lone
      cases said : Word.ofString option with
      | list => rw [read_of_list said, read_of_list said, ih]
      | trace mode => rw [read_of_trace said, read_of_trace said, ih]
      | version | badTrace | unknown =>
          -- Reading ends here, whatever is behind.
          rw [Options.read.eq_def, Options.read.eq_def options (option :: others)]
          simp only [said]
      | role => exact absurd said role
      | terminator => exact absurd said terminator
      | command => exact absurd said command
  | role role _ ih => rw [read_of_role rfl, read_of_role rfl, ih]

/-! ## Outcomes -/

/-- The trace of resolving a call in a role.  There is none if the role or the command is not
known. -/
def traceOfCall (settings : Settings) (role name : String) (tokens : List String) : List Record :=
  match caller? role, command? name with
  | some caller, some command =>
    (scope.resolve settings .never ⟨caller, name, tokens.map Argument.ofToken⟩ command.overloads
      .initial).trace
  | _, _ => []

/-- The trace of the resolution that a run reaches on options and the words behind them.  A run
without a command reaches none. -/
def traceWith (environment : Environment) (options : Options) (rest : List String) : List Record :=
  match rest with
  | [] => []
  | name :: tokens => traceOfCall (settingsOf environment options) options.role name tokens

/-- The trace of the resolution that a run reaches.  A run that ends with its options reaches
none. -/
def traceOf (environment : Environment) (words : List String) : List Record :=
  match Options.initial.read words with
  | .options options rest => traceWith environment options rest
  | .version | .wrong _ => []

/-- One outcome is another with the records of a trace in front of what is on the error stream. -/
structure Shows (records : List Record) (shown plain : Outcome) : Prop where
  status : shown.status = plain.status
  out : shown.out = plain.out
  err : shown.err = Record.lines records ++ plain.err

theorem Shows.refl (outcome : Outcome) : Shows [] outcome outcome := by
  refine ⟨rfl, rfl, ?_⟩
  simp [Record.lines]

/-- Output that goes in front of both leaves them alike. -/
theorem Shows.behind {records : List Record} {shown plain : Outcome}
    (shows : Shows records shown plain) (front : String) :
    Shows records { shown with out := front ++ shown.out }
      { plain with out := front ++ plain.out } :=
  ⟨shows.status, congrArg (front ++ ·) shows.out, shows.err⟩

/-- Records in front of an outcome without a trace. -/
theorem Shows.of_lines (status : Nat) (out err : String) (records : List Record) :
    Shows records ⟨status, out, Record.lines records ++ err⟩
      ⟨status, out, Record.lines [] ++ err⟩ := by
  refine ⟨rfl, rfl, ?_⟩
  simp [Record.lines]

/-- A call that is traced shows what it comes to without a trace. -/
theorem call_shows (mode : TraceMode) (folds : Bool) (caller : Caller) (command : Command)
    (tokens : List String) :
    Shows (scope.resolve ⟨mode, folds⟩ .never
        ⟨caller, command.name, tokens.map Argument.ofToken⟩ command.overloads .initial).trace
      (call ⟨mode, folds⟩ caller command tokens) (call ⟨.off, folds⟩ caller command tokens) := by
  have shown := scope.resolve_eq_withTrace folds .never
    ⟨caller, command.name, tokens.map Argument.ofToken⟩ command.overloads .initial mode .off
  have plain := scope.resolve_trace_off folds .never
    ⟨caller, command.name, tokens.map Argument.ofToken⟩ command.overloads .initial
  unfold call
  dsimp only
  rw [shown]
  generalize (scope.resolve ⟨mode, folds⟩ .never
    ⟨caller, command.name, tokens.map Argument.ofToken⟩ command.overloads .initial).trace = records
  generalize scope.resolve ⟨.off, folds⟩ .never
    ⟨caller, command.name, tokens.map Argument.ofToken⟩ command.overloads .initial = resolution
      at plain ⊢
  rw [plain]
  dsimp only
  cases resolution.outcome with
  | error failure => exact .of_lines _ _ _ records
  | ok resolved =>
      dsimp only
      cases ((resolved.complete .never).perform resolution.world).1 with
      | error error => exact .of_lines _ _ _ records
      | ok _ => exact ⟨rfl, rfl, by simp [Record.lines]⟩

theorem callByName_shows (mode : TraceMode) (folds : Bool) (role name : String)
    (tokens : List String) :
    Shows (traceOfCall ⟨mode, folds⟩ role name tokens)
      (callByName ⟨mode, folds⟩ role name tokens)
      (callByName ⟨.off, folds⟩ role name tokens) := by
  unfold callByName traceOfCall
  cases caller? role with
  | none => exact .refl _
  | some caller =>
      cases found : command? name with
      | none => exact .refl _
      | some command =>
          obtain ⟨_, rfl⟩ := mem_of_command? found
          exact call_shows mode folds caller command tokens

/-- The environment says of the receiver what it says, whatever is traced. -/
theorem settingsOf_foldsReceiver (trace other fold : Option String) (options given : Options) :
    (settingsOf ⟨trace, fold⟩ options).foldsReceiver =
      (settingsOf ⟨other, fold⟩ given).foldsReceiver := rfl

/-- What is run on options shows what is run on them with nothing to trace. -/
theorem runWith_shows {trace other fold : Option String} {options given : Options}
    (agree : { options with mode := none } = { given with mode := none })
    (off : (settingsOf ⟨other, fold⟩ given).mode = .off) (rest : List String) :
    Shows (traceWith ⟨trace, fold⟩ options rest) (runWith ⟨trace, fold⟩ options rest)
      (runWith ⟨other, fold⟩ given rest) := by
  obtain ⟨list, mode, role⟩ := options
  obtain ⟨_, mode', _⟩ := given
  cases agree
  cases rest with
  | nil => exact .refl _
  | cons name tokens =>
      -- The two settings fold alike, so all that is left between them is the mode.
      have folds := settingsOf_foldsReceiver trace other fold ⟨list, mode, role⟩ ⟨list, mode', role⟩
      unfold runWith traceWith
      generalize settingsOf ⟨trace, fold⟩ ⟨list, mode, role⟩ = settings at folds ⊢
      generalize settingsOf ⟨other, fold⟩ ⟨list, mode', role⟩ = plain at folds off ⊢
      obtain ⟨shownMode, foldsReceiver⟩ := settings
      obtain ⟨_, _⟩ := plain
      cases folds
      cases off
      exact (callByName_shows shownMode foldsReceiver role name tokens).behind _

/-! ## Runs -/

/-- **Tracing changes nothing but what it adds to the error stream.**  Whatever the environment says
about the trace, and whatever valid trace options stand where options are read, a run has the status
and the output of the run that traces nothing, and on its error stream is the trace of the
resolution that it reaches, each record with its mark in front, and then what that run has there. -/
theorem run_traced {trace other fold : Option String} {words others : List String}
    (retraced : Retraced words others) (untraced : Untraced ⟨other, fold⟩ others) :
    (run ⟨trace, fold⟩ words).status = (run ⟨other, fold⟩ others).status ∧
      (run ⟨trace, fold⟩ words).out = (run ⟨other, fold⟩ others).out ∧
      (run ⟨trace, fold⟩ words).err =
        String.join ((traceOf ⟨trace, fold⟩ words).map fun record =>
          "[arbiter] " ++ record.text ++ "\n") ++ (run ⟨other, fold⟩ others).err := by
  have same := withoutMode_read_eq retraced .initial
  suffices shows : Shows (traceOf ⟨trace, fold⟩ words) (run ⟨trace, fold⟩ words)
      (run ⟨other, fold⟩ others) from
    ⟨shows.status, shows.out, shows.err⟩
  unfold run traceOf
  obtain same | ⟨options, given, rest, read, readToo, agree⟩ := Reading.eq_or_of_withoutMode_eq same
  · rw [same]
    cases readToo : Options.initial.read others with
    | version => exact .refl _
    | wrong error => exact .refl _
    | options options rest => exact runWith_shows rfl (untraced options rest readToo) rest
  · rw [read, readToo]
    exact runWith_shows agree (untraced given rest readToo) rest

/-- A user who asks for a trace twice over, against the environment, hears the same said. -/
theorem say_traced :
    Retraced ["--trace=verbose", "--as", "user", "--trace", "say", "hi"]
        ["--as", "user", "say", "hi"] ∧
      Untraced ⟨none, some "on"⟩ ["--as", "user", "say", "hi"] ∧
      (run ⟨some "summary", some "on"⟩
          ["--trace=verbose", "--as", "user", "--trace", "say", "hi"]).out =
        (run ⟨none, some "on"⟩ ["--as", "user", "say", "hi"]).out ∧
      (run ⟨some "summary", some "on"⟩
          ["--trace=verbose", "--as", "user", "--trace", "say", "hi"]).err =
        String.join ((traceOf ⟨some "summary", some "on"⟩
          ["--trace=verbose", "--as", "user", "--trace", "say", "hi"]).map fun record =>
            "[arbiter] " ++ record.text ++ "\n") ++
          (run ⟨none, some "on"⟩ ["--as", "user", "say", "hi"]).err := by
  have verbose : IsTraceOption "--trace=verbose" := .inr ⟨"verbose", by decide, by decide +kernel⟩
  have retraced : Retraced ["--trace=verbose", "--as", "user", "--trace", "say", "hi"]
      ["--as", "user", "say", "hi"] :=
    .left verbose (.role "user" (.left (.inl rfl) (.same _)))
  have untraced : Untraced ⟨none, some "on"⟩ ["--as", "user", "say", "hi"] := by
    intro options rest read
    cases read
    rfl
  exact ⟨retraced, untraced, (run_traced retraced untraced).2⟩

end CommandLine

end OverloadResolution
