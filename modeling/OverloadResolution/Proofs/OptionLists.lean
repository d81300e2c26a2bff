import OverloadResolution.Proofs.Tracing

/-!
# Lists of options

A command line starts with options, and what they come to is read off their list: whether the
listing is asked for at all, and the last of the roles and of the modes (`Choice.given`).  One
option is read for what it says (`Choice.read_words`), and a list of them by induction
(`Choice.read_spelled`).

Behind the options a double dash may stand.  It makes the next word the name of the command even if
that looks like an option, and makes no difference if it does not.  The words after the name are the
tokens of the call that is resolved, as they are and in order, whatever they look like.

So a run depends on its options through three things only, and through the environment on no more
than the mode in force and what it says of the receiver.  That holds whatever follows the options,
be it more options, because a mode that is read leaves no trace of those before it
(`read_orMode`, `run_heedsChoices`).
-/

set_option autoImplicit false

namespace OverloadResolution

namespace CommandLine

/-- An option that is understood, with its value.  A mode comes with the text that spells it. -/
inductive Choice where
  | list
  | trace
  | traceAs (text : String) (mode : TraceMode) (recognised : TraceMode.ofWord? text = some mode)
  | role (name : String)

/-- The mode that the environment names, if it is recognised. -/
def modeOf (environment : Environment) : TraceMode :=
  (environment.trace.bind TraceMode.ofWord?).getD .off

namespace Choice

/-- The words that an option is given by. -/
def words : Choice → List String
  | .list => ["--list"]
  | .trace => ["--trace"]
  | .traceAs text _ _ => ["--trace=" ++ text]
  | .role name => ["--as", name]

/-- Whether an option asks for the listing. -/
def asksForListing : Choice → Bool
  | .list => true
  | _ => false

/-- The mode that an option names. -/
def mode? : Choice → Option TraceMode
  | .trace => some .summary
  | .traceAs _ mode _ => some mode
  | _ => none

/-- The role that an option names. -/
def role? : Choice → Option String
  | .role name => some name
  | _ => none

/-- Options in front of further words. -/
def spelled (choices : List Choice) (rest : List String) : List String :=
  choices.flatMap words ++ rest

/-- What options come to: the listing if it is asked for, and the last of the modes and of the roles
that are named. -/
def given (choices : List Choice) : Options where
  list := choices.any asksForListing
  mode := (choices.filterMap mode?).getLast?
  role := (choices.filterMap role?).getLast?.getD "console"

/-- The mode of a run: the last one that the options name, or else the one that the environment
names. -/
def modeInForce (environment : Environment) (choices : List Choice) : TraceMode :=
  (given choices).mode.getD (modeOf environment)

/-! ## Reading options -/

/-- Options with one more choice. -/
def set (options : Options) : Choice → Options
  | .list => { options with list := true }
  | .trace => { options with mode := some .summary }
  | .traceAs _ mode _ => { options with mode := some mode }
  | .role name => { options with role := name }

/-- An option is read for what it says. -/
theorem read_words (options : Options) (choice : Choice) (rest : List String) :
    options.read (choice.words ++ rest) = (set options choice).read rest := by
  cases choice with
  | list => exact read_of_list rfl
  | trace => exact read_of_trace rfl
  | traceAs text mode recognised => exact read_of_trace (ofString_of_ofWord? recognised)
  | role name => exact read_of_role rfl

theorem read_foldl (options : Options) (choices : List Choice) (rest : List String) :
    options.read (spelled choices rest) = (choices.foldl set options).read rest := by
  induction choices generalizing options with
  | nil => rfl
  | cons choice choices ih =>
      rw [List.foldl_cons, ← ih, spelled, List.flatMap_cons, List.append_assoc, read_words]
      rfl

/-- Choices are set one over the other, so that the last one stands. -/
theorem foldl_set (options : Options) (choices : List Choice) :
    choices.foldl set options =
      { list := options.list || choices.any asksForListing
        mode := (choices.filterMap mode?).getLast?.or options.mode
        role := (choices.filterMap role?).getLast?.getD options.role } := by
  induction choices generalizing options with
  | nil => simp
  | cons choice choices ih =>
      rw [List.foldl_cons, ih]
      cases choice <;> simp [set, asksForListing, mode?, role?, List.getLast?_cons]

/-- **Options in front are read for what they come to.** -/
theorem read_spelled (choices : List Choice) (rest : List String) :
    Options.initial.read (spelled choices rest) = (given choices).read rest := by
  rw [read_foldl, foldl_set]
  simp [given, Options.initial]

end Choice

/-! ## Where options end -/

theorem after?_eq_some_iff {front word text : String} :
    after? front word = some text ↔ word = front ++ text := by
  constructor
  · intro found
    unfold after? at found
    split at found
    · next starts =>
        obtain ⟨chars, split⟩ := List.isPrefixOf_iff_prefix.mp starts
        rw [← split, List.drop_left] at found
        cases found
        rw [← String.toList_inj, String.toList_append, String.toList_ofList, split]
    · cases found
  · rintro rfl
    exact after?_append front text

/-- A word that does not start with two dashes names a command. -/
theorem ofString_of_plain {word : String} (plain : ∀ text, word ≠ "--" ++ text) :
    Word.ofString word = .command := by
  have apart : ∀ known text : String, known = "--" ++ text → word ≠ known :=
    fun known text dashed same => plain text (same.trans dashed)
  have untraced : after? "--trace=" word = none := by
    refine Option.eq_none_iff_forall_not_mem.mpr fun text found => ?_
    refine apart _ ("trace=" ++ text) ?_ (after?_eq_some_iff.mp found)
    rw [← String.append_assoc]
    rfl
  have undashed : after? "--" word = none := by
    refine Option.eq_none_iff_forall_not_mem.mpr fun text found => ?_
    exact plain text (after?_eq_some_iff.mp found)
  simp only [Word.ofString, untraced, undashed]
  rw [if_neg (apart "--version" "version" rfl), if_neg (apart "--list" "list" rfl),
    if_neg (apart "--trace" "trace" rfl), if_neg (apart "--as" "as" rfl),
    if_neg (apart "--" "" rfl)]
  rfl

/-- Nothing follows, or what follows does not look like an option. -/
def Plain (rest : List String) : Prop :=
  ∀ name ∈ rest.head?, ∀ text, name ≠ "--" ++ text

theorem read_terminator (options : Options) (rest : List String) :
    options.read ("--" :: rest) = .options options rest := by
  rw [Options.read.eq_def]
  rfl

theorem read_plain (options : Options) {rest : List String} (plain : Plain rest) :
    options.read rest = .options options rest := by
  cases rest with
  | nil => rfl
  | cons name tokens =>
      rw [Options.read.eq_def]
      simp only [ofString_of_plain (plain name rfl)]

/-! ## What is read later -/

/-- What reading comes to when a mode was read before. -/
def Reading.orMode (mode : Option TraceMode) : Reading → Reading
  | .options given rest => .options { given with mode := given.mode.or mode } rest
  | reading => reading

/-- **A mode that was read before stands exactly if none is read afterwards.** -/
theorem read_orMode (options : Options) (mode : Option TraceMode) (words : List String) :
    Options.read { options with mode := options.mode.or mode } words =
      (options.read words).orMode mode := by
  fun_induction Options.read options words with
  | case1 => rfl
  | case2 options word rest version =>
      rw [Options.read.eq_def]
      simp only [version]
      rfl
  | case3 options word rest list ih => rw [read_of_list list, ← ih]
  | case4 options word rest later tracing ih => rw [read_of_trace tracing, ← ih, Option.some_or]
  | case5 options word rest text bad =>
      rw [Options.read.eq_def]
      simp only [bad]
      rfl
  | case6 options word naming =>
      rw [Options.read.eq_def]
      simp only [naming]
      rfl
  | case7 options word naming role rest ih => rw [read_of_role naming, ← ih]
  | case8 options word rest terminator =>
      rw [Options.read.eq_def]
      simp only [terminator]
      rfl
  | case9 options word rest unknown =>
      rw [Options.read.eq_def]
      simp only [unknown]
      rfl
  | case10 options word rest command =>
      rw [Options.read.eq_def]
      simp only [command]
      rfl

/-- What a run comes to on what was read. -/
def Reading.outcome (environment : Environment) : Reading → Outcome
  | .version => ⟨0, versionLine, ""⟩
  | .wrong error => ⟨1, "", error.text⟩
  | .options given rest => runWith environment given rest

theorem run_spelled (environment : Environment) (choices : List Choice) (rest : List String) :
    run environment (Choice.spelled choices rest) =
      ((Choice.given choices).read rest).outcome environment := by
  rw [run, Choice.read_spelled]
  cases (Choice.given choices).read rest <;> rfl

section Modes

variable {environment other : Environment} {mode mode' : Option TraceMode}

theorem settingsOf_orMode (fold : environment.fold = other.fold)
    (agree : mode.getD (modeOf environment) = mode'.getD (modeOf other)) (options : Options) :
    settingsOf environment { options with mode := options.mode.or mode } =
      settingsOf other { options with mode := options.mode.or mode' } := by
  have modes : (options.mode.or mode).getD (modeOf environment) =
      (options.mode.or mode').getD (modeOf other) := by
    cases options.mode with
    | none => exact agree
    | some later => rfl
  unfold settingsOf Settings.overriddenBy
  rw [fold]
  exact congrArg (Settings.mk · _) modes

/-- Modes read before that come to one mode in force are not told apart. -/
theorem outcome_orMode (fold : environment.fold = other.fold)
    (agree : mode.getD (modeOf environment) = mode'.getD (modeOf other)) (reading : Reading) :
    (reading.orMode mode).outcome environment = (reading.orMode mode').outcome other := by
  cases reading with
  | version | wrong => rfl
  | options options rest =>
      have settings := settingsOf_orMode fold agree options
      simp only [Reading.orMode, Reading.outcome, runWith]
      rw [settings]

end Modes

/-! ## Runs -/

/-- What is made of a resolution: a failure is reported, and a resolved call is executed and waited
for.  Its trace is in front of anything that is wrong. -/
def Outcome.ofResolution (resolution : Resolution) : Outcome :=
  match resolution.outcome with
  | .error failure =>
    ⟨1, "", Record.lines resolution.trace ++ (failure.addTo .empty).print⟩
  | .ok resolved =>
    match (resolved.complete .never).perform resolution.world with
    | (.ok (), world) => ⟨0, String.join world.transcript, Record.lines resolution.trace⟩
    | (.error error, world) =>
      ⟨2, String.join world.transcript, Record.lines resolution.trace ++ error.print⟩

theorem call_eq_ofResolution (settings : Settings) (caller : Caller) (command : Command)
    (tokens : List String) :
    call settings caller command tokens = .ofResolution (scope.resolve settings .never
      ⟨caller, command.name, tokens.map .ofToken⟩ command.overloads .initial) := by
  unfold call Outcome.ofResolution
  dsimp only
  generalize scope.resolve settings .never ⟨caller, command.name, tokens.map .ofToken⟩
    command.overloads .initial = resolution
  cases resolution.outcome with
  | error failure => rfl
  | ok resolved =>
      dsimp only
      rcases (resolved.complete .never).perform resolution.world with ⟨_ | _, _⟩ <;> rfl

/-- How a run treats options, a double dash behind them, and the words that follow. -/
structure HeedsChoices (environment : Environment) (choices : List Choice) (rest : List String) :
    Prop where
  /-- The double dash makes no difference to words that do not look like an option. -/
  terminator : Plain rest →
    run environment (Choice.spelled choices ("--" :: rest)) =
      run environment (Choice.spelled choices rest)
  /-- Options alone are answered by the listing, or else by how the tool is used. -/
  bare : rest = [] →
    run environment (Choice.spelled choices ("--" :: rest)) =
      if (Choice.given choices).list then ⟨0, listing, ""⟩ else ⟨1, "", usage⟩
  /-- The words behind the name of a command are the tokens of the call that is resolved, in order
  and as they are, and nothing but the listing comes to the output beside what is made of it. -/
  verbatim : ∀ name tokens caller command, rest = name :: tokens →
    caller? (Choice.given choices).role = some caller → command? name = some command →
      run environment (Choice.spelled choices ("--" :: rest)) =
        let outcome := Outcome.ofResolution (scope.resolve
          ⟨Choice.modeInForce environment choices, (environment.fold.bind switch?).getD false⟩
          .never ⟨caller, name, tokens.map .ofToken⟩ command.overloads .initial)
        { outcome with
          out := (Choice.given choices).front ++ outcome.out }
  /-- Where the role or the name are unknown nothing is resolved, and the words are not looked at. -/
  unknown : ∀ name tokens, rest = name :: tokens →
    caller? (Choice.given choices).role = none ∨ command? name = none →
      (run environment (Choice.spelled choices ("--" :: rest))).status = 1 ∧
        ∀ others, run environment (Choice.spelled choices ("--" :: rest)) =
          run environment (Choice.spelled choices ("--" :: name :: others))
  /-- Nothing about the options matters but what they come to, and of the modes that they and the
  environment name only the one in force. -/
  only : ∀ other others, other.fold = environment.fold →
    (Choice.given others).list = (Choice.given choices).list →
    (Choice.given others).role = (Choice.given choices).role →
    Choice.modeInForce other others = Choice.modeInForce environment choices →
      run other (Choice.spelled others rest) = run environment (Choice.spelled choices rest)

section Heeds

variable {environment other : Environment} {choices others : List Choice} {name : String}
  {tokens : List String}

theorem run_terminator (environment : Environment) (choices : List Choice) (rest : List String) :
    run environment (Choice.spelled choices ("--" :: rest)) =
      runWith environment (Choice.given choices) rest := by
  rw [run_spelled, read_terminator]
  rfl

theorem run_plain {rest : List String} (plain : Plain rest) :
    run environment (Choice.spelled choices rest) =
      runWith environment (Choice.given choices) rest := by
  rw [run_spelled, read_plain _ plain]
  rfl

/-- A call of a command that is known, by a caller in a role that is known, is resolved. -/
theorem runWith_known {options : Options} {caller : Caller} {command : Command}
    (known : caller? options.role = some caller) (found : command? name = some command) :
    runWith environment options (name :: tokens) =
      let outcome := Outcome.ofResolution (scope.resolve (settingsOf environment options) .never
        ⟨caller, name, tokens.map .ofToken⟩ command.overloads .initial)
      { outcome with out := options.front ++ outcome.out } := by
  obtain ⟨_, rfl⟩ := mem_of_command? found
  simp only [runWith, callByName, known, found, call_eq_ofResolution, Options.front]

/-- Nothing else is, and then no token is looked at. -/
theorem runWith_unknown {options : Options}
    (unknown : caller? options.role = none ∨ command? name = none) :
    (runWith environment options (name :: tokens)).status = 1 ∧
      ∀ others, runWith environment options (name :: tokens) =
        runWith environment options (name :: others) := by
  simp only [runWith, callByName]
  cases known : caller? options.role with
  | none => exact ⟨rfl, fun _ => rfl⟩
  | some caller =>
      have missing := unknown.resolve_left (known ▸ Option.some_ne_none caller)
      rw [missing]
      exact ⟨rfl, fun _ => rfl⟩

/-- **Options that come to the same, in environments that put the same mode in force, lead to the
same run**, whatever words follow. -/
theorem run_spelled_congr (fold : other.fold = environment.fold)
    (list : (Choice.given others).list = (Choice.given choices).list)
    (role : (Choice.given others).role = (Choice.given choices).role)
    (mode : Choice.modeInForce other others = Choice.modeInForce environment choices)
    (rest : List String) :
    run other (Choice.spelled others rest) = run environment (Choice.spelled choices rest) := by
  unfold Choice.modeInForce at mode
  rw [run_spelled, run_spelled]
  generalize Choice.given choices = options at list role mode ⊢
  generalize Choice.given others = given at list role mode ⊢
  obtain ⟨listed, named, as⟩ := options
  obtain ⟨_, namedToo, _⟩ := given
  cases list
  cases role
  have read := read_orMode ⟨listed, none, as⟩ named rest
  have readToo := read_orMode ⟨listed, none, as⟩ namedToo rest
  simp only [Option.none_or] at read readToo
  rw [read, readToo]
  exact outcome_orMode fold mode _

end Heeds

/-- **A run heeds its options for what they come to, and nothing behind the name of the command is
one.** -/
theorem run_heedsChoices (environment : Environment) (choices : List Choice) (rest : List String) :
    HeedsChoices environment choices rest := by
  refine ⟨?terminator, ?bare, ?verbatim, ?unknown, ?only⟩
  case terminator =>
    intro plain
    rw [run_terminator, run_plain plain]
  case bare =>
    rintro rfl
    rw [run_terminator, runWith]
    cases (Choice.given choices).list <;> rfl
  case verbatim =>
    rintro name tokens caller command rfl known found
    rw [run_terminator]
    exact runWith_known known found
  case unknown =>
    rintro name tokens rfl unknown
    simp only [run_terminator]
    exact runWith_unknown unknown
  case only =>
    intro other others fold list role mode
    exact run_spelled_congr fold list role mode rest

/-- The later of two modes counts, and not the environment; behind the command all is said. -/
example : run ⟨some "verbose", none⟩
    ["--trace", "--trace=off", "--as", "user", "--", "say", "--version", "--", "--as"] =
      ⟨0, "user says: --version -- --as\n", ""⟩ := by
  decide +kernel

end CommandLine

end OverloadResolution
