import OverloadResolution.Proofs.Commands

/-!
# Status and streams of the tool

A run of the tool that traces nothing keeps a contract with whoever starts it (`KeepsContract`,
`run_keepsContract`).  The status is 0, 1 or 2, and something is on the error stream exactly if it
is not 0.  Status 2 means that an action failed, and the only action that fails is a division of
integers that have no quotient (`Answers.of_error`).

Every way to end a run without a call is either a success or a complaint that is not empty.  Where a
command is called, what the call comes to is known from what the command answers (`Comes.settled`).
The listing goes in front of the output and changes nothing else (`run_settled`).
-/

set_option autoImplicit false

namespace OverloadResolution

/-! ## Nothing is printed silently -/

theorem append_ne_empty_left {first : String} (nonempty : first ≠ "") (second : String) :
    first ++ second ≠ "" :=
  fun empty => nonempty (String.append_eq_empty_iff.mp empty).1

theorem append_ne_empty_right (first : String) {second : String} (nonempty : second ≠ "") :
    first ++ second ≠ "" :=
  fun empty => nonempty (String.append_eq_empty_iff.mp empty).2

theorem Diagnostic.print_ne_empty (diagnostic : Diagnostic) : diagnostic.print ≠ "" :=
  append_ne_empty_right _ (by decide)

theorem Report.print_add (report : Report) (diagnostic : Diagnostic) :
    (report.add diagnostic).print = report.print ++ diagnostic.print := by
  simp [print, add]

/-- A failure is never reported without a word. -/
theorem Failure.print_addTo_ne_empty (failure : Failure) (report : Report) :
    (failure.addTo report).print ≠ "" := by
  have kept : ∀ (candidates : List Overload) (report : Report), report.print ≠ "" →
      (candidates.foldl (fun report candidate =>
        report.add ⟨.note, "candidate: " ++ candidate.render, failure.callee⟩) report).print ≠
          "" := by
    intro candidates
    induction candidates with
    | nil => exact fun report nonempty => nonempty
    | cons candidate candidates ih =>
        intro report nonempty
        refine ih _ ?_
        rw [Report.print_add]
        exact append_ne_empty_left nonempty _
  refine kept failure.candidates _ ?_
  rw [Report.print_add]
  exact append_ne_empty_right _ (Diagnostic.print_ne_empty _)

namespace CommandLine

theorem complaint_ne_empty (text : String) : complaint text ≠ "" :=
  append_ne_empty_right _ (by decide)

theorem OptionError.text_ne_empty (error : OptionError) : error.text ≠ "" := by
  cases error with
  | traceMode text => exact complaint_ne_empty _
  | missingRole => exact append_ne_empty_left (complaint_ne_empty _) _
  | unknown word => exact append_ne_empty_left (complaint_ne_empty _) _

/-! ## Divisions without a result -/

/-- Two integers have no quotient in words of 64 bits. -/
def Indivisible (dividend divisor : Int64) : Prop :=
  divisor = 0 ∨ dividend = Int64.minValue ∧ divisor = -1

/-- A command and its tokens are those of a division without a result. -/
def IndivisibleCall (name : String) (tokens : List String) : Prop :=
  ∃ first second dividend divisor, name = "divide" ∧ tokens = [first, second] ∧
    ReadsLong first dividend ∧ ReadsLong second divisor ∧ Indivisible dividend divisor

theorem quotient_of_indivisible {dividend divisor : Int64}
    (indivisible : Indivisible dividend divisor) :
    ∃ message, quotient dividend divisor = .error (.raised message) := by
  unfold quotient
  by_cases zero : divisor = 0
  · exact ⟨_, if_pos zero⟩
  · obtain ⟨least, minus⟩ := indivisible.resolve_left zero
    rw [if_neg zero, if_pos ⟨minus, least⟩]
    exact ⟨_, rfl⟩

theorem quotient_of_divisible {dividend divisor : Int64}
    (divisible : ¬ Indivisible dividend divisor) :
    quotient dividend divisor = .ok (dividend / divisor) := by
  obtain ⟨zero, least⟩ := not_or.mp divisible
  rw [quotient, if_neg zero, if_neg fun both => least both.symm]

section Answers

variable {caller : Caller} {name : String} {tokens : List String}

/-- The only answers that are faults are those to divisions without a result, and they say why. -/
theorem Answers.of_error {fault : Fault} (answers : Answers caller name tokens (.error fault)) :
    IndivisibleCall name tokens ∧ ∃ message, fault = .raised message := by
  generalize said : Except.error fault = result at answers
  cases answers with
  | add | target | sum | say | greetCaller | greet => cases said
  | @divide first second dividend divisor read readToo =>
      by_cases indivisible : Indivisible dividend divisor
      · obtain ⟨message, raised⟩ := quotient_of_indivisible indivisible
        rw [raised] at said
        cases said
        exact ⟨⟨first, second, dividend, divisor, rfl, rfl, read, readToo, indivisible⟩,
          message, rfl⟩
      · rw [quotient_of_divisible indivisible] at said
        cases said

/-- Divisions without a result are answered by a fault. -/
theorem IndivisibleCall.answers (indivisible : IndivisibleCall name tokens) :
    ∃ fault, Answers caller name tokens (.error fault) := by
  obtain ⟨first, second, dividend, divisor, rfl, rfl, read, readToo, indivisible⟩ := indivisible
  obtain ⟨message, raised⟩ := quotient_of_indivisible indivisible
  have answers : Answers caller "divide" [first, second] _ := .divide read readToo
  rw [raised] at answers
  exact ⟨_, answers⟩

end Answers

/-! ## Settled outcomes -/

/-- An outcome is settled when its status and its streams agree, and the status for a failed action
is given exactly if something fails. -/
structure Outcome.Settled (outcome : Outcome) (fails : Prop) : Prop where
  status : outcome.status = 0 ∨ outcome.status = 1 ∨ outcome.status = 2
  err : outcome.err = "" ↔ outcome.status = 0
  out : outcome.status ≠ 0 → outcome.out = ""
  failure : outcome.status = 2 ↔ fails

theorem Outcome.Settled.of_success {text : String} {fails : Prop} (succeeds : ¬ fails) :
    Outcome.Settled ⟨0, text, ""⟩ fails where
  status := .inl rfl
  err := iff_of_true rfl rfl
  out failed := absurd rfl failed
  failure := iff_of_false (show (0 : Nat) ≠ 2 by decide) succeeds

theorem Outcome.Settled.of_complaint {text : String} {fails : Prop} (nonempty : text ≠ "")
    (succeeds : ¬ fails) : Outcome.Settled ⟨1, "", text⟩ fails where
  status := .inr (.inl rfl)
  err := iff_of_false nonempty (show (1 : Nat) ≠ 0 by decide)
  out _ := rfl
  failure := iff_of_false (show (1 : Nat) ≠ 2 by decide) succeeds

theorem Outcome.Settled.of_failure {text : String} {fails : Prop} (nonempty : text ≠ "")
    (failed : fails) : Outcome.Settled ⟨2, "", text⟩ fails where
  status := .inr (.inr rfl)
  err := iff_of_false nonempty (show (2 : Nat) ≠ 0 by decide)
  out _ := rfl
  failure := iff_of_true rfl failed

/-- What a call comes to without a trace is settled. -/
theorem Comes.settled {caller : Caller} {name : String} {tokens : List String} {outcome : Outcome}
    (comes : Comes caller name tokens "" outcome) :
    outcome.Settled (IndivisibleCall name tokens) := by
  cases comes with
  | answered answers =>
      refine Outcome.Settled.of_success fun indivisible => ?_
      obtain ⟨fault, faults⟩ := indivisible.answers
      cases answers.unique faults
  | faulted answers =>
      exact Outcome.Settled.of_failure (append_ne_empty_right _ (Diagnostic.print_ne_empty _))
        answers.of_error.1
  | unanswered failure silent =>
      refine Outcome.Settled.of_complaint
        (append_ne_empty_right _ (failure.print_addTo_ne_empty _)) fun indivisible => ?_
      obtain ⟨fault, faults⟩ := indivisible.answers
      exact silent _ faults

/-- So is what a call by name comes to, when nothing is traced. -/
theorem callByName_settled {settings : Settings} (off : settings.mode = .off)
    (role name : String) (tokens : List String) :
    (callByName settings role name tokens).Settled
      ((caller? role).isSome ∧ IndivisibleCall name tokens) := by
  unfold callByName
  cases known : caller? role with
  | none =>
      refine Outcome.Settled.of_complaint (complaint_ne_empty _) ?_
      rintro ⟨known, _⟩
      cases known
  | some caller =>
      simp only [Option.isSome_some, true_and]
      cases found : command? name with
      | none =>
          refine Outcome.Settled.of_complaint (Diagnostic.print_ne_empty _) ?_
          rintro ⟨_, _, _, _, rfl, _⟩
          cases found
      | some command =>
          obtain ⟨records, comes⟩ := call_comes settings caller found tokens
          rw [off, Record.admitted_off] at comes
          exact comes.settled

/-! ## The contract -/

/-- The words lead to a call of a command in a role, with tokens for arguments. -/
def Reaches (words : List String) (name : String) (tokens : List String) : Prop :=
  ∃ options, Options.initial.read words = .options options (name :: tokens) ∧
    (caller? options.role).isSome ∧ (command? name).isSome

/-- Where reading ends with options, these decide what is reached. -/
theorem reaches_iff {words : List String} {options : Options} {rest : List String}
    (read : Options.initial.read words = .options options rest) {name : String}
    {tokens : List String} :
    Reaches words name tokens ↔
      rest = name :: tokens ∧ (caller? options.role).isSome ∧ (command? name).isSome := by
  constructor
  · rintro ⟨other, readToo, known, found⟩
    obtain ⟨rfl, rfl⟩ := Reading.options.inj (read.symm.trans readToo)
    exact ⟨rfl, known, found⟩
  · rintro ⟨rfl, known, found⟩
    exact ⟨options, read, known, found⟩

/-- The words lead to a division without a result. -/
def ReachesIndivisible (words : List String) : Prop :=
  ∃ name tokens, Reaches words name tokens ∧ IndivisibleCall name tokens

theorem reachesIndivisible_iff {words : List String} {options : Options} {name : String}
    {tokens : List String}
    (read : Options.initial.read words = .options options (name :: tokens)) :
    ReachesIndivisible words ↔
      (caller? options.role).isSome ∧ IndivisibleCall name tokens := by
  constructor
  · rintro ⟨other, others, reaches, indivisible⟩
    obtain ⟨same, known, _⟩ := (reaches_iff read).mp reaches
    cases same
    exact ⟨known, indivisible⟩
  · rintro ⟨known, indivisible⟩
    refine ⟨name, tokens, (reaches_iff read).mpr ⟨rfl, known, ?_⟩, indivisible⟩
    obtain ⟨_, _, _, _, rfl, _⟩ := indivisible
    rfl

/-- Nothing is reached where reading ends otherwise. -/
theorem not_reachesIndivisible {words : List String} {reading : Reading}
    (read : Options.initial.read words = reading)
    (ended : ∀ options name tokens, reading ≠ .options options (name :: tokens)) :
    ¬ ReachesIndivisible words := by
  rintro ⟨name, tokens, ⟨options, readToo, _⟩, _⟩
  exact ended options name tokens (read.symm.trans readToo)

/-- Options and environment together say not to trace. -/
def Untraced (environment : Environment) (words : List String) : Prop :=
  ∀ options rest, Options.initial.read words = .options options rest →
    (settingsOf environment options).mode = .off

/-- What the tool promises about a run that traces nothing, and about its commands in general. -/
structure KeepsContract (words : List String) (outcome : Outcome) : Prop where
  status : outcome.status = 0 ∨ outcome.status = 1 ∨ outcome.status = 2
  err : outcome.err = "" ↔ outcome.status = 0
  out : outcome.status ≠ 0 → outcome.out = "" ∨ outcome.out = listing
  /-- An action fails exactly where the command that is reached divides two integers that have no
  quotient. -/
  failure : outcome.status = 2 ↔
    ∃ first second dividend divisor, Reaches words "divide" [first, second] ∧
      Reader.readIntegral .long Int64.minValue Int64.maxValue first =
        .ok (.integer .long dividend) ∧
      Reader.readIntegral .long Int64.minValue Int64.maxValue second =
        .ok (.integer .long divisor) ∧
      (divisor = 0 ∨ dividend = Int64.minValue ∧ divisor = -1)
  /-- No call of a command is ambiguous, whatever it brings and whatever it is resolved in. -/
  unambiguous : ∀ command ∈ commands, ∀ (scope : Scope) (settings : Settings) (token : Token)
    (call : Call) (world : World),
      ¬ (scope.resolve settings token call command.overloads world).FailsWith .ambiguous
  /-- No action that a call from tokens leads to looks for an argument or a receiver that is not
  there, or for another kind of value than there is. -/
  wellRead : ∀ command ∈ commands, ∀ (caller : Caller) (tokens : List String)
    (settings : Settings) (token : Token) (world : World) (resolved : ResolvedCall),
      (scope.resolve settings token ⟨caller, command.name, tokens.map .ofToken⟩
        command.overloads world).outcome = .ok resolved →
      ∀ (token : Token) (world : World), ∃ outcome,
        (resolved.execute token world).1 = .finished outcome ∧ outcome ≠ .error .misread

/-- An action that runs has finished, and has found what it looks for. -/
theorem execute_wellRead {command : Command} (member : command ∈ commands) {caller : Caller}
    {tokens : List String} {settings : Settings} {token : Token} {world : World}
    {resolved : ResolvedCall}
    (resolves : (scope.resolve settings token (Scope.tokenCall caller command.name tokens)
      command.overloads world).outcome = .ok resolved) (other : Token) (later : World) :
    ∃ outcome, (resolved.execute other later).1 = .finished outcome ∧
      outcome ≠ .error .misread := by
  obtain ⟨receiver, parameters, line, writes, _, answers⟩ := resolved_answers member resolves
  cases requested : later.isRequested other with
  | true =>
      rw [ResolvedCall.execute_of_requested _ requested]
      refine ⟨_, rfl, fun misread => ?_⟩
      cases misread
  | false =>
      rw [execute_writing requested writes]
      refine ⟨_, rfl, fun misread => ?_⟩
      cases said : line resolved.invocation with
      | ok text =>
          rw [said] at misread
          cases misread
      | error fault =>
          rw [said] at answers misread
          obtain ⟨_, message, rfl⟩ := answers.of_error
          cases misread

/-- A run comes to a settled outcome, behind the listing if that was asked for. -/
theorem run_settled {environment : Environment} {words : List String}
    (untraced : Untraced environment words) :
    ∃ (front : String) (outcome : Outcome), (front = "" ∨ front = listing) ∧
      outcome.Settled (ReachesIndivisible words) ∧
      run environment words = { outcome with out := front ++ outcome.out } := by
  unfold run
  cases read : Options.initial.read words with
  | version =>
      have unreached := not_reachesIndivisible read fun _ _ _ => Reading.noConfusion
      exact ⟨"", ⟨0, versionLine, ""⟩, .inl rfl, .of_success unreached, rfl⟩
  | wrong error =>
      have unreached := not_reachesIndivisible read fun _ _ _ => Reading.noConfusion
      exact ⟨"", ⟨1, "", error.text⟩, .inl rfl, .of_complaint error.text_ne_empty unreached, rfl⟩
  | options options rest =>
      have front : (if options.list then listing else "") = "" ∨
          (if options.list then listing else "") = listing := by
        cases options.list
        · exact .inl rfl
        · exact .inr rfl
      cases rest with
      | nil =>
          have unreached : ¬ ReachesIndivisible words := by
            refine not_reachesIndivisible read fun _ _ _ same => ?_
            cases (Reading.options.inj same).2
          simp only [runWith]
          cases options.list with
          | true =>
              refine ⟨listing, ⟨0, "", ""⟩, .inr rfl, .of_success unreached, ?_⟩
              simp
          | false =>
              exact ⟨"", ⟨1, "", usage⟩, .inl rfl,
                .of_complaint (by decide) unreached, rfl⟩
      | cons name tokens =>
          refine ⟨_, _, front, ?_, rfl⟩
          rw [reachesIndivisible_iff read]
          exact callByName_settled (untraced options _ read) options.role name tokens

/-- **Every run that traces nothing keeps the contract.** -/
theorem run_keepsContract {environment : Environment} {words : List String}
    (untraced : Untraced environment words) : KeepsContract words (run environment words) := by
  obtain ⟨front, outcome, fronts, settled, same⟩ := run_settled untraced
  rw [same]
  refine ⟨settled.status, settled.err, ?out, ?failure, ?unambiguous, ?wellRead⟩
  case out =>
    intro failed
    show front ++ outcome.out = "" ∨ front ++ outcome.out = listing
    rw [settled.out failed, String.append_empty]
    exact fronts
  case failure =>
    refine settled.failure.trans ?_
    constructor
    · rintro ⟨_, _, reaches, first, second, dividend, divisor, rfl, rfl, reads⟩
      exact ⟨first, second, dividend, divisor, reaches, reads⟩
    · rintro ⟨first, second, dividend, divisor, reaches, reads⟩
      exact ⟨"divide", _, reaches, first, second, dividend, divisor, rfl, rfl, reads⟩
  case unambiguous =>
    intro command member scope settings token call world
    exact (exclusive_of_mem_commands member scope call).not_ambiguous
  case wellRead =>
    intro command member caller tokens settings token world resolved resolves
    exact execute_wellRead member resolves

/-- A division by zero fails, and its reason is all that is printed. -/
theorem divide_by_zero_keepsContract :
    Untraced ⟨none, none⟩ ["divide", "1", "0"] ∧
      (run ⟨none, none⟩ ["divide", "1", "0"]).status = 2 ∧
      KeepsContract ["divide", "1", "0"] (run ⟨none, none⟩ ["divide", "1", "0"]) := by
  have untraced : Untraced ⟨none, none⟩ ["divide", "1", "0"] := by
    intro options rest read
    cases read
    rfl
  have keeps := run_keepsContract untraced
  refine ⟨untraced, keeps.failure.mpr ?_, keeps⟩
  exact ⟨"1", "0", 1, 0, ⟨_, rfl, rfl, rfl⟩, rfl, rfl, .inl rfl⟩

end CommandLine

end OverloadResolution
