import OverloadResolution.Execution
import OverloadResolution.Proofs.Cancellation

/-!
# Cancellation over a whole session

In a session sources and tokens are made, cancellations are requested, calls are resolved and
executed, and what executing hands back is waited for, in any order and for any number of sources
(`Operation`).  Resolving, executing and waiting run code from outside, which may request
cancellations as well.

An operation leaves an `Event`: the worlds before and after, what was handed back, and the effects
that all code had meanwhile.  The step lemma says that these effects decide which sources are
cancelled (`Operation.isRequested_perform_iff`), and by induction so do the effects of a session
(`Session.isRequested_last_iff`).  A request has the one effect that it is made for, and no other
operation on sources and tokens has any (`Event.Serves`).  What a token means for an operation is
settled before anything else is looked at: with a requested token the operation gives up
(`Event.GivesUp`), and with any other it goes on (`Event.GoesOn`).  Together these say that
cancellation is one-way (`Session.OneWay`).
-/

set_option autoImplicit false

namespace OverloadResolution

/-- What can be done in a session. -/
inductive Operation where
  | makeSource
  | makeToken (source : Source)
  | request (source : Source)
  | resolve (scope : Scope) (settings : Settings) (token : Token) (call : Call)
      (overloads : List Overload)
  | execute (resolved : ResolvedCall) (token : Token)
  | wait (pending : Pending)
  | complete (resolved : ResolvedCall) (token : Token)

/-- What an operation hands back. -/
inductive Answer where
  | source (source : Source)
  | token (token : Token)
  | requested
  | resolution (resolution : Resolution)
  | pending (pending : Pending)
  | waited (outcome : Option (Except Fault Unit))
  | completion (outcome : Except Diagnostic Unit)

/-- An operation that was performed: the world that it began in, what it handed back, the effects
that code had on the way, and the world that it left behind. -/
structure Event where
  operation : Operation
  before : World
  answer : Answer
  effects : List Effect
  after : World

/-- The event of an operation that is a run of code. -/
def Event.ofRun {α : Type} (operation : Operation) (run : Run α) (handBack : α → Answer)
    (world : World) : Event where
  operation := operation
  before := world
  answer := handBack (run world).1
  effects := (run world).2
  after := world.after (run world).2

/-- The source that an event made, if it made one. -/
def Event.made? (event : Event) : Option Source :=
  match event.answer with
  | .source source => some source
  | _ => none

namespace Operation

/-- The token that an operation heeds, if it heeds one. -/
def token? : Operation → Option Token
  | .resolve _ _ token _ _ => some token
  | .execute _ token => some token
  | .complete _ token => some token
  | _ => none

/-- Performs an operation. -/
def perform (operation : Operation) (world : World) : Event :=
  match operation with
  | .makeSource => ⟨operation, world, .source world.newSource.1, [], world.newSource.2⟩
  | .makeToken source => ⟨operation, world, .token (.of source), [], world⟩
  | .request source => .ofRun operation (Run.cancel source) (fun _ => .requested) world
  | .resolve scope settings token call overloads =>
    let resolution := scope.resolve settings token call overloads world
    { operation := operation
      before := world
      answer := .resolution resolution
      effects := resolution.performed.flatMap (Performed.effects ⟨call.caller, token⟩)
      after := resolution.world }
  | .execute resolved token => .ofRun operation (resolved.execute token) .pending world
  | .wait pending => .ofRun operation pending.wait .waited world
  | .complete resolved token => .ofRun operation (resolved.complete token) .completion world

@[simp]
theorem operation_perform (operation : Operation) (world : World) :
    (operation.perform world).operation = operation := by
  cases operation <;> rfl

/-- An event tells which operation was performed. -/
theorem eq_of_operation_perform {operation other : Operation} {world : World}
    (same : (operation.perform world).operation = other) : operation = other :=
  (operation_perform operation world).symm.trans same

@[simp]
theorem before_perform (operation : Operation) (world : World) :
    (operation.perform world).before = world := by
  cases operation <;> rfl

end Operation

/-! ## What the effects do to a token -/

theorem World.isRequested_of_iff {world : World} {source : Source} :
    world.isRequested (.of source) = true ↔ source ∈ world.cancelled :=
  ⟨of_decide_eq_true, decide_eq_true⟩

/-- Effects that are applied one after another request what any of them requests. -/
theorem World.isRequested_after_iff {world : World} {effects : List Effect} {source : Source} :
    (world.after effects).isRequested (.of source) = true ↔
      world.isRequested (.of source) = true ∨ .cancel source ∈ effects := by
  induction effects generalizing world with
  | nil => simp
  | cons effect rest ih =>
      have one : (world.apply effect).isRequested (.of source) = true ↔
          world.isRequested (.of source) = true ∨ .cancel source = effect := by
        rw [World.isRequested_of_iff, World.isRequested_of_iff]
        cases effect with
        | write text => simp [World.apply]
        | cancel other => simp [World.apply, or_comm]
      rw [World.after, List.foldl_cons, ← World.after, ih, one, List.mem_cons, or_assoc]

theorem World.sources_after (world : World) (effects : List Effect) :
    (world.after effects).sources = world.sources := by
  induction effects generalizing world with
  | nil => rfl
  | cons effect rest ih =>
      rw [World.after, List.foldl_cons, ← World.after, ih]
      cases effect <;> rfl

namespace Scope

variable {scope : Scope} {settings : Settings} {token : Token} {call : Call}
  {overloads : List Overload} {world : World}

/-- Resolving is not cancelled unless cancellation is requested by the end. -/
theorem requested_of_cancelled
    (cancelled : (scope.resolve settings token call overloads world).FailsWith .cancelled) :
    (scope.resolve settings token call overloads world).world.isRequested token = true := by
  have course := scope.resolve_course settings token call overloads world
  generalize scope.resolve settings token call overloads world = resolution at course cancelled ⊢
  cases course with
  | cancelled requested => exact requested
  | converted running found sole =>
      exact (HeedsCancellation.of_converted running found sole).cancelled cancelled
  | tied | refused | unmatched => cases failsWith_failed_iff.mp cancelled

end Scope

namespace Operation

variable {operation : Operation} {world : World} {token : Token} {source : Source}

/-- Making a source cancels none, and any other operation leaves the world that its effects lead
to. -/
theorem isRequested_after_perform (operation : Operation) (world : World) (token : Token) :
    (operation.perform world).after.isRequested token =
      (world.after (operation.perform world).effects).isRequested token := by
  cases operation with
  | makeSource => cases token <;> rfl
  | resolve scope settings other call overloads =>
      exact congrArg (World.isRequested · token)
        (scope.resolve_ran settings other call overloads world).last_eq
  | makeToken | request | execute | wait | complete => rfl

/-- **An operation cancels exactly the sources that its effects say.** -/
theorem isRequested_perform_iff :
    (operation.perform world).after.isRequested (.of source) = true ↔
      world.isRequested (.of source) = true ∨
        .cancel source ∈ (operation.perform world).effects := by
  rw [isRequested_after_perform, World.isRequested_after_iff]

/-- Only making a source counts one more, and the source has the number that is then taken. -/
theorem sources_perform (operation : Operation) (world : World) :
    ((operation.perform world).made? = none ∧
      (operation.perform world).after.sources = world.sources) ∨
    ((operation.perform world).made? = some ⟨world.sources⟩ ∧
      (operation.perform world).after.sources = world.sources + 1) := by
  cases operation with
  | makeSource => exact .inr ⟨rfl, rfl⟩
  | makeToken => exact .inl ⟨rfl, rfl⟩
  | resolve scope settings token call overloads =>
      refine .inl ⟨rfl, ?_⟩
      have last := (scope.resolve_ran settings token call overloads world).last_eq
      exact (congrArg World.sources last).trans (World.sources_after _ _)
  | request | execute | wait | complete => exact .inl ⟨rfl, World.sources_after _ _⟩

/-- What is requested before an operation is requested after it. -/
theorem isRequested_perform (requested : world.isRequested token = true) :
    (operation.perform world).after.isRequested token = true := by
  rw [isRequested_after_perform]
  exact World.isRequested_after _ requested

end Operation

/-! ## Operations without code from outside -/

/-- What the operations do that run no code from outside: those on sources and tokens, and waiting
for what is there already. -/
structure Event.Serves (event : Event) : Prop where
  /-- Making a source hands one back, and requests nothing. -/
  made : event.operation = .makeSource →
    (∃ source, event.answer = .source source) ∧ event.effects = []
  /-- All tokens obtained from a source are alike, and obtaining one requests nothing. -/
  obtained : ∀ source, event.operation = .makeToken source →
    event.answer = .token (.of source) ∧ event.effects = []
  /-- A request cancels the source that it is made for, and no other. -/
  requested : ∀ source, event.operation = .request source →
    event.effects = [.cancel source] ∧ event.after.isRequested (.of source) = true
  /-- Waiting for an outcome that is there gives that outcome. -/
  waited : ∀ outcome, event.operation = .wait (.finished outcome) →
    event.answer = .waited (some outcome) ∧ event.effects = []

/-- **Every operation on sources and tokens does what it is for, and nothing else.** -/
theorem Operation.serves_perform (operation : Operation) (world : World) :
    (operation.perform world).Serves := by
  refine ⟨?made, ?obtained, ?requested, ?waited⟩
  case made =>
    intro same
    obtain rfl := eq_of_operation_perform same
    exact ⟨⟨world.newSource.1, rfl⟩, rfl⟩
  case obtained =>
    intro source same
    obtain rfl := eq_of_operation_perform same
    exact ⟨rfl, rfl⟩
  case requested =>
    intro source same
    obtain rfl := eq_of_operation_perform same
    have effects : ((request source).perform world).effects = [.cancel source] := rfl
    refine ⟨effects, isRequested_perform_iff.mpr (.inr ?_)⟩
    rw [effects]
    exact List.mem_cons_self
  case waited =>
    intro outcome same
    obtain rfl := eq_of_operation_perform same
    exact ⟨rfl, rfl⟩

/-! ## What a token does to an operation -/

namespace Event

/-- With a requested token an operation gives up: whatever it is about, it hands back a
cancellation, runs no code and leaves the world as it is. -/
structure GivesUp (event : Event) (token : Token) : Prop where
  /-- A resolution is cancelled, and no conversion runs. -/
  resolve : ∀ scope settings call overloads,
    event.operation = .resolve scope settings token call overloads →
      ∃ resolution, event.answer = .resolution resolution ∧
        resolution.outcome = .error (.ofKind .cancelled call.callee overloads.length) ∧
        resolution.performed = []
  /-- An execution hands back a cancellation, whatever the overload is and if there is none. -/
  execute : ∀ resolved, event.operation = .execute resolved token →
    event.answer = .pending (.finished (.error .cancelled))
  complete : ∀ resolved, event.operation = .complete resolved token →
    event.answer =
      .completion (.error (.error resolved.invocation.callee "operation cancelled"))
  idle : event.operation.token? = some token → event.effects = [] ∧ event.after = event.before

/-- With a token that is not requested an operation goes on, whichever other tokens are. -/
structure GoesOn (event : Event) (token : Token) : Prop where
  /-- A resolution is cancelled only if cancellation is requested on the way. -/
  resolve : event.after.isRequested token = false → ∀ scope settings call overloads,
    event.operation = .resolve scope settings token call overloads →
      ∃ resolution, event.answer = .resolution resolution ∧ ¬ resolution.FailsWith .cancelled
  /-- An execution starts the action, and hands back what the action does. -/
  execute : ∀ resolved, event.operation = .execute resolved token →
    event = .ofRun event.operation (ResolvedCall.handedBack <$> resolved.start token) .pending
      event.before
  /-- A completion starts the action as well, waits for what it hands back, and reports on it. -/
  complete : ∀ resolved, event.operation = .complete resolved token →
    event = .ofRun event.operation (do
      let pending ← ResolvedCall.handedBack <$> resolved.start token
      let outcome ← pending.wait
      pure (resolved.conclude outcome)) .completion event.before

end Event

namespace Operation

variable {operation : Operation} {world : World} {token : Token}

/-- **A requested token stops an operation before anything is done.** -/
theorem givesUp_perform (operation : Operation) (requested : world.isRequested token = true) :
    (operation.perform world).GivesUp token := by
  refine ⟨?resolve, ?execute, ?complete, ?idle⟩
  case resolve =>
    intro scope settings call overloads same
    obtain rfl := eq_of_operation_perform same
    refine ⟨_, rfl, ?_⟩
    rw [scope.resolve_of_requested settings call overloads requested]
    exact ⟨rfl, rfl⟩
  case execute =>
    intro resolved same
    obtain rfl := eq_of_operation_perform same
    simp only [perform, Event.ofRun, resolved.execute_of_requested requested]
  case complete =>
    intro resolved same
    obtain rfl := eq_of_operation_perform same
    simp only [perform, Event.ofRun, resolved.complete_of_requested requested]
  case idle =>
    intro heeded
    rw [operation_perform] at heeded
    cases operation with
    | makeSource | makeToken | request | wait => cases heeded
    | resolve scope settings other call overloads =>
        obtain rfl : other = token := Option.some.inj heeded
        simp only [perform, scope.resolve_of_requested settings call overloads requested]
        exact ⟨rfl, rfl⟩
    | execute resolved other =>
        obtain rfl : other = token := Option.some.inj heeded
        simp only [perform, Event.ofRun, resolved.execute_of_requested requested, World.after_nil,
          and_self]
    | complete resolved other =>
        obtain rfl : other = token := Option.some.inj heeded
        simp only [perform, Event.ofRun, resolved.complete_of_requested requested, World.after_nil,
          and_self]

/-- **No other token stops it.** -/
theorem goesOn_perform (operation : Operation) (running : world.isRequested token = false) :
    (operation.perform world).GoesOn token := by
  refine ⟨?resolve, ?execute, ?complete⟩
  case resolve =>
    intro unrequested scope settings call overloads same
    obtain rfl := eq_of_operation_perform same
    refine ⟨_, rfl, fun cancelled => ?_⟩
    cases unrequested.symm.trans (Scope.requested_of_cancelled cancelled)
  case execute =>
    intro resolved same
    obtain rfl := eq_of_operation_perform same
    simp only [perform, Event.ofRun, resolved.execute_of_running running]
  case complete =>
    intro resolved same
    obtain rfl := eq_of_operation_perform same
    simp only [perform, Event.ofRun, resolved.complete_of_running running]

end Operation

/-! ## Sessions -/

namespace Session

variable {world : World} {operations earlier later : List Operation} {token : Token}

/-- The events of operations that are performed one after another. -/
def history (world : World) : List Operation → List Event
  | [] => []
  | operation :: operations =>
    operation.perform world :: history (operation.perform world).after operations

/-- The world that operations leave behind. -/
def last (world : World) : List Operation → World
  | [] => world
  | operation :: operations => last (operation.perform world).after operations

/-- A session goes on from the world that its earlier part leaves behind. -/
theorem history_append (world : World) (earlier later : List Operation) :
    history world (earlier ++ later) =
      history world earlier ++ history (last world earlier) later := by
  induction earlier generalizing world with
  | nil => rfl
  | cons operation earlier ih => rw [List.cons_append, history, ih]; rfl

/-- **The effects of a session decide what is cancelled by its end.** -/
theorem isRequested_last_iff {source : Source} :
    (last world operations).isRequested (.of source) = true ↔
      world.isRequested (.of source) = true ∨
        ∃ event ∈ history world operations, .cancel source ∈ event.effects := by
  induction operations generalizing world with
  | nil => simp [last, history]
  | cons operation operations ih =>
      rw [last, ih, Operation.isRequested_perform_iff, or_assoc, history]
      simp only [List.mem_cons, exists_eq_or_imp]

/-- **What is requested stays so before and after every operation that follows.** -/
theorem isRequested_of_mem_history (requested : world.isRequested token = true) {event : Event}
    (member : event ∈ history world operations) :
    event.before.isRequested token = true ∧ event.after.isRequested token = true := by
  induction operations generalizing world with
  | nil => cases member
  | cons operation operations ih =>
      rcases List.mem_cons.mp member with rfl | member
      · rw [Operation.before_perform]
        exact ⟨requested, Operation.isRequested_perform requested⟩
      · exact ih (Operation.isRequested_perform requested) member

/-- An event of a session is an operation performed in the world before it. -/
theorem eq_perform_of_mem_history {event : Event} (member : event ∈ history world operations) :
    event = event.operation.perform event.before := by
  induction operations generalizing world with
  | nil => cases member
  | cons operation operations ih =>
      rcases List.mem_cons.mp member with rfl | member
      · rw [Operation.operation_perform, Operation.before_perform]
      · exact ih member

theorem serves_of_mem_history {event : Event} (member : event ∈ history world operations) :
    event.Serves := by
  rw [eq_perform_of_mem_history member]
  exact event.operation.serves_perform event.before

/-- The sources of a session are numbered on from those made before it. -/
theorem pairwise_made (world : World) (operations : List Operation) :
    ((history world operations).filterMap Event.made?).Pairwise (·.number < ·.number) ∧
      ∀ source ∈ (history world operations).filterMap Event.made?,
        world.sources ≤ source.number := by
  induction operations generalizing world with
  | nil => exact ⟨.nil, fun source member => nomatch member⟩
  | cons operation operations ih =>
      obtain ⟨ordered, above⟩ := ih (operation.perform world).after
      rw [history]
      rcases operation.sources_perform world with ⟨none, count⟩ | ⟨made, count⟩
      · rw [List.filterMap_cons_none none]
        rw [count] at above
        exact ⟨ordered, above⟩
      · rw [List.filterMap_cons_some made]
        rw [count] at above
        refine ⟨List.pairwise_cons.mpr ⟨above, ordered⟩, fun source member => ?_⟩
        rcases List.mem_cons.mp member with rfl | member
        · exact Nat.le_refl _
        · exact Nat.le_of_succ_le (above source member)

/-- Cancellation is one-way, at any point between an earlier and a later part of a session. -/
structure OneWay (world : World) (earlier later : List Operation) : Prop where
  /-- The later part goes on where the earlier part ended. -/
  resumed : history world (earlier ++ later) =
    history world earlier ++ history (last world earlier) later
  /-- Sources that are made at different times are different. -/
  distinct : ((history world (earlier ++ later)).filterMap Event.made?).Nodup
  /-- Sources and tokens are made and requests are heeded, whenever that is: all tokens obtained
  from a source are alike, and a request cancels its own source. -/
  serves : ∀ event ∈ history world (earlier ++ later), event.Serves
  /-- A token is requested if it was to begin with, or if the cancellation of its own source was
  requested in the earlier part.  What happened to other sources has no part in it. -/
  requested_iff : ∀ source, (last world earlier).isRequested (.of source) = true ↔
    world.isRequested (.of source) = true ∨
      ∃ event ∈ history world earlier, .cancel source ∈ event.effects
  /-- In particular a source is cancelled once a request has been made for it. -/
  cancelled : ∀ event ∈ history world earlier, ∀ source, event.operation = .request source →
    (last world earlier).isRequested (.of source) = true
  /-- The default token is never requested. -/
  never : (last world earlier).isRequested .never = false
  /-- A requested token stays requested throughout the later part, and every operation with it
  gives up. -/
  stopped : ∀ token, (last world earlier).isRequested token = true →
    ∀ event ∈ history (last world earlier) later,
      event.before.isRequested token = true ∧ event.after.isRequested token = true ∧
        event.GivesUp token
  /-- An operation with a token that is not requested goes on, whatever else is cancelled. -/
  unaffected : ∀ token, ∀ event ∈ history world (earlier ++ later),
    event.before.isRequested token = false → event.GoesOn token

/-- **Cancellation is one-way, and stops all later work.** -/
theorem oneWay (world : World) (earlier later : List Operation) : OneWay world earlier later where
  resumed := history_append world earlier later
  distinct := by
    refine (pairwise_made world (earlier ++ later)).1.imp ?_
    rintro first second less rfl
    exact Nat.lt_irrefl _ less
  serves _ member := serves_of_mem_history member
  requested_iff _ := isRequested_last_iff
  cancelled event member source requests := by
    apply isRequested_last_iff.mpr
    refine .inr ⟨event, member, ?_⟩
    rw [((serves_of_mem_history member).requested source requests).1]
    exact List.mem_cons_self
  never := rfl
  stopped token requested event member := by
    obtain ⟨before, after⟩ := isRequested_of_mem_history requested member
    refine ⟨before, after, ?_⟩
    rw [eq_perform_of_mem_history member]
    exact event.operation.givesUp_perform before
  unaffected token event member running := by
    rw [eq_perform_of_mem_history member]
    exact event.operation.goesOn_perform running

/-- A call whose action says goodbye and requests the cancellation of a source. -/
def leaving (source : Source) : ResolvedCall where
  invocation := ⟨"leave", ⟨"console", .any⟩, none, []⟩
  overload := some ⟨none, [], some (.immediate fun _ => do
    Run.write "goodbye"
    Run.cancel source
    pure (.ok ()))⟩

/-- The second time the action does not run, even though it is what made the request. -/
example :
    (last .initial [.makeSource, .execute (leaving ⟨0⟩) (.of ⟨0⟩),
      .complete (leaving ⟨0⟩) (.of ⟨0⟩)]).transcript = ["goodbye"] := by
  rfl

end Session

end OverloadResolution
