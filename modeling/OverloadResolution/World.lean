/-!
# The world that user code runs in

Conversions and actions are supplied from outside.  What they can do is an `Effect`: write a text,
or request the cancellation of a source.  Such code is a `Run`: from the world it starts in it
gives an answer and the effects it had, in order.  A run never hands back a world of its own; the
world after it is computed from its effects.  So whatever the code does, the transcript only grows
and a requested cancellation is never withdrawn.
-/

set_option autoImplicit false

namespace OverloadResolution

/-- A source of cancellation, told apart from others by the order of their making. -/
structure Source where
  number : Nat
deriving DecidableEq, Repr

/-- A view of a source that can be asked whether cancellation is requested; or of no source, when
cancellation can never be requested. -/
inductive Token where
  | never
  | of (source : Source)
deriving DecidableEq, Repr

/-- Whether there is a source behind the token at all. -/
def Token.isCancellable : Token → Bool
  | .never => false
  | .of _ => true

/-- What user code can do. -/
inductive Effect where
  | write (text : String)
  | cancel (source : Source)
deriving DecidableEq, Repr

/-- What has been written, how many sources were made, and which of them are cancelled. -/
structure World where
  transcript : List String
  sources : Nat
  cancelled : List Source
deriving DecidableEq, Repr

namespace World

/-- The world before anything happened. -/
def initial : World := ⟨[], 0, []⟩

/-- Makes a source that is not cancelled. -/
def newSource (world : World) : Source × World :=
  (⟨world.sources⟩, { world with sources := world.sources + 1 })

/-- Whether cancellation of the token's source is requested. -/
def isRequested (world : World) : Token → Bool
  | .never => false
  | .of source => source ∈ world.cancelled

/-- The world after one effect. -/
def apply (world : World) : Effect → World
  | .write text => { world with transcript := world.transcript ++ [text] }
  | .cancel source => { world with cancelled := source :: world.cancelled }

/-- The world after several effects, in order. -/
def after (world : World) (effects : List Effect) : World := effects.foldl apply world

@[simp]
theorem after_nil (world : World) : world.after [] = world := rfl

@[simp]
theorem after_append (world : World) (first second : List Effect) :
    world.after (first ++ second) = (world.after first).after second :=
  List.foldl_append

theorem isRequested_apply {world : World} {token : Token} (effect : Effect)
    (requested : world.isRequested token = true) :
    (world.apply effect).isRequested token = true := by
  cases token with
  | never => exact requested
  | of source =>
    cases effect with
    | write text => exact requested
    | cancel other =>
      exact decide_eq_true (List.mem_cons_of_mem _ (of_decide_eq_true requested))

/-- A requested cancellation stays requested. -/
theorem isRequested_after {world : World} {token : Token} (effects : List Effect)
    (requested : world.isRequested token = true) :
    (world.after effects).isRequested token = true := by
  induction effects generalizing world with
  | nil => exact requested
  | cons effect rest ih => exact ih (isRequested_apply effect requested)

end World

/-- Code that sees the world it starts in, and gives an answer and its effects in order. -/
def Run (α : Type) : Type := World → α × List Effect

namespace Run

variable {α β : Type}

/-- An answer without effects. -/
def ofAnswer (answer : α) : Run α := fun _ => (answer, [])

/-- One run after another; the second starts in the world that the first leaves behind. -/
def andThen (run : Run α) (next : α → Run β) : Run β := fun world =>
  let (answer, effects) := run world
  let (result, more) := next answer (world.after effects)
  (result, effects ++ more)

instance : Monad Run where
  pure := ofAnswer
  bind := andThen

theorem id_map_run (run : Run α) : id <$> run = run := by
  funext world
  simp [Functor.map, andThen, ofAnswer]

theorem pure_bind_run (answer : α) (next : α → Run β) : pure answer >>= next = next answer := by
  funext world
  simp [pure, bind, andThen, ofAnswer]

theorem bind_assoc_run {γ : Type} (run : Run α) (next : α → Run β) (last : β → Run γ) :
    run >>= next >>= last = run >>= fun answer => next answer >>= last := by
  funext world
  simp [bind, andThen]

instance : LawfulMonad Run := .mk' Run id_map_run pure_bind_run bind_assoc_run

/-- Writes a text. -/
def write (text : String) : Run Unit := fun _ => ((), [.write text])

/-- Requests the cancellation of a source. -/
def cancel (source : Source) : Run Unit := fun _ => ((), [.cancel source])

/-- Asks whether cancellation is requested. -/
def isRequested (token : Token) : Run Bool := fun world => (world.isRequested token, [])

/-- The answer of a run, and the world it leaves behind. -/
def perform (run : Run α) (world : World) : α × World :=
  ((run world).1, world.after (run world).2)

@[simp]
theorem perform_pure (answer : α) (world : World) :
    perform (pure answer : Run α) world = (answer, world) := rfl

@[simp]
theorem perform_bind (run : Run α) (next : α → Run β) (world : World) :
    perform (run >>= next) world = perform (next (perform run world).1) (perform run world).2 := by
  simp [perform, bind, andThen]

theorem perform_isRequested (token : Token) (world : World) :
    perform (isRequested token) world = (world.isRequested token, world) := rfl

end Run

end OverloadResolution
