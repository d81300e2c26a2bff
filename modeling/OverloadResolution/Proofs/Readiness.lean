import OverloadResolution.Proofs.Cancellation
import OverloadResolution.Proofs.Ranking
import OverloadResolution.Proofs.Recording

/-!
# Everything on record can be carried out

Assessing and converting are separate code.  The first puts on record how an argument fits, the
second reads the record and has an error of its own for every fit that it could not carry out.  Of
these errors only one can arise.  A fit is never left undecided and names only what is there
(`Fit.Sound`, `Scope.sound_fit`), so a use that will do has a plan that can be carried out, or goes
through an offer that lacks its conversion (`Use.Ready`, `Scope.ready_of_mem_uses`).

A failed conversion is therefore always explained by code from outside, or by such an offer
(`Use.FailsBy`, `Job.failsBy_of_convertUse`), and so is the failure of a resolution
(`Scope.CarriesOut`, `Scope.resolve_carriesOut`).
-/

set_option autoImplicit false

namespace OverloadResolution

/-! ## What a fit names -/

/-- A fit that is decided and names only what is there: an offer by its position among those of the
argument, or a reader, and then the argument has a token to be read. -/
inductive Fit.Sound (argument : Argument) : Fit → Prop where
  | asIs : Sound argument .asIs
  | offered {index : Nat} (inside : index < argument.offers.length) :
      Sound argument (.offered index)
  | read {raw : String} (reader : Reader) (token : argument.content.raw? = some raw) :
      Sound argument (.read (some reader))
  | impossible : Sound argument .impossible

theorem Scope.Fits.sound {scope : Scope} {expected : Ty} {argument : Argument} {taken : Fit}
    (fits : scope.Fits expected argument taken) : taken.Sound argument := by
  cases fits with
  | asIs => exact .asIs
  | offered other found => exact .offered (List.getElem?_eq_some_iff.mp found).1
  | @read raw reader other unoffered token => exact .read reader token
  | impossible => exact .impossible

/-- **However an argument fits a parameter, the fit is sound.** -/
theorem Scope.sound_fit (scope : Scope) (parameter : Parameter) (argument : Argument) :
    (scope.fit parameter argument).Sound argument := by
  cases parameter with
  | positional name type optional => exact (scope.fits_fitType type argument).sound
  | vararg name element nullable optional => exact (scope.fits_fitType element argument).sound
  | keyword name word =>
      unfold fit
      dsimp only
      split
      · exact .asIs
      · exact .impossible

/-- A vararg is made of an array type only, and expects the elements of that type. -/
theorem Parameter.expected?_of_byType {name : Option String} {type : Ty} {optional : Bool}
    {parameter : Parameter} (made : byType name type optional true = .ok parameter) :
    parameter.type = type ∧
      ∃ element, type.element? = some element ∧ parameter.expected? = some element := by
  cases type with
  | named => cases made
  | array element nullable =>
      cases made
      exact ⟨rfl, element, rfl, rfl⟩

/-! ## The plans of recorded uses -/

namespace Use

/-- The use goes through an offer that lacks its conversion. -/
def Unsupplied (use : Use) : Prop :=
  ∃ index offer, use.fit = .offered index ∧ use.argument.offers[index]? = some offer ∧
    offer.convert = none

/-- A plan that the fit of the use accounts for: it can be carried out, or the offer that the use
goes through lacks its conversion. -/
inductive Ready (use : Use) : Plan → Prop where
  | asIs (direct : use.fit = .asIs) : Ready use (.deliver use.argument.content.asValue)
  | offered {index : Nat} {offer : Offer}
      {convert : Content → Run (Except Diagnostic Value)} (through : use.fit = .offered index)
      (found : use.argument.offers[index]? = some offer) (supplied : offer.convert = some convert) :
      Ready use (.run (.offered convert use.argument.content))
  | unsupplied (lacking : use.Unsupplied) : Ready use (.refuse .noOffer)
  | read {reader : Reader} {raw : String} (through : use.fit = .read (some reader))
      (token : use.argument.content.raw? = some raw) : Ready use (.run (.reading reader raw))

variable {use : Use}

/-- **A use with a sound fit that will do is ready.** -/
theorem ready_of_sound (sound : use.fit.Sound use.argument)
    (acceptable : use.fit.isAcceptable = true) : use.Ready use.plan := by
  unfold plan
  generalize fit : use.fit = taken at sound acceptable
  cases sound with
  | asIs => exact .asIs fit
  | @offered index inside =>
      have found := List.getElem?_eq_getElem inside
      dsimp only
      rw [found, Option.bind_some]
      cases supplied : use.argument.offers[index].convert with
      | none => exact .unsupplied ⟨index, _, fit, found, supplied⟩
      | some convert => exact .offered fit found supplied
  | read reader token =>
      dsimp only
      rw [token]
      exact .read fit token
  | impossible => cases acceptable

/-- Of all obstacles only the lack of a conversion is met, and it is met exactly if there is that
lack. -/
theorem Ready.refuses_iff (ready : use.Ready use.plan) (obstacle : Obstacle) :
    use.plan = .refuse obstacle ↔ obstacle = .noOffer ∧ use.Unsupplied := by
  constructor
  · intro refuses
    rw [refuses] at ready
    cases ready with
    | unsupplied lacking => exact ⟨rfl, lacking⟩
  · rintro ⟨rfl, index, offer, through, found, lacking⟩
    simp [plan, through, found, lacking]

/-- How a used argument fails to be converted in a world, with the message that explains it: the
code that it calls for answers with an error, or the offer that it goes through lacks its
conversion. -/
inductive FailsBy (context : ReadContext) (use : Use) (world : World) : String → Prop where
  | answered {conversion : Conversion} {error : Diagnostic}
      (called : use.conversion? = some conversion)
      (erred : ((conversion.run context).perform world).1 = .error error) :
      FailsBy context use world error.message
  | unsupplied (lacking : use.Unsupplied) :
      FailsBy context use world "offered conversion is unavailable"

end Use

namespace Use

variable {use : Use} {plan : Plan}

/-- A plan that is accounted for runs what the use calls for. -/
theorem Ready.conversion?_eq (ready : use.Ready plan) : use.conversion? = plan.conversion? := by
  cases ready with
  | asIs direct => simp [conversion?, direct, Plan.conversion?]
  | offered through found supplied =>
      simp [conversion?, through, found, supplied, Plan.conversion?]
  | unsupplied lacking =>
      obtain ⟨index, offer, through, found, lacking⟩ := lacking
      simp [conversion?, through, found, lacking, Plan.conversion?]
  | read through token => simp [conversion?, through, token, Plan.conversion?]

end Use

/-- Whatever came of an assessment, the uses on record that will do are ready. -/
theorem Scope.ready_of_mem_uses {scope : Scope} {call : Call} {overload : Overload} {use : Use}
    (member : use ∈ (scope.assess call overload).uses)
    (acceptable : use.fit.isAcceptable = true) : use.Ready use.plan := by
  obtain ⟨binding, recorded, used⟩ := List.mem_flatMap.mp member
  have fit := (scope.wellFormed_assess call overload).fits binding recorded use used
  apply Use.ready_of_sound _ acceptable
  rw [fit]
  exact scope.sound_fit binding.parameter use.argument

namespace Job

variable {job : Job} {parameter : Parameter} {use : Use} {before after : Progress}
  {failure : Failure}

/-- A rejection that is not a cancellation says which argument was to be converted for which
parameter, and why that failed. -/
theorem eq_of_reject {argument : Argument} {error : Diagnostic}
    (rejected : job.reject parameter argument error before = (.error failure, after))
    (conversion : failure.kind = .conversion) :
    failure = job.conversionFailure parameter argument error ∧ after.world = before.world ∧
      after.performed = before.performed := by
  unfold reject at rejected
  split at rejected
  · cases rejected
    cases conversion
  · cases rejected
    exact ⟨rfl, rfl, rfl⟩

/-- **A conversion that fails is explained by the use that it fails at.** -/
theorem failsBy_of_convertUse (ready : use.Ready use.plan)
    (failed : job.convertUse parameter use before = (.error failure, after))
    (conversion : failure.kind = .conversion) :
    ∃ message, use.FailsBy job.context before.world message ∧
      failure = { job.failure .conversion with
        parameter := some parameter
        raw := use.argument.content.raw?
        reason := message } ∧
      before.Advances job.context after use.planned := by
  unfold convertUse at failed
  split at failed
  · cases failed
    cases conversion
  · have called := ready.conversion?_eq
    have refuses := ready.refuses_iff
    cases planned : use.plan with
    | deliver value =>
        rw [planned] at failed
        cases failed
    | refuse obstacle =>
        rw [planned] at failed
        obtain ⟨rfl, lacking⟩ := (refuses obstacle).mp planned
        obtain ⟨rfl, world, performed⟩ := eq_of_reject failed conversion
        refine ⟨_, .unsupplied lacking, rfl, ?_⟩
        rw [planned] at called
        rw [Use.planned, called]
        exact .of_eq world performed
    | run code =>
        rw [planned] at failed called
        have ran := job.run_perform use.position code before
        cases performed : job.perform use.position code before with
        | mk answer middle =>
            dsimp only at failed
            rw [performed] at failed ran
            cases answer with
            | ok value => cases failed
            | error error =>
                obtain ⟨rfl, world, records⟩ := eq_of_reject failed conversion
                refine ⟨_, .answered called (congrArg Prod.fst ran), rfl, ?_⟩
                apply job.advances_perform called
                · rw [performed]
                  exact world
                · rw [performed]
                  exact records

/-- A failed conversion of an assessed overload, taken apart at the use that it stops at: all uses
before that one have been converted, and no other code has run. -/
theorem failsBy_of_convert {assessment : Assessment} {world : World}
    (ready : ∀ use ∈ assessment.uses, use.Ready use.plan)
    (failed : (job.convert assessment world).1 = .error failure)
    (conversion : failure.kind = .conversion) :
    ∃ done parameter use rest values middle message,
      tasks assessment = done ++ (parameter, use) :: rest ∧
      Converts job.context world (done.map Prod.snd) values middle.world ∧
      (Progress.start world).Advances job.context middle
        (done.flatMap fun task => task.2.planned) ∧
      use.FailsBy job.context middle.world message ∧
      failure = { job.failure .conversion with
        parameter := some parameter
        raw := use.argument.content.raw?
        reason := message } ∧
      middle.Advances job.context (job.convert assessment world).2 use.planned := by
  obtain ⟨done, parameter, use, rest, values, middle, parts, ran, stopped⟩ :=
    (convert_run_of_error failed).culprit
  obtain ⟨keys, advances, _, complete⟩ := ran.advances
  rw [complete values rfl] at advances
  have member : use ∈ assessment.uses := by
    rw [← map_snd_tasks, parts]
    simp
  obtain ⟨message, fails, said, final⟩ :=
    failsBy_of_convertUse (ready use member) stopped conversion
  exact ⟨done, parameter, use, rest, values, middle, message, parts, ran.converts, advances, fails,
    said, final⟩

end Job

/-- The message of a failure is that of a conversion on record, unless an offer lacks its
conversion. -/
theorem Use.FailsBy.recorded {context : ReadContext} {use : Use} {before after : Progress}
    {message : String} (fails : use.FailsBy context before.world message)
    (advances : before.Advances context after use.planned) :
    (∃ record ∈ after.performed, ∃ error, record.answer = .error error ∧
      message = error.message) ∨
    (use.Unsupplied ∧ message = "offered conversion is unavailable") := by
  cases fails with
  | unsupplied lacking => exact .inr ⟨lacking, rfl⟩
  | @answered conversion error called erred =>
      obtain ⟨records, performed, ran, keys⟩ := advances
      rw [Use.planned, called] at keys
      obtain ⟨record, rfl, same⟩ := List.map_eq_singleton_iff.mp keys
      cases ran with
      | next answered =>
          cases same
          rw [answered] at erred
          rw [performed]
          exact .inl ⟨_, List.mem_append_right _ (List.mem_singleton_self _), error, erred, rfl⟩

/-! ## Resolutions -/

namespace Scope

/-- What a resolution does with the record of the overload that it converts. -/
structure CarriesOut (scope : Scope) (call : Call) (overloads : List Overload)
    (resolution : Resolution) : Prop where
  /-- The plan of every use that is to be converted can be carried out, or the offer that the use
  goes through lacks its conversion, and then the plan says just that. -/
  ready : ∀ position, resolution.chosen = some position →
    ∃ overload, overloads[position]? = some overload ∧
      ∀ use ∈ (scope.assess call overload).uses, use.Ready use.plan ∧
        ∀ obstacle, use.plan = .refuse obstacle ↔ obstacle = .noOffer ∧ use.Unsupplied
  /-- A failed conversion is explained by the error that some code from outside has answered with,
  or by an offer of a chosen use that lacks its conversion. -/
  explained : ∀ failure, resolution.outcome = .error failure → failure.kind = .conversion →
    (∃ record ∈ resolution.performed, ∃ error, record.answer = .error error ∧
      failure.reason = error.message) ∨
    (failure.reason = "offered conversion is unavailable" ∧
      ∃ position overload use, resolution.chosen = some position ∧
        overloads[position]? = some overload ∧ use ∈ (scope.assess call overload).uses ∧
        use.Unsupplied)

variable {scope : Scope} {settings : Settings} {token : Token} {call : Call}
  {overloads : List Overload} {overload : Overload} {world : World}

/-- All uses of a matching overload are ready. -/
theorem Viable.ready (matched : scope.Viable call overload) :
    ∀ use ∈ (scope.assess call overload).uses, use.Ready use.plan := by
  intro use member
  exact ready_of_mem_uses member (assess_acceptable matched use member)

/-- A failure before any conversion leaves nothing to be carried out. -/
theorem CarriesOut.of_failed {records : List Record} {failure : Failure}
    (other : failure.kind ≠ .conversion) :
    scope.CarriesOut call overloads (failed settings records world failure) where
  ready position chosen := by cases chosen
  explained reported outcome conversion := by
    cases outcome
    exact absurd conversion other

/-- The arguments of the sole leader are carried out as they are recorded. -/
theorem CarriesOut.of_converted {records : List Record} {position : Nat}
    (found : overloads[position]? = some overload)
    (sole : scope.SoleLeader call overloads position) :
    scope.CarriesOut call overloads (converted settings records ⟨call, overloads.length, token⟩
      position (scope.assess call overload) world) where
  ready chosen same := by
    cases same
    refine ⟨overload, found, ?_⟩
    intro use member
    have ready := (sole.viable found).ready use member
    exact ⟨ready, ready.refuses_iff⟩
  explained failure failed conversion := by
    obtain ⟨done, parameter, use, rest, _, _, message, parts, _, _, fails, rfl, advances⟩ :=
      Job.failsBy_of_convert (sole.viable found).ready failed conversion
    refine (fails.recorded advances).imp_right ?_
    rintro ⟨lacking, said⟩
    refine ⟨said, position, overload, use, rfl, found, ?_, lacking⟩
    rw [← Job.map_snd_tasks, parts]
    simp

/-- **Whatever is put on record can be carried out.**  Fits are sound, varargs have an element type,
and a use that will do has a plan.  So of the errors that a conversion could make up itself, no
resolution has any but that an offer lacks its conversion. -/
theorem resolve_carriesOut (scope : Scope) (settings : Settings) (token : Token) (call : Call)
    (overloads : List Overload) (world : World) :
    (∀ parameter argument, (scope.fit parameter argument).Sound argument) ∧
    (∀ name type optional parameter, Parameter.byType name type optional true = .ok parameter →
      parameter.type = type ∧ ∃ element, type.element? = some element ∧
        ∀ argument, scope.fit parameter argument = scope.fitType element argument) ∧
    (∀ overload, ∀ use ∈ (scope.assess call overload).uses,
      use.fit.isAcceptable = true → use.Ready use.plan) ∧
    scope.CarriesOut call overloads
      (scope.resolve settings token call overloads world) := by
  refine ⟨scope.sound_fit, ?_, ?_, ?_⟩
  · intro name type optional parameter made
    obtain ⟨same, element, known, expects⟩ := Parameter.expected?_of_byType made
    exact ⟨same, element, known, scope.fit_eq_fitType expects⟩
  · intro overload use member acceptable
    exact ready_of_mem_uses member acceptable
  · have course := scope.resolve_course settings token call overloads world
    generalize scope.resolve settings token call overloads world = resolution at course ⊢
    cases course with
    | converted _ found sole => exact .of_converted found sole
    | cancelled | tied | refused | unmatched => exact .of_failed FailureKind.noConfusion

end Scope

end OverloadResolution
