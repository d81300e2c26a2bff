import OverloadResolution.Proofs.Resolving

/-!
# Order and irrelevant alternatives

Which overload is chosen does not depend on where the overloads stand in the list, nor on those that
the chosen one outclasses.  Both follow from one description of the chosen overload, which mentions
no positions: it matches, and everything that stands before or after it is outclassed
(`Scope.Dominates`).  That survives a permutation (`Scope.Dominates.perm`), and it survives a
revision that deletes others or inserts what is outclassed (`Scope.Dominates.revised`).

The conversion of the chosen overload sees the list only through its length, which every failure
mentions (`Job.convert_recount`).
-/

set_option autoImplicit false

namespace OverloadResolution

/-! ## The number of overloads considered -/

/-- The failure with another number of overloads considered. -/
def Failure.recount (count : Nat) (failure : Failure) : Failure :=
  { failure with considered := count }

namespace Attempt

variable {α β : Type}

/-- The attempt whose failures mention another number of overloads. -/
def recount (count : Nat) (attempt : Attempt α) : Attempt α := fun progress =>
  ((attempt progress).1.mapError (Failure.recount count), (attempt progress).2)

theorem recount_succeed (count : Nat) (answer : α) :
    recount count (succeed answer) = succeed answer := rfl

theorem recount_andThen (count : Nat) (attempt : Attempt α) (next : α → Attempt β) :
    recount count (andThen attempt next) =
      andThen (recount count attempt) fun answer => recount count (next answer) := by
  funext progress
  unfold recount andThen
  dsimp only
  rcases attempt progress with ⟨failure | answer, middle⟩ <;> rfl

end Attempt

namespace Job

/-- The same job, but chosen from another number of overloads. -/
def recount (count : Nat) (job : Job) : Job := { job with considered := count }

variable (count : Nat) (job : Job)

@[simp]
theorem token_recount : (job.recount count).token = job.token := rfl

@[simp]
theorem perform_recount (position : Nat) (conversion : Conversion) (progress : Progress) :
    (job.recount count).perform position conversion progress =
      job.perform position conversion progress := rfl

theorem reject_recount (parameter : Parameter) (argument : Argument) (error : Diagnostic)
    (progress : Progress) :
    (job.recount count).reject parameter argument error progress =
      Attempt.recount count (job.reject parameter argument error) progress := by
  unfold Attempt.recount reject
  rw [token_recount]
  split <;> rfl

theorem convertUse_recount (parameter : Parameter) (use : Use) :
    (job.recount count).convertUse parameter use =
      Attempt.recount count (job.convertUse parameter use) := by
  funext progress
  unfold Attempt.recount convertUse
  rw [token_recount]
  split
  · rfl
  · cases use.plan with
    | deliver value => rfl
    | refuse obstacle => exact job.reject_recount count parameter use.argument _ progress
    | run conversion =>
        dsimp only
        rw [perform_recount]
        rcases job.perform use.position conversion progress with ⟨error | value, after⟩
        · exact job.reject_recount count parameter use.argument error after
        · rfl

theorem convertTasks_recount (tasks : List Task) :
    (job.recount count).convertTasks tasks = Attempt.recount count (job.convertTasks tasks) := by
  induction tasks with
  | nil => rfl
  | cons task tasks ih =>
      simp only [convertTasks, Attempt.recount_andThen, Attempt.recount_succeed,
        convertUse_recount, ih]

/-- **The number of overloads matters for what a failure says, and for nothing else.** -/
theorem convert_recount (assessment : Assessment) (world : World) :
    (job.recount count).convert assessment world =
      ((job.convert assessment world).1.mapError (Failure.recount count),
        (job.convert assessment world).2) := by
  rw [convert_eq, convert_eq, convertTasks_recount]
  have counted := Attempt.recount_andThen count (job.convertTasks (tasks assessment)) fun values =>
    Attempt.succeed (job.resolved assessment (Binding.gather assessment.bindings values))
  simp only [Attempt.recount_succeed] at counted
  exact (congrFun counted (.start world)).symm

end Job

/-! ## The chosen overload without positions -/

namespace Scope

/-- An overload is out of the question, or scores below another one. -/
def Outclassed (scope : Scope) (call : Call) (winner other : Overload) : Prop :=
  (scope.assess call other).isDisqualified = true ∨
    (scope.assess call other).score < (scope.assess call winner).score

/-- An overload matches, and stands in a list among others that it outclasses. -/
def Dominates (scope : Scope) (call : Call) (winner : Overload) (overloads : List Overload) :
    Prop :=
  scope.Viable call winner ∧ ∃ before after, overloads = before ++ winner :: after ∧
    ∀ other ∈ before ++ after, scope.Outclassed call winner other

variable {scope : Scope} {settings : Settings} {token : Token} {call : Call} {world : World}
  {winner other : Overload} {overloads others : List Overload} {position : Nat}

/-- To be outclassed is to score below the winner, if one scores at all. -/
theorem outclassed_iff : scope.Outclassed call winner other ↔
    (scope.Viable call other →
      (scope.assess call other).score < (scope.assess call winner).score) := by
  rw [← inPlay_iff_viable]
  unfold Outclassed
  cases (scope.assess call other).isDisqualified <;> simp

/-- Whoever leads is outclassed by nobody that matches. -/
theorem Leads.not_outclassed (leads : scope.Leads call overloads other)
    (member : winner ∈ overloads) (viable : scope.Viable call winner) :
    ¬ scope.Outclassed call winner other := by
  intro outclassed
  have below := outclassed_iff.mp outclassed leads.1
  have above := leads.2 winner member viable
  omega

theorem SoleLeader.dominates (sole : scope.SoleLeader call overloads position)
    (found : overloads[position]? = some winner) : scope.Dominates call winner overloads := by
  obtain ⟨leader, leaderFound, viable, unsurpassed⟩ := sole.1
  cases found.symm.trans leaderFound
  refine ⟨viable, overloads.take position, overloads.drop (position + 1), ?_, ?_⟩
  · obtain ⟨inside, rfl⟩ := List.getElem?_eq_some_iff.mp found
    rw [List.getElem_cons_drop, List.take_append_drop]
  · intro other member
    rw [← List.eraseIdx_eq_take_drop_succ, List.mem_eraseIdx_iff_getElem?] at member
    obtain ⟨index, elsewhere, otherFound⟩ := member
    apply outclassed_iff.mpr
    intro otherViable
    by_contra reaches
    -- an overload elsewhere that reaches the score would lead as well
    refine elsewhere (sole.2 index ⟨other, otherFound, otherViable, ?_⟩)
    intro third thirdMember thirdViable
    have bound := unsurpassed third thirdMember thirdViable
    omega

theorem Dominates.soleLeader (dominates : scope.Dominates call winner overloads) :
    ∃ position, overloads[position]? = some winner ∧
      scope.SoleLeader call overloads position := by
  obtain ⟨viable, before, after, rfl, outclassed⟩ := dominates
  have found : (before ++ winner :: after)[before.length]? = some winner := by simp
  refine ⟨before.length, found, ⟨winner, found, viable, ?_⟩, ?_⟩
  · intro other member otherViable
    rcases List.mem_append.mp member with early | late
    · exact Int.le_of_lt
        (outclassed_iff.mp (outclassed other (List.mem_append_left after early)) otherViable)
    · rcases List.mem_cons.mp late with rfl | late
      · exact Int.le_refl _
      · exact Int.le_of_lt
          (outclassed_iff.mp (outclassed other (List.mem_append_right before late)) otherViable)
  · rintro index ⟨other, otherFound, leads⟩
    by_contra elsewhere
    have member : other ∈ (before ++ winner :: after).eraseIdx before.length :=
      List.mem_eraseIdx_iff_getElem?.mpr ⟨index, elsewhere, otherFound⟩
    rw [List.eraseIdx_append_of_length_le (Nat.le_refl _), Nat.sub_self, List.eraseIdx_cons_zero]
      at member
    exact leads.not_outclassed (List.mem_append_right before List.mem_cons_self) viable
      (outclassed other member)

/-- **Dominance does not depend on the order.** -/
theorem Dominates.perm (dominates : scope.Dominates call winner overloads)
    (reordered : overloads.Perm others) : scope.Dominates call winner others := by
  obtain ⟨viable, before, after, rfl, outclassed⟩ := dominates
  have member : winner ∈ others :=
    reordered.mem_iff.mp (List.mem_append_right before List.mem_cons_self)
  obtain ⟨early, late, rfl⟩ := List.append_of_mem member
  have rest : (before ++ after).Perm (early ++ late) := by
    have moved := List.perm_middle.symm.trans (reordered.trans List.perm_middle)
    exact moved.cons_inv
  refine ⟨viable, early, late, rfl, ?_⟩
  intro other otherMember
  exact outclassed other (rest.mem_iff.mpr otherMember)

/-- A list revised by deleting overloads other than the winner, and by inserting overloads that the
winner outclasses, anywhere. -/
inductive Revised (scope : Scope) (call : Call) (winner : Overload) :
    List Overload → List Overload → Prop where
  | nil : Revised scope call winner [] []
  | keep (overload : Overload) {overloads others : List Overload}
      (rest : Revised scope call winner overloads others) :
      Revised scope call winner (overload :: overloads) (overload :: others)
  | delete {overload : Overload} {overloads others : List Overload} (other : overload ≠ winner)
      (rest : Revised scope call winner overloads others) :
      Revised scope call winner (overload :: overloads) others
  | insert {overload : Overload} {overloads others : List Overload}
      (outclassed : scope.Outclassed call winner overload)
      (rest : Revised scope call winner overloads others) :
      Revised scope call winner overloads (overload :: others)

/-- What is in a revised list was there before, or is outclassed. -/
theorem Revised.outclassed (revised : scope.Revised call winner overloads others)
    (outclassed : ∀ other ∈ overloads, scope.Outclassed call winner other) :
    ∀ other ∈ others, scope.Outclassed call winner other := by
  induction revised with
  | nil => exact outclassed
  | keep overload _ ih =>
      rw [List.forall_mem_cons] at outclassed ⊢
      exact ⟨outclassed.1, ih outclassed.2⟩
  | delete _ _ ih =>
      rw [List.forall_mem_cons] at outclassed
      exact ih outclassed.2
  | insert below _ ih =>
      rw [List.forall_mem_cons]
      exact ⟨below, ih outclassed⟩

/-- **Dominance survives a revision.** -/
theorem Dominates.revised (dominates : scope.Dominates call winner overloads)
    (revised : scope.Revised call winner overloads others) :
    scope.Dominates call winner others := by
  obtain ⟨viable, placed⟩ := dominates
  refine ⟨viable, ?_⟩
  induction revised with
  | nil =>
      obtain ⟨before, after, same, _⟩ := placed
      cases before <;> cases same
  | keep overload rest ih =>
      obtain ⟨before, after, same, outclassed⟩ := placed
      cases before with
      | nil =>
          cases same
          exact ⟨[], _, rfl, rest.outclassed outclassed⟩
      | cons first before =>
          cases same
          rw [List.cons_append, List.forall_mem_cons] at outclassed
          obtain ⟨early, late, rfl, below⟩ := ih ⟨before, after, rfl, outclassed.2⟩
          exact ⟨overload :: early, late, rfl, List.forall_mem_cons.mpr ⟨outclassed.1, below⟩⟩
  | delete other _ ih =>
      obtain ⟨before, after, same, outclassed⟩ := placed
      cases before with
      | nil =>
          cases same
          exact absurd rfl other
      | cons first before =>
          cases same
          rw [List.cons_append, List.forall_mem_cons] at outclassed
          exact ih ⟨before, after, rfl, outclassed.2⟩
  | insert below _ ih =>
      obtain ⟨early, late, rfl, others⟩ := ih placed
      exact ⟨_ :: early, late, rfl, List.forall_mem_cons.mpr ⟨below, others⟩⟩

/-! ## The course that the list determines -/

/-- Where an overload dominates, its arguments are converted. -/
theorem resolve_of_dominates (settings : Settings) (running : world.isRequested token = false)
    (dominates : scope.Dominates call winner overloads) :
    ∃ position, overloads[position]? = some winner ∧
      scope.resolve settings token call overloads world =
        converted settings (scope.assessmentRecords call overloads)
          ⟨call, overloads.length, token⟩ position (scope.assess call winner) world := by
  obtain ⟨position, found, sole⟩ := dominates.soleLeader
  exact ⟨position, found, resolve_of_soleLeader settings running found sole⟩

/-- Where some overload matches and none dominates, there is a tie. -/
theorem resolve_of_tied (running : world.isRequested token = false)
    (member : other ∈ overloads) (viable : scope.Viable call other)
    (undominated : ∀ winner, ¬ scope.Dominates call winner overloads) :
    scope.resolve settings token call overloads world =
      failed settings (scope.assessmentRecords call overloads) world
        (scope.ambiguity call overloads) := by
  have course := scope.resolve_course settings token call overloads world
  generalize scope.resolve settings token call overloads world = resolution at course ⊢
  cases course with
  | cancelled requested => cases requested.symm.trans running
  | converted _ found sole => exact absurd (sole.dominates found) (undominated _)
  | tied => rfl
  | refused _ nonviable | unmatched _ nonviable => exact absurd viable (nonviable other member)

instance (scope : Scope) (call : Call) (overloads : List Overload) :
    Decidable (scope.RefusesAll call overloads) :=
  decidable_of_iff _ (scope.allRefuseCaller_iff call overloads)

/-- The kind of the failure where nothing matches. -/
def mismatch (scope : Scope) (settings : Settings) (call : Call) (overloads : List Overload) :
    FailureKind :=
  if scope.RefusesAll call overloads ∧ settings.foldsReceiver = false then .receiver else .noMatch

/-- Where nothing matches, it matters only whether the caller is refused everywhere. -/
theorem resolve_of_nonviable (running : world.isRequested token = false)
    (nonviable : ∀ overload ∈ overloads, ¬ scope.Viable call overload) :
    scope.resolve settings token call overloads world =
      failed settings (scope.assessmentRecords call overloads) world
        (.ofKind (scope.mismatch settings call overloads) call.callee overloads.length) := by
  have course := scope.resolve_course settings token call overloads world
  generalize scope.resolve settings token call overloads world = resolution at course ⊢
  cases course with
  | cancelled requested => cases requested.symm.trans running
  | converted _ _ sole => exact absurd sole.1 (not_leadsAt_of_nonviable nonviable _)
  | tied _ _ leads _ => exact absurd leads (not_leadsAt_of_nonviable nonviable _)
  | refused _ _ refuses => rw [mismatch, if_pos refuses]
  | unmatched _ _ otherwise => rw [mismatch, if_neg otherwise]

/-- The list counts only as the set of its overloads when it comes to leading. -/
theorem leads_congr (same : ∀ overload, overload ∈ overloads ↔ overload ∈ others) :
    scope.Leads call overloads other ↔ scope.Leads call others other := by
  simp only [Leads, same]

theorem mismatch_perm (reordered : overloads.Perm others) :
    scope.mismatch settings call overloads = scope.mismatch settings call others := by
  have nil : overloads = [] ↔ others = [] := by
    rw [← List.length_eq_zero_iff, reordered.length_eq, List.length_eq_zero_iff]
  have refuses : scope.RefusesAll call overloads ↔ scope.RefusesAll call others := by
    simp only [RefusesAll, ne_eq, nil, reordered.mem_iff]
  exact if_congr (and_congr_left' refuses) rfl rfl

/-- The overloads that lead are the same in another order. -/
theorem leading_perm (reordered : overloads.Perm others) :
    (overloads.filter fun overload => scope.Leads call overloads overload).Perm
      (others.filter fun overload => scope.Leads call others overload) := by
  simp only [leads_congr fun _ => reordered.mem_iff]
  exact reordered.filter _

end Scope

/-! ## Two resolutions side by side -/

/-- The overload that a resolution has chosen from a list, if it has chosen one. -/
def Resolution.winner? (resolution : Resolution) (overloads : List Overload) : Option Overload :=
  resolution.chosen.bind fun position => overloads[position]?

/-- Two resolutions, each from a list of its own, choose the same overload and run the same
conversions to the same effect. -/
structure Resolution.Concurs (overloads others : List Overload) (first second : Resolution) :
    Prop where
  winner : first.winner? overloads = second.winner? others
  performed : first.performed = second.performed
  world : first.world = second.world

/-- Outcomes that differ at most in the order in which a tie names its overloads. -/
inductive Alike : Except Failure ResolvedCall → Except Failure ResolvedCall → Prop where
  | resolved (resolved : ResolvedCall) : Alike (.ok resolved) (.ok resolved)
  | failed {failure : Failure} {candidates : List Overload}
      (named : failure.candidates.Perm candidates) :
      Alike (.error failure) (.error { failure with candidates := candidates })

theorem Alike.refl (outcome : Except Failure ResolvedCall) : Alike outcome outcome := by
  cases outcome with
  | error failure => exact .failed (.refl failure.candidates)
  | ok resolved => exact .resolved resolved

namespace Scope

/-- What resolving a call makes of a list of overloads it makes of other lists too. -/
structure Stable (scope : Scope) (call : Call) (overloads : List Overload)
    (resolution : List Overload → Resolution) : Prop where
  /-- In another order the same overload is chosen, and the outcome is the same. -/
  reordered : ∀ others, overloads.Perm others →
    Resolution.Concurs overloads others (resolution overloads) (resolution others) ∧
      Alike (resolution overloads).outcome (resolution others).outcome
  /-- A chosen overload is chosen from every revision of the list, and the outcome is the same but
  for the number of overloads that a failure mentions. -/
  revised : ∀ winner others, (resolution overloads).winner? overloads = some winner →
    scope.Revised call winner overloads others →
      Resolution.Concurs overloads others (resolution overloads) (resolution others) ∧
        (resolution others).outcome =
          (resolution overloads).outcome.mapError (Failure.recount others.length)

variable {scope : Scope} {settings : Settings} {token : Token} {call : Call} {world : World}
  {winner : Overload} {overloads others : List Overload}

/-- A chosen overload dominates the list, and the call was not cancelled. -/
theorem dominates_of_winner? (chosen : (scope.resolve settings token call overloads world).winner?
      overloads = some winner) :
    world.isRequested token = false ∧ scope.Dominates call winner overloads := by
  have course := scope.resolve_course settings token call overloads world
  generalize scope.resolve settings token call overloads world = resolution at course chosen
  cases course with
  | cancelled | tied | refused | unmatched => cases chosen
  | converted running found sole =>
      cases found.symm.trans chosen
      exact ⟨running, sole.dominates found⟩

/-- Where one overload dominates two lists, resolving them differs in the numbers only. -/
theorem resolve_concurs (running : world.isRequested token = false)
    (first : scope.Dominates call winner overloads) (second : scope.Dominates call winner others) :
    Resolution.Concurs overloads others (scope.resolve settings token call overloads world)
        (scope.resolve settings token call others world) ∧
      (scope.resolve settings token call others world).outcome =
        (scope.resolve settings token call overloads world).outcome.mapError
          (Failure.recount others.length) := by
  obtain ⟨position, found, resolves⟩ := resolve_of_dominates settings running first
  obtain ⟨index, foundToo, resolvesToo⟩ := resolve_of_dominates settings running second
  have counted := Job.convert_recount others.length ⟨call, overloads.length, token⟩
    (scope.assess call winner) world
  rw [resolves, resolvesToo]
  refine ⟨⟨found.trans foundToo.symm, ?_, ?_⟩, congrArg Prod.fst counted⟩
  · exact (congrArg (fun result => result.2.performed) counted).symm
  · exact (congrArg (fun result => result.2.world) counted).symm

/-- The order of the overloads decides nothing. -/
theorem resolve_perm (reordered : overloads.Perm others) :
    Resolution.Concurs overloads others (scope.resolve settings token call overloads world)
        (scope.resolve settings token call others world) ∧
      Alike (scope.resolve settings token call overloads world).outcome
        (scope.resolve settings token call others world).outcome := by
  have length := reordered.length_eq
  cases requested : world.isRequested token with
  | true =>
      rw [resolve_of_requested scope settings call overloads requested,
        resolve_of_requested scope settings call others requested, length]
      exact ⟨⟨rfl, rfl, rfl⟩, .refl _⟩
  | false =>
      by_cases dominated : ∃ winner, scope.Dominates call winner overloads
      · obtain ⟨winner, dominates⟩ := dominated
        obtain ⟨position, found, resolves⟩ := resolve_of_dominates settings requested dominates
        obtain ⟨index, foundToo, resolvesToo⟩ :=
          resolve_of_dominates settings requested (dominates.perm reordered)
        rw [resolves, resolvesToo, length]
        exact ⟨⟨found.trans foundToo.symm, rfl, rfl⟩, .refl _⟩
      · have undominated : ∀ winner, ¬ scope.Dominates call winner others := by
          intro winner dominates
          exact dominated ⟨winner, dominates.perm reordered.symm⟩
        by_cases matching : ∃ overload ∈ overloads, scope.Viable call overload
        · obtain ⟨other, member, viable⟩ := matching
          rw [resolve_of_tied requested member viable (not_exists.mp dominated),
            resolve_of_tied requested (reordered.mem_iff.mp member) viable undominated]
          unfold ambiguity
          rw [length]
          exact ⟨⟨rfl, rfl, rfl⟩, .failed (leading_perm reordered)⟩
        · have nonviable : ∀ overload ∈ overloads, ¬ scope.Viable call overload := by
            intro overload member viable
            exact matching ⟨overload, member, viable⟩
          have nonviableToo : ∀ overload ∈ others, ¬ scope.Viable call overload := by
            intro overload member
            exact nonviable overload (reordered.mem_iff.mpr member)
          rw [resolve_of_nonviable requested nonviable,
            resolve_of_nonviable requested nonviableToo, mismatch_perm reordered, length]
          exact ⟨⟨rfl, rfl, rfl⟩, .refl _⟩

/-- **Neither the order of the overloads nor an irrelevant alternative makes a difference.** -/
theorem resolve_stable (scope : Scope) (settings : Settings) (token : Token) (call : Call)
    (overloads : List Overload) (world : World) :
    scope.Stable call overloads fun others => scope.resolve settings token call others world where
  reordered _ reordered := resolve_perm reordered
  revised _ _ chosen revised := by
    obtain ⟨running, dominates⟩ := dominates_of_winner? chosen
    exact resolve_concurs running dominates (dominates.revised revised)

/-- The overload of no lines is out of the question, and moves the other one by a place. -/
example : (resolve ⟨.initial, none⟩ .initial .never (echoing [.ofToken "hi"])
    [⟨none, [], none⟩, echo] .initial).chosen = some 1 := rfl

end Scope

end OverloadResolution
