import OverloadResolution.Resolution

/-!
# Texts and their lines

Records are written one after another, each between its mark and a line break, and nothing in their
texts is escaped.  So what is written is one marked line for each record exactly if no record has a
break in its text (`Record.markedLines_iff`).

Which texts have one is read off what they are put together from.  Besides fixed words and numbers
these are names (`Ty.singleLine_render`, `Overload.singleLine_render`), the label of a reader
(`Fit.singleLine_render`), and what an error or a failure is about (`Diagnostic.singleLine_headline`,
`Failure.singleLine_message`).
-/

set_option autoImplicit false

namespace OverloadResolution

/-! ## Lines -/

/-- A text without a line break. -/
def SingleLine (text : String) : Prop := '\n' ∉ text.toList

instance (text : String) : Decidable (SingleLine text) :=
  inferInstanceAs (Decidable ('\n' ∉ text.toList))

@[simp]
theorem singleLine_append {front back : String} :
    SingleLine (front ++ back) ↔ SingleLine front ∧ SingleLine back := by
  simp [SingleLine]

theorem singleLine_join {texts : List String} :
    SingleLine (String.join texts) ↔ ∀ text ∈ texts, SingleLine text := by
  simp [SingleLine, String.toList_join]

/-- A separator without a break adds none. -/
theorem singleLine_intercalate {separator : String} (clean : SingleLine separator)
    (texts : List String) :
    SingleLine (separator.intercalate texts) ↔ ∀ text ∈ texts, SingleLine text := by
  induction texts with
  | nil => simp +decide
  | cons text texts ih =>
      cases texts with
      | nil => simp
      | cons next texts =>
          rw [String.intercalate_cons_cons, singleLine_append, singleLine_append, ih,
            List.forall_mem_cons]
          simp [clean]

/-- A text that consists of a number of lines, each of them marked and ended by a line break. -/
def MarkedLines (count : Nat) (text : String) : Prop :=
  ∃ lines : List String, lines.length = count ∧ text = String.join (lines.map (· ++ "\n")) ∧
    ∀ line ∈ lines, SingleLine line ∧ ∃ rest, line = "[arbiter] " ++ rest

/-- Where each text is ended by a break, there are these breaks and those within the texts. -/
theorem count_break_join (texts : List String) :
    (String.join (texts.map (· ++ "\n"))).toList.count '\n' =
      texts.length + (String.join texts).toList.count '\n' := by
  induction texts with
  | nil => rfl
  | cons text texts ih =>
      simp only [List.map_cons, String.join_cons, String.toList_append, List.count_append, ih,
        List.length_cons]
      have last : "\n".toList.count '\n' = 1 := rfl
      omega

theorem Record.lines_eq (records : List Record) :
    Record.lines records =
      String.join ((records.map fun record => Record.mark ++ record.text).map (· ++ "\n")) := by
  simp only [Record.lines, List.map_map]
  rfl

/-- **Records are written on a line each exactly if no text of theirs has a break.** -/
theorem Record.markedLines_iff (records : List Record) :
    MarkedLines records.length (Record.lines records) ↔
      ∀ record ∈ records, SingleLine record.text := by
  rw [Record.lines_eq]
  constructor
  · rintro ⟨lines, length, same, marked⟩
    have breaks := congrArg (fun text => text.toList.count '\n') same
    simp only [count_break_join, List.length_map, length] at breaks
    have none : SingleLine (String.join lines) :=
      singleLine_join.mpr fun line listed => (marked line listed).1
    rw [List.count_eq_zero.mpr none] at breaks
    -- there are as many lines as records, so no break is left for a text
    have silent := List.count_eq_zero.mp (Nat.add_left_cancel breaks)
    intro record member
    have single := singleLine_join.mp silent _ (List.mem_map_of_mem member)
    exact (singleLine_append.mp single).2
  · intro single
    refine ⟨_, List.length_map _, rfl, fun line member => ?_⟩
    obtain ⟨record, listed, rfl⟩ := List.mem_map.mp member
    exact ⟨singleLine_append.mpr ⟨by decide, single record listed⟩, record.text, rfl⟩

/-! ## Texts of the model -/

/-- Whatever is nullable and however deep the arrays are, only the name below them can have a
break. -/
theorem Ty.singleLine_render {type : Ty} : SingleLine type.render ↔ SingleLine type.innermost := by
  induction type with
  | named name nullable => cases nullable <;> simp +decide [render, innermost]
  | array element nullable ih => cases nullable <;> simp +decide [render, innermost, ih]

/-- A keyword has no blank in it, and so no break either. -/
theorem Keyword.singleLine_literal (word : Keyword) : SingleLine word.literal := by
  intro member
  have unblank := List.all_eq_true.mp word.unbroken _ member
  exact absurd unblank (by decide)

/-- The names that the text of a parameter shows; a keyword shows its literal in their place. -/
def Parameter.names : Parameter → List String
  | .positional name type _ => name.toList ++ [type.innermost]
  | .vararg name element _ _ => name.toList ++ [element.innermost]
  | .keyword _ _ => []

theorem Parameter.singleLine_namePart {name : Option String} :
    SingleLine (namePart name) ↔ ∀ text ∈ name, SingleLine text := by
  cases name <;> simp +decide [namePart]

theorem Parameter.singleLine_optionalPart (optional : Bool) :
    SingleLine (optionalPart optional) := by
  cases optional <;> decide

theorem Parameter.singleLine_render {parameter : Parameter} :
    SingleLine parameter.render ↔ ∀ name ∈ parameter.names, SingleLine name := by
  cases parameter with
  | positional name type optional =>
      simp [render, names, singleLine_namePart, singleLine_optionalPart, Ty.singleLine_render,
        or_imp, forall_and]
  | vararg name element nullable optional =>
      simp +decide [render, names, singleLine_namePart, singleLine_optionalPart,
        Ty.singleLine_render, Ty.innermost, or_imp, forall_and]
  | keyword name word => simp +decide [render, names, word.singleLine_literal]

/-- The names that the text of an overload shows: what its receiver and its parameters are called,
and of what types they are. -/
def Overload.names (overload : Overload) : List String :=
  overload.receiver.toList.map (·.type.innermost) ++ overload.parameters.flatMap Parameter.names

theorem Overload.singleLine_render {overload : Overload} :
    SingleLine overload.render ↔ ∀ name ∈ overload.names, SingleLine name := by
  have receiver (asked : Receiver) :
      SingleLine asked.render ↔ SingleLine asked.type.innermost := by
    simp +decide [Receiver.render, Ty.singleLine_render]
  have parameters : (∀ parameter ∈ overload.parameters, SingleLine parameter.render) ↔
      ∀ name ∈ overload.parameters.flatMap Parameter.names, SingleLine name := by
    simp only [Parameter.singleLine_render, List.mem_flatMap]
    grind
  have comma : SingleLine ", " := by decide
  unfold render names
  simp +decide only [singleLine_append, singleLine_intercalate comma, List.forall_mem_append,
    List.forall_mem_map, receiver, parameters, true_and, and_true]

/-- Digits and a sign are no break. -/
theorem Decimal.singleLine_text (number : Nat) : SingleLine (Decimal.text number) := by
  intro member
  rw [Decimal.text, String.toList_ofList] at member
  have digit := List.all_eq_true.mp (Decimal.all_isDigit_digits number) _ member
  exact absurd digit (by decide)

theorem Decimal.singleLine_signedText (number : Int) : SingleLine (Decimal.signedText number) := by
  have magnitude := Decimal.singleLine_text number.natAbs
  rw [SingleLine, Decimal.text, String.toList_ofList] at magnitude
  rw [SingleLine, Decimal.signedText, String.toList_ofList, Decimal.signed]
  split
  · simpa using magnitude
  · exact magnitude

theorem Assessment.singleLine_scoreText (score : Int) : SingleLine (scoreText score) := by
  unfold scoreText
  split
  · decide
  · exact Decimal.singleLine_signedText score

/-- The text of a fit names nothing but its reader. -/
theorem Fit.singleLine_render {fit : Fit} :
    SingleLine fit.render ↔ ∀ reader, fit = .read (some reader) → SingleLine reader.label := by
  cases fit with
  | read reader => cases reader <;> (unfold render; simp +decide)
  | asIs | offered | ambiguous | impossible => unfold render; simp +decide

/-- A failure quotes the overloads that tie, or else the token, the parameter and the reason of a
conversion. -/
theorem Failure.singleLine_message {failure : Failure} :
    SingleLine failure.message ↔
      (failure.kind = .ambiguous → ∀ candidate ∈ failure.candidates, SingleLine candidate.render) ∧
      (failure.kind = .conversion →
        (∀ raw ∈ failure.raw, SingleLine raw) ∧
        (∀ parameter ∈ failure.parameter, SingleLine parameter.render) ∧
        SingleLine failure.reason) := by
  obtain ⟨kind, callee, considered, candidates, parameter, raw, reason⟩ := failure
  cases kind with
  | noMatch | receiver | cancelled => simp +decide [message, Decimal.singleLine_text]
  | ambiguous => simp +decide [message, Decimal.singleLine_text, singleLine_join]
  | conversion =>
      have explained : SingleLine (if reason.isEmpty then "" else ": " ++ reason) ↔
          SingleLine reason := by
        split <;> simp_all +decide
      simp only [message, singleLine_append, explained]
      cases parameter <;> cases raw <;> simp +decide [and_assoc]

theorem Diagnostic.singleLine_headline {diagnostic : Diagnostic} :
    SingleLine diagnostic.headline ↔
      SingleLine diagnostic.subject ∧ SingleLine diagnostic.message := by
  unfold headline
  split
  · next empty =>
      have blank : diagnostic.subject = "" := by simpa using empty
      rw [blank]
      exact (and_iff_right (by decide)).symm
  · simp +decide

end OverloadResolution
