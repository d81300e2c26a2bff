import OverloadResolution.Proofs.Commands

/-!
# What `say` says

The words of a message are put together from left to right, and a space goes before a word only if
the text so far is not empty.  So the text is that of all words with one space between each two of
them, except that empty words at the front are dropped with the spaces behind them
(`joined_eq_intercalate`).  Nothing is lost exactly where no empty word stands at the front of
others (`joined_eq_iff`).

Where no word contains a space, the text gives the words back, all but those at the front that are
empty (`joined_inj`).  With the line that `say` writes for any user this settles which lists of words
are told apart (`run_broadcasts`).
-/

set_option autoImplicit false

namespace OverloadResolution.CommandLine

/-! ## Words put together -/

/-- Behind a text that is not empty every word gets its space. -/
theorem foldl_words {start : String} (nonempty : start ≠ "") (words : List String) :
    words.foldl (fun text word => (if text.isEmpty then text else text ++ " ") ++ word) start =
      " ".intercalate (start :: words) := by
  induction words generalizing start with
  | nil => exact String.intercalate_singleton.symm
  | cons word words ih =>
      have spaced : (if start.isEmpty then start else start ++ " ") ++ word =
          start ++ " " ++ word := by
        rw [if_neg (by simpa using nonempty)]
      have longer : start ++ " " ++ word ≠ "" := by
        simp
      rw [List.foldl_cons, spaced, ih longer, String.intercalate_cons_cons,
        String.intercalate_cons_append]

/-- **The words of a message are separated by single spaces, once a word is not empty.** -/
theorem joined_eq_intercalate (words : List String) :
    joined words = " ".intercalate (words.dropWhile String.isEmpty) := by
  induction words with
  | nil => rfl
  | cons word words ih =>
      by_cases empty : word = ""
      · subst empty
        exact ih
      · have kept : word.isEmpty = false := by simpa using empty
        rw [List.dropWhile_cons_of_neg (by simp [kept]), ← foldl_words empty, joined,
          List.foldl_cons]
        congr 1

/-- Dropping empty words makes no text longer. -/
theorem length_intercalate_dropWhile_le (words : List String) :
    (" ".intercalate (words.dropWhile String.isEmpty)).length ≤ (" ".intercalate words).length := by
  induction words with
  | nil => exact Nat.le_refl _
  | cons word words ih =>
      by_cases empty : word = ""
      · subst empty
        refine Nat.le_trans ih ?_
        cases words with
        | nil => exact Nat.zero_le _
        | cons next words =>
            rw [String.intercalate_cons_cons]
            simp
      · rw [List.dropWhile_cons_of_neg (by simpa using empty)]

/-- Nothing is lost exactly where no empty word stands at the front, or there is no other word. -/
theorem joined_eq_iff (words : List String) :
    joined words = " ".intercalate words ↔ words.head? ≠ some "" ∨ words = [""] := by
  rw [joined_eq_intercalate]
  cases words with
  | nil => simp
  | cons word words =>
      by_cases empty : word = ""
      · subst empty
        cases words with
        | nil => simp
        | cons next words =>
            have shorter := length_intercalate_dropWhile_le (next :: words)
            refine iff_of_false (fun same => ?_) (by simp)
            have lengths := congrArg String.length same
            rw [String.intercalate_cons_cons] at lengths
            simp only [String.length_append] at lengths
            rw [List.dropWhile_cons_of_pos rfl] at lengths
            have space : " ".length = 1 := rfl
            omega
      · rw [List.dropWhile_cons_of_neg (by simpa using empty)]
        simp [empty]

/-- Words without spaces are given back by the text, if there are any. -/
theorem splitOn_toList_intercalate {words : List String} (nonempty : words ≠ [])
    (unspaced : ∀ word ∈ words, ' ' ∉ word.toList) :
    (" ".intercalate words).toList.splitOn ' ' = words.map String.toList := by
  rw [String.toList_intercalate]
  refine List.splitOn_intercalate ' ' ?_ (by simpa using nonempty)
  intro chars member
  obtain ⟨word, listed, rfl⟩ := List.mem_map.mp member
  exact unspaced word listed

/-- Only words that are all empty come to nothing. -/
theorem joined_eq_empty_iff (words : List String) :
    joined words = "" ↔ words.dropWhile String.isEmpty = [] := by
  rw [joined_eq_intercalate]
  cases left : words.dropWhile String.isEmpty with
  | nil => exact iff_of_true rfl rfl
  | cons word rest =>
      have kept : word.isEmpty = false := by
        have first := List.head?_dropWhile_not String.isEmpty words
        rwa [left] at first
      refine iff_of_false (fun empty => ?_) (List.cons_ne_nil word rest)
      cases rest with
      | nil =>
          rw [String.intercalate_singleton] at empty
          rw [empty] at kept
          cases kept
      | cons next rest =>
          rw [String.intercalate_cons_cons] at empty
          simp at empty

/-- **Words without spaces are told apart by the text they come to**, but for the empty words at the
front. -/
theorem joined_inj {words others : List String} (unspaced : ∀ word ∈ words, ' ' ∉ word.toList)
    (unspacedToo : ∀ word ∈ others, ' ' ∉ word.toList) :
    joined words = joined others ↔
      words.dropWhile String.isEmpty = others.dropWhile String.isEmpty := by
  constructor
  · intro same
    by_cases empty : joined words = ""
    · have emptyToo := same.symm.trans empty
      rw [joined_eq_empty_iff] at empty emptyToo
      rw [empty, emptyToo]
    · have nonempty := mt (joined_eq_empty_iff words).mpr empty
      have nonemptyToo := mt (joined_eq_empty_iff others).mpr (same ▸ empty)
      have split := splitOn_toList_intercalate nonempty
        fun word member => unspaced word (List.dropWhile_sublist _ |>.subset member)
      have splitToo := splitOn_toList_intercalate nonemptyToo
        fun word member => unspacedToo word (List.dropWhile_sublist _ |>.subset member)
      rw [joined_eq_intercalate, joined_eq_intercalate] at same
      rw [same] at split
      exact List.map_injective_iff.mpr (fun _ _ => String.toList_inj.mp) (split.symm.trans splitToo)
  · intro same
    rw [joined_eq_intercalate, joined_eq_intercalate, same]

/-! ## Lines -/

/-- In the role of a user or of a member calls one who may say something, and who has the name of the
role. -/
theorem exists_caller_of_user {role : String} (user : role = "user" ∨ role = "member") :
    ∃ caller, caller? role = some caller ∧ caller.name = role ∧
      scope.declarations.isSubtype caller.type userType = true := by
  rcases user with rfl | rfl
  · exact ⟨_, rfl, rfl, scope.declarations.isSubtype_self userType⟩
  · exact ⟨_, rfl, rfl, by decide +kernel⟩

/-- What a run comes to that lets a user say something. -/
structure Broadcasts (options : Options) (tokens : List String) (outcome : Outcome) : Prop where
  status : outcome.status = 0
  /-- The words are separated by single spaces, from the first one on that is not empty. -/
  out : outcome.out = options.front ++
    (options.role ++ " says: " ++ " ".intercalate (tokens.dropWhile String.isEmpty) ++ "\n")
  /-- So all words and all separators are there exactly if no empty word is in front of another. -/
  whole_iff : outcome.out = options.front ++
      (options.role ++ " says: " ++ " ".intercalate tokens ++ "\n") ↔
    tokens.head? ≠ some "" ∨ tokens = [""]
  /-- Where no word contains a space, the words are known from the line, whatever environment it is
  written in, but for the empty ones at the front. -/
  apart : ∀ (environment : Environment) (words others : List String),
    Options.initial.read words = .options options ("say" :: others) →
    (∀ word ∈ tokens, ' ' ∉ word.toList) → (∀ word ∈ others, ' ' ∉ word.toList) →
      (outcome.out = (run environment words).out ↔
        tokens.dropWhile String.isEmpty = others.dropWhile String.isEmpty)

section Broadcasts

variable {words tokens : List String} {options : Options}

/-- The line that is written for a user. -/
theorem run_say (environment : Environment)
    (read : Options.initial.read words = .options options ("say" :: tokens))
    (user : options.role = "user" ∨ options.role = "member") :
    (run environment words).status = 0 ∧ (run environment words).out =
      options.front ++ (options.role ++ " says: " ++ joined tokens ++ "\n") := by
  obtain ⟨caller, known, named, typed⟩ := exists_caller_of_user user
  obtain ⟨trace, outcome, comes, runs⟩ := run_comes_of_caller environment read known rfl
  obtain ⟨status, out⟩ := comes.of_line (.say tokens typed)
  rw [runs, ← named, ← out]
  exact ⟨status, rfl⟩

/-- Lines are equal exactly if what is said is. -/
theorem line_inj {front name text other : String} :
    front ++ (name ++ " says: " ++ text ++ "\n") = front ++ (name ++ " says: " ++ other ++ "\n") ↔
      text = other := by
  simp only [String.append_right_inj, String.append_left_inj]

/-- **A user's words are said, separated by single spaces, from the first one on that is not
empty.** -/
theorem run_broadcasts (environment : Environment)
    (read : Options.initial.read words = .options options ("say" :: tokens))
    (user : options.role = "user" ∨ options.role = "member") :
    Broadcasts options tokens (run environment words) := by
  obtain ⟨status, out⟩ := run_say environment read user
  refine ⟨status, ?out, ?whole, ?apart⟩
  case out => rw [out, joined_eq_intercalate]
  case whole => rw [out, line_inj, joined_eq_iff]
  case apart =>
    intro other others more readToo unspaced unspacedToo
    rw [out, (run_say other readToo user).2, line_inj, joined_inj unspaced unspacedToo]

/-- An empty word in the middle has its two spaces, and one at the front has none. -/
theorem member_broadcasts :
    Options.initial.read ["--as", "member", "say", "", "a", "", "b"] =
        .options ⟨false, none, "member"⟩ ["say", "", "a", "", "b"] ∧
      (run ⟨none, none⟩ ["--as", "member", "say", "", "a", "", "b"]).out = "member says: a  b\n" ∧
      Broadcasts ⟨false, none, "member"⟩ ["", "a", "", "b"]
        (run ⟨none, none⟩ ["--as", "member", "say", "", "a", "", "b"]) := by
  have read : Options.initial.read ["--as", "member", "say", "", "a", "", "b"] =
      .options ⟨false, none, "member"⟩ ["say", "", "a", "", "b"] := rfl
  have line := run_broadcasts ⟨none, none⟩ read (.inr rfl)
  exact ⟨read, line.out, line⟩

/-- **An empty word in front of another loses its separator**, so that the line does not tell it from
the lack of a word. -/
theorem leading_blank_unsaid :
    (run ⟨none, none⟩ ["--as", "user", "say", "", "a"]).out ≠
        "user" ++ " says: " ++ " ".intercalate ["", "a"] ++ "\n" ∧
      (run ⟨none, none⟩ ["--as", "user", "say", "", "a"]).out =
        (run ⟨none, none⟩ ["--as", "user", "say", "a"]).out ∧
      ["", "a"] ≠ ["a"] := by
  decide +kernel

end Broadcasts

end OverloadResolution.CommandLine
