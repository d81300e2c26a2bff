/-!
# Diagnostics

A diagnostic says what is wrong and with what.  A report collects diagnostics in the order they
arise; how many of them are errors or warnings is read off the collection, so it can never
disagree with it.
-/

set_option autoImplicit false

namespace OverloadResolution

/-- How grave a diagnostic is. -/
inductive Severity where
  | note
  | warning
  | error
deriving DecidableEq, Repr

/-- The word that a printed diagnostic carries. -/
def Severity.word : Severity → String
  | .note => "note"
  | .warning => "warning"
  | .error => "error"

/-- A message about a subject; the subject may be empty. -/
structure Diagnostic where
  severity : Severity
  message : String
  subject : String
deriving DecidableEq, Repr

namespace Diagnostic

/-- An error about a subject. -/
def error (subject message : String) : Diagnostic := ⟨.error, message, subject⟩

/-- The message, with the subject in front unless that is empty. -/
def headline (diagnostic : Diagnostic) : String :=
  if diagnostic.subject.isEmpty then diagnostic.message
  else diagnostic.subject ++ ": " ++ diagnostic.message

/-- One printed line: the subject unless it is empty, the severity, the message. -/
def print (diagnostic : Diagnostic) : String :=
  (if diagnostic.subject.isEmpty then "" else diagnostic.subject ++ ": ") ++
    diagnostic.severity.word ++ ": " ++ diagnostic.message ++ "\n"

end Diagnostic

/-- Diagnostics in the order they were reported. -/
structure Report where
  entries : List Diagnostic
deriving DecidableEq, Repr

namespace Report

/-- A report without entries. -/
def empty : Report := ⟨[]⟩

/-- The report with one more entry. -/
def add (report : Report) (diagnostic : Diagnostic) : Report := ⟨report.entries ++ [diagnostic]⟩

/-- How many entries have a severity. -/
def count (report : Report) (severity : Severity) : Nat :=
  report.entries.countP fun entry => entry.severity = severity

/-- All entries, printed one after the other. -/
def print (report : Report) : String := String.join (report.entries.map Diagnostic.print)

@[simp]
theorem print_empty : empty.print = "" := rfl

theorem count_add (report : Report) (diagnostic : Diagnostic) (severity : Severity) :
    (report.add diagnostic).count severity =
      report.count severity + if diagnostic.severity = severity then 1 else 0 := by
  simp [count, add, List.countP_append, List.countP_singleton]

end Report

end OverloadResolution
