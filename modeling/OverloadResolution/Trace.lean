/-!
# Traces

What a resolution has to tell about itself is a list of records, each made for a level of detail.
A mode admits the records of its own level and of the levels below it; the mode `off` admits none,
and a record made for the level `off` is admitted by no mode.  A written record is one line.
-/

set_option autoImplicit false

namespace OverloadResolution

/-- How much is traced, and the level that a record is made for. -/
inductive TraceMode where
  | off
  | summary
  | verbose
deriving DecidableEq, Repr

namespace TraceMode

/-- The place of a mode in the order of detail. -/
def depth : TraceMode → Nat
  | .off => 0
  | .summary => 1
  | .verbose => 2

/-- Whether anything is traced. -/
def isEnabled (mode : TraceMode) : Bool := mode ≠ .off

/-- Whether records of a level are traced. -/
def admits (mode level : TraceMode) : Bool :=
  mode.isEnabled && level ≠ .off && level.depth ≤ mode.depth

end TraceMode

/-- One record of a trace. -/
structure Record where
  level : TraceMode
  text : String
deriving DecidableEq, Repr

namespace Record

/-- A record that every enabled mode admits. -/
def summary (text : String) : Record := ⟨.summary, text⟩

/-- A record that only the most detailed mode admits. -/
def verbose (text : String) : Record := ⟨.verbose, text⟩

/-- The mark in front of each written record. -/
def mark : String := "[arbiter] "

/-- A record as it is written. -/
def line (record : Record) : String := mark ++ record.text ++ "\n"

/-- Records written one after another. -/
def lines (records : List Record) : String := String.join (records.map line)

/-- The records that a mode admits, in order. -/
def admitted (mode : TraceMode) (records : List Record) : List Record :=
  records.filter fun record => mode.admits record.level

@[simp]
theorem admitted_off (records : List Record) : admitted .off records = [] := by
  simp [admitted, TraceMode.admits, TraceMode.isEnabled]

end Record

end OverloadResolution
