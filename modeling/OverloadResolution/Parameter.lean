import OverloadResolution.Diagnostic
import OverloadResolution.Ty

/-!
# Parameters

A parameter takes one argument by type, any number of arguments by their element type, or one
argument that is spelled like its keyword.  The conditions on parameters are in the types: a
parameter that takes any number of arguments stores its element type, so its own type is always an
array type, and a keyword carries the proof that it has characters and that none is blank.
-/

set_option autoImplicit false

namespace OverloadResolution

/-- Whether a character is blank: a space, or one of the controls from tab to carriage return. -/
def isBlank (char : Char) : Bool := char = ' ' || ('\t' ≤ char && char ≤ '\r')

/-- A literal that is not empty and has no blank characters. -/
structure Keyword where
  literal : String
  nonempty : literal.toList ≠ []
  unbroken : literal.toList.all (fun char => !isBlank char) = true
deriving DecidableEq

/-- The keyword with a literal, or why the literal is none.  A literal of blanks only is refused
for that, before it could be refused for having any. -/
def Keyword.ofString (subject literal : String) : Except Diagnostic Keyword :=
  if blank : literal.toList.all isBlank = true then
    .error (.error subject "expectingValue must not be blank")
  else if unbroken : literal.toList.all (fun char => !isBlank char) = true then
    .ok ⟨literal, fun none => blank (by simp [none]), unbroken⟩
  else
    .error (.error subject "expectingValue must not contain whitespace")

/-- A parameter.  A name may be absent, and an absent name is not an empty one. -/
inductive Parameter where
  | positional (name : Option String) (type : Ty) (optional : Bool)
  | vararg (name : Option String) (element : Ty) (nullable optional : Bool)
  | keyword (name : Option String) (word : Keyword)
deriving DecidableEq

namespace Parameter

/-- A parameter that takes one argument, or any number of them when its type is an array type. -/
def byType (name : Option String) (type : Ty) (optional vararg : Bool) :
    Except Diagnostic Parameter :=
  if vararg then
    match type with
    | .array element nullable => .ok (.vararg name element nullable optional)
    | .named _ _ =>
      .error (.error (name.getD "")
        ("type must be an array type if vararg; given " ++ type.render))
  else .ok (.positional name type optional)

/-- A parameter that takes an argument spelled like a literal. -/
def byKeyword (name : Option String) (literal : String) : Except Diagnostic Parameter :=
  (Keyword.ofString (name.getD "") literal).map (.keyword name)

/-- A parameter that takes exactly one argument. -/
def required (name : String) (type : Ty) : Parameter := .positional (some name) type false

/-- A parameter that takes one argument or is skipped. -/
def optional (name : String) (type : Ty) : Parameter := .positional (some name) type true

/-- The parameter's name, if it has one. -/
def name? : Parameter → Option String
  | .positional name _ _ => name
  | .vararg name _ _ _ => name
  | .keyword name _ => name

/-- The type of the value that the parameter is given in the end. -/
def type : Parameter → Ty
  | .positional _ type _ => type
  | .vararg _ element nullable _ => .array element nullable
  | .keyword _ _ => .string

/-- Whether the parameter is marked optional. -/
def isOptional : Parameter → Bool
  | .positional _ _ optional => optional
  | .vararg _ _ _ optional => optional
  | .keyword _ _ => false

/-- Whether the parameter takes any number of arguments. -/
def isVararg : Parameter → Bool
  | .vararg _ _ _ _ => true
  | _ => false

/-- A name with a colon, or nothing. -/
def namePart (name : Option String) : String :=
  match name with
  | some name => name ++ ": "
  | none => ""

/-- The mark of an optional parameter, or nothing. -/
def optionalPart (optional : Bool) : String := if optional then " = ..." else ""

/-- The text of a parameter. -/
def render : Parameter → String
  | .positional name type optional => namePart name ++ type.render ++ optionalPart optional
  | .vararg name element nullable optional =>
    "vararg " ++ namePart name ++ (Ty.array element nullable).render ++ optionalPart optional
  | .keyword _ word => "<" ++ word.literal ++ ">"

end Parameter

/-- What an overload asks of the caller. -/
structure Receiver where
  type : Ty
  optional : Bool
deriving DecidableEq, Repr

/-- The text of a receiver. -/
def Receiver.render (receiver : Receiver) : String := "<receiver>: " ++ receiver.type.render

end OverloadResolution
