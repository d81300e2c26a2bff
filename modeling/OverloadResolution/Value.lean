import OverloadResolution.Ty
import OverloadResolution.Numeral.Significant

/-!
# Values

A value carries its type.  Truth values and strings have one type each, null carries a classifier
and is of the nullable type with that classifier, and the other kinds carry whatever type they were
made with: the type of a value is a label, not a consequence of its payload.
-/

set_option autoImplicit false

namespace OverloadResolution

/-- A value together with its type. -/
inductive Value where
  | null (classifier : Classifier)
  | boolean (value : Bool)
  | integer (type : Ty) (value : Int64)
  | floating (type : Ty) (value : Binary64)
  | string (text : String)
  | array (type : Ty) (elements : List Value)
  | object (type : Ty) (display : String)

namespace Value

/-- The null of a type; its own type is the type made nullable. -/
def nullOf (type : Ty) : Value := .null type.classifier

instance : Inhabited Value := ⟨nullOf .any⟩

/-- The type that a value carries. -/
def type : Value → Ty
  | .null classifier => classifier.toTy.orNull
  | .boolean _ => .boolean
  | .integer type _ => type
  | .floating type _ => type
  | .string _ => .string
  | .array type _ => type
  | .object type _ => type

/-- Whether the value is a null. -/
def isNull : Value → Bool
  | .null _ => true
  | _ => false

/-- The integer in a value that holds one. -/
def integer? : Value → Option Int64
  | .integer _ value => some value
  | _ => none

/-- The text in a value that holds a string. -/
def string? : Value → Option String
  | .string text => some text
  | _ => none

/-- The elements of a value that is an array. -/
def elements? : Value → Option (List Value)
  | .array _ elements => some elements
  | _ => none

mutual
/-- The text of a value.  Strings stand in quotes but nothing in them is escaped; numbers have six
significant digits. -/
def render : Value → String
  | .null _ => "null"
  | .boolean value => if value then "true" else "false"
  | .integer _ value => Decimal.signedText value.toInt
  | .floating _ value => Significant.text 6 value
  | .string text => "\"" ++ text ++ "\""
  | .array _ elements => "[" ++ renderElements elements ++ "]"
  | .object _ display => display

/-- The texts of values, separated by commas. -/
def renderElements : List Value → String
  | [] => ""
  | [value] => value.render
  | value :: next :: rest => value.render ++ ", " ++ renderElements (next :: rest)
end

@[simp]
theorem type_nullOf (type : Ty) : (nullOf type).type = type.orNull := by
  cases type <;> rfl

@[simp]
theorem isNull_nullOf (type : Ty) : (nullOf type).isNull = true := rfl

end Value

end OverloadResolution
