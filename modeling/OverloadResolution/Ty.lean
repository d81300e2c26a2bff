/-!
# Types

A type is a name or an array of some element type, and either may be nullable.  Two types have
the same *classifier* when they differ at most in their own nullability: the classifier is what a
registry of readers is keyed by, so it is a type of its own and conversion both ways is exact.
-/

set_option autoImplicit false

namespace OverloadResolution

/-- A type of values: a named type, or the arrays over an element type. -/
inductive Ty where
  | named (name : String) (nullable : Bool)
  | array (element : Ty) (nullable : Bool)
deriving DecidableEq, Repr, Inhabited

/-- What is left of a type when its own nullability is dropped.  The element of an array keeps its
nullability, because arrays of nullable elements are other arrays. -/
inductive Classifier where
  | named (name : String)
  | array (element : Ty)
deriving DecidableEq, Repr

/-- The non-null type with a classifier. -/
def Classifier.toTy : Classifier → Ty
  | .named name => .named name false
  | .array element => .array element false

namespace Ty

/-- Drops the type's own nullability. -/
def classifier : Ty → Classifier
  | .named name _ => .named name
  | .array element _ => .array element

/-- Whether the type itself admits null. -/
def isNullable : Ty → Bool
  | .named _ nullable => nullable
  | .array _ nullable => nullable

/-- The same type with the nullability given. -/
def withNullable (nullable : Bool) : Ty → Ty
  | .named name _ => .named name nullable
  | .array element _ => .array element nullable

/-- The type that also admits null. -/
def orNull (type : Ty) : Ty := type.withNullable true

/-- The type without null. -/
def nonNull (type : Ty) : Ty := type.withNullable false

/-- Whether the type is an array type. -/
def isArray : Ty → Bool
  | .named _ _ => false
  | .array _ _ => true

/-- The element type of an array type. -/
def element? : Ty → Option Ty
  | .named _ _ => none
  | .array element _ => some element

/-- The type's own name; every array type goes by the name `Array`. -/
def name : Ty → String
  | .named name _ => name
  | .array _ _ => "Array"

/-- The name found under all arrays. -/
def innermost : Ty → String
  | .named name _ => name
  | .array element _ => element.innermost

/-- The text of a type: arrays as `Array<element>`, and a question mark after a nullable type.
Names are not quoted, so distinct types may share a text. -/
def render : Ty → String
  | .named name nullable => name ++ if nullable then "?" else ""
  | .array element nullable => "Array<" ++ element.render ++ ">" ++ if nullable then "?" else ""

/-- The name of the type above all others. -/
def anyName : String := "Any"

/-- The type above all non-null types. -/
def any : Ty := .named anyName false

/-- Truth values. -/
def boolean : Ty := .named "Boolean" false

/-- Integers of 8 bits. -/
def byte : Ty := .named "Byte" false

/-- Integers of 16 bits. -/
def short : Ty := .named "Short" false

/-- Integers of 32 bits. -/
def int : Ty := .named "Int" false

/-- Integers of 64 bits. -/
def long : Ty := .named "Long" false

/-- Floating-point numbers within the range of single precision. -/
def float : Ty := .named "Float" false

/-- Floating-point numbers of double precision. -/
def double : Ty := .named "Double" false

/-- Strings. -/
def string : Ty := .named "String" false

/-- The types that are known without being declared, the one above all of them aside. -/
def primitives : List Ty := [boolean, byte, short, int, long, float, double, string]

/-- The non-null arrays over an element type. -/
def arrayOf (element : Ty) : Ty := .array element false

@[simp]
theorem classifier_withNullable (type : Ty) (nullable : Bool) :
    (type.withNullable nullable).classifier = type.classifier := by
  cases type <;> rfl

@[simp]
theorem isNullable_withNullable (type : Ty) (nullable : Bool) :
    (type.withNullable nullable).isNullable = nullable := by
  cases type <;> rfl

@[simp]
theorem innermost_withNullable (type : Ty) (nullable : Bool) :
    (type.withNullable nullable).innermost = type.innermost := by
  cases type <;> rfl

/-- A type is its classifier together with its nullability. -/
theorem eq_iff_classifier_eq {left right : Ty} :
    left = right ↔ left.classifier = right.classifier ∧ left.isNullable = right.isNullable := by
  cases left <;> cases right <;> simp [classifier, isNullable]

@[simp]
theorem classifier_toTy (classifier : Classifier) : classifier.toTy.classifier = classifier := by
  cases classifier <;> rfl

@[simp]
theorem toTy_classifier (type : Ty) : type.classifier.toTy = type.nonNull := by
  cases type <;> rfl

end Ty

end OverloadResolution
