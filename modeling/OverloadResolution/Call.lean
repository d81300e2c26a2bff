import OverloadResolution.Diagnostic
import OverloadResolution.Value
import OverloadResolution.World

/-!
# Calls

A call names a command and brings arguments that are not resolved yet.  An argument is a raw token,
or a value that may remember the token it came from; beside it stand offers, each of which promises
to turn the argument into a value of some type.
-/

set_option autoImplicit false

namespace OverloadResolution

/-- What an argument holds: a raw token, or a value and perhaps the token it came from. -/
inductive Content where
  | token (raw : String)
  | carried (value : Value) (raw : Option String)

namespace Content

/-- The raw token, if there is one. -/
def raw? : Content → Option String
  | .token raw => some raw
  | .carried _ raw => raw

/-- The value that is carried, if there is one. -/
def value? : Content → Option Value
  | .token _ => none
  | .carried value _ => some value

/-- The value that the argument is without any conversion; a token is the string it spells. -/
def asValue : Content → Value
  | .token raw => .string raw
  | .carried value _ => value

/-- The type that the argument has without any conversion. -/
def type (content : Content) : Ty := content.asValue.type

/-- The raw token where there is one, otherwise the text of the value. -/
def render : Content → String
  | .token raw => raw
  | .carried value raw => raw.getD value.render

end Content

/-- A promise to turn an argument into a value of a type.  An offer may lack its conversion. -/
structure Offer where
  name : String
  out : Ty
  convert : Option (Content → Run (Except Diagnostic Value))

/-- An argument with the offers that come with it. -/
structure Argument where
  content : Content
  offers : List Offer

/-- An argument that is a raw token without offers. -/
def Argument.ofToken (raw : String) : Argument := ⟨.token raw, []⟩

/-- Who calls. -/
structure Caller where
  name : String
  type : Ty
deriving DecidableEq, Repr

/-- A call whose overload is not chosen yet. -/
structure Call where
  caller : Caller
  callee : String
  arguments : List Argument

end OverloadResolution
