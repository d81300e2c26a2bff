import OverloadResolution.Parameter
import OverloadResolution.Registry.Basic

/-!
# How an argument fits a parameter

An argument may fit as it is, through one of its offers, or by reading its token.  The three ways
are tried in this order, and among offers the first that promises a suitable type is taken.  A
keyword is matched against the token alone.
-/

set_option autoImplicit false

namespace OverloadResolution

/-- How an argument fits. -/
inductive Fit where
  | asIs
  | offered (index : Nat)
  | read (reader : Option Reader)
  | ambiguous
  | impossible

namespace Fit

/-- The rank of a fit that needs no conversion. -/
def topRank : Int := 2147483647

/-- The rank of a fit through an offer. -/
def offerRank : Int := 20

/-- The rank of a fit by reading. -/
def readRank : Int := 10

/-- The rank from which on a fit will not do. -/
def ambiguousRank : Int := 0

/-- The rank of no fit. -/
def bottomRank : Int := -1

/-- How good a fit is; greater is better. -/
def rank : Fit → Int
  | .asIs => topRank
  | .offered _ => offerRank
  | .read _ => readRank
  | .ambiguous => ambiguousRank
  | .impossible => bottomRank

/-- Whether a fit will do. -/
def isAcceptable (fit : Fit) : Bool := ambiguousRank < fit.rank

/-- A fit will do unless it is ambiguous or impossible. -/
theorem isAcceptable_iff {fit : Fit} :
    fit.isAcceptable = true ↔ fit ≠ .ambiguous ∧ fit ≠ .impossible := by
  cases fit <;> simp [isAcceptable, rank, topRank, offerRank, readRank, ambiguousRank, bottomRank]

/-- The text of a fit. -/
def render : Fit → String
  | .asIs => "Direct"
  | .offered _ => "WithTypeConversion"
  | .read reader => "WithContextualConversion(" ++ (reader.map Reader.label).getD "" ++ ")"
  | .ambiguous => "ResolutionAmbiguity"
  | .impossible => "Impossible"

end Fit

/-- What a call is resolved in: the declared types, and the readers, if any. -/
structure Scope where
  declarations : Declarations
  registry : Option Registry

namespace Scope

/-- The reader to use where a type is expected. -/
def reader? (scope : Scope) (expected : Ty) : Option Reader :=
  scope.registry.bind fun registry => registry.lookup scope.declarations expected

/-- How an argument fits where a type is expected. -/
def fitType (scope : Scope) (expected : Ty) (argument : Argument) : Fit :=
  if scope.declarations.isSubtype argument.content.type expected then .asIs
  else
    match argument.offers.findIdx? fun offer => scope.declarations.isSubtype offer.out expected with
    | some index => .offered index
    | none =>
      match argument.content.raw?, scope.reader? expected with
      | some _, some reader => .read (some reader)
      | _, _ => .impossible

/-- How an argument fits a parameter. -/
def fit (scope : Scope) (parameter : Parameter) (argument : Argument) : Fit :=
  match parameter with
  | .positional _ type _ => scope.fitType type argument
  | .vararg _ element _ _ => scope.fitType element argument
  | .keyword _ word =>
    if argument.content.raw? = some word.literal then .asIs else .impossible

/-- Whether a parameter accepts an argument. -/
def accepts (scope : Scope) (parameter : Parameter) (argument : Argument) : Bool :=
  (scope.fit parameter argument).isAcceptable

end Scope

end OverloadResolution
