import CatFactory.Foundation.Text
import Mathlib.Data.List.Infix

/-!
# Error chains

A failure is read through the values that hang off it: its cause, and each branch
of an aggregate.  The walk lists them outermost first, and a classification looks
for its pattern in the text of each.
-/

namespace CatFactory
namespace Failures

open Foundation

/-!
## Thrown values
-/

/-- What code can throw.  Objects and functions have an identity, the rest a text. -/
inductive Thrown (node : Type) where
  | nullish
  | text (value : String)
  /-- A number, a flag or another scalar, by its own text. -/
  | scalar (rendered : String)
  | object (id : node)
  | callable (id : node)
deriving DecidableEq

namespace Thrown

variable {node : Type}

/-- `error === null || error === undefined`. -/
def isNullish : Thrown node -> Bool
  | nullish => true
  | _ => false

/-- `typeof error === 'object'`, of what is not `null`. -/
def isObject : Thrown node -> Bool
  | object _ => true
  | _ => false

end Thrown

/-- The properties that the walk reads; one whose getter throws reads as undefined. -/
structure Properties (node : Type) where
  /-- `instanceof Error`. -/
  isError : Bool
  /-- `String(value)`, unless the stringification throws. -/
  rendered : Option String
  message : Thrown node
  code : Thrown node
  cause : Thrown node
  /-- `errors`, where it is an array. -/
  errors : Option (List (Thrown node))

def MAX_CHAIN_DEPTH : Nat :=
  6

def MAX_AGGREGATE_BRANCHES : Nat :=
  8

section Chains

variable {node : Type} [DecidableEq node] (graph : node -> Properties node)

/-- The properties of an object or a function; other values have none. -/
def propertiesOf : Thrown node -> Option (Properties node)
  | .object id => some (graph id)
  | .callable id => some (graph id)
  | _ => none

/-- The `cause` that is read off a value. -/
def causeOf (error : Thrown node) : Thrown node :=
  match propertiesOf graph error with
  | some properties => properties.cause
  | none => .nullish

def aggregated (error : Thrown node) : List (Thrown node) :=
  ((propertiesOf graph error).bind Properties.errors).getD []

def safeText : Thrown node -> String
  | .nullish => ""
  | .text value => value
  | .scalar rendered => rendered
  | .object id => (graph id).rendered.getD ""
  | .callable id => (graph id).rendered.getD ""

def errorCode (error : Thrown node) : Option String :=
  match propertiesOf graph error with
  | some properties =>
      match properties.code with
      | .text code => if code = "" then none else some code
      | _ => none
  | none => none

/-!
## The walk
-/

/-- The links so far, and the objects among them. -/
structure Walk (node : Type) where
  out : List (Thrown node)
  seen : List (Thrown node)
deriving DecidableEq

/-- What is said of the branches that are not read. -/
def droppedBranches (count : Nat) : Thrown node :=
  .text ("[…" ++ toString (count - MAX_AGGREGATE_BRANCHES) ++ " more branches not read]")

/-- The walk with `left` levels to go: `left` is `MAX_CHAIN_DEPTH + 1 - depth`. -/
def flattenFrom : Nat -> Thrown node -> Walk node -> Walk node
  | 0, _, walk => walk
  | left + 1, error, walk =>
      if error.isNullish = true then walk
      else if error.isObject = true ∧ error ∈ walk.seen then walk
      else
        let entered : Walk node :=
          { out := walk.out ++ [error]
            seen := if error.isObject = true then walk.seen ++ [error] else walk.seen }
        let branches := aggregated graph error
        let read := (branches.take MAX_AGGREGATE_BRANCHES).foldl
          (fun walk branch => flattenFrom left branch walk) entered
        let said :=
          if MAX_AGGREGATE_BRANCHES < branches.length then
            { read with out := read.out ++ [droppedBranches branches.length] }
          else read
        flattenFrom left (causeOf graph error) said

/-- Every link of a failure, outermost first. -/
def flattenErrorChain (error : Thrown node) : List (Thrown node) :=
  (flattenFrom graph (MAX_CHAIN_DEPTH + 1) error { out := [], seen := [] }).out

/-!
## Texts and patterns
-/

/-- `TRANSPORT_CODE`: a capital, then capitals, digits and underscores. -/
def isTransportCode (code : String) : Bool :=
  match code.toList with
  | [] => false
  | first :: rest => first.isUpper && rest.all fun c => c.isUpper || c.isDigit || c = '_'

/-- One link's human text: its message, with the transport code where the message omits it. -/
def describeErrorLink (link : Thrown node) : String :=
  let message :=
    match propertiesOf graph link with
    | some properties => if properties.isError = true then properties.message else link
    | none => link
  let text := trim (safeText graph message)
  match errorCode graph link with
  | none => text
  | some code =>
      if isTransportCode code = true then
        if text = "" then code
        else if code.toList <:+: text.toList then text
        else text ++ " (" ++ code ++ ")"
      else if text = "" then code
      else text

/-- Whether some link of the chain matches; `search` finds where a text does. -/
def errorChainMatches (error : Thrown node) (search : String -> Option Nat) : Bool :=
  (flattenErrorChain graph error).any fun link => (search (describeErrorLink graph link)).isSome

end Chains

end Failures
end CatFactory
