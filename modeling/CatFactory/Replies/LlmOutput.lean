import CatFactory.Foundation.Json

/-!
# The JSON value in a model's reply

A reply is free text with a payload somewhere in it.  The bodies of its fenced
blocks are searched first and then the whole reply, everywhere as written before
anything is repaired.
-/

namespace CatFactory
namespace Replies

open Foundation

variable {num : Type}

/-- `text.trim()` -/
def trim (text : List Nat) : List Nat :=
  trimEnd (text.dropWhile isSpaceUnit)

inductive ParseMode where
  | strict
  | repair
deriving DecidableEq

def PARSE_MODES : List ParseMode :=
  [.strict, .repair]

def fenceTicks : List Nat :=
  List.replicate 3 (unitOf '`')

def bodyGroup : Nat := 1

/-- Three ticks, a `json` in any case, white space, the body, and the next three ticks. -/
def FENCED_BLOCK : Regex Nat :=
  Regex.all
    [Regex.lit fenceTicks, Regex.optional (loose "json"), Regex.many isSpaceUnit 0 none,
      Regex.group bodyGroup (Regex.few fun _ => true), Regex.lit fenceTicks]

def fencedBodies (text : List Nat) : List (List Nat) :=
  (FENCED_BLOCK.matchesFrom 0 [] text).map fun m => m.captured bodyGroup

/-!
## One span
-/

def hasRawControlChar (span : List Nat) : Bool :=
  span.any (· < 0x20)

def CONTROL_ESCAPES : List (Nat × Nat) :=
  [(0x0A, unitOf 'n'), (0x0D, unitOf 'r'), (0x09, unitOf 't'), (0x08, unitOf 'b'),
    (0x0C, unitOf 'f')]

def controlEscape (ch : Nat) : List Nat :=
  match CONTROL_ESCAPES.lookup ch with
  | some letter => [Json.escape, letter]
  | none => Json.unicodeEscape ch

/-- The scan of `escapeControlCharsInStrings` from a unit on. -/
def escapeFrom : Bool -> Bool -> List Nat -> List Nat
  | _, _, [] => []
  | false, _, ch :: rest => ch :: escapeFrom (ch = Json.quote) false rest
  | true, true, ch :: rest => ch :: escapeFrom true false rest
  | true, false, ch :: rest =>
      if ch = Json.escape then ch :: escapeFrom true true rest
      else if ch = Json.quote then ch :: escapeFrom false false rest
      else if 0x20 ≤ ch then ch :: escapeFrom true false rest
      else controlEscape ch ++ escapeFrom true false rest

def escapeControlCharsInStrings (json : List Nat) : List Nat :=
  escapeFrom false false json

/-- Null stands for a span that does not parse. -/
def parseSpan (numbers : Json.NumberFormat num) (span : List Nat) (mode : ParseMode) : Json num :=
  if mode = .repair ∧ hasRawControlChar span = false then .null
  else
    let text := match mode with
      | .strict => span
      | .repair => escapeControlCharsInStrings span
    (Json.parse numbers text).getD .null

/-!
## The balanced span
-/

def closing (opening : Nat) : Nat :=
  if opening = Json.leftBrace then Json.rightBrace else Json.rightBracket

/-- The units up to the bracket that brings the depth back to zero. -/
def balancedFrom (opening : Nat) : Nat -> Bool -> Bool -> List Nat -> Option (List Nat)
  | _, _, _, [] => none
  | depth, true, true, ch :: rest => (balancedFrom opening depth true false rest).map (ch :: ·)
  | depth, true, false, ch :: rest =>
      (balancedFrom opening depth (ch ≠ Json.quote) (ch = Json.escape) rest).map (ch :: ·)
  | depth, false, _, ch :: rest =>
      if ch = Json.quote then (balancedFrom opening depth true false rest).map (ch :: ·)
      else if ch = opening then (balancedFrom opening (depth + 1) false false rest).map (ch :: ·)
      else if ch = closing opening then
        if depth - 1 = 0 then some [ch]
        else (balancedFrom opening (depth - 1) false false rest).map (ch :: ·)
      else (balancedFrom opening depth false false rest).map (ch :: ·)

/-- The value of the balanced span at the beginning of what is left of a candidate. -/
def parseBalancedFrom (numbers : Json.NumberFormat num) (mode : ParseMode) (candidate : List Nat) :
    Json num :=
  match balancedFrom (candidate.headD 0) 0 false false candidate with
  | none => .null
  | some span => parseSpan numbers span mode

/-!
## The search
-/

/-- `if (value !== null) return value` before the rest. -/
def orElse (value later : Json num) : Json num :=
  match value with
  | .null => later
  | found => found

def isBracket (ch : Nat) : Bool :=
  ch ∈ [Json.leftBracket, Json.leftBrace]

def extractJsonValue (numbers : Json.NumberFormat num) (mode : ParseMode) : List Nat -> Json num
  | [] => .null
  | ch :: rest =>
      if isBracket ch then
        orElse (parseBalancedFrom numbers mode (ch :: rest)) (extractJsonValue numbers mode rest)
      else extractJsonValue numbers mode rest

def sourcesOf (text : List Nat) : List (List Nat) :=
  fencedBodies (trim text) ++ [trim text]

def extractJson (numbers : Json.NumberFormat num) (text : List Nat) : Json num :=
  (PARSE_MODES.flatMap fun mode =>
    (sourcesOf text).map fun source => extractJsonValue numbers mode source).foldr orElse .null

end Replies
end CatFactory
