import CatFactory.Foundation.CodeUnits
import CatFactory.Foundation.RegexSearch

/-!
# The text boundary to a host

What an agent or a human wrote is spliced into Markdown that a host parses.
These are the helpers that make such a text safe for the place it goes to: prose,
a table cell, a line, a code span or a block of captured output.

A text is the list of its UTF-16 units.
-/

namespace CatFactory
namespace Publishing

open Foundation

def MAX_CELL_CHARS : Nat := 300

def TRUNCATION_NOTE : List Nat :=
  stringUnits "… (truncated)"

def newline : Nat := 0x0A
def carriageReturn : Nat := 0x0D
def space : Nat := 0x20
def backtick : Nat := 0x60
def tilde : Nat := 0x7E
def pipe : Nat := 0x7C
def backslash : Nat := 0x5C

/-!
## Auto-linking triggers
-/

def CLOSING_KEYWORDS : Regex Nat :=
  Regex.any
    [Regex.all [loose "close", Regex.optional (looseOf "sd")], loose "closing", loose "fix",
      Regex.all [loose "fixe", looseOf "sd"], loose "fixing",
      Regex.all [loose "resolve", Regex.optional (looseOf "sd")], loose "resolving",
      Regex.all [loose "implement", Regex.optional (Regex.any [loose "s", loose "ed"])],
      loose "implementing"]

/-- An issue's or a merge request's address on either host. -/
def ISSUE_URL : Regex Nat :=
  Regex.all
    [loose "http", Regex.optional (loose "s"), loose "://", Regex.one (!isSpaceUnit ·),
      Regex.few (!isSpaceUnit ·), loose "/",
      Regex.any [loose "issues", loose "-/issues", loose "merge_requests", loose "pull"],
      loose "/", Regex.many isDigitUnit 1 none]

def keywordGroup : Nat := 1

/-- A keyword before an issue's address, `@name`, `#123` and `!123`. -/
def AUTO_LINK_TRIGGERS : Regex Nat :=
  Regex.any
    [Regex.all
      [Regex.group keywordGroup (Regex.all [wordEdge, CLOSING_KEYWORDS]),
        Regex.ahead (Regex.all
          [Regex.many isSpaceUnit 0 none, Regex.optional (loose ":"),
            Regex.many isSpaceUnit 1 none, ISSUE_URL])],
      Regex.all
        [loose "@", Regex.ahead (Regex.one fun u =>
          isUpperUnit u || isLowerUnit u || isDigitUnit u)],
      Regex.all [loose "#", Regex.ahead (Regex.one isDigitUnit)],
      Regex.all [loose "!", Regex.ahead (Regex.one isDigitUnit)]]

/-- The first unit of a match as a numeric entity; a keyword's other letters stay. -/
def defused (m : Match Nat) : List Nat :=
  stringUnits "&#" ++ (stringUnits (toString (m.text.headD 0)) ++ (stringUnits ";" ++
    if (m.captured keywordGroup).isEmpty then [] else m.text.tail))

/-- A run of backticks and, past as little as possible, the same run again. -/
def codeSpanPattern : Regex Nat :=
  Regex.after (Regex.many (· = backtick) 1 none) fun ticks =>
    Regex.seq (Regex.few fun _ => true) (Regex.lit ticks)

theorem consumes_codeSpanPattern : Consumes codeSpanPattern :=
  consumes_of_eats rfl

def mapOutsideCodeSpansFrom (fn : List Nat -> List Nat) (read rest : List Nat) : List Nat :=
  match _hspan : codeSpanPattern.find read rest with
  | none => fn rest
  | some (skipped, span) =>
      fn skipped ++ (span.text ++
        mapOutsideCodeSpansFrom fn (span.text.reverse ++ (skipped.reverse ++ read)) span.rest)
termination_by rest.length
decreasing_by
  have hspan := leftmost_of_find _hspan
  have hpos := List.length_pos_iff.mpr
    (consumes_codeSpanPattern _ _ _ (matchHere_mem hspan.here))
  rw [hspan.text]
  simp only [List.length_append]
  omega

def mapOutsideCodeSpans (line : List Nat) (fn : List Nat -> List Nat) : List Nat :=
  mapOutsideCodeSpansFrom fn [] line

def inertLine (line : List Nat) : List Nat :=
  mapOutsideCodeSpans line (AUTO_LINK_TRIGGERS.replaceAll defused)

/-!
## Fences
-/

def linesOf (text : List Nat) : List (List Nat) :=
  text.splitOn newline

def joinLines (lines : List (List Nat)) : List Nat :=
  [newline].intercalate lines

structure FenceLine where
  char : Nat
  length : Nat
  info : Bool
deriving DecidableEq

/-- ``/^ {0,3}(`{3,}|~{3,})(.*)$/``: the longest run of the fence's character after
at most three blanks, and an info string on the same line. -/
def fenceAt (line : List Nat) : Option FenceLine :=
  let body := line.drop (min 3 (line.takeWhile (· = space)).length)
  match body with
  | [] => none
  | char :: _ =>
      let fence := body.takeWhile (· = char)
      let info := body.drop fence.length
      if char ≠ backtick ∧ char ≠ tilde then none
      else if fence.length < 3 then none
      else if info.any isTerminatorUnit then none
      else if char = backtick ∧ backtick ∈ info then none
      else some ⟨char, fence.length, !(trimEnd info).isEmpty⟩

/-- The fence that stands open, and the line that opened it. -/
structure OpenFence where
  char : Nat
  length : Nat
  line : Nat
deriving DecidableEq

/-- What a line makes of the fence open before it. -/
def fenceAfter (index : Nat) (line : List Nat) (open? : Option OpenFence) : Option OpenFence :=
  match fenceAt line with
  | none => open?
  | some fence =>
      match open? with
      | none => some ⟨fence.char, fence.length, index⟩
      | some standing =>
          if fence.char = standing.char ∧ standing.length ≤ fence.length ∧ fence.info = false
          then none else some standing

/-- Every line with whether it is inside a fenced block, and the fence left open. -/
def walkFrom : Nat -> Option OpenFence -> List (List Nat) ->
    List (List Nat × Bool) × Option OpenFence
  | _, open?, [] => ([], open?)
  | index, open?, line :: rest =>
      let walked := walkFrom (index + 1) (fenceAfter index line open?) rest
      ((line, open?.isSome || (fenceAt line).isSome) :: walked.1, walked.2)

def walkFences (lines : List (List Nat)) : List (List Nat × Bool) × Option OpenFence :=
  walkFrom 0 none lines

def closingFence (fence : OpenFence) : List Nat :=
  List.replicate fence.length fence.char

def withClosingFence (text : List Nat) (open? : Option OpenFence) : List Nat :=
  match open? with
  | none => text
  | some fence => text ++ newline :: closingFence fence

def balanceFences (text : List Nat) : List Nat :=
  withClosingFence text (walkFences (linesOf text)).2

def dropOpenFence (text : List Nat) : List Nat :=
  let lines := linesOf text
  match (walkFences lines).2 with
  | none => text
  | some fence => trimEnd (joinLines (lines.take fence.line))

/-!
## The helpers
-/

/-- `value.replace(/\r\n?/g, '\n')` -/
def normalizeNewlines (value : List Nat) : List Nat :=
  (Regex.all [Regex.one (· = carriageReturn), Regex.optional (Regex.one (· = newline))]).replaceAll
    (fun _ => [newline]) value

/-- `value.replace(/\s+/g, ' ')` -/
def foldSpaces (value : List Nat) : List Nat :=
  (Regex.many isSpaceUnit 1 none).replaceAll (fun _ => [space]) value

/-- `value.replaceAll('|', '\\|')` -/
def escapePipes (value : List Nat) : List Nat :=
  value.flatMap fun u => if u = pipe then [backslash, pipe] else [u]

def lastIndexOf (u : Nat) (text : List Nat) : Option Nat :=
  if u ∈ text then some (text.length - 1 - (text.reverse.takeWhile (· ≠ u)).length) else none

/-- Cut to `max` units, preferably at a newline past three fifths of them. -/
def truncate (value : List Nat) (max : Nat) : List Nat :=
  if value.length ≤ max then value
  else
    let head := value.take max
    let body := match lastIndexOf newline head with
      | none => head
      | some lastNewline => if max * 3 < lastNewline * 5 then head.take lastNewline else head
    trimEnd body ++ newline :: newline :: TRUNCATION_NOTE

def prose (value : List Nat) (max : Nat) : List Nat :=
  let walked := walkFences (linesOf (truncate (normalizeNewlines value) max))
  withClosingFence
    (joinLines (walked.1.map fun visited => if visited.2 then visited.1 else inertLine visited.1))
    walked.2

def cell (value : List Nat) : List Nat :=
  let flattened := (Regex.many (· = newline) 1 none).replaceAll (fun _ => stringUnits "<br>")
    (escapePipes (truncate (normalizeNewlines value) MAX_CELL_CHARS))
  inertLine flattened

def inline (value : List Nat) (max : Nat) : List Nat :=
  inertLine (truncate (foldSpaces value) max)

/-- The lengths of the runs of backticks, the first run counted on from `run`. -/
def tickRuns : Nat -> List Nat -> List Nat
  | run, [] => if run = 0 then [] else [run]
  | run, u :: rest =>
      if u = backtick then tickRuns (run + 1) rest
      else if run = 0 then tickRuns 0 rest
      else run :: tickRuns 0 rest

def longestRun (text : List Nat) : Nat :=
  (tickRuns 0 text).foldr max 0

def codeSpan (text : List Nat) : List Nat :=
  if text.isEmpty then []
  else
    let ticks := List.replicate (longestRun text + 1) backtick
    let pad := if text.head? = some backtick ∨ text.getLast? = some backtick then [space] else []
    ticks ++ (pad ++ (text ++ (pad ++ ticks)))

def codeCell (value : List Nat) (max : Nat) : List Nat :=
  codeSpan (escapePipes (truncate (foldSpaces value) max))

def inlineCode (value : List Nat) (max : Nat) : List Nat :=
  codeSpan (truncate (foldSpaces value) max)

def outputBlock (text : List Nat) : List Nat :=
  let fence := List.replicate (max 3 (longestRun text + 1)) backtick
  let body := (Regex.all [Regex.many (· = newline) 1 none, Regex.finish]).replaceFirst
    (fun _ => []) (normalizeNewlines text)
  fence ++ newline :: (body ++ newline :: fence)

end Publishing
end CatFactory
