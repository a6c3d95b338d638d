import CatFactory.Foundation.KeyedFold
import CatFactory.Foundation.RegexMatch
import CatFactory.Publishing.HostMarkdown
import CatFactory.Reviews.Posting

/-!
# Commentable lines

A comment can only be anchored to a line of the diff: on the head's side to an
added or a context line, on the base's side to a removed or a context line.  The
patch of a file is read line by line, with one counter for each side.
-/

namespace CatFactory
namespace Reviews

open Foundation
open Publishing (newline linesOf joinLines)

/-- Of a changed file, its path and the patch that is null where there is none. -/
structure GitHubChangedFile where
  path : String
  patch : Option (List Nat)
deriving DecidableEq

/-- `\d+` -/
def digitRun : Regex Nat :=
  Regex.many isDigitUnit 1 none

/-- `(?:,\d+)?` -/
def optionalCount : Regex Nat :=
  Regex.optional (Regex.seq (Regex.lit (stringUnits ",")) digitRun)

def HUNK_RANGES : Regex Nat :=
  Regex.seq (Regex.lit (stringUnits "@@ -"))
    (Regex.seq (Regex.group 1 digitRun)
      (Regex.seq optionalCount
        (Regex.seq (Regex.lit (stringUnits " +"))
          (Regex.seq (Regex.group 2 digitRun)
            (Regex.seq optionalCount (Regex.lit (stringUnits " @@")))))))

def HUNK_HEADER : Regex Nat :=
  Regex.seq Regex.start HUNK_RANGES

/-- `Number` of decimal digits. -/
def numberOf (digits : List Nat) : Nat :=
  digits.foldl (fun n u => 10 * n + (u - unitOf '0')) 0

structure LineScan where
  oldLine : Nat := 0
  newLine : Nat := 0
  lines : CommentableLines := {}
deriving DecidableEq

/-- `add` to a set. -/
def addLine (line : Nat) (lines : List Int) : List Int :=
  if (line : Int) ∈ lines then lines else lines ++ [(line : Int)]

def scanLine (scan : LineScan) (raw : List Nat) : LineScan :=
  match HUNK_HEADER.find [] raw with
  | some header =>
      { scan with
        oldLine := numberOf (header.2.captured 1)
        newLine := numberOf (header.2.captured 2) }
  | none =>
      let marker := raw.head?
      if marker = some (unitOf '+') then
        { scan with
          lines := { scan.lines with right := addLine scan.newLine scan.lines.right }
          newLine := scan.newLine + 1 }
      else if marker = some (unitOf '-') then
        { scan with
          lines := { scan.lines with left := addLine scan.oldLine scan.lines.left }
          oldLine := scan.oldLine + 1 }
      else if marker = some (unitOf '\\') then scan
      else
        { oldLine := scan.oldLine + 1
          newLine := scan.newLine + 1
          lines :=
            { right := addLine scan.newLine scan.lines.right
              left := addLine scan.oldLine scan.lines.left } }

def scanPatch (patch : List Nat) : CommentableLines :=
  ((linesOf patch).foldl scanLine {}).lines

/-- A file without a path or a patch is left out. -/
def addFile (out : List (String × CommentableLines)) (file : GitHubChangedFile) :
    List (String × CommentableLines) :=
  match file.patch with
  | none => out
  | some patch =>
      if patch = [] ∨ file.path = "" then out
      else upsert file.path (fun _ => scanPatch patch) out

def computeCommentableLines (files : List GitHubChangedFile) :
    List (String × CommentableLines) :=
  files.foldl addFile []

end Reviews
end CatFactory
