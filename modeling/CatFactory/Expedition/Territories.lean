import CatFactory.Foundation.Grouping
import CatFactory.Foundation.Paths
import CatFactory.Foundation.Text
import Mathlib.Data.List.Sort

/-!
# The territories of a codebase

A bug-fishing expedition cuts a codebase that is too large for one pass into
territories and plans every angle over every territory.  The functions of
`bugFishingTerritories.logic.ts` are modelled here, with the scope that
`bugFishingPass.ts` holds a pass to.  The collation of `localeCompare` is left
open: `localeLe` says when one text sorts no later than another.
-/

namespace CatFactory
namespace Expedition

open Foundation

abbrev Path := List Char

/-!
## The tree and the blueprint
-/

inductive EntryType where
  | file
  | dir
  | symlink
  | submodule
deriving DecidableEq

structure RepoContentEntry where
  path : Path
  type : EntryType
  sha : String
  size : Option Nat
deriving DecidableEq

structure RepoTreeListing where
  entries : List RepoContentEntry
  truncated : Bool
deriving DecidableEq

structure BlueprintModule where
  name : String
  references : List Path
deriving DecidableEq

structure BlueprintService where
  modules : List BlueprintModule
deriving DecidableEq

structure SurveyOptions where
  serviceDirectory : Option Path
  blueprint : Option BlueprintService
deriving DecidableEq

/-!
## What is fished
-/

def targetTerritoryTokens : Nat := 150000

def maxTerritoryTokens : Nat := targetTerritoryTokens * 2

def bytesPerToken : Nat := 4

def assumedFileBytes : Nat := 4000

def ignoredDirSegments : List Path :=
  ["node_modules", "dist", "build", "out", "vendor", "vendored", "third_party", "coverage",
    ".git", ".turbo", ".nuxt", ".output", ".next", ".venv", ".stryker-tmp", "__snapshots__",
    "__pycache__"].map String.toList

def ignoredFileNames : List Path :=
  ["pnpm-lock.yaml", "package-lock.json", "yarn.lock", "bun.lockb", "poetry.lock",
    "Cargo.lock", "go.sum", "composer.lock", "Gemfile.lock"].map String.toList

def ignoredFileSuffixes : List Path :=
  [".generated.ts", ".generated.js", ".min.js", ".snap", ".map"].map String.toList

def packageMarkers : List Path :=
  ["package.json", "pyproject.toml", "setup.py", "go.mod", "Cargo.toml", "pom.xml",
    "build.gradle", "build.gradle.kts", "composer.json", "Gemfile"].map String.toList

def isFishablePath (path : Path) : Bool :=
  if path = [] then false
  else
    let segments := path.splitOn '/'
    let name := segments.getLast?.getD []
    if segments.any (· ∈ ignoredDirSegments) then false
    else if name ∈ ignoredFileNames then false
    else !ignoredFileSuffixes.any fun suffix => suffix.isSuffixOf name

structure SurveyedFile where
  path : Path
  bytes : Nat
deriving DecidableEq

def dropDotSlash : Path -> Path
  | '.' :: '/' :: rest => rest
  | path => path

/-- No leading or trailing slash, and one `./` taken off the front. -/
def normalizePath (path : Path) : Path :=
  (((dropDotSlash path).dropWhile (· = '/')).reverse.dropWhile (· = '/')).reverse

def pathPrefix (root : Path) : Path :=
  if root = [] then [] else root ++ ['/']

/-- The entry's path in the frame of the survey root, when it is fished. -/
def surveyedPath (root : Path) (entry : RepoContentEntry) : Option Path :=
  if entry.type ≠ .file then none
  else
    let path := normalizePath entry.path
    if !(pathPrefix root).isPrefixOf path then none
    else if !isFishablePath path then none
    else some (path.drop (pathPrefix root).length)

def surveyedFile (root : Path) (entry : RepoContentEntry) : Option SurveyedFile :=
  (surveyedPath root entry).map fun path =>
    { path := path, bytes := entry.size.getD assumedFileBytes }

def fishableFiles (localeLe : Path -> Path -> Bool) (entries : List RepoContentEntry)
    (root : Path) : List SurveyedFile :=
  (entries.filterMap (surveyedFile root)).insertionSort fun a b => localeLe a.path b.path

/-- The sha recorded last under a normalised path; an empty one is not recorded. -/
def entrySha (entries : List RepoContentEntry) (path : Path) : Option String :=
  (entries.reverse.find? fun entry =>
    entry.sha ≠ "" && normalizePath entry.path = path).map RepoContentEntry.sha

def bytesOf (files : List SurveyedFile) : Nat :=
  (files.map SurveyedFile.bytes).sum

/-- A quarter of the bytes, halves rounded up. -/
def tokensOf (files : List SurveyedFile) : Nat :=
  (bytesOf files + bytesPerToken / 2) / bytesPerToken

/-!
## Groups and candidates
-/

inductive TerritorySource where
  | blueprint
  | directory
  | wholeCodebase
deriving DecidableEq

structure FileGroup where
  key : Path
  idBase : String
  roots : List Path
  label : String
  files : List SurveyedFile
deriving DecidableEq

structure Candidate where
  idBase : String
  roots : List Path
  labels : List String
  files : List SurveyedFile
  source : TerritorySource
deriving DecidableEq

def looseFilesSegment : Path := "root-files".toList

def looseFilesLabel (root : Path) : String :=
  if root = [] then "Top-level files" else String.ofList root ++ " (files)"

def labelForRoot (root : Path) : String :=
  if root = [] then "Whole codebase" else String.ofList root

/-- The child directory of the root that a file lies in, none for a loose file. -/
def childDirectory (root path : Path) : Option Path :=
  (firstSegment '/' (path.drop (pathPrefix root).length)).map fun child =>
    pathPrefix root ++ child

def directoryGroup (bucket : Path × List SurveyedFile) : FileGroup :=
  { key := bucket.1
    idBase := String.ofList bucket.1
    roots := [bucket.1]
    label := labelForRoot bucket.1
    files := bucket.2 }

def looseGroup (root : Path) (loose : List SurveyedFile) : FileGroup :=
  { key := pathPrefix root
    idBase := String.ofList (pathPrefix root ++ looseFilesSegment)
    roots := loose.map SurveyedFile.path
    label := looseFilesLabel root
    files := loose }

def looseGroups (root : Path) (files : List SurveyedFile) : List FileGroup :=
  let loose := files.filter fun file => childDirectory root file.path = none
  if loose = [] then [] else [looseGroup root loose]

def groupByChildDirectory (localeLe : Path -> Path -> Bool) (files : List SurveyedFile)
    (root : Path) : List FileGroup :=
  ((buckets (fun file => childDirectory root file.path) files).map directoryGroup ++
    looseGroups root files).insertionSort fun a b => localeLe a.key b.key

def directoryCandidate (group : FileGroup) : Candidate :=
  { idBase := group.idBase
    roots := group.roots
    labels := [group.label]
    files := group.files
    source := .directory }

/-- One reference of a module as a candidate of its own. -/
def unpacked (candidate : Candidate) (root : Path) : Candidate :=
  { idBase := String.ofList root
    roots := [root]
    labels := [labelForRoot root]
    files := candidate.files.filter fun file => under '/' root file.path
    source := candidate.source }

/-!
## Splitting and packing
-/

/-- How far a candidate is from one that is split no more. -/
def splitRank (candidate : Candidate) : Nat :=
  2 * candidate.files.length + if candidate.roots.length = 1 then 0 else 1

theorem le_splitRank (candidate : Candidate) :
    2 * candidate.files.length ≤ splitRank candidate :=
  Nat.le_add_right _ _

theorem splitRank_le (candidate : Candidate) :
    splitRank candidate ≤ 2 * candidate.files.length + 1 := by
  unfold splitRank
  split
  · omega
  · omega

theorem perm_groupByChildDirectory (localeLe : Path -> Path -> Bool)
    (files : List SurveyedFile) (root : Path) :
    ((groupByChildDirectory localeLe files root).flatMap FileGroup.files).Perm files := by
  have hsorted : ((groupByChildDirectory localeLe files root).flatMap FileGroup.files).Perm
      (((buckets (fun file => childDirectory root file.path) files).map directoryGroup ++
        looseGroups root files).flatMap FileGroup.files) :=
    (List.perm_insertionSort _ _).flatMap_right FileGroup.files
  apply hsorted.trans
  have hloose : (looseGroups root files).flatMap FileGroup.files =
      files.filter fun file => childDirectory root file.path = none := by
    unfold looseGroups
    simp only
    split
    · rename_i hnil
      rw [hnil]
      rfl
    · simp [looseGroup]
  rw [List.flatMap_append, List.flatMap_map, hloose]
  exact perm_buckets (fun file => childDirectory root file.path) files

theorem mem_groupByChildDirectory {localeLe : Path -> Path -> Bool}
    {files : List SurveyedFile} {root : Path} {group : FileGroup} :
    group ∈ groupByChildDirectory localeLe files root <->
      (exists key, group = directoryGroup
          (key, files.filter fun file => childDirectory root file.path = some key) ∧
        group.files ≠ []) ∨
      group = looseGroup root
          (files.filter fun file => childDirectory root file.path = none) ∧
        group.files ≠ [] := by
  unfold groupByChildDirectory
  rw [(List.perm_insertionSort _ _).mem_iff, List.mem_append, List.mem_map]
  apply or_congr
  · constructor
    · rintro ⟨b, hb, rfl⟩
      rcases mem_buckets_iff.mp hb with ⟨heq, hne⟩
      exact ⟨b.1, by rw [← heq], hne⟩
    · rintro ⟨key, rfl, hne⟩
      exact ⟨_, mem_buckets_iff.mpr ⟨rfl, hne⟩, rfl⟩
  · unfold looseGroups
    simp only
    split
    · rename_i hnil
      constructor
      · intro h
        cases h
      · rintro ⟨rfl, hne⟩
        exact absurd hnil hne
    · rename_i hne
      rw [List.mem_singleton]
      constructor
      · rintro rfl
        exact ⟨rfl, hne⟩
      · exact And.left

theorem group_files_ne_nil {localeLe : Path -> Path -> Bool} {files : List SurveyedFile}
    {root : Path} {group : FileGroup}
    (h : group ∈ groupByChildDirectory localeLe files root) : group.files ≠ [] := by
  rcases mem_groupByChildDirectory.mp h with ⟨_, _, hne⟩ | ⟨_, hne⟩
  · exact hne
  · exact hne

/-- Of several groups each has fewer files than there were. -/
theorem group_files_lt {localeLe : Path -> Path -> Bool} {files : List SurveyedFile}
    {root : Path} (h : 1 < (groupByChildDirectory localeLe files root).length)
    {group : FileGroup} (hgroup : group ∈ groupByChildDirectory localeLe files root) :
    group.files.length < files.length := by
  have hnonempty := fun g hg => @group_files_ne_nil localeLe files root g hg
  rw [← (perm_groupByChildDirectory localeLe files root).length_eq]
  rcases List.append_of_mem hgroup with ⟨before, after, hsplit⟩
  rw [hsplit] at h hnonempty ⊢
  have hother : exists g, g ∈ before ++ after := by
    cases before with
    | nil =>
        cases after with
        | nil => simp at h
        | cons g _ => exact ⟨g, by simp⟩
    | cons g _ => exact ⟨g, by simp⟩
  rcases hother with ⟨g, hg⟩
  have hpositive : 0 < g.files.length := by
    apply List.length_pos_of_ne_nil
    apply hnonempty g
    rcases List.mem_append.mp hg with hg | hg
    · exact List.mem_append_left _ hg
    · exact List.mem_append_right _ (List.mem_cons_of_mem _ hg)
  have hpart : g.files.length ≤ ((before ++ after).flatMap FileGroup.files).length := by
    rcases List.append_of_mem hg with ⟨front, back, hgsplit⟩
    rw [hgsplit]
    simp only [List.flatMap_append, List.flatMap_cons, List.length_append]
    omega
  simp only [List.flatMap_append, List.flatMap_cons, List.length_append] at hpart ⊢
  omega

/-- The references of a candidate that hold files, each as a candidate. -/
def referenceCandidates (candidate : Candidate) : List Candidate :=
  (candidate.roots.map (unpacked candidate)).filter fun c => c.files ≠ []

/-- The directories below the candidate's one root, each as a candidate. -/
def childCandidates (localeLe : Path -> Path -> Bool) (candidate : Candidate) :
    List Candidate :=
  (groupByChildDirectory localeLe candidate.files (candidate.roots.headD [])).map
    fun group => { directoryCandidate group with source := candidate.source }

theorem splitRank_of_mem_references {candidate c : Candidate}
    (hroots : candidate.roots.length ≠ 1) (h : c ∈ referenceCandidates candidate) :
    splitRank c < splitRank candidate := by
  unfold referenceCandidates at h
  rw [List.mem_filter, List.mem_map] at h
  rcases h with ⟨⟨root, _, rfl⟩, _⟩
  have hle := List.length_filter_le (fun file => under '/' root file.path) candidate.files
  simp only [splitRank, unpacked, List.length_singleton, if_true, hroots, if_false]
  omega

theorem splitRank_of_mem_children {localeLe : Path -> Path -> Bool}
    {candidate c : Candidate} (hseveral : ¬ (childCandidates localeLe candidate).length ≤ 1)
    (h : c ∈ childCandidates localeLe candidate) : splitRank c < splitRank candidate := by
  unfold childCandidates at h hseveral
  rw [List.length_map] at hseveral
  rcases List.mem_map.mp h with ⟨group, hgroup, rfl⟩
  have hlt := group_files_lt (Nat.lt_of_not_le hseveral) hgroup
  apply Nat.lt_of_le_of_lt (splitRank_le _)
  apply Nat.lt_of_lt_of_le _ (le_splitRank candidate)
  simp only [directoryCandidate]
  omega

/-- A candidate over the ceiling is cut along its references or its directories. -/
def splitOversized (localeLe : Path -> Path -> Bool) (candidate : Candidate) :
    List Candidate :=
  if tokensOf candidate.files ≤ maxTerritoryTokens then [candidate]
  else if _hroots : candidate.roots.length ≠ 1 then
    (referenceCandidates candidate).attach.flatMap fun c => splitOversized localeLe c.1
  else if _hseveral : (childCandidates localeLe candidate).length ≤ 1 then [candidate]
  else
    (childCandidates localeLe candidate).attach.flatMap fun c => splitOversized localeLe c.1
termination_by splitRank candidate
decreasing_by
  · exact splitRank_of_mem_references _hroots c.2
  · exact splitRank_of_mem_children _hseveral c.2

/-- Whether one of the roots is a directory that holds a package marker. -/
def isPackageRoot (candidate : Candidate) : Bool :=
  candidate.roots.any fun root =>
    candidate.files.any fun file =>
      (pathPrefix root).isPrefixOf file.path &&
        file.path.drop (pathPrefix root).length ∈ packageMarkers

def canPack (previous candidate : Candidate) : Bool :=
  previous.source = candidate.source && !isPackageRoot candidate &&
    !isPackageRoot previous &&
    tokensOf previous.files + tokensOf candidate.files ≤ targetTerritoryTokens

def pack (previous candidate : Candidate) : Candidate :=
  { previous with
    roots := previous.roots ++ candidate.roots
    labels := previous.labels ++ candidate.labels
    files := previous.files ++ candidate.files }

def packFrom (previous : Candidate) : List Candidate -> List Candidate
  | [] => [previous]
  | candidate :: rest =>
      if canPack previous candidate then packFrom (pack previous candidate) rest
      else previous :: packFrom candidate rest

def packSmall : List Candidate -> List Candidate
  | [] => []
  | candidate :: rest => packFrom candidate rest

/-!
## The blueprint's candidates
-/

def blueprintReferenceRoots (module : BlueprintModule) (serviceRoot : Path) : List Path :=
  ((module.references.map normalizePath).map fun reference =>
    if serviceRoot ≠ [] && under '/' serviceRoot reference then
      (reference.drop serviceRoot.length).dropWhile (· = '/')
    else reference).filter fun reference => reference ≠ []

def blueprintCandidate (module : BlueprintModule) (roots : List Path)
    (files : List SurveyedFile) : Candidate :=
  let name := trim module.name
  { idBase := if name = "" then String.ofList (roots.headD []) else name
    roots := roots
    labels := [if name = "" then String.intercalate ", " (roots.map labelForRoot) else name]
    files := files
    source := .blueprint }

/-- The candidates of the modules, and the paths claimed once all had their turn. -/
def claimModules (files : List SurveyedFile) (serviceRoot : Path) :
    List Path -> List BlueprintModule -> List Candidate × List Path
  | claimed, [] => ([], claimed)
  | claimed, module :: rest =>
      let roots := blueprintReferenceRoots module serviceRoot
      let moduleFiles := files.filter fun file =>
        file.path ∉ claimed && roots.any fun root => under '/' root file.path
      if moduleFiles = [] then claimModules files serviceRoot claimed rest
      else
        let later := claimModules files serviceRoot
          (claimed ++ moduleFiles.map SurveyedFile.path) rest
        (blueprintCandidate module roots moduleFiles :: later.1, later.2)

structure BlueprintCandidates where
  candidates : List Candidate
  unclaimed : List SurveyedFile

def blueprintCandidates (files : List SurveyedFile) (blueprint : BlueprintService)
    (serviceRoot : Path) : BlueprintCandidates :=
  let found := claimModules files serviceRoot [] blueprint.modules
  { candidates := found.1
    unclaimed := files.filter fun file => file.path ∉ found.2 }

/-!
## The survey
-/

structure BugFishingTerritory where
  id : String
  label : String
  roots : List Path
  fileCount : Nat
  approxTokens : Nat
  source : TerritorySource
  subtreeShas : List String
deriving DecidableEq

structure CodebaseSurvey where
  territories : List BugFishingTerritory
  filesByTerritory : String -> Option (List SurveyedFile)
  treeTruncated : Bool

def wholeCodebaseTerritoryId : String := "whole-codebase"

def wholeCodebaseTerritory (files : List SurveyedFile) : BugFishingTerritory :=
  { id := wholeCodebaseTerritoryId
    label := "Whole codebase"
    roots := []
    fileCount := files.length
    approxTokens := tokensOf files
    source := .wholeCodebase
    subtreeShas := [] }

def slugUnits (c : Char) : List Char :=
  if c.isAlphanum || c ∈ ['.', '_', '-'] then [c]
  else if c = '/' then ['.']
  else List.replicate (utf16Units c) '-'

def territorySlug (idBase : String) : String :=
  let slug := String.ofList (idBase.toList.flatMap slugUnits)
  if slug = "" then wholeCodebaseTerritoryId else slug

def territoryIdCandidate (stem : String) (n : Nat) : String :=
  if n = 1 then stem else stem ++ "~" ++ toString n

def uniqueTerritoryId (stem : String) (used : List String) : String :=
  firstFree (territoryIdCandidate stem) used used.length 1

def territoryOf (entries : List RepoContentEntry) (serviceRoot : Path) (id : String)
    (candidate : Candidate) : BugFishingTerritory :=
  { id := id
    label := String.intercalate ", " candidate.labels
    roots := candidate.roots
    fileCount := candidate.files.length
    approxTokens := tokensOf candidate.files
    source := candidate.source
    subtreeShas := candidate.roots.map fun root =>
      (entrySha entries (pathPrefix serviceRoot ++ root)).getD "" }

/-- Stamp the candidates, each with an id that none before it carries. -/
def stampTerritories (entries : List RepoContentEntry) (serviceRoot : Path) :
    List String -> (String -> Option (List SurveyedFile)) -> List Candidate ->
      List BugFishingTerritory × (String -> Option (List SurveyedFile))
  | _, filesByTerritory, [] => ([], filesByTerritory)
  | used, filesByTerritory, candidate :: rest =>
      let id := uniqueTerritoryId (territorySlug candidate.idBase) used
      let later := stampTerritories entries serviceRoot (used ++ [id])
        (Function.update filesByTerritory id (some candidate.files)) rest
      (territoryOf entries serviceRoot id candidate :: later.1, later.2)

/-- The candidates before any is split: the modules', then the directories'. -/
def startingCandidates (localeLe : Path -> Path -> Bool) (files : List SurveyedFile)
    (blueprint : Option BlueprintService) (serviceRoot : Path) : List Candidate :=
  let claimed :=
    match blueprint with
    | some service => blueprintCandidates files service serviceRoot
    | none => { candidates := [], unclaimed := files }
  claimed.candidates ++
    (groupByChildDirectory localeLe claimed.unclaimed []).map directoryCandidate

def partitionCodebase (localeLe : Path -> Path -> Bool) (tree : RepoTreeListing)
    (options : SurveyOptions) : CodebaseSurvey :=
  let serviceRoot := normalizePath (options.serviceDirectory.getD [])
  let files := fishableFiles localeLe tree.entries serviceRoot
  if tokensOf files ≤ maxTerritoryTokens then
    let only := wholeCodebaseTerritory files
    { territories := [only]
      filesByTerritory := Function.update (fun _ => none) only.id (some files)
      treeTruncated := tree.truncated }
  else
    let candidates := packSmall
      ((startingCandidates localeLe files options.blueprint serviceRoot).flatMap
        (splitOversized localeLe))
    let stamped := stampTerritories tree.entries serviceRoot [] (fun _ => none) candidates
    { territories := stamped.1
      filesByTerritory := stamped.2
      treeTruncated := tree.truncated }

/-!
## The plan, and the scope of a pass
-/

structure BugFishingPhase where
  id : String
  title : String
  goal : String
  territoryId : Option String
  territoryLabel : Option String
deriving DecidableEq

structure BugFishingUnfishedCell where
  territoryId : String
  territoryLabel : String
  phaseId : String
  phaseTitle : String
deriving DecidableEq

structure PassPlan where
  phases : List BugFishingPhase
  unfished : List BugFishingUnfishedCell
  plannedCells : Nat
deriving DecidableEq

/-- Where `slice` cuts a list: a negative bound counts from the end. -/
def sliceBound (bound : Int) (length : Nat) : Nat :=
  if bound < 0 then (length + bound).toNat else min bound.toNat length

def stampPhase (territory : BugFishingTerritory) (phase : BugFishingPhase) :
    BugFishingPhase :=
  { phase with territoryId := some territory.id, territoryLabel := some territory.label }

def unfishedCell (territoryId territoryLabel : String) (phase : BugFishingPhase) :
    BugFishingUnfishedCell :=
  { territoryId := territoryId
    territoryLabel := territoryLabel
    phaseId := phase.id
    phaseTitle := phase.title }

def planTerritoryPasses (territories : List BugFishingTerritory)
    (angles : List BugFishingPhase) (passBudget : Int) : PassPlan :=
  let only := territories.head?
  if territories.length = 0 ∨
      territories.length = 1 ∧
        only.map BugFishingTerritory.source = some TerritorySource.wholeCodebase then
    let cut := sliceBound passBudget angles.length
    { phases := angles.take cut
      unfished := (angles.drop cut).map
        (unfishedCell ((only.map BugFishingTerritory.id).getD wholeCodebaseTerritoryId)
          ((only.map BugFishingTerritory.label).getD "Whole codebase"))
      plannedCells := angles.length }
  else
    let cells := territories.flatMap fun territory =>
      angles.map fun phase => (territory, phase)
    let cut := sliceBound passBudget cells.length
    { phases := (cells.take cut).map fun cell => stampPhase cell.1 cell.2
      unfished := (cells.drop cut).map fun cell =>
        unfishedCell cell.1.id cell.1.label cell.2
      plannedCells := cells.length }

structure BugFishingPassScope where
  territoryId : String
  roots : List Path
  manifest : List Path
deriving DecidableEq

def manifestOf (survey : CodebaseSurvey) (territoryId : String) : List SurveyedFile :=
  (survey.filesByTerritory territoryId).getD []

/-- What a pass is held to; a phase without a territory is held to nothing. -/
def bugFishingPassScope (recorded : List BugFishingTerritory) (phase : BugFishingPhase)
    (survey : CodebaseSurvey) : Option BugFishingPassScope :=
  match phase.territoryId with
  | none => none
  | some territoryId =>
      if territoryId = "" then none
      else
        some
          { territoryId := territoryId
            roots := ((recorded.find? fun t => t.id = territoryId).map
              BugFishingTerritory.roots).getD []
            manifest := (manifestOf survey territoryId).map SurveyedFile.path }

def isInTerritory (path : Path) (scope : Option BugFishingPassScope) : Bool :=
  match scope with
  | none => true
  | some scope =>
      if scope.roots = [] then true
      else if path = [] then true
      else
        let clean := (dropDotSlash path).dropWhile (· = '/')
        scope.roots.any fun root => under '/' root clean

end Expedition
end CatFactory
