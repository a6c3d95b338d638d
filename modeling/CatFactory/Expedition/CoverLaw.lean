import CatFactory.Expedition.TerritoryLaw
import Mathlib.Data.List.ProdSigma
import Mathlib.Data.Char
import Mathlib.Data.List.Lex

/-!
# The law of an expedition

References that cross are met by sizes at which the crossing shows: two files
that each fill a territory, or one that no territory holds.  With the plan's
law this gives the law of an expedition.
-/

namespace CatFactory
namespace Expedition

open Foundation

/-!
## Sizes that show a crossing
-/

section Sizes

variable {localeLe : Path -> Path -> Bool} {tree : RepoTreeListing} {options : SurveyOptions}

/-- The tree in which the files at the heavy paths weigh `b` and the others nothing. -/
def loaded (options : SurveyOptions) (heavy : Path -> Bool) (b : Nat)
    (tree : RepoTreeListing) : RepoTreeListing :=
  weighed (serviceRoot options) (fun path => if heavy path then b else 0) tree

theorem separate_loaded (htree : FileTree tree.entries) (heavy : Path -> Bool) (b : Nat) :
    Separate (surveyedFiles localeLe (loaded options heavy b tree) options) :=
  separate_fishableFiles (fileTree_resize _ tree htree)

theorem map_path_loaded (heavy : Path -> Bool) (b : Nat) :
    (surveyedFiles localeLe (loaded options heavy b tree) options).map SurveyedFile.path =
      (surveyedPaths tree.entries (serviceRoot options)).insertionSort
        fun x y => localeLe x y := by
  rw [map_path_fishableFiles]
  unfold loaded weighed
  rw [surveyedPaths_resize]

theorem tokensOf_loaded (htree : FileTree tree.entries) {heavy : Path -> Bool} {b : Nat}
    {part : List SurveyedFile}
    (hpart : forall x, x ∈ part ->
      x ∈ surveyedFiles localeLe (loaded options heavy b tree) options) :
    tokensOf part = (b * part.countP (fun x => heavy x.path) + 2) / 4 := by
  unfold tokensOf
  rw [bytesOf_eq part fun x hx => bytes_weighed htree _ (hpart x hx)]
  rfl

/-- One file that no territory holds, under two references of its candidate. -/
theorem not_covers_loaded_one (htree : FileTree tree.entries) {path : Path} {c : Candidate}
    (hc : c ∈ starting localeLe (loaded options (fun x => x = path) 2000000 tree) options)
    (hpath : path ∈ c.files.map SurveyedFile.path)
    (htwo : 2 ≤ c.roots.countP fun root => under '/' root path) :
    ¬ Covers
      (surveyedFiles localeLe (loaded options (fun x => x = path) 2000000 tree) options)
      (partitionCodebase localeLe (loaded options (fun x => x = path) 2000000 tree)
        options) := by
  have hsep := @separate_loaded localeLe tree options htree (fun x => x = path) 2000000
  have hpart := starting_part hsep hc
  rcases List.mem_map.mp hpath with ⟨f, hf, rfl⟩
  have hone : forall part : List SurveyedFile,
      (forall x, x ∈ part -> x ∈ surveyedFiles localeLe
        (loaded options (fun x => x = f.path) 2000000 tree) options) ->
      f ∈ part -> maxTerritoryTokens < tokensOf part := by
    intro part hin hfpart
    rw [tokensOf_loaded htree hin]
    have hpos : 0 < part.countP fun x => decide (x.path = f.path) :=
      List.countP_pos_iff.mpr ⟨f, hfpart, by simp⟩
    have hmax : maxTerritoryTokens = 300000 := rfl
    omega
  apply not_covers_of_doubled hsep _ hc (hone _ hpart.1 hf) hf htwo
  exact Nat.not_le_of_lt (hone _ (fun _ hx => hx) (hpart.1 f hf))

/-- Two files that each fill a territory, one under a root of the other's candidate. -/
theorem not_covers_loaded_two (htree : FileTree tree.entries) {p q : Path}
    {c c' : Candidate}
    (hc : c ∈ starting localeLe (loaded options (fun x => x = p || x = q) 800000 tree) options)
    (hc' : c' ∈ starting localeLe (loaded options (fun x => x = p || x = q) 800000 tree)
      options)
    (hp : p ∈ c.files.map SurveyedFile.path) (hp' : p ∉ c'.files.map SurveyedFile.path)
    (hq : q ∈ c'.files.map SurveyedFile.path) (hcovered : coveredBy c'.roots p = true) :
    ¬ Covers
      (surveyedFiles localeLe (loaded options (fun x => x = p || x = q) 800000 tree) options)
      (partitionCodebase localeLe (loaded options (fun x => x = p || x = q) 800000 tree)
        options) := by
  have hsep := @separate_loaded localeLe tree options htree (fun x => x = p || x = q) 800000
  have hpart := starting_part hsep hc
  have hpart' := starting_part hsep hc'
  rcases List.mem_map.mp hp with ⟨f, hf, rfl⟩
  rcases List.mem_map.mp hq with ⟨g, hg, rfl⟩
  have hf' : f ∉ c'.files := fun h => hp' (List.mem_map_of_mem h)
  have hne : g ≠ f := fun h => hf' (h ▸ hg)
  have hg' : g ∉ c.files := by
    intro h
    have heq := starting_eq hsep hc hc' h hg
    exact hf' (heq ▸ hf)
  have hfin := hpart.1 f hf
  have hgin := hpart'.1 g hg
  have hfill : forall (piece : List SurveyedFile) (x y : SurveyedFile),
      (forall z, z ∈ piece -> z ∈ surveyedFiles localeLe
        (loaded options (fun z => z = f.path || z = g.path) 800000 tree) options) ->
      piece.Nodup -> x ∈ piece -> y ∉ piece ->
      (forall z : SurveyedFile, z.path = f.path ∨ z.path = g.path <->
        z.path = x.path ∨ z.path = y.path) ->
      y ∈ surveyedFiles localeLe
        (loaded options (fun z => z = f.path || z = g.path) 800000 tree) options ->
      tokensOf piece = 200000 := by
    intro piece x y hin hnodup hx hy hboth hyin
    have hheavy : forall z, z ∈ piece ->
        ((decide (z.path = f.path) || decide (z.path = g.path)) = true <->
          z.path = x.path) := by
      intro z hz
      rw [Bool.or_eq_true, decide_eq_true_iff, decide_eq_true_iff, hboth z]
      constructor
      · rintro (h | h)
        · exact h
        · exact absurd (hsep.eq_of_path (hin z hz) hyin h ▸ hz) hy
      · exact Or.inl
    have hcount := @countP_path_eq _ piece hsep hin hnodup x (hin x hx)
      (fun z => decide (z = f.path) || decide (z = g.path)) hheavy
    rw [tokensOf_loaded htree hin, hcount, if_pos hx]
  have htokens := hfill c.files f g hpart.1 hpart.2 hf hg' (fun _ => Iff.rfl) hgin
  have htokens' := hfill c'.files g f hpart'.1 hpart'.2 hg hf' (fun _ => Or.comm) hfin
  have htarget : targetTerritoryTokens = 150000 := rfl
  have hmax : maxTerritoryTokens = 300000 := rfl
  refine not_covers_of_crossing hsep ?_ hc hc' ?_ hf hf' hcovered
  · rw [tokensOf_loaded htree fun _ hx => hx]
    have htwo := @two_le_countP _
      (fun x : SurveyedFile => decide (x.path = f.path) || decide (x.path = g.path))
      _ f g hfin hgin hne (by simp) (by simp)
    omega
  · intro piece hpiece
    simp only [List.mem_cons, List.not_mem_nil, or_false] at hpiece
    rcases hpiece with rfl | rfl
    · omega
    · omega

end Sizes

/-!
## Exactly when every sizing is covered
-/

section Exactly

variable {localeLe : Path -> Path -> Bool} {tree : RepoTreeListing} {options : SurveyOptions}

theorem exists_claim {files : List SurveyedFile} {blueprint : Option BlueprintService}
    {root : Path} {e : List Path × List Path}
    (he : e ∈ firstComers (files.map SurveyedFile.path) (referencesOf blueprint root)) :
    exists c, c ∈ (claimFrom root files (modulesOf blueprint)).1 ∧ c.roots = e.1 ∧
      c.files.map SurveyedFile.path = e.2 := by
  unfold referencesOf at he
  rw [← map_claimFrom] at he
  rcases List.mem_map.mp he with ⟨c, hc, rfl⟩
  exact ⟨c, hc, rfl, rfl⟩

/-- A survey that is covered names the files of a large module once. -/
theorem namedOnce_of_covers (htree : FileTree tree.entries)
    (hover : ¬ tokensOf (surveyedFiles localeLe tree options) ≤ maxTerritoryTokens)
    (hcovers : Covers (surveyedFiles localeLe tree options)
      (partitionCodebase localeLe tree options)) :
    NamedOnce (surveyedFiles localeLe tree options)
      (referencesOf options.blueprint (serviceRoot options)) := by
  have hsep : Separate (surveyedFiles localeLe tree options) := separate_fishableFiles htree
  intro e he hlarge path hpath
  rcases exists_claim he with ⟨c, hc, hroots, hfiles⟩
  rw [← hfiles, files_claim hsep hc] at hlarge
  by_contra htwice
  rw [← hfiles] at hpath
  rcases List.mem_map.mp hpath with ⟨f, hf, rfl⟩
  apply not_covers_of_doubled hsep hover (mem_startingCandidates.mpr (Or.inl hc))
    hlarge hf _ hcovers
  rw [hroots]
  exact Nat.lt_of_not_le htwice

/-- A file under no reference is grouped by its directory, with such files only. -/
theorem exists_group_of_free (localeLe : Path -> Path -> Bool) {files : List SurveyedFile}
    {blueprint : Option BlueprintService} {root : Path} {g : SurveyedFile} (hg : g ∈ files)
    (hfree : (referencesOf blueprint root).any (fun roots => coveredBy roots g.path) = false)
    {directory : Path} (hdir : childDirectory [] g.path = some directory) :
    exists c, c ∈ startingCandidates localeLe files blueprint root ∧
      c.roots = [directory] ∧ g ∈ c.files ∧
      forall x, x ∈ c.files ->
        (referencesOf blueprint root).any (fun roots => coveredBy roots x.path) = false := by
  have hunclaimed : forall x : SurveyedFile,
      x ∈ (claimFrom root files (modulesOf blueprint)).2 <-> x ∈ files ∧
        (referencesOf blueprint root).any (fun roots => coveredBy roots x.path) = false := by
    intro x
    rw [mem_unclaimed_iff]
    unfold referencesOf
    rw [List.any_map, List.any_eq_false]
    simp
  have hgin : g ∈ (claimFrom root files (modulesOf blueprint)).2.filter
      fun file => childDirectory [] file.path = some directory :=
    List.mem_filter.mpr ⟨(hunclaimed g).mpr ⟨hg, hfree⟩, decide_eq_true hdir⟩
  refine ⟨_, mem_startingCandidates.mpr (Or.inr ⟨_, mem_groupByChildDirectory.mpr
    (Or.inl ⟨directory, rfl, List.ne_nil_of_mem hgin⟩), rfl⟩), rfl, hgin, ?_⟩
  intro x hx
  exact ((hunclaimed x).mp (List.mem_filter.mp hx).1).2

theorem exists_path_firstComers {paths : List Path} (references : List (List Path))
    {e : List Path × List Path} (he : e ∈ firstComers paths references) :
    exists path, path ∈ e.2 := by
  induction references generalizing paths with
  | nil => cases he
  | cons roots rest ih =>
      unfold firstComers at he
      simp only at he
      split at he
      · exact ih he
      · rename_i hsome
        cases he with
        | head => exact List.exists_mem_of_ne_nil _ hsome
        | tail _ he => exact ih he

theorem apart_of_covers (htree : FileTree tree.entries)
    (h : forall size, Covers (surveyedFiles localeLe (resize size tree) options)
      (partitionCodebase localeLe (resize size tree) options)) :
    ReferencesApart (surveyedPaths tree.entries (serviceRoot options))
      (referencesOf options.blueprint (serviceRoot options)) := by
  have hcovers : forall heavy b,
      Covers (surveyedFiles localeLe (loaded options heavy b tree) options)
        (partitionCodebase localeLe (loaded options heavy b tree) options) :=
    fun heavy b => h _
  have hsorted : forall heavy b, _ :=
    fun heavy b => @map_path_loaded localeLe tree options heavy b
  apply ReferencesApart.congr fun path => List.mem_insertionSort (fun x y => localeLe x y)
  generalize (surveyedPaths tree.entries (serviceRoot options)).insertionSort
    (fun x y => localeLe x y) = paths at hsorted
  constructor
  · intro path hpath
    by_contra htwice
    rcases firstComers_conflict hpath _ (Nat.lt_of_not_le htwice) with
      ⟨e, he, hin, htwo⟩ | ⟨e, e', he, he', hin, hout, hcovered⟩
    · rw [← hsorted (fun x => x = path) 2000000] at he
      rcases exists_claim he with ⟨c, hc, hroots, hfiles⟩
      exact not_covers_loaded_one htree (mem_startingCandidates.mpr (Or.inl hc))
        (hfiles ▸ hin) (hroots ▸ htwo) (hcovers _ _)
    · rcases exists_path_firstComers _ he' with ⟨q, hq⟩
      rw [← hsorted (fun x => x = path || x = q) 800000] at he he'
      rcases exists_claim he with ⟨c, hc, _, hfiles⟩
      rcases exists_claim he' with ⟨c', hc', hroots', hfiles'⟩
      exact not_covers_loaded_two htree (mem_startingCandidates.mpr (Or.inl hc))
        (mem_startingCandidates.mpr (Or.inl hc')) (hfiles ▸ hin) (hfiles' ▸ hout)
        (hfiles' ▸ hq) (hroots' ▸ hcovered) (hcovers _ _)
  · intro p q hp hq hnamed hfree directory hpdir hqdir
    rw [← hsorted (fun x => x = p || x = q) 800000] at hp hq
    rcases List.mem_map.mp hp with ⟨f, hf, rfl⟩
    rcases List.mem_map.mp hq with ⟨g, hg, rfl⟩
    have hlisted := (@perm_startingCandidates localeLe _ options.blueprint
      (serviceRoot options)).mem_iff.mpr hf
    rcases List.mem_flatMap.mp hlisted with ⟨c, hc, hfc⟩
    rcases exists_group_of_free localeLe hg hfree hqdir with ⟨c', hc', hroots', hgc, hleft⟩
    refine not_covers_loaded_two htree hc hc' (List.mem_map_of_mem hfc) ?_
      (List.mem_map_of_mem hgc) ?_ (hcovers _ _)
    · intro hin
      rcases List.mem_map.mp hin with ⟨x, hx, hxp⟩
      have hxfree := hleft x hx
      rw [hxp, hnamed] at hxfree
      cases hxfree
    · rcases (childDirectory_eq_some_iff (Or.inl rfl)).mp hpdir with ⟨_, _, _, rest, hrest⟩
      rw [hroots']
      apply coveredBy_iff.mpr
      exact ⟨directory, List.mem_singleton.mpr rfl, under_iff.mpr (Or.inr ⟨rest, hrest⟩)⟩

end Exactly

/-!
## The plan
-/

/-- The cells of the matrix, one territory after another. -/
def matrix (territories : List BugFishingTerritory) (angles : List BugFishingPhase) :
    List (BugFishingTerritory × BugFishingPhase) :=
  territories.flatMap fun territory => angles.map fun phase => (territory, phase)

/-- A plan fishes the first cells of the matrix and names the others, each once. -/
structure PlanCovers (territories : List BugFishingTerritory) (angles : List BugFishingPhase)
    (plan : PassPlan) : Prop where
  cells : exists kept cut, kept ++ cut = matrix territories angles ∧
    plan.phases = kept.map (fun cell => passOf cell.1 cell.2) ∧
    plan.unfished = cut.map fun cell => unfishedCell cell.1.id cell.1.label cell.2
  counted : plan.plannedCells = (matrix territories angles).length
  once : (angles.map BugFishingPhase.id).Nodup ->
    ((matrix territories angles).map fun cell => (cell.1.id, cell.2.id)).Nodup

theorem nodup_matrix {territories : List BugFishingTerritory} {angles : List BugFishingPhase}
    (hids : (territories.map BugFishingTerritory.id).Nodup)
    (hangles : (angles.map BugFishingPhase.id).Nodup) :
    ((matrix territories angles).map fun cell => (cell.1.id, cell.2.id)).Nodup := by
  have hproduct : (matrix territories angles).map (fun cell => (cell.1.id, cell.2.id)) =
      (territories.map BugFishingTerritory.id) ×ˢ (angles.map BugFishingPhase.id) := by
    unfold matrix
    induction territories with
    | nil => rfl
    | cons territory rest ih =>
        rw [List.map_cons, List.nodup_cons] at hids
        rw [List.flatMap_cons, List.map_append, ih hids.2, List.map_cons, List.product_cons,
          List.map_map, List.map_map]
        rfl
  rw [hproduct]
  exact hids.product hangles

/-- A whole-codebase territory is the only one, so its cells are the angles. -/
theorem planTerritoryPasses_covers {territories : List BugFishingTerritory}
    (hids : (territories.map BugFishingTerritory.id).Nodup) (hsome : territories ≠ [])
    (hwhole : forall t, t ∈ territories -> t.source = .wholeCodebase -> territories = [t])
    (angles : List BugFishingPhase) (passBudget : Int) :
    PlanCovers territories angles (planTerritoryPasses territories angles passBudget) := by
  rcases List.exists_cons_of_ne_nil hsome with ⟨first, rest, rfl⟩
  by_cases hsource : first.source = .wholeCodebase
  · have honly := hwhole first (List.mem_cons_self ..) hsource
    rw [honly] at hids ⊢
    have hmatrix : matrix [first] angles = angles.map fun phase => (first, phase) := by
      unfold matrix
      rw [List.flatMap_singleton]
    have hplan : planTerritoryPasses [first] angles passBudget =
        { phases := angles.take (sliceBound passBudget angles.length)
          unfished := (angles.drop (sliceBound passBudget angles.length)).map
            (unfishedCell first.id first.label)
          plannedCells := angles.length } := by
      unfold planTerritoryPasses
      rw [if_pos (by simp [hsource])]
      rfl
    have hpass : (fun phase => passOf first phase) = id := by
      funext phase
      unfold passOf
      rw [if_pos hsource]
      rfl
    rw [hplan]
    constructor
    · refine ⟨(angles.take (sliceBound passBudget angles.length)).map fun phase => (first, phase),
        (angles.drop (sliceBound passBudget angles.length)).map fun phase => (first, phase),
        ?_, ?_, ?_⟩
      · rw [← List.map_append, List.take_append_drop, hmatrix]
      · rw [List.map_map]
        exact (congrArg (fun f => (angles.take _).map f) hpass).symm ▸ (List.map_id _).symm
      · rw [List.map_map]
        rfl
    · rw [hmatrix, List.length_map]
    · exact nodup_matrix hids
  · have hnone : forall t, t ∈ first :: rest -> t.source ≠ .wholeCodebase := by
      intro t ht hwholeSource
      have honly := hwhole t ht hwholeSource
      have hfirst : first = t := (List.cons.inj honly).1
      exact hsource (hfirst ▸ hwholeSource)
    have hplan : planTerritoryPasses (first :: rest) angles passBudget =
        { phases := ((matrix (first :: rest) angles).take
            (sliceBound passBudget (matrix (first :: rest) angles).length)).map
              fun cell => stampPhase cell.1 cell.2
          unfished := ((matrix (first :: rest) angles).drop
            (sliceBound passBudget (matrix (first :: rest) angles).length)).map
              fun cell => unfishedCell cell.1.id cell.1.label cell.2
          plannedCells := (matrix (first :: rest) angles).length } := by
      unfold planTerritoryPasses
      rw [if_neg (by simp [hsource])]
      rfl
    rw [hplan]
    constructor
    · refine ⟨(matrix (first :: rest) angles).take _, (matrix (first :: rest) angles).drop _,
        List.take_append_drop _ _, ?_, rfl⟩
      apply List.map_congr_left
      intro cell hcell
      have hin := List.mem_of_mem_take hcell
      unfold matrix at hin
      rcases List.mem_flatMap.mp hin with ⟨t, ht, hmem⟩
      rcases List.mem_map.mp hmem with ⟨phase, _, rfl⟩
      unfold passOf
      rw [if_neg (hnone t ht)]
    · rfl
    · exact nodup_matrix hids

/-!
## The law
-/

section Law

variable {localeLe : Path -> Path -> Bool} {tree : RepoTreeListing} {options : SurveyOptions}

theorem territories_ne_nil : (partitionCodebase localeLe tree options).territories ≠ [] := by
  by_cases hfits : tokensOf (surveyedFiles localeLe tree options) ≤ maxTerritoryTokens
  · unfold partitionCodebase
    simp only [hfits, if_true]
    exact List.cons_ne_nil _ _
  · have hfiles : surveyedFiles localeLe tree options ≠ [] := by
      intro hnil
      rw [hnil] at hfits
      exact hfits (by decide)
    rcases List.exists_mem_of_ne_nil _ hfiles with ⟨file, hfile⟩
    rcases accounted_partition.found file hfile with ⟨t, ht, _⟩
    exact List.ne_nil_of_mem ht

theorem whole_is_only {t : BugFishingTerritory}
    (ht : t ∈ (partitionCodebase localeLe tree options).territories)
    (hsource : t.source = .wholeCodebase) :
    (partitionCodebase localeLe tree options).territories = [t] := by
  by_cases hfits : tokensOf (surveyedFiles localeLe tree options) ≤ maxTerritoryTokens
  · unfold partitionCodebase at ht ⊢
    simp only [hfits, if_true] at ht ⊢
    rw [List.mem_singleton.mp ht]
  · rcases (drawn_partition hfits).exists_candidate ht with ⟨c, hc, _, _, hsame, _⟩
    exact absurd (hsame.symm.trans hsource) (placed_territoryCandidate c hc).2

end Law

/-- Sorted by code points. -/
def codePointLe (a b : Path) : Bool := a ≤ b

def fileEntry (path : String) (size : Nat) : RepoContentEntry :=
  { path := path.toList, type := .file, sha := path, size := some size }

def twoAreas : RepoTreeListing :=
  { entries := [fileEntry "src/billing/charge.ts" 800000, fileEntry "src/sessions/open.ts" 800000]
    truncated := false }

def blueprintOf (modules : List (String × List String)) : SurveyOptions :=
  { serviceDirectory := none
    blueprint := some
      { modules := modules.map fun m =>
          { name := m.1, references := m.2.map String.toList } } }

/-- Two areas that fill a territory each, beside one small module. -/
def threeAreas : RepoTreeListing :=
  { twoAreas with
    entries := [fileEntry "app/main.ts" 800000, fileEntry "lib/pool.ts" 800000,
      fileEntry "src/billing/charge.ts" 1000, fileEntry "src/open.ts" 1000] }

/-- One module with two references, the second below the first. -/
def nestedCore : SurveyOptions :=
  blueprintOf [("Core", ["src", "src/billing"])]

end Expedition
end CatFactory
