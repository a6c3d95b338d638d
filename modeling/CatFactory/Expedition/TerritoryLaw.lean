import CatFactory.Expedition.Stamping
import CatFactory.Foundation.Keyed

/-!
# An expedition covers the codebase

The territories of a survey account for the files it fishes: every file is in
the manifest of one territory, a finding on it is in the scope of that
territory's pass and out of the scope of every other, and the plan has every
cell of the matrix once, fished or named as unfished.  The references of a
blueprint can break this, so the law says which do.
-/

namespace CatFactory
namespace Expedition

open Foundation

/-!
## What a survey owes its files
-/

structure Accounted (files : List SurveyedFile) (survey : CodebaseSurvey) : Prop where
  ids : (survey.territories.map BugFishingTerritory.id).Nodup
  counted : forall t, t ∈ survey.territories ->
    t.fileCount = (manifestOf survey t.id).length
  found : forall file, file ∈ files ->
    exists t, t ∈ survey.territories ∧ file ∈ manifestOf survey t.id

/-- An angle as it is planned over a territory. -/
def passOf (territory : BugFishingTerritory) (angle : BugFishingPhase) : BugFishingPhase :=
  if territory.source = .wholeCodebase then angle else stampPhase territory angle

/-- Whether a finding on a path is kept when the territory's pass reports it. -/
def keptByPass (survey : CodebaseSurvey) (territory : BugFishingTerritory)
    (angle : BugFishingPhase) (path : Path) : Bool :=
  isInTerritory path (bugFishingPassScope survey.territories (passOf territory angle) survey)

structure Covers (files : List SurveyedFile) (survey : CodebaseSurvey) : Prop
    extends Accounted files survey where
  listed : (survey.territories.flatMap fun t => manifestOf survey t.id).Perm files
  single : forall file t t', t ∈ survey.territories -> t' ∈ survey.territories ->
    file ∈ manifestOf survey t.id -> file ∈ manifestOf survey t'.id -> t = t'
  rooted : forall t, t ∈ survey.territories -> t.source ≠ .wholeCodebase ->
    forall file, file ∈ manifestOf survey t.id -> coveredBy t.roots file.path = true
  inScope : forall t angle, t ∈ survey.territories -> angle.territoryId = none ->
    forall file, file ∈ manifestOf survey t.id -> keptByPass survey t angle file.path = true
  outOfScope : forall t t' angle, t ∈ survey.territories -> t' ∈ survey.territories ->
    t ≠ t' -> angle.territoryId = none ->
    forall file, file ∈ manifestOf survey t.id -> keptByPass survey t' angle file.path = false

/-!
## A codebase that fits one territory
-/

section Fits

variable {localeLe : Path -> Path -> Bool} {tree : RepoTreeListing} {options : SurveyOptions}

abbrev serviceRoot (options : SurveyOptions) : Path :=
  normalizePath (options.serviceDirectory.getD [])

abbrev surveyedFiles (localeLe : Path -> Path -> Bool) (tree : RepoTreeListing)
    (options : SurveyOptions) : List SurveyedFile :=
  fishableFiles localeLe tree.entries (serviceRoot options)

theorem covers_of_fits
    (hfits : tokensOf (surveyedFiles localeLe tree options) ≤ maxTerritoryTokens) :
    Covers (surveyedFiles localeLe tree options) (partitionCodebase localeLe tree options) := by
  have hsurvey : partitionCodebase localeLe tree options =
      { territories := [wholeCodebaseTerritory (surveyedFiles localeLe tree options)]
        filesByTerritory := Function.update (fun _ => none) wholeCodebaseTerritoryId
          (some (surveyedFiles localeLe tree options))
        treeTruncated := tree.truncated } := by
    unfold partitionCodebase
    simp only [hfits, if_true]
    rfl
  rw [hsurvey]
  generalize surveyedFiles localeLe tree options = files
  have hmanifest : forall t, t ∈ [wholeCodebaseTerritory files] ->
      t = wholeCodebaseTerritory files := fun t ht => List.mem_singleton.mp ht
  have hlist : manifestOf
      { territories := [wholeCodebaseTerritory files]
        filesByTerritory := Function.update (fun _ => none) wholeCodebaseTerritoryId
          (some files)
        treeTruncated := tree.truncated } wholeCodebaseTerritoryId = files := by
    simp [manifestOf]
  refine { ids := ?_, counted := ?_, found := ?_, listed := ?_, single := ?_, rooted := ?_,
           inScope := ?_, outOfScope := ?_ }
  · exact List.nodup_singleton _
  · intro t ht
    rw [hmanifest t ht]
    exact (congrArg List.length hlist).symm
  · intro file hfile
    exact ⟨_, List.mem_singleton.mpr rfl, hlist.symm ▸ hfile⟩
  · rw [List.flatMap_singleton]
    exact hlist ▸ List.Perm.refl _
  · intro file t t' ht ht' _ _
    rw [hmanifest t ht, hmanifest t' ht']
  · intro t ht hsource
    rw [hmanifest t ht] at hsource
    exact absurd rfl hsource
  · intro t angle ht hangle file _
    rw [hmanifest t ht]
    have hpass : passOf (wholeCodebaseTerritory files) angle = angle := rfl
    unfold keptByPass bugFishingPassScope
    rw [hpass, hangle]
    rfl
  · intro t t' _ ht ht' hne
    rw [hmanifest t ht, hmanifest t' ht'] at hne
    exact absurd rfl hne

end Fits

/-!
## A codebase cut into territories
-/

section Cut

variable {files : List SurveyedFile} {survey : CodebaseSurvey} {candidates : List Candidate}

/-- The territories of a survey are its candidates, stamped. -/
structure Drawn (survey : CodebaseSurvey) (candidates : List Candidate) : Prop where
  stamped : List.Forall₂ (Stamped survey.filesByTerritory) candidates survey.territories
  ids : (survey.territories.map BugFishingTerritory.id).Nodup

theorem exists_of_mem_left {left right : Type} {R : left -> right -> Prop} {xs : List left}
    {ys : List right} (h : List.Forall₂ R xs ys) {x : left} (hx : x ∈ xs) :
    exists y, y ∈ ys ∧ R x y := by
  induction h with
  | nil => cases hx
  | cons hhead _ ih =>
      cases hx with
      | head => exact ⟨_, List.mem_cons_self .., hhead⟩
      | tail _ hx =>
          rcases ih hx with ⟨y, hy, hr⟩
          exact ⟨y, List.mem_cons_of_mem _ hy, hr⟩

theorem exists_of_mem_right {left right : Type} {R : left -> right -> Prop} {xs : List left}
    {ys : List right} (h : List.Forall₂ R xs ys) {y : right} (hy : y ∈ ys) :
    exists x, x ∈ xs ∧ R x y := by
  rcases exists_of_mem_left h.flip hy with ⟨x, hx, hr⟩
  exact ⟨x, hx, hr⟩

theorem Drawn.exists_territory (h : Drawn survey candidates) {c : Candidate}
    (hc : c ∈ candidates) : exists t, t ∈ survey.territories ∧
      t.roots = c.roots ∧ t.id ≠ "" ∧ t.source = c.source ∧
      manifestOf survey t.id = c.files := by
  rcases exists_of_mem_left h.stamped hc with ⟨t, ht, hstamp⟩
  exact ⟨t, ht, hstamp.roots, hstamp.named, hstamp.source, by simp [manifestOf, hstamp.manifest]⟩

theorem Drawn.exists_candidate (h : Drawn survey candidates) {t : BugFishingTerritory}
    (ht : t ∈ survey.territories) : exists c, c ∈ candidates ∧ t.roots = c.roots ∧ t.id ≠ "" ∧
      t.source = c.source ∧ t.fileCount = c.files.length ∧
      manifestOf survey t.id = c.files := by
  rcases exists_of_mem_right h.stamped ht with ⟨c, hc, hstamp⟩
  exact ⟨c, hc, hstamp.roots, hstamp.named, hstamp.source, hstamp.count,
    by simp [manifestOf, hstamp.manifest]⟩

theorem Drawn.flatMap_manifest (h : Drawn survey candidates) :
    (survey.territories.flatMap fun t => manifestOf survey t.id) =
      candidates.flatMap Candidate.files := by
  have hall : forall (cs : List Candidate) (ts : List BugFishingTerritory),
      List.Forall₂ (Stamped survey.filesByTerritory) cs ts ->
      (ts.flatMap fun t => manifestOf survey t.id) = cs.flatMap Candidate.files := by
    intro cs ts hstamped
    induction hstamped with
    | nil => rfl
    | cons hhead _ ih =>
        rw [List.flatMap_cons, List.flatMap_cons, ih]
        simp [manifestOf, hhead.manifest]
  exact hall candidates survey.territories h.stamped

/-- The pass of a drawn territory keeps the findings under the territory's roots. -/
theorem keptByPass_eq (hids : (survey.territories.map BugFishingTerritory.id).Nodup)
    {t : BugFishingTerritory} (ht : t ∈ survey.territories) (hnamed : t.id ≠ "")
    (hsource : t.source ≠ .wholeCodebase) (hroots : t.roots ≠ []) (angle : BugFishingPhase)
    {path : Path} (hpath : path ≠ [] ∧ (dropDotSlash path).dropWhile (· = '/') = path) :
    keptByPass survey t angle path = coveredBy t.roots path := by
  have hfind : survey.territories.find? (fun t' => t'.id = t.id) = some t :=
    (@lookup_eq_some_iff _ _ BugFishingTerritory.id _ _ hids _ _).mpr ⟨ht, rfl⟩
  unfold keptByPass passOf
  rw [if_neg hsource]
  simp only [bugFishingPassScope, stampPhase, hnamed, if_false, hfind, Option.map_some,
    Option.getD_some, isInTerritory, hroots, hpath.1, hpath.2]
  rfl

theorem Drawn.covers (h : Drawn survey candidates) (hsep : Separate files)
    (hperm : (candidates.flatMap Candidate.files).Perm files)
    (hexact : forall c, c ∈ candidates -> Exact files c)
    (hplaced : forall c, c ∈ candidates -> Placed c) : Covers files survey := by
  have hlisted : (survey.territories.flatMap fun t => manifestOf survey t.id).Perm files := by
    rw [h.flatMap_manifest]
    exact hperm
  have hmem : forall file t, t ∈ survey.territories -> file ∈ manifestOf survey t.id ->
      file ∈ files := by
    intro file t ht hfile
    exact hlisted.mem_iff.mp (List.mem_flatMap.mpr ⟨t, ht, hfile⟩)
  -- the manifest of a territory is what its pass keeps
  have hkept : forall t angle, t ∈ survey.territories -> forall file, file ∈ files ->
      (keptByPass survey t angle file.path = true <-> file ∈ manifestOf survey t.id) := by
    intro t angle ht file hfile
    rcases h.exists_candidate ht with ⟨c, hc, hroots, hnamed, hsource, _, hmanifest⟩
    have hplace := hplaced c hc
    rw [keptByPass_eq h.ids ht hnamed (hsource ▸ hplace.2) (hroots ▸ hplace.1) angle
      (hsep.clean file hfile), hroots, hmanifest]
    exact hexact c hc file hfile
  have hsingle : forall file t t', t ∈ survey.territories -> t' ∈ survey.territories ->
      file ∈ manifestOf survey t.id -> file ∈ manifestOf survey t'.id -> t = t' := by
    intro file t t' ht ht' hfile hfile'
    have hdisjoint := (List.nodup_flatMap.mp (hlisted.nodup_iff.mpr hsep.nodup)).2
    by_contra hne
    have hsymm : Std.Symm (Function.onFun List.Disjoint
        fun t : BugFishingTerritory => manifestOf survey t.id) :=
      ⟨fun _ _ h _ hx hx' => h hx' hx⟩
    exact hdisjoint.forall ht ht' hne hfile hfile'
  refine { ids := h.ids, counted := ?_, found := ?_, listed := hlisted, single := hsingle,
           rooted := ?_, inScope := ?_, outOfScope := ?_ }
  · intro t ht
    rcases h.exists_candidate ht with ⟨c, _, _, _, _, hcount, hmanifest⟩
    rw [hcount, hmanifest]
  · intro file hfile
    exact List.mem_flatMap.mp (hlisted.mem_iff.mpr hfile)
  · intro t ht _ file hfile
    rcases h.exists_candidate ht with ⟨c, hc, hroots, _, _, _, hmanifest⟩
    rw [hroots]
    rw [hmanifest] at hfile
    exact (hexact c hc file (hperm.mem_iff.mp (List.mem_flatMap.mpr ⟨c, hc, hfile⟩))).mpr hfile
  · intro t angle ht _ file hfile
    exact (hkept t angle ht file (hmem file t ht hfile)).mpr hfile
  · intro t t' angle ht ht' hne _ file hfile
    rw [Bool.eq_false_iff]
    intro htrue
    exact hne (hsingle file t t' ht ht' hfile
      ((hkept t' angle ht' file (hmem file t ht hfile)).mp htrue))

end Cut

section Partition

variable {localeLe : Path -> Path -> Bool} {tree : RepoTreeListing} {options : SurveyOptions}

theorem drawn_partition
    (hover : ¬ tokensOf (surveyedFiles localeLe tree options) ≤ maxTerritoryTokens) :
    Drawn (partitionCodebase localeLe tree options)
      (territoryCandidates localeLe (surveyedFiles localeLe tree options) options.blueprint
        (serviceRoot options)) := by
  have hspec := stampTerritories_spec tree.entries (serviceRoot options)
    (territoryCandidates localeLe (surveyedFiles localeLe tree options) options.blueprint
      (serviceRoot options)) [] (fun _ => none)
  unfold partitionCodebase
  simp only [hover, if_false]
  exact ⟨hspec.1, hspec.2.1⟩

/-- A survey numbers its territories apart, counts them rightly and drops no file. -/
theorem accounted_partition : Accounted (surveyedFiles localeLe tree options)
    (partitionCodebase localeLe tree options) := by
  by_cases hfits : tokensOf (surveyedFiles localeLe tree options) ≤ maxTerritoryTokens
  · exact (covers_of_fits hfits).toAccounted
  · have hdrawn := drawn_partition hfits
    constructor
    · exact hdrawn.ids
    · intro t ht
      rcases hdrawn.exists_candidate ht with ⟨c, _, _, _, _, hcount, hmanifest⟩
      rw [hcount, hmanifest]
    · intro file hfile
      rcases @exists_territoryCandidate localeLe _ options.blueprint (serviceRoot options)
        file hfile with ⟨c, hc, hin⟩
      rcases hdrawn.exists_territory hc with ⟨t, ht, _, _, _, hmanifest⟩
      exact ⟨t, ht, hmanifest ▸ hin⟩

theorem covers_of_parted (htree : FileTree tree.entries)
    (hparted : ReferencesParted (surveyedFiles localeLe tree options)
      (referencesOf options.blueprint (serviceRoot options))) :
    Covers (surveyedFiles localeLe tree options) (partitionCodebase localeLe tree options) := by
  by_cases hfits : tokensOf (surveyedFiles localeLe tree options) ≤ maxTerritoryTokens
  · exact covers_of_fits hfits
  · have hsep : Separate (surveyedFiles localeLe tree options) := separate_fishableFiles htree
    exact (drawn_partition hfits).covers hsep (perm_territoryCandidates hsep hparted)
      (exact_territoryCandidate hsep hparted) placed_territoryCandidate

/-!
## References that are not apart
-/

/-- Files that weigh as `weight` says of their surveyed paths. -/
def weighed (root : Path) (weight : Path -> Nat) (tree : RepoTreeListing) : RepoTreeListing :=
  resize (fun path => some (weight (path.drop (pathPrefix root).length))) tree

theorem bytes_weighed (htree : FileTree tree.entries) (weight : Path -> Nat)
    {file : SurveyedFile}
    (hfile : file ∈ surveyedFiles localeLe (weighed (serviceRoot options) weight tree) options) :
    file.bytes = weight file.path := by
  rw [bytes_resize _ tree htree hfile, List.drop_left]
  rfl

/-- Bytes of a list in which the heavy files weigh `b` and the others nothing. -/
theorem bytesOf_eq {heavy : Path -> Bool} {b : Nat} (part : List SurveyedFile)
    (h : forall x, x ∈ part -> x.bytes = if heavy x.path then b else 0) :
    bytesOf part = b * part.countP fun x => heavy x.path := by
  induction part with
  | nil => rfl
  | cons x rest ih =>
      have hx := h x (List.mem_cons_self ..)
      have hrest := ih fun y hy => h y (List.mem_cons_of_mem _ hy)
      unfold bytesOf at hrest ⊢
      rw [List.map_cons, List.sum_cons, hrest, hx, List.countP_cons]
      split
      · rw [Nat.mul_add, Nat.mul_one, Nat.add_comm]
      · rw [Nat.add_zero, Nat.zero_add]

/-- Of the heavy paths one file of the list has, no more than one is counted. -/
theorem countP_path_eq {files part : List SurveyedFile} (hsep : Separate files)
    (hpart : forall x, x ∈ part -> x ∈ files) (hnodup : part.Nodup) {f : SurveyedFile}
    (hf : f ∈ files) {heavy : Path -> Bool}
    (h : forall x, x ∈ part -> (heavy x.path = true <-> x.path = f.path)) :
    part.countP (fun x => heavy x.path) = if f ∈ part then 1 else 0 := by
  rw [← hnodup.count]
  apply List.countP_congr
  intro x hx
  rw [h x hx, beq_iff_eq]
  constructor
  · exact hsep.eq_of_path (hpart x hx) hf
  · rintro rfl
    rfl

section Broken

variable (hsep : Separate (surveyedFiles localeLe tree options))
  (hover : ¬ tokensOf (surveyedFiles localeLe tree options) ≤ maxTerritoryTokens)

abbrev starting (localeLe : Path -> Path -> Bool) (tree : RepoTreeListing)
    (options : SurveyOptions) : List Candidate :=
  startingCandidates localeLe (surveyedFiles localeLe tree options) options.blueprint
    (serviceRoot options)

include hsep in
theorem starting_part {c : Candidate} (hc : c ∈ starting localeLe tree options) :
    (forall x, x ∈ c.files -> x ∈ surveyedFiles localeLe tree options) ∧ c.files.Nodup := by
  have hperm : ((starting localeLe tree options).flatMap Candidate.files).Perm
      (surveyedFiles localeLe tree options) := perm_startingCandidates
  constructor
  · intro x hx
    exact hperm.mem_iff.mp (List.mem_flatMap.mpr ⟨c, hc, hx⟩)
  · exact (List.nodup_flatMap.mp (hperm.nodup_iff.mpr hsep.nodup)).1 c hc

include hsep in
theorem starting_eq {c c' : Candidate} (hc : c ∈ starting localeLe tree options)
    (hc' : c' ∈ starting localeLe tree options) {x : SurveyedFile} (hx : x ∈ c.files)
    (hx' : x ∈ c'.files) : c = c' := by
  have hperm : ((starting localeLe tree options).flatMap Candidate.files).Perm
      (surveyedFiles localeLe tree options) := perm_startingCandidates
  have hdisjoint := (List.nodup_flatMap.mp (hperm.nodup_iff.mpr hsep.nodup)).2
  by_contra hne
  have hsymm : Std.Symm (Function.onFun List.Disjoint Candidate.files) :=
    ⟨fun _ _ h _ hx hx' => h hx' hx⟩
  exact hdisjoint.forall hc hc' hne hx hx'

include hsep hover in
/-- A file under two references of a candidate over the ceiling is listed twice. -/
theorem not_covers_of_doubled {c : Candidate} (hc : c ∈ starting localeLe tree options)
    (hlarge : maxTerritoryTokens < tokensOf c.files) {f : SurveyedFile} (hf : f ∈ c.files)
    (htwo : 2 ≤ c.roots.countP fun root => under '/' root f.path) :
    ¬ Covers (surveyedFiles localeLe tree options)
      (partitionCodebase localeLe tree options) := by
  intro hcovers
  have hlisted := hcovers.listed
  rw [(drawn_partition hover).flatMap_manifest, flatMap_files_territoryCandidates] at hlisted
  have hone := List.nodup_iff_count_le_one.mp (hlisted.nodup_iff.mpr hsep.nodup) f
  rcases List.append_of_mem hc with ⟨before, after, hsplit⟩
  unfold starting at hsplit
  rw [hsplit, List.flatMap_append, List.flatMap_cons, List.count_append,
    List.count_append] at hone
  have htwice := @two_le_count_splitOversized localeLe _ _ hlarge hf htwo
  omega

include hsep hover in
/-- A root over the file of another territory makes two passes keep a finding on it. -/
theorem not_covers_of_crossing {c c' : Candidate} (hc : c ∈ starting localeLe tree options)
    (hc' : c' ∈ starting localeLe tree options)
    (hfit : forall piece, piece ∈ [c, c'] ->
      targetTerritoryTokens < tokensOf piece.files ∧
        tokensOf piece.files ≤ maxTerritoryTokens)
    {f : SurveyedFile} (hf : f ∈ c.files) (hf' : f ∉ c'.files)
    (hcovered : coveredBy c'.roots f.path = true) :
    ¬ Covers (surveyedFiles localeLe tree options)
      (partitionCodebase localeLe tree options) := by
  intro hcovers
  have hdrawn := drawn_partition hover
  have hstays : forall piece, piece ∈ [c, c'] -> piece ∈ starting localeLe tree options ->
      piece ∈ territoryCandidates localeLe (surveyedFiles localeLe tree options)
        options.blueprint (serviceRoot options) := by
    intro piece hpiece hstart
    apply mem_packSmall_of_large (hfit piece hpiece).1
    apply List.mem_flatMap.mpr
    refine ⟨piece, hstart, ?_⟩
    rw [splitOversized_eq, if_pos (hfit piece hpiece).2]
    exact List.mem_singleton.mpr rfl
  rcases hdrawn.exists_territory (hstays c (by simp) hc) with
    ⟨t, ht, _, _, _, hmanifest⟩
  have hplaced := placed_startingCandidate hc'
  rcases hdrawn.exists_territory (hstays c' (by simp) hc') with
    ⟨t', ht', hroots, hnamed, hsource, hmanifest'⟩
  have hne : t ≠ t' := by
    rintro rfl
    rw [hmanifest] at hmanifest'
    exact hf' (hmanifest' ▸ hf)
  have hout := hcovers.outOfScope t t' ⟨"", "", "", none, none⟩ ht ht' hne rfl f
    (hmanifest ▸ hf)
  rw [keptByPass_eq hdrawn.ids ht' hnamed (hsource ▸ hplaced.2) (hroots ▸ hplaced.1) _
    (hsep.clean f ((starting_part hsep hc).1 f hf)), hroots, hcovered] at hout
  cases hout

end Broken

end Partition

end Expedition
end CatFactory
