import CatFactory.Expedition.Survey

/-!
# From candidates to territories

The candidates that a survey ends with hold the files it fishes, and each
becomes one territory: it has the candidate's roots, and its manifest is the
candidate's files, for its id is no other's.
-/

namespace CatFactory
namespace Expedition

open Foundation

variable {c : Candidate}

/-!
## The references of a blueprint
-/

/-- No file is under two references of modules that claim something, and no directory
of the survey root holds a file under a reference beside one under none. -/
structure ReferencesApart (paths : List Path) (references : List (List Path)) : Prop where
  once : forall path, path ∈ paths ->
    ((firstComers paths references).flatMap Prod.fst).countP
      (fun root => under '/' root path) ≤ 1
  whole : forall p q, p ∈ paths -> q ∈ paths ->
    references.any (fun roots => coveredBy roots p) = true ->
    references.any (fun roots => coveredBy roots q) = false ->
    forall directory, childDirectory [] p = some directory ->
      childDirectory [] q ≠ some directory

def referencesOf (blueprint : Option BlueprintService) (serviceRoot : Path) :
    List (List Path) :=
  (modulesOf blueprint).map fun module => blueprintReferenceRoots module serviceRoot

theorem ReferencesApart.congr {ps qs : List Path} {references : List (List Path)}
    (hmem : forall path, path ∈ ps <-> path ∈ qs) (h : ReferencesApart ps references) :
    ReferencesApart qs references := by
  constructor
  · intro path hpath
    have honce := h.once path ((hmem path).mpr hpath)
    rw [List.flatMap_def, firstComers_congr hmem, ← List.flatMap_def] at honce
    exact honce
  · intro p q hp hq
    exact h.whole p q ((hmem p).mpr hp) ((hmem q).mpr hq)

/-- A module over the ceiling names no path of its own twice. -/
def NamedOnce (files : List SurveyedFile) (references : List (List Path)) : Prop :=
  forall e, e ∈ firstComers (files.map SurveyedFile.path) references ->
    maxTerritoryTokens < tokensOf (files.filter fun file => e.2.contains file.path) ->
    forall path, path ∈ e.2 -> e.1.countP (fun root => under '/' root path) ≤ 1

/-- References apart at the sizes the files have: two references of one module may
take in the same file as long as the module fits a territory. -/
structure ReferencesParted (files : List SurveyedFile) (references : List (List Path)) :
    Prop where
  one : forall file, file ∈ files ->
    (firstComers (files.map SurveyedFile.path) references).countP
      (fun e => coveredBy e.1 file.path) ≤ 1
  named : NamedOnce files references
  whole : forall f g, f ∈ files -> g ∈ files ->
    references.any (fun roots => coveredBy roots f.path) = true ->
    references.any (fun roots => coveredBy roots g.path) = false ->
    forall directory, childDirectory [] f.path = some directory ->
      childDirectory [] g.path ≠ some directory

theorem countP_coveredBy_le (entries : List (List Path × List Path)) (path : Path) :
    entries.countP (fun e => coveredBy e.1 path) ≤
      (entries.flatMap Prod.fst).countP fun root => under '/' root path := by
  induction entries with
  | nil => exact Nat.le_refl _
  | cons e rest ih =>
      rw [List.countP_cons, List.flatMap_cons, List.countP_append, Nat.add_comm]
      apply Nat.add_le_add _ ih
      split
      · rename_i hcovered
        exact List.countP_pos_iff.mpr (coveredBy_iff.mp hcovered)
      · exact Nat.zero_le _

theorem ReferencesApart.parted {files : List SurveyedFile} {references : List (List Path)}
    (h : ReferencesApart (files.map SurveyedFile.path) references) :
    ReferencesParted files references := by
  refine ⟨?_, ?_, ?_⟩
  · intro file hfile
    exact Nat.le_trans (countP_coveredBy_le _ _) (h.once _ (List.mem_map_of_mem hfile))
  · intro e he _ path hpath
    have honce := h.once path (firstComers_subset _ _ he path hpath)
    rcases List.append_of_mem he with ⟨before, after, hsplit⟩
    rw [hsplit, List.flatMap_append, List.flatMap_cons, List.countP_append,
      List.countP_append] at honce
    omega
  · intro f g hf hg
    exact h.whole _ _ (List.mem_map_of_mem hf) (List.mem_map_of_mem hg)

section Starting

variable {localeLe : Path -> Path -> Bool} {files : List SurveyedFile}
  {blueprint : Option BlueprintService} {serviceRoot : Path}

theorem mem_startingCandidates :
    c ∈ startingCandidates localeLe files blueprint serviceRoot <->
      c ∈ (claimFrom serviceRoot files (modulesOf blueprint)).1 ∨
      exists group, group ∈ groupByChildDirectory localeLe
          (claimFrom serviceRoot files (modulesOf blueprint)).2 [] ∧
        directoryCandidate group = c := by
  rw [startingCandidates_eq, List.mem_append, List.mem_map]

theorem perm_startingCandidates :
    ((startingCandidates localeLe files blueprint serviceRoot).flatMap
      Candidate.files).Perm files := by
  rw [startingCandidates_eq, List.flatMap_append, List.flatMap_map]
  have hgroups := perm_groupByChildDirectory localeLe
    (claimFrom serviceRoot files (modulesOf blueprint)).2 []
  exact (hgroups.append_left _).trans (perm_claimFrom serviceRoot (modulesOf blueprint) files)

theorem rooted_startingCandidate
    (h : c ∈ startingCandidates localeLe files blueprint serviceRoot) : Rooted c := by
  rcases mem_startingCandidates.mp h with hclaim | ⟨group, hgroup, rfl⟩
  · intro _
    exact (claimFrom_candidate (modulesOf blueprint) files hclaim).2.2.2
  · exact rooted_group hgroup .directory

/-- A candidate that becomes a territory with roots of its own. -/
def Placed (candidate : Candidate) : Prop :=
  candidate.roots ≠ [] ∧ candidate.source ≠ .wholeCodebase

theorem roots_ne_nil_group {part : List SurveyedFile} {root : Path} {group : FileGroup}
    (h : group ∈ groupByChildDirectory localeLe part root) : group.roots ≠ [] := by
  rcases mem_groupByChildDirectory.mp h with ⟨key, rfl, _⟩ | ⟨rfl, hne⟩
  · exact List.cons_ne_nil _ _
  · intro hnil
    exact hne (List.map_eq_nil_iff.mp hnil)

theorem placed_startingCandidate
    (h : c ∈ startingCandidates localeLe files blueprint serviceRoot) : Placed c := by
  rcases mem_startingCandidates.mp h with hclaim | ⟨group, hgroup, rfl⟩
  · rcases claimFrom_candidate (modulesOf blueprint) files hclaim with
      ⟨_, hsource, hfiles, hcovered⟩
    constructor
    · intro hnil
      rcases List.exists_mem_of_ne_nil _ hfiles with ⟨file, hfile⟩
      have h := hcovered file hfile
      rw [hnil] at h
      cases h
    · rw [hsource]
      exact TerritorySource.noConfusion
  · exact ⟨roots_ne_nil_group hgroup, TerritorySource.noConfusion⟩

theorem two_le_countP {item : Type} {p : item -> Bool} {xs : List item} {x y : item}
    (hx : x ∈ xs) (hy : y ∈ xs) (hne : y ≠ x) (hpx : p x = true) (hpy : p y = true) :
    2 ≤ xs.countP p := by
  rcases List.append_of_mem hx with ⟨before, after, rfl⟩
  rw [List.mem_append, List.mem_cons] at hy
  have hother : 0 < before.countP p ∨ 0 < after.countP p := by
    rcases hy with hy | hy | hy
    · exact Or.inl (List.countP_pos_iff.mpr ⟨y, hy, hpy⟩)
    · exact absurd hy hne
    · exact Or.inr (List.countP_pos_iff.mpr ⟨y, hy, hpy⟩)
  rw [List.countP_append, List.countP_cons, if_pos hpx]
  omega

theorem mem_firstComers_of_claim (hc : c ∈ (claimFrom serviceRoot files (modulesOf blueprint)).1) :
    (c.roots, c.files.map SurveyedFile.path) ∈
      firstComers (files.map SurveyedFile.path) (referencesOf blueprint serviceRoot) := by
  unfold referencesOf
  rw [← map_claimFrom]
  exact List.mem_map_of_mem hc

/-- Where no file is under references of two modules, a module's candidate has the
files under its references. -/
theorem exact_claim (hparted : ReferencesParted files (referencesOf blueprint serviceRoot))
    (hc : c ∈ (claimFrom serviceRoot files (modulesOf blueprint)).1) :
    Exact files c := by
  rcases claimFrom_candidate (modulesOf blueprint) files hc with
    ⟨⟨module, hmodule, hroots⟩, _, _, hcovered⟩
  intro file hfile
  constructor
  · intro hunder
    by_contra hout
    -- a module came first to the file, and that module is another
    have hnamed : file ∉ (claimFrom serviceRoot files (modulesOf blueprint)).2 := by
      rw [mem_unclaimed_iff]
      rintro ⟨_, hnone⟩
      have hfree := hnone module hmodule
      rw [← hroots, hunder] at hfree
      cases hfree
    have hlisted :=
      (perm_claimFrom serviceRoot (modulesOf blueprint) files).mem_iff.mpr hfile
    rcases List.mem_append.mp hlisted with hlisted | hlisted
    · rcases List.mem_flatMap.mp hlisted with ⟨c', hc', hin⟩
      have hcovered' :=
        (claimFrom_candidate (modulesOf blueprint) files hc').2.2.2 file hin
      have hne : c' ≠ c := by
        rintro rfl
        exact hout hin
      have hone := hparted.one file hfile
      unfold referencesOf at hone
      rw [← map_claimFrom, List.countP_map] at hone
      exact absurd (two_le_countP hc hc' hne hunder hcovered') (Nat.not_le_of_lt
        (Nat.lt_succ_of_le hone))
    · exact hnamed hlisted
  · exact hcovered file

/-- The candidate of a module has the files at the paths it claims. -/
theorem files_claim (hsep : Separate files)
    (hc : c ∈ (claimFrom serviceRoot files (modulesOf blueprint)).1) :
    files.filter (fun file => (c.files.map SurveyedFile.path).contains file.path) =
      c.files := by
  simp only [List.contains_eq_mem]
  have hsub := sublist_claimFrom (modulesOf blueprint) files hc
  have hfiltered := hsub.filter
    fun file => decide (file.path ∈ c.files.map SurveyedFile.path)
  rw [List.filter_eq_self.mpr fun g hg => decide_eq_true (List.mem_map_of_mem hg)] at hfiltered
  symm
  apply hfiltered.eq_of_length
  apply List.Perm.length_eq
  apply (List.perm_ext_iff_of_nodup (hsub.nodup hsep.nodup) (hsep.nodup.filter _)).mpr
  intro f
  rw [List.mem_filter, decide_eq_true_iff, List.mem_map]
  constructor
  · intro hf
    exact ⟨hsub.subset hf, f, hf, rfl⟩
  · rintro ⟨hf, g, hg, hpath⟩
    exact hsep.eq_of_path (hsub.subset hg) hf hpath ▸ hg

theorem held_of_exact (hexact : Exact files c)
    (honce : forall file, file ∈ c.files ->
      c.roots.countP (fun root => under '/' root file.path) ≤ 1) : Held files c := by
  intro file hfile
  split
  · rename_i hin
    rcases coveredBy_iff.mp ((hexact file hfile).mpr hin) with ⟨root, hroot, hunder⟩
    have hpos : 0 < c.roots.countP (fun root => under '/' root file.path) :=
      List.countP_pos_iff.mpr ⟨root, hroot, hunder⟩
    have hle := honce file hin
    omega
  · rename_i hout
    rw [List.countP_eq_zero]
    intro root hroot hunder
    exact hout ((hexact file hfile).mp (coveredBy_iff.mpr ⟨root, hroot, hunder⟩))

/-- A starting candidate has the files under its roots, and holds them if it is to be
split. -/
theorem settled_startingCandidate (hsep : Separate files)
    (hparted : ReferencesParted files (referencesOf blueprint serviceRoot))
    (hc : c ∈ startingCandidates localeLe files blueprint serviceRoot) :
    Exact files c ∧ (maxTerritoryTokens < tokensOf c.files -> Held files c) := by
  rcases mem_startingCandidates.mp hc with hclaim | ⟨group, hgroup, rfl⟩
  · have hexact := exact_claim hparted hclaim
    refine ⟨hexact, fun hlarge => held_of_exact hexact ?_⟩
    intro file hfile
    exact hparted.named _ (mem_firstComers_of_claim hclaim)
      ((files_claim hsep hclaim).symm ▸ hlarge) file.path (List.mem_map_of_mem hfile)
  · have hpart := fun f : SurveyedFile =>
      mem_unclaimed_iff serviceRoot f (modulesOf blueprint) files
    have hnodup : (claimFrom serviceRoot files (modulesOf blueprint)).2.Nodup :=
      (List.nodup_append.mp
        ((perm_claimFrom serviceRoot (modulesOf blueprint) files).nodup_iff.mpr hsep.nodup)).2.1
    have hheld : Held files (directoryCandidate group) := by
      refine held_group hsep (fun f hf => ((hpart f).mp hf).1) hnodup
        (fun _ _ _ _ => Or.inl rfl) ?_ hgroup .directory
      intro f g key hf hg _ hfkey hgkey
      rw [hpart f]
      constructor
      · exact hf
      · intro module hmodule
        rw [Bool.eq_false_iff]
        intro hcovered
        have hgfree := (hpart g).mp hg
        apply hparted.whole f g hf hgfree.1 _ _ key hfkey hgkey
        · exact List.any_eq_true.mpr ⟨_, List.mem_map_of_mem hmodule, hcovered⟩
        · rw [List.any_eq_false]
          intro roots hroots
          rcases List.mem_map.mp hroots with ⟨m, hm, rfl⟩
          rw [hgfree.2 m hm]
          exact Bool.false_ne_true
    exact ⟨hheld.exact, fun _ => hheld⟩

/-- What splitting makes of a starting candidate. -/
theorem pieces_startingCandidate (hsep : Separate files)
    (hparted : ReferencesParted files (referencesOf blueprint serviceRoot))
    (hc : c ∈ startingCandidates localeLe files blueprint serviceRoot) :
    (forall piece, piece ∈ splitOversized localeLe c -> Exact files piece) ∧
      ((splitOversized localeLe c).flatMap Candidate.files).Perm c.files := by
  have hstart : ((startingCandidates localeLe files blueprint serviceRoot).flatMap
      Candidate.files).Perm files := perm_startingCandidates
  rcases settled_startingCandidate hsep hparted hc with ⟨hexact, hheld⟩
  by_cases hlarge : maxTerritoryTokens < tokensOf c.files
  · have hnodup := List.nodup_flatMap.mp (hstart.nodup_iff.mpr hsep.nodup)
    have hsplit := @splitOversized_splits _ localeLe hsep c (hheld hlarge)
      (fun f hf => hstart.mem_iff.mp (List.mem_flatMap.mpr ⟨c, hc, hf⟩)) (hnodup.1 c hc)
    exact ⟨fun piece hpiece => (hsplit.1 piece hpiece).exact, hsplit.2⟩
  · rw [splitOversized_eq, if_pos (Nat.le_of_not_lt hlarge)]
    constructor
    · intro piece hpiece
      rw [List.mem_singleton.mp hpiece]
      exact hexact
    · simp

/-!
## The candidates a survey ends with
-/

def territoryCandidates (localeLe : Path -> Path -> Bool) (files : List SurveyedFile)
    (blueprint : Option BlueprintService) (serviceRoot : Path) : List Candidate :=
  packSmall ((startingCandidates localeLe files blueprint serviceRoot).flatMap
    (splitOversized localeLe))

theorem flatMap_files_territoryCandidates :
    (territoryCandidates localeLe files blueprint serviceRoot).flatMap Candidate.files =
      (startingCandidates localeLe files blueprint serviceRoot).flatMap fun c =>
        (splitOversized localeLe c).flatMap Candidate.files := by
  unfold territoryCandidates
  rw [flatMap_files_packSmall, List.flatMap_assoc]

theorem perm_territoryCandidates (hsep : Separate files)
    (hparted : ReferencesParted files (referencesOf blueprint serviceRoot)) :
    ((territoryCandidates localeLe files blueprint serviceRoot).flatMap
      Candidate.files).Perm files := by
  rw [flatMap_files_territoryCandidates]
  refine (List.Perm.flatMap_left _ fun c hc => ?_).trans perm_startingCandidates
  exact (pieces_startingCandidate hsep hparted hc).2

theorem exact_territoryCandidate (hsep : Separate files)
    (hparted : ReferencesParted files (referencesOf blueprint serviceRoot)) :
    forall c, c ∈ territoryCandidates localeLe files blueprint serviceRoot ->
      Exact files c := by
  refine packSmall_all (P := Exact files) (fun p c => Exact.pack) ?_
  intro piece hpiece
  rcases List.mem_flatMap.mp hpiece with ⟨c, hc, hmem⟩
  exact (pieces_startingCandidate hsep hparted hc).1 piece hmem

theorem placed_territoryCandidate :
    forall c, c ∈ territoryCandidates localeLe files blueprint serviceRoot -> Placed c := by
  apply packSmall_all
  · intro p c hp _
    constructor
    · intro hnil
      exact hp.1 (List.append_eq_nil_iff.mp hnil).1
    · exact hp.2
  · intro piece hpiece
    rcases List.mem_flatMap.mp hpiece with ⟨c, hc, hmem⟩
    refine splitOversized_all ?_ ?_ c (placed_startingCandidate hc) piece hmem
    · intro c root h
      exact ⟨List.cons_ne_nil _ _, h.2⟩
    · intro c root group hgroup h
      exact ⟨roots_ne_nil_group hgroup, h.2⟩

/-- Every file of the survey is listed by some candidate. -/
theorem exists_territoryCandidate {file : SurveyedFile} (hfile : file ∈ files) :
    exists c, c ∈ territoryCandidates localeLe files blueprint serviceRoot ∧
      file ∈ c.files := by
  have hstart : ((startingCandidates localeLe files blueprint serviceRoot).flatMap
      Candidate.files).Perm files := perm_startingCandidates
  have hcount := count_flatMap_le file Candidate.files
    (fun c => (splitOversized localeLe c).flatMap Candidate.files)
    (startingCandidates localeLe files blueprint serviceRoot) fun c hc =>
      count_le_splitOversized file c (rooted_startingCandidate hc)
  rw [hstart.count_eq, ← flatMap_files_territoryCandidates] at hcount
  have hpos := List.count_pos_iff.mp
    (Nat.lt_of_lt_of_le (List.count_pos_iff.mpr hfile) hcount)
  exact List.mem_flatMap.mp hpos

end Starting

/-!
## Stamping
-/

theorem territoryIdCandidate_injective (stem : String) :
    Function.Injective (territoryIdCandidate stem) := by
  have hlonger : forall n : Nat, stem ≠ stem ++ "~" ++ toString n := by
    intro n h
    have hlength := congrArg (fun s => s.toList.length) h
    simp only [String.toList_append, List.length_append] at hlength
    have htilde : "~".toList.length = 1 := rfl
    omega
  intro n m h
  unfold territoryIdCandidate at h
  split at h
  · rename_i hn
    split at h
    · rename_i hm
      rw [hn, hm]
    · exact absurd h (hlonger m)
  · split at h
    · exact absurd h.symm (hlonger n)
    · have hlist := congrArg String.toList h
      simp only [String.toList_append, List.append_assoc] at hlist
      have hrest := List.append_cancel_left (List.append_cancel_left hlist)
      exact toString_injective (String.toList_inj.mp hrest)

theorem uniqueTerritoryId_not_mem (stem : String) (used : List String) :
    uniqueTerritoryId stem used ∉ used :=
  firstFree_not_mem (territoryIdCandidate_injective stem) (Nat.le_refl _) 1

theorem territorySlug_ne_empty (idBase : String) : territorySlug idBase ≠ "" := by
  unfold territorySlug
  simp only
  split
  · decide
  · assumption

theorem uniqueTerritoryId_ne_empty {stem : String} (hstem : stem ≠ "") (used : List String) :
    uniqueTerritoryId stem used ≠ "" := by
  rcases firstFree_eq_candidate (territoryIdCandidate stem) used used.length 1 with
    ⟨n, _, hn⟩
  unfold uniqueTerritoryId
  rw [hn]
  unfold territoryIdCandidate
  split
  · exact hstem
  · intro h
    have hlength := congrArg (fun s => s.toList.length) h
    have htilde : "~".toList.length = 1 := rfl
    simp only [String.toList_append, List.length_append] at hlength
    have hempty : "".toList.length = 0 := rfl
    omega

/-- What the stamped territory of a candidate is. -/
structure Stamped (filesByTerritory : String -> Option (List SurveyedFile))
    (candidate : Candidate) (territory : BugFishingTerritory) : Prop where
  roots : territory.roots = candidate.roots
  source : territory.source = candidate.source
  count : territory.fileCount = candidate.files.length
  manifest : filesByTerritory territory.id = some candidate.files
  named : territory.id ≠ ""

theorem stampTerritories_spec (entries : List RepoContentEntry) (serviceRoot : Path)
    (candidates : List Candidate) (used : List String)
    (filesByTerritory : String -> Option (List SurveyedFile)) :
    let stamped := stampTerritories entries serviceRoot used filesByTerritory candidates
    List.Forall₂ (Stamped stamped.2) candidates stamped.1 ∧
      (stamped.1.map BugFishingTerritory.id).Nodup ∧
      (forall id, id ∈ stamped.1.map BugFishingTerritory.id -> id ∉ used) ∧
      forall id, id ∈ used -> stamped.2 id = filesByTerritory id := by
  induction candidates generalizing used filesByTerritory with
  | nil =>
      refine ⟨List.Forall₂.nil, List.nodup_nil, ?_, ?_⟩
      · intro id hid
        cases hid
      · intro id _
        rfl
  | cons candidate rest ih =>
      have hfresh := uniqueTerritoryId_not_mem (territorySlug candidate.idBase) used
      have hnamed := uniqueTerritoryId_ne_empty (territorySlug_ne_empty candidate.idBase) used
      unfold stampTerritories
      simp only
      generalize uniqueTerritoryId (territorySlug candidate.idBase) used = id at hfresh hnamed ⊢
      rcases ih (used ++ [id]) (Function.update filesByTerritory id (some candidate.files)) with
        ⟨hall, hnodup, hnew, hkept⟩
      have hmanifest := hkept id (by simp)
      rw [Function.update_self] at hmanifest
      refine ⟨List.Forall₂.cons ⟨rfl, rfl, rfl, hmanifest, hnamed⟩ hall, ?_, ?_, ?_⟩
      · rw [List.map_cons, List.nodup_cons]
        constructor
        · intro hin
          exact hnew _ hin (by simp [territoryOf])
        · exact hnodup
      · intro id' hid'
        rw [List.map_cons, List.mem_cons] at hid'
        rcases hid' with rfl | hid'
        · exact hfresh
        · intro hused
          exact hnew id' hid' (List.mem_append_left _ hused)
      · intro id' hused
        rw [hkept id' (List.mem_append_left _ hused)]
        apply Function.update_of_ne
        rintro rfl
        exact hfresh hused

end Expedition
end CatFactory
