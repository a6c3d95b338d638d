import CatFactory.Expedition.Claiming

/-!
# Surveys

The entries of a repository are a file tree when no path has an empty segment
or a directory named by one dot, and no file stands at or below another.  The
files that a survey of such a tree fishes stand apart, and their paths are
those of the entries whatever the files weigh.
-/

namespace CatFactory
namespace Expedition

open Foundation

/-!
## File trees
-/

/-- No segment is empty, and none before a slash is a dot. -/
def cleanFrom (atStart : Bool) : Path -> Bool
  | [] => !atStart
  | c :: rest =>
      if c = '/' then !atStart && cleanFrom true rest
      else !(atStart && c = '.' && rest.head? = some '/') && cleanFrom false rest

structure FileTree (entries : List RepoContentEntry) : Prop where
  clean : forall entry, entry ∈ entries -> entry.type = .file ->
    cleanFrom true entry.path = true
  apart : entries.Pairwise fun e e' => e.type = .file -> e'.type = .file ->
    under '/' e.path e'.path = false ∧ under '/' e'.path e.path = false

instance (entries : List RepoContentEntry) : Decidable (FileTree entries) :=
  decidable_of_iff
    ((forall entry, entry ∈ entries -> entry.type = .file ->
        cleanFrom true entry.path = true) ∧
      entries.Pairwise fun e e' => e.type = .file -> e'.type = .file ->
        under '/' e.path e'.path = false ∧ under '/' e'.path e.path = false)
    ⟨fun h => ⟨h.1, h.2⟩, fun h => ⟨h.clean, h.apart⟩⟩

/-- The tree with its files weighing what `size` says. -/
def resize (size : Path -> Option Nat) (tree : RepoTreeListing) : RepoTreeListing :=
  { tree with entries := tree.entries.map fun entry => { entry with size := size entry.path } }

theorem cleanFrom_after_slash {atStart : Bool} (front rest : Path)
    (h : cleanFrom atStart (front ++ '/' :: rest) = true) : cleanFrom true rest = true := by
  induction front generalizing atStart with
  | nil =>
      rw [List.nil_append, cleanFrom, if_pos rfl, Bool.and_eq_true] at h
      exact h.2
  | cons c front ih =>
      rw [List.cons_append, cleanFrom] at h
      split at h
      · rw [Bool.and_eq_true] at h
        exact ih h.2
      · rw [Bool.and_eq_true] at h
        exact ih h.2

theorem clean_start {path : Path} (h : cleanFrom true path = true) :
    path ≠ [] ∧ (dropDotSlash path).dropWhile (· = '/') = path := by
  cases path with
  | nil => cases h
  | cons c rest =>
      constructor
      · exact List.cons_ne_nil _ _
      · rw [cleanFrom] at h
        split at h
        · cases h
        · rename_i hslash
          have hkept : dropDotSlash (c :: rest) = c :: rest := by
            unfold dropDotSlash
            split
            · rename_i tail heq
              cases heq
              simp at h
            · rfl
          rw [hkept, List.dropWhile_cons]
          simp [hslash]

theorem clean_last {atStart : Bool} {path : Path} (h : cleanFrom atStart path = true) :
    path.getLast? ≠ some '/' := by
  induction path generalizing atStart with
  | nil => simp
  | cons c rest ih =>
      rw [cleanFrom] at h
      cases rest with
      | nil =>
          split at h
          · simp [cleanFrom] at h
          · rename_i hslash
            simpa using hslash
      | cons d tail =>
          rw [List.getLast?_cons_cons]
          split at h
          · rw [Bool.and_eq_true] at h
            exact ih h.2
          · rw [Bool.and_eq_true] at h
            exact ih h.2

theorem normalizePath_of_clean {path : Path} (h : cleanFrom true path = true) :
    normalizePath path = path := by
  unfold normalizePath
  rw [(clean_start h).2]
  have hlast := clean_last h
  rw [← List.head?_reverse] at hlast
  cases hrev : path.reverse with
  | nil => exact (List.reverse_eq_nil_iff.mp hrev).symm
  | cons c rest =>
      rw [hrev, List.head?_cons] at hlast
      have hc : c ≠ '/' := fun h => hlast (by rw [h])
      rw [List.dropWhile_cons]
      simp only [hc, decide_false, Bool.false_eq_true, if_false]
      rw [← hrev, List.reverse_reverse]

theorem under_append_left (front root path : Path) :
    under '/' (front ++ root) (front ++ path) = under '/' root path := by
  rw [Bool.eq_iff_iff, under_iff, under_iff]
  simp [List.append_assoc]

/-!
## What a survey fishes
-/

theorem surveyedPath_eq_some {root path : Path} {entry : RepoContentEntry}
    (hclean : entry.type = .file -> cleanFrom true entry.path = true)
    (h : surveyedPath root entry = some path) :
    entry.type = .file ∧ entry.path = pathPrefix root ++ path := by
  unfold surveyedPath at h
  split at h
  · cases h
  · rename_i htype
    have hfile : entry.type = .file := Decidable.not_not.mp htype
    simp only [normalizePath_of_clean (hclean hfile)] at h
    split at h
    · cases h
    · rename_i hstarts
      split at h
      · cases h
      · simp only [Bool.not_eq_true, Bool.not_eq_false'] at hstarts
        rcases List.isPrefixOf_iff_prefix.mp hstarts with ⟨tail, htail⟩
        rw [← htail, List.drop_left] at h
        cases h
        exact ⟨hfile, htail.symm⟩

variable {localeLe : Path -> Path -> Bool} {entries : List RepoContentEntry} {root : Path}

theorem mem_fishableFiles {file : SurveyedFile} :
    file ∈ fishableFiles localeLe entries root <->
      exists entry, entry ∈ entries ∧ surveyedFile root entry = some file := by
  unfold fishableFiles
  rw [List.mem_insertionSort, List.mem_filterMap]

theorem surveyedFile_eq_some {entry : RepoContentEntry} {file : SurveyedFile}
    (h : surveyedFile root entry = some file) :
    surveyedPath root entry = some file.path ∧
      file.bytes = entry.size.getD assumedFileBytes := by
  unfold surveyedFile at h
  rcases Option.map_eq_some_iff.mp h with ⟨path, hpath, rfl⟩
  exact ⟨hpath, rfl⟩

theorem separate_fishableFiles (htree : FileTree entries) :
    Separate (fishableFiles localeLe entries root) := by
  have hpath : forall entry file, entry ∈ entries -> surveyedFile root entry = some file ->
      entry.type = .file ∧ entry.path = pathPrefix root ++ file.path := by
    intro entry file hentry hfile
    exact surveyedPath_eq_some (htree.clean entry hentry) (surveyedFile_eq_some hfile).1
  constructor
  · intro file hfile
    rcases mem_fishableFiles.mp hfile with ⟨entry, hentry, hsurveyed⟩
    rcases hpath entry file hentry hsurveyed with ⟨htype, heq⟩
    have hclean := htree.clean entry hentry htype
    apply clean_start
    rw [heq] at hclean
    unfold pathPrefix at hclean
    split at hclean
    · exact hclean
    · rw [List.append_assoc, List.singleton_append] at hclean
      exact cleanFrom_after_slash _ _ hclean
  · have hsymm : Std.Symm fun f g : SurveyedFile =>
        under '/' f.path g.path = false ∧ under '/' g.path f.path = false :=
      ⟨fun _ _ h => ⟨h.2, h.1⟩⟩
    unfold fishableFiles
    rw [(List.perm_insertionSort _ _).pairwise_iff fun h => ⟨h.2, h.1⟩, List.pairwise_filterMap]
    apply htree.apart.imp_of_mem
    intro e e' he he' h f hf g hg
    rcases hpath e f he hf with ⟨htype, heq⟩
    rcases hpath e' g he' hg with ⟨htype', heq'⟩
    have hboth := h htype htype'
    rw [heq, heq', under_append_left, under_append_left] at hboth
    exact hboth

/-- The paths a survey fishes, as the entries list them. -/
def surveyedPaths (entries : List RepoContentEntry) (root : Path) : List Path :=
  entries.filterMap (surveyedPath root)

theorem map_path_fishableFiles :
    (fishableFiles localeLe entries root).map SurveyedFile.path =
      (surveyedPaths entries root).insertionSort fun a b => localeLe a b := by
  unfold fishableFiles surveyedPaths
  rw [List.map_insertionSort (fun a b : SurveyedFile => localeLe a.path b.path = true)
    (fun a b : Path => localeLe a b = true) SurveyedFile.path _ fun _ _ _ _ => Iff.rfl]
  congr 1
  rw [List.map_filterMap]
  apply List.filterMap_congr
  intro entry _
  unfold surveyedFile
  rw [Option.map_map]
  exact Option.map_id' ..

theorem mem_map_path_iff {path : Path} :
    path ∈ (fishableFiles localeLe entries root).map SurveyedFile.path <->
      path ∈ surveyedPaths entries root := by
  rw [map_path_fishableFiles, List.mem_insertionSort]

section Resize

variable (size : Path -> Option Nat) (tree : RepoTreeListing)

theorem surveyedPaths_resize :
    surveyedPaths (resize size tree).entries root = surveyedPaths tree.entries root := by
  unfold surveyedPaths resize
  rw [List.filterMap_map]
  rfl

theorem fileTree_resize (h : FileTree tree.entries) : FileTree (resize size tree).entries := by
  constructor
  · intro entry hentry
    rcases List.mem_map.mp hentry with ⟨e, he, rfl⟩
    exact h.clean e he
  · unfold resize
    rw [List.pairwise_map]
    exact h.apart

/-- On a resized tree a file weighs what is said of its full path. -/
theorem bytes_resize (h : FileTree tree.entries) {file : SurveyedFile}
    (hfile : file ∈ fishableFiles localeLe (resize size tree).entries root) :
    file.bytes = (size (pathPrefix root ++ file.path)).getD assumedFileBytes := by
  rcases mem_fishableFiles.mp hfile with ⟨entry, hentry, hsurveyed⟩
  rcases surveyedFile_eq_some hsurveyed with ⟨hpath, hbytes⟩
  have heq := (surveyedPath_eq_some ((fileTree_resize size tree h).clean entry hentry) hpath).2
  rcases List.mem_map.mp hentry with ⟨e, _, rfl⟩
  rw [hbytes, ← heq]

end Resize

end Expedition
end CatFactory
