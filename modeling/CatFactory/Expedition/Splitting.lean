import CatFactory.Expedition.Territories
import Mathlib.Data.List.Pairwise

/-!
# What splitting and packing keep

The files of a survey are held by candidates.  A candidate holds its files
exactly when each file of the survey is under as many of its roots as it is
listed times, so once or never.  Grouping, splitting and packing keep that, and
they keep the files listed.
-/

namespace CatFactory
namespace Expedition

open Foundation

variable {files : List SurveyedFile}

/-!
## Files that stand apart
-/

/-- No file stands at or below another, and no path changes when it is cleaned. -/
structure Separate (files : List SurveyedFile) : Prop where
  clean : forall file, file ∈ files ->
    file.path ≠ [] ∧ (dropDotSlash file.path).dropWhile (· = '/') = file.path
  apart : files.Pairwise fun f g =>
    under '/' f.path g.path = false ∧ under '/' g.path f.path = false

theorem Separate.eq_of_under (h : Separate files) {f g : SurveyedFile} (hf : f ∈ files)
    (hg : g ∈ files) (hunder : under '/' f.path g.path = true) : f = g := by
  by_contra hne
  have hsymm : Std.Symm fun f g : SurveyedFile =>
      under '/' f.path g.path = false ∧ under '/' g.path f.path = false :=
    ⟨fun _ _ h => ⟨h.2, h.1⟩⟩
  have hapart := h.apart.forall hf hg hne
  rw [hunder] at hapart
  cases hapart.1

theorem Separate.nodup (h : Separate files) : files.Nodup := by
  apply h.apart.imp
  rintro f g ⟨hfg, _⟩ rfl
  rw [under_refl] at hfg
  cases hfg

theorem Separate.eq_of_path (h : Separate files) {f g : SurveyedFile} (hf : f ∈ files)
    (hg : g ∈ files) (hpath : f.path = g.path) :
    f = g :=
  h.eq_of_under hf hg (hpath ▸ under_refl f.path)

def coveredBy (roots : List Path) (path : Path) : Bool :=
  roots.any fun root => under '/' root path

theorem coveredBy_iff {roots : List Path} {path : Path} :
    coveredBy roots path = true <-> exists root, root ∈ roots ∧ under '/' root path = true :=
  List.any_eq_true

/-!
## Child directories
-/

/-- The path stands below the root, or the root is the survey root. -/
def InFrame (root path : Path) : Prop :=
  root = [] ∨ exists rest, path = root ++ '/' :: rest

theorem InFrame.exists_rest {root path : Path} (h : InFrame root path) :
    exists rest, path = pathPrefix root ++ rest := by
  unfold pathPrefix
  split
  · exact ⟨path, rfl⟩
  · rename_i hne
    rcases h with hnil | ⟨rest, hrest⟩
    · exact absurd hnil hne
    · exact ⟨rest, by rw [hrest, List.append_assoc, List.singleton_append]⟩

theorem inFrame_pathPrefix_append (root rest : Path) :
    InFrame root (pathPrefix root ++ rest) := by
  unfold pathPrefix
  split
  · rename_i hnil
    exact Or.inl hnil
  · exact Or.inr ⟨rest, by rw [List.append_assoc, List.singleton_append]⟩

theorem childDirectory_eq_some_iff {root path key : Path} (h : InFrame root path) :
    childDirectory root path = some key <->
      exists child, '/' ∉ child ∧ key = pathPrefix root ++ child ∧
        exists rest, path = key ++ '/' :: rest := by
  rcases h.exists_rest with ⟨tail, rfl⟩
  unfold childDirectory
  rw [List.drop_left, Option.map_eq_some_iff]
  constructor
  · rintro ⟨child, hchild, rfl⟩
    rcases firstSegment_eq_some_iff.mp hchild with ⟨hfree, rest, rfl⟩
    exact ⟨child, hfree, rfl, rest, by rw [List.append_assoc]⟩
  · rintro ⟨child, hfree, rfl, rest, hrest⟩
    exists child
    constructor
    · rw [List.append_assoc] at hrest
      exact firstSegment_eq_some_iff.mpr ⟨hfree, rest, List.append_cancel_left hrest⟩
    · rfl

/-- A file that stands where its root does is loose. -/
theorem childDirectory_self (root : Path) (h : root ≠ []) :
    childDirectory root root = none := by
  unfold childDirectory pathPrefix
  rw [if_neg h, List.drop_eq_nil_of_le (by simp)]
  rfl

/-- A path below a root with a child directory stands below the root properly. -/
theorem inFrame_of_childDirectory {root path key : Path} (hunder : under '/' root path = true)
    (h : childDirectory root path = some key) : InFrame root path := by
  rcases under_iff.mp hunder with rfl | hrest
  · by_cases hnil : path = []
    · exact Or.inl hnil
    · rw [childDirectory_self path hnil] at h
      cases h
  · exact Or.inr hrest

/-!
## Holding files
-/

def Held (files : List SurveyedFile) (candidate : Candidate) : Prop :=
  forall file, file ∈ files ->
    candidate.roots.countP (fun root => under '/' root file.path) =
      if file ∈ candidate.files then 1 else 0

/-- The files under the candidate's roots are the candidate's files. -/
def Exact (files : List SurveyedFile) (candidate : Candidate) : Prop :=
  forall file, file ∈ files ->
    (coveredBy candidate.roots file.path = true <-> file ∈ candidate.files)

theorem Held.exact {candidate : Candidate} (h : Held files candidate) : Exact files candidate := by
  intro file hfile
  have hcount := h file hfile
  rw [coveredBy_iff]
  constructor
  · rintro ⟨root, hroot, hunder⟩
    by_contra hout
    rw [if_neg hout, List.countP_eq_zero] at hcount
    exact hcount root hroot hunder
  · intro hin
    rw [if_pos hin] at hcount
    have hpos : 0 < candidate.roots.countP (fun root => under '/' root file.path) := by
      rw [hcount]
      exact Nat.one_pos
    exact List.countP_pos_iff.mp hpos

/-- A single root that stands over the candidate's files alone holds them. -/
theorem held_of_root {candidate : Candidate} (root : Path) (hroots : candidate.roots = [root])
    (h : forall file, file ∈ files ->
      (under '/' root file.path = true <-> file ∈ candidate.files)) :
    Held files candidate := by
  intro file hfile
  rw [hroots]
  by_cases hunder : under '/' root file.path = true
  · rw [if_pos ((h file hfile).mp hunder)]
    simp [hunder]
  · rw [if_neg fun hin => hunder ((h file hfile).mpr hin)]
    simp [hunder]

section Groups

variable {files part : List SurveyedFile} {root : Path} {localeLe : Path -> Path -> Bool}

/-- The groups of files that share no child directory with the others hold them. -/
theorem held_group (hsep : Separate files) (hpart : forall f, f ∈ part -> f ∈ files)
    (hnodup : part.Nodup)
    (hframe : forall f key, f ∈ part -> childDirectory root f.path = some key ->
      InFrame root f.path)
    (hclosed : forall f g key, f ∈ files -> g ∈ part -> InFrame root f.path ->
      childDirectory root f.path = some key -> childDirectory root g.path = some key ->
      f ∈ part)
    {group : FileGroup} (hgroup : group ∈ groupByChildDirectory localeLe part root)
    (source : TerritorySource) :
    Held files { directoryCandidate group with source := source } := by
  rcases mem_groupByChildDirectory.mp hgroup with ⟨key, rfl, hne⟩ | ⟨rfl, hne⟩
  · -- a directory: what is under it has it for its child directory
    rcases List.exists_mem_of_ne_nil _ hne with ⟨g, hg⟩
    simp only [directoryGroup, List.mem_filter, decide_eq_true_eq] at hg
    rcases (childDirectory_eq_some_iff (hframe g key hg.1 hg.2)).mp hg.2 with
      ⟨child, hfree, hkey, rest, hrest⟩
    apply held_of_root key rfl
    intro f hf
    simp only [directoryCandidate, directoryGroup, List.mem_filter, decide_eq_true_eq]
    constructor
    · intro hunder
      rcases under_iff.mp hunder with hself | ⟨rest', hrest'⟩
      · have hfg : f = g := by
          apply hsep.eq_of_under hf (hpart g hg.1)
          rw [hself]
          exact under_iff.mpr (Or.inr ⟨rest, hrest⟩)
        rw [← hfg, hself] at hrest
        have hlength := congrArg List.length hrest
        simp at hlength
      · have hin : InFrame root f.path := by
          rw [hrest', hkey, List.append_assoc]
          exact inFrame_pathPrefix_append root _
        have hchild := (childDirectory_eq_some_iff hin).mpr
          ⟨child, hfree, hkey, rest', hrest'⟩
        exact ⟨hclosed f g key hf hg.1 hin hchild hg.2, hchild⟩
    · rintro ⟨hfpart, hchild⟩
      rcases (childDirectory_eq_some_iff (hframe f key hfpart hchild)).mp hchild with
        ⟨_, _, _, rest', hrest'⟩
      exact under_iff.mpr (Or.inr ⟨rest', hrest'⟩)
  · -- loose files: each is a root of its own
    intro f hf
    simp only [directoryCandidate, looseGroup, List.countP_map]
    have hloose : forall l, l ∈ part.filter (fun file =>
        decide (childDirectory root file.path = none)) -> l ∈ files :=
      fun l hl => hpart l (List.mem_filter.mp hl).1
    have hcount : (part.filter fun file =>
          decide (childDirectory root file.path = none)).countP
        ((fun root => under '/' root f.path) ∘ SurveyedFile.path) =
        (part.filter fun file =>
          decide (childDirectory root file.path = none)).count f := by
      apply List.countP_congr
      intro l hl
      rw [beq_iff_eq]
      constructor
      · intro hunder
        exact hsep.eq_of_under (hloose l hl) hf hunder
      · rintro rfl
        exact under_refl l.path
    rw [hcount]
    exact (hnodup.filter _).count

end Groups

/-!
## Splitting
-/

section Splitting

variable {localeLe : Path -> Path -> Bool}

theorem splitOversized_eq (candidate : Candidate) :
    splitOversized localeLe candidate =
      if tokensOf candidate.files ≤ maxTerritoryTokens then [candidate]
      else if candidate.roots.length ≠ 1 then
        (referenceCandidates candidate).flatMap (splitOversized localeLe)
      else if (childCandidates localeLe candidate).length ≤ 1 then [candidate]
      else (childCandidates localeLe candidate).flatMap (splitOversized localeLe) := by
  rw [splitOversized]
  simp only [dite_eq_ite, List.flatMap_subtype, List.unattach_attach]

/-- A fact of every split follows from the candidates that are kept, those cut
along their references, and those cut along their directories. -/
theorem splitOversized_induction {P : Candidate -> List Candidate -> Prop}
    (keep : forall c, P c [c])
    (references : forall c, c.roots.length ≠ 1 ->
      (forall c', c' ∈ referenceCandidates c -> P c' (splitOversized localeLe c')) ->
      P c ((referenceCandidates c).flatMap (splitOversized localeLe)))
    (children : forall c root, c.roots = [root] ->
      (forall c', c' ∈ childCandidates localeLe c -> P c' (splitOversized localeLe c')) ->
      P c ((childCandidates localeLe c).flatMap (splitOversized localeLe)))
    (candidate : Candidate) : P candidate (splitOversized localeLe candidate) := by
  induction hrank : splitRank candidate using Nat.strongRecOn generalizing candidate with
  | ind rank ih =>
      subst hrank
      rw [splitOversized_eq]
      split
      · exact keep candidate
      · split
        · rename_i hroots
          apply references candidate hroots
          intro c hc
          exact ih _ (splitRank_of_mem_references hroots hc) c rfl
        · rename_i hroots
          split
          · exact keep candidate
          · rename_i hseveral
            rcases List.length_eq_one_iff.mp (Decidable.not_not.mp hroots) with ⟨root, hroot⟩
            apply children candidate root hroot
            intro c hc
            exact ih _ (splitRank_of_mem_children hseveral hc) c rfl

theorem flatMap_files_referenceCandidates (candidate : Candidate) :
    (referenceCandidates candidate).flatMap Candidate.files =
      candidate.roots.flatMap fun root =>
        candidate.files.filter fun file => under '/' root file.path := by
  unfold referenceCandidates
  induction candidate.roots with
  | nil => rfl
  | cons root rest ih =>
      rw [List.map_cons, List.flatMap_cons, ← ih, List.filter_cons]
      split
      · rfl
      · rename_i hnil
        have hfiles : candidate.files.filter (fun file => under '/' root file.path) = [] := by
          simpa [unpacked] using hnil
        rw [hfiles, List.nil_append]

theorem perm_files_childCandidates (localeLe : Path -> Path -> Bool)
    (candidate : Candidate) :
    ((childCandidates localeLe candidate).flatMap Candidate.files).Perm candidate.files := by
  unfold childCandidates
  rw [List.flatMap_map]
  exact perm_groupByChildDirectory localeLe candidate.files _

/-- The pieces of a candidate that holds its files hold theirs, and list the same. -/
def Splits (files : List SurveyedFile) (candidate : Candidate) (pieces : List Candidate) :
    Prop :=
  Held files candidate -> (forall f, f ∈ candidate.files -> f ∈ files) ->
    candidate.files.Nodup ->
    (forall c, c ∈ pieces -> Held files c) ∧
      (pieces.flatMap Candidate.files).Perm candidate.files

/-- Pieces that are split further make up what they were pieces of. -/
theorem Splits.flatMap {candidate : Candidate} {pieces : List Candidate}
    (hfirst : Splits files candidate pieces)
    (h : forall c, c ∈ pieces -> Splits files c (splitOversized localeLe c)) :
    Splits files candidate (pieces.flatMap (splitOversized localeLe)) := by
  intro hheld hin hnodup
  rcases hfirst hheld hin hnodup with ⟨hpieces, hperm⟩
  have hsplit : forall c, c ∈ pieces ->
      (forall c', c' ∈ splitOversized localeLe c -> Held files c') ∧
        ((splitOversized localeLe c).flatMap Candidate.files).Perm c.files := by
    intro c hc
    apply h c hc (hpieces c hc)
    · intro f hf
      exact hin f (hperm.mem_iff.mp (List.mem_flatMap.mpr ⟨c, hc, hf⟩))
    · exact (List.nodup_flatMap.mp (hperm.nodup_iff.mpr hnodup)).1 c hc
  constructor
  · intro c' hc'
    rcases List.mem_flatMap.mp hc' with ⟨c, hc, hmem⟩
    exact (hsplit c hc).1 c' hmem
  · rw [List.flatMap_assoc]
    exact (List.Perm.flatMap_left pieces fun c hc => (hsplit c hc).2).trans hperm

theorem splits_references (files : List SurveyedFile) (candidate : Candidate) :
    Splits files candidate (referenceCandidates candidate) := by
  intro hheld hin _
  constructor
  · intro c hc
    unfold referenceCandidates at hc
    rw [List.mem_filter, List.mem_map] at hc
    rcases hc with ⟨⟨root, hroot, rfl⟩, _⟩
    apply held_of_root root rfl
    intro f hf
    simp only [unpacked, List.mem_filter]
    constructor
    · intro hunder
      exact ⟨(hheld.exact f hf).mp (coveredBy_iff.mpr ⟨root, hroot, hunder⟩), hunder⟩
    · exact And.right
  · rw [flatMap_files_referenceCandidates]
    apply perm_flatMap_filter
    intro f hf
    rw [hheld f (hin f hf), if_pos hf]

/-- No path of the survey stands under the empty root. -/
theorem Separate.under_nil (hsep : Separate files) {f : SurveyedFile}
    (hf : f ∈ files) : under '/' [] f.path = false := by
  rw [Bool.eq_false_iff]
  intro hunder
  have hclean := hsep.clean f hf
  rcases under_iff.mp hunder with hself | ⟨rest, hrest⟩
  · exact hclean.1 hself
  · have hcut := hclean.2
    rw [hrest] at hcut
    have hlength := congrArg List.length hcut
    have hle := List.length_dropWhile_le (fun c => decide (c = '/')) rest
    simp [dropDotSlash] at hlength
    omega

theorem splits_children (hsep : Separate files) {candidate : Candidate} {root : Path}
    (hroots : candidate.roots = [root]) :
    Splits files candidate (childCandidates localeLe candidate) := by
  intro hheld hin hnodup
  constructor
  · intro c hc
    unfold childCandidates at hc
    rcases List.mem_map.mp hc with ⟨group, hgroup, rfl⟩
    rw [hroots, List.headD_cons] at hgroup
    have hunder : forall f, f ∈ files ->
        (under '/' root f.path = true <-> f ∈ candidate.files) := by
      intro f hf
      have hexact := hheld.exact f hf
      rw [hroots] at hexact
      simpa [coveredBy] using hexact
    apply held_group hsep hin hnodup _ _ hgroup
    · intro f key hf hchild
      exact inFrame_of_childDirectory ((hunder f (hin f hf)).mpr hf) hchild
    · intro f g key hf hg hframe _ _
      rcases hframe with hnil | hbelow
      · have hgunder := (hunder g (hin g hg)).mpr hg
        rw [hnil, hsep.under_nil (hin g hg)] at hgunder
        cases hgunder
      · exact (hunder f hf).mp (under_iff.mpr (Or.inr hbelow))
  · exact perm_files_childCandidates localeLe candidate

/-- Splitting keeps what holds its files holding them, and every file listed once. -/
theorem splitOversized_splits (hsep : Separate files)
    (candidate : Candidate) : Splits files candidate (splitOversized localeLe candidate) := by
  apply splitOversized_induction
  · intro c hheld _ _
    constructor
    · intro c' hc'
      rw [List.mem_singleton.mp hc']
      exact hheld
    · simp
  · intro c _ ih
    exact (splits_references files c).flatMap ih
  · intro c root hroots ih
    exact (splits_children hsep hroots).flatMap ih

/-!
## Splitting loses nothing
-/

/-- A candidate with several roots has each of its files under one of them. -/
def Rooted (candidate : Candidate) : Prop :=
  candidate.roots.length ≠ 1 ->
    forall file, file ∈ candidate.files -> coveredBy candidate.roots file.path = true

theorem count_flatMap_le {item piece : Type} [DecidableEq item] (x : item)
    (f g : piece -> List item) (ps : List piece)
    (h : forall p, p ∈ ps -> (f p).count x ≤ (g p).count x) :
    (ps.flatMap f).count x ≤ (ps.flatMap g).count x := by
  induction ps with
  | nil => exact Nat.le_refl _
  | cons p rest ih =>
      rw [List.flatMap_cons, List.flatMap_cons, List.count_append, List.count_append]
      apply Nat.add_le_add
      · exact h p (List.mem_cons_self ..)
      · apply ih
        intro q hq
        exact h q (List.mem_cons_of_mem _ hq)

theorem rooted_of_mem_references {candidate c : Candidate}
    (h : c ∈ referenceCandidates candidate) : Rooted c := by
  unfold referenceCandidates at h
  rw [List.mem_filter, List.mem_map] at h
  rcases h with ⟨⟨root, _, rfl⟩, _⟩
  intro hroots
  exact absurd rfl hroots

theorem rooted_group {root : Path} {group : FileGroup}
    (h : group ∈ groupByChildDirectory localeLe files root) (source : TerritorySource) :
    Rooted { directoryCandidate group with source := source } := by
  rcases mem_groupByChildDirectory.mp h with ⟨key, rfl, _⟩ | ⟨rfl, _⟩
  · intro hroots
    exact absurd rfl hroots
  · intro _ file hfile
    apply coveredBy_iff.mpr
    exact ⟨file.path, List.mem_map_of_mem hfile, under_refl file.path⟩

theorem rooted_of_mem_children {candidate c : Candidate}
    (h : c ∈ childCandidates localeLe candidate) : Rooted c := by
  unfold childCandidates at h
  rcases List.mem_map.mp h with ⟨group, hgroup, rfl⟩
  exact rooted_group hgroup candidate.source

/-- A file is listed by the pieces of a candidate at least as often as by the candidate. -/
theorem count_le_splitOversized (file : SurveyedFile) (candidate : Candidate)
    (h : Rooted candidate) :
    candidate.files.count file ≤
      ((splitOversized localeLe candidate).flatMap Candidate.files).count file := by
  revert h
  apply splitOversized_induction (P := fun c cs => Rooted c ->
    c.files.count file ≤ (cs.flatMap Candidate.files).count file)
  · intro c _
    simp
  · intro c hroots ih hrooted
    rw [List.flatMap_assoc]
    apply Nat.le_trans _ (count_flatMap_le file Candidate.files _ _ fun c' hc' =>
      ih c' hc' (rooted_of_mem_references hc'))
    rw [flatMap_files_referenceCandidates, count_flatMap_filter]
    by_cases hfile : file ∈ c.files
    · rcases coveredBy_iff.mp (hrooted hroots file hfile) with ⟨root, hroot, hunder⟩
      exact Nat.le_mul_of_pos_left _ (List.countP_pos_iff.mpr ⟨root, hroot, hunder⟩)
    · rw [List.count_eq_zero.mpr hfile]
      exact Nat.zero_le _
  · intro c root _ ih _
    rw [List.flatMap_assoc]
    apply Nat.le_trans _ (count_flatMap_le file Candidate.files _ _ fun c' hc' =>
      ih c' hc' (rooted_of_mem_children hc'))
    rw [(perm_files_childCandidates localeLe c).count_eq]

/-- A file under two references of a candidate over the ceiling is listed twice. -/
theorem two_le_count_splitOversized {file : SurveyedFile} {candidate : Candidate}
    (hover : maxTerritoryTokens < tokensOf candidate.files) (hfile : file ∈ candidate.files)
    (htwo : 2 ≤ candidate.roots.countP fun root => under '/' root file.path) :
    2 ≤ ((splitOversized localeLe candidate).flatMap Candidate.files).count file := by
  have hroots : candidate.roots.length ≠ 1 := by
    have hle := @List.countP_le_length _ (fun root => under '/' root file.path) candidate.roots
    omega
  rw [splitOversized_eq, if_neg (Nat.not_le_of_lt hover), if_pos hroots, List.flatMap_assoc]
  apply Nat.le_trans _ (count_flatMap_le file Candidate.files _ _ fun c hc =>
    count_le_splitOversized file c (rooted_of_mem_references hc))
  rw [flatMap_files_referenceCandidates, count_flatMap_filter]
  calc
    2 ≤ candidate.roots.countP fun root => under '/' root file.path := htwo
    _ ≤ _ := Nat.le_mul_of_pos_right _ (List.count_pos_iff.mpr hfile)

/-- What the pieces of a candidate have because it has it, all that come of it have. -/
theorem splitOversized_all {P : Candidate -> Prop}
    (hreference : forall c root, P c -> P (unpacked c root))
    (hchild : forall c root group, group ∈ groupByChildDirectory localeLe c.files root ->
      P c -> P { directoryCandidate group with source := c.source })
    (candidate : Candidate) (h : P candidate) :
    forall c, c ∈ splitOversized localeLe candidate -> P c := by
  revert h
  apply splitOversized_induction (P := fun c cs => P c -> forall c', c' ∈ cs -> P c')
  · intro c h c' hc'
    exact List.mem_singleton.mp hc' ▸ h
  · intro c _ ih h c'' hc''
    rcases List.mem_flatMap.mp hc'' with ⟨c', hc', hmem⟩
    apply ih c' hc' _ c'' hmem
    unfold referenceCandidates at hc'
    rw [List.mem_filter, List.mem_map] at hc'
    rcases hc' with ⟨⟨root, _, rfl⟩, _⟩
    exact hreference c root h
  · intro c _ _ ih h c'' hc''
    rcases List.mem_flatMap.mp hc'' with ⟨c', hc', hmem⟩
    apply ih c' hc' _ c'' hmem
    unfold childCandidates at hc'
    rcases List.mem_map.mp hc' with ⟨group, hgroup, rfl⟩
    exact hchild c _ group hgroup h

end Splitting

/-!
## Packing
-/

/-- What packing keeps of one candidate and of two put together it keeps of all. -/
theorem packFrom_all {P : Candidate -> Prop}
    (hpack : forall p c, P p -> P c -> P (pack p c)) (candidates : List Candidate)
    (previous : Candidate) (hprevious : P previous)
    (h : forall c, c ∈ candidates -> P c) : forall c, c ∈ packFrom previous candidates -> P c := by
  induction candidates generalizing previous with
  | nil =>
      intro c hc
      rw [packFrom, List.mem_singleton] at hc
      exact hc ▸ hprevious
  | cons candidate rest ih =>
      have hcandidate := h candidate (List.mem_cons_self ..)
      have hrest := fun c hc => h c (List.mem_cons_of_mem _ hc)
      intro c hc
      unfold packFrom at hc
      split at hc
      · exact ih (pack previous candidate) (hpack _ _ hprevious hcandidate) hrest c hc
      · cases hc with
        | head => exact hprevious
        | tail _ hc => exact ih candidate hcandidate hrest c hc

theorem packSmall_all {P : Candidate -> Prop}
    (hpack : forall p c, P p -> P c -> P (pack p c)) {candidates : List Candidate}
    (h : forall c, c ∈ candidates -> P c) : forall c, c ∈ packSmall candidates -> P c := by
  cases candidates with
  | nil =>
      intro c hc
      cases hc
  | cons candidate rest =>
      exact packFrom_all hpack rest candidate (h candidate (List.mem_cons_self ..))
        fun c hc => h c (List.mem_cons_of_mem _ hc)

theorem flatMap_files_packFrom (previous : Candidate) (candidates : List Candidate) :
    (packFrom previous candidates).flatMap Candidate.files =
      previous.files ++ candidates.flatMap Candidate.files := by
  induction candidates generalizing previous with
  | nil => simp [packFrom]
  | cons candidate rest ih =>
      unfold packFrom
      split
      · rw [ih]
        simp [pack]
      · rw [List.flatMap_cons, ih, List.flatMap_cons]

theorem flatMap_files_packSmall (candidates : List Candidate) :
    (packSmall candidates).flatMap Candidate.files = candidates.flatMap Candidate.files := by
  cases candidates with
  | nil => rfl
  | cons candidate rest => exact flatMap_files_packFrom candidate rest

/-- A candidate over the target is packed with no other. -/
theorem mem_packFrom_of_large {c : Candidate} (hlarge : targetTerritoryTokens < tokensOf c.files)
    (candidates : List Candidate) (previous : Candidate)
    (h : c = previous ∨ c ∈ candidates) : c ∈ packFrom previous candidates := by
  induction candidates generalizing previous with
  | nil =>
      rcases h with rfl | h
      · exact List.mem_singleton.mpr rfl
      · cases h
  | cons candidate rest ih =>
      unfold packFrom
      split
      · rename_i hcan
        simp only [canPack, Bool.and_eq_true, decide_eq_true_eq] at hcan
        apply ih
        rcases h with rfl | h
        · omega
        · cases h with
          | head => omega
          | tail _ h => exact Or.inr h
      · rcases h with rfl | h
        · exact List.mem_cons_self ..
        · apply List.mem_cons_of_mem
          apply ih
          cases h with
          | head => exact Or.inl rfl
          | tail _ h => exact Or.inr h

theorem mem_packSmall_of_large {c : Candidate} {candidates : List Candidate}
    (hlarge : targetTerritoryTokens < tokensOf c.files) (h : c ∈ candidates) :
    c ∈ packSmall candidates := by
  cases candidates with
  | nil => cases h
  | cons candidate rest =>
      apply mem_packFrom_of_large hlarge
      cases h with
      | head => exact Or.inl rfl
      | tail _ h => exact Or.inr h

theorem Exact.pack {p c : Candidate} (hp : Exact files p)
    (hc : Exact files c) : Exact files (pack p c) := by
  intro file hfile
  have hleft := hp file hfile
  have hright := hc file hfile
  unfold coveredBy at hleft hright ⊢
  simp only [Expedition.pack, List.any_append, Bool.or_eq_true, List.mem_append, hleft, hright]

end Expedition
end CatFactory
