import CatFactory.Expedition.Splitting

/-!
# What the blueprint's modules claim

Each module in turn claims the files under its references that no earlier
module claimed, and the directories take what is left.  The references of a
module that claims nothing are dropped.  The candidates a survey starts from
hold their files when no file is under two of the other references, and no
directory of the survey root has files of both kinds.
-/

namespace CatFactory
namespace Expedition

open Foundation

/-!
## Claims on what is left
-/

def modulesOf (blueprint : Option BlueprintService) : List BlueprintModule :=
  (blueprint.map BlueprintService.modules).getD []

/-- The candidates of the modules, and the files left, by what remains at each turn. -/
def claimFrom (serviceRoot : Path) :
    List SurveyedFile -> List BlueprintModule -> List Candidate × List SurveyedFile
  | remaining, [] => ([], remaining)
  | remaining, module :: rest =>
      let roots := blueprintReferenceRoots module serviceRoot
      let mine := remaining.filter fun file => coveredBy roots file.path
      let later := claimFrom serviceRoot
        (remaining.filter fun file => !coveredBy roots file.path) rest
      (if mine = [] then later.1 else blueprintCandidate module roots mine :: later.1, later.2)

theorem claimModules_eq (files : List SurveyedFile) (serviceRoot : Path)
    (modules : List BlueprintModule) (claimed : List Path) :
    (claimModules files serviceRoot claimed modules).1 =
        (claimFrom serviceRoot (files.filter fun f => f.path ∉ claimed) modules).1 ∧
      files.filter (fun f => f.path ∉ (claimModules files serviceRoot claimed modules).2) =
        (claimFrom serviceRoot (files.filter fun f => f.path ∉ claimed) modules).2 := by
  induction modules generalizing claimed with
  | nil => exact ⟨rfl, rfl⟩
  | cons module rest ih =>
      have hmine : (files.filter fun f => f.path ∉ claimed).filter
          (fun f => coveredBy (blueprintReferenceRoots module serviceRoot) f.path) =
          files.filter fun f => f.path ∉ claimed &&
            (blueprintReferenceRoots module serviceRoot).any
              fun root => under '/' root f.path := by
        rw [List.filter_filter]
        apply List.filter_congr
        intro f _
        exact Bool.and_comm _ _
      unfold claimModules claimFrom
      simp only [hmine]
      split
      · rename_i hnone
        have hrest : (files.filter fun f => f.path ∉ claimed).filter
            (fun f => !coveredBy (blueprintReferenceRoots module serviceRoot) f.path) =
            files.filter fun f => f.path ∉ claimed := by
          apply List.filter_eq_self.mpr
          intro f hf
          rw [Bool.not_eq_true', Bool.eq_false_iff]
          intro hcovered
          rw [← hmine] at hnone
          exact List.ne_nil_of_mem (List.mem_filter.mpr ⟨hf, hcovered⟩) hnone
        rw [hrest]
        exact ih claimed
      · have hrest : (files.filter fun f => f.path ∉ claimed).filter
            (fun f => !coveredBy (blueprintReferenceRoots module serviceRoot) f.path) =
            files.filter fun f => f.path ∉ claimed ++
              (files.filter fun f => f.path ∉ claimed &&
                (blueprintReferenceRoots module serviceRoot).any
                  fun root => under '/' root f.path).map SurveyedFile.path := by
          rw [List.filter_filter]
          apply List.filter_congr
          intro f hf
          rw [Bool.eq_iff_iff]
          simp only [coveredBy, Bool.and_eq_true, Bool.not_eq_true', decide_eq_true_eq,
            List.mem_append, List.mem_map, List.mem_filter, not_or, not_exists, not_and]
          constructor
          · rintro ⟨hcovered, hfree⟩
            refine ⟨hfree, ?_⟩
            rintro g ⟨_, _, hg⟩ hpath
            rw [hpath, hcovered] at hg
            cases hg
          · rintro ⟨hfree, hnone⟩
            refine ⟨?_, hfree⟩
            rw [Bool.eq_false_iff]
            intro hcovered
            exact hnone f ⟨hf, hfree, hcovered⟩ rfl
        rw [hrest]
        rcases ih (claimed ++ (files.filter fun f => f.path ∉ claimed &&
          (blueprintReferenceRoots module serviceRoot).any
            fun root => under '/' root f.path).map SurveyedFile.path) with ⟨hfirst, hsecond⟩
        exact ⟨by rw [hfirst], hsecond⟩

theorem startingCandidates_eq (localeLe : Path -> Path -> Bool) (files : List SurveyedFile)
    (blueprint : Option BlueprintService) (serviceRoot : Path) :
    startingCandidates localeLe files blueprint serviceRoot =
      (claimFrom serviceRoot files (modulesOf blueprint)).1 ++
        (groupByChildDirectory localeLe
          (claimFrom serviceRoot files (modulesOf blueprint)).2 []).map directoryCandidate := by
  cases blueprint with
  | none => rfl
  | some service =>
      have hall : files.filter (fun f => f.path ∉ ([] : List Path)) = files :=
        List.filter_eq_self.mpr (by simp)
      rcases claimModules_eq files serviceRoot service.modules [] with ⟨hfirst, hsecond⟩
      rw [hall] at hfirst hsecond
      simp only [startingCandidates, blueprintCandidates, hfirst, hsecond]
      rfl

section Claims

variable (serviceRoot : Path)

theorem perm_claimFrom (modules : List BlueprintModule) (remaining : List SurveyedFile) :
    ((claimFrom serviceRoot remaining modules).1.flatMap Candidate.files ++
      (claimFrom serviceRoot remaining modules).2).Perm remaining := by
  induction modules generalizing remaining with
  | nil => exact List.Perm.refl _
  | cons module rest ih =>
      have hsplit := @List.filter_append_perm _
        (fun file : SurveyedFile =>
          coveredBy (blueprintReferenceRoots module serviceRoot) file.path) remaining
      have hrest := ih (remaining.filter fun file =>
        !coveredBy (blueprintReferenceRoots module serviceRoot) file.path)
      unfold claimFrom
      simp only
      split
      · rename_i hnone
        rw [hnone, List.nil_append] at hsplit
        exact hrest.trans hsplit
      · rw [List.flatMap_cons, List.append_assoc]
        exact (hrest.append_left _).trans hsplit

theorem mem_unclaimed_iff (file : SurveyedFile) (modules : List BlueprintModule)
    (remaining : List SurveyedFile) :
    file ∈ (claimFrom serviceRoot remaining modules).2 <->
      file ∈ remaining ∧ forall module, module ∈ modules ->
        coveredBy (blueprintReferenceRoots module serviceRoot) file.path = false := by
  induction modules generalizing remaining with
  | nil => simp [claimFrom]
  | cons module rest ih =>
      unfold claimFrom
      simp only
      rw [ih, List.mem_filter, Bool.not_eq_true', and_assoc, List.forall_mem_cons]

/-- A module's candidate has the module's references, and a file of it is under one. -/
theorem claimFrom_candidate {serviceRoot : Path} {c : Candidate} (modules : List BlueprintModule)
    (remaining : List SurveyedFile) (h : c ∈ (claimFrom serviceRoot remaining modules).1) :
    (exists module, module ∈ modules ∧ c.roots = blueprintReferenceRoots module serviceRoot) ∧
      c.source = .blueprint ∧ c.files ≠ [] ∧
      forall file, file ∈ c.files -> coveredBy c.roots file.path = true := by
  induction modules generalizing remaining with
  | nil => cases h
  | cons module rest ih =>
      have hlater : c ∈ (claimFrom serviceRoot (remaining.filter fun file =>
            !coveredBy (blueprintReferenceRoots module serviceRoot) file.path) rest).1 ->
          (exists m, m ∈ module :: rest ∧ c.roots = blueprintReferenceRoots m serviceRoot) ∧
            c.source = .blueprint ∧ c.files ≠ [] ∧
            forall file, file ∈ c.files -> coveredBy c.roots file.path = true := by
        intro hc
        rcases ih _ hc with ⟨⟨m, hm, hroots⟩, hfacts⟩
        exact ⟨⟨m, List.mem_cons_of_mem _ hm, hroots⟩, hfacts⟩
      unfold claimFrom at h
      simp only at h
      split at h
      · exact hlater h
      · rename_i hsome
        cases h with
        | head =>
            refine ⟨⟨module, List.mem_cons_self .., rfl⟩, rfl, hsome, ?_⟩
            intro file hfile
            exact (List.mem_filter.mp hfile).2
        | tail _ h => exact hlater h

theorem sublist_claimFrom {serviceRoot : Path} {c : Candidate} (modules : List BlueprintModule)
    (remaining : List SurveyedFile) (h : c ∈ (claimFrom serviceRoot remaining modules).1) :
    c.files.Sublist remaining := by
  induction modules generalizing remaining with
  | nil => cases h
  | cons module rest ih =>
      have hlater := fun hc => (ih _ hc).trans (List.filter_sublist (l := remaining)
        (p := fun file => !coveredBy (blueprintReferenceRoots module serviceRoot) file.path))
      unfold claimFrom at h
      simp only at h
      split at h
      · exact hlater h
      · cases h with
        | head => exact List.filter_sublist
        | tail _ h => exact hlater h

end Claims

/-!
## References that come first
-/

/-- The references of each module that comes first to some path, with those paths. -/
def firstComers (paths : List Path) : List (List Path) -> List (List Path × List Path)
  | [] => []
  | roots :: rest =>
      let mine := paths.filter (coveredBy roots)
      let later := firstComers (paths.filter fun path => !coveredBy roots path) rest
      if mine = [] then later else (roots, mine) :: later

theorem firstComers_congr {ps qs : List Path} (h : forall path, path ∈ ps <-> path ∈ qs)
    (references : List (List Path)) :
    (firstComers ps references).map Prod.fst = (firstComers qs references).map Prod.fst := by
  induction references generalizing ps qs with
  | nil => rfl
  | cons roots rest ih =>
      have hrest : (firstComers (ps.filter fun path => !coveredBy roots path) rest).map Prod.fst =
          (firstComers (qs.filter fun path => !coveredBy roots path) rest).map Prod.fst := by
        apply ih
        intro path
        rw [List.mem_filter, List.mem_filter, h]
      have hmine : ps.filter (coveredBy roots) = [] <-> qs.filter (coveredBy roots) = [] := by
        rw [List.filter_eq_nil_iff, List.filter_eq_nil_iff]
        simp only [h]
      unfold firstComers
      simp only
      by_cases hnone : ps.filter (coveredBy roots) = []
      · rw [if_pos hnone, if_pos (hmine.mp hnone), hrest]
      · rw [if_neg hnone, if_neg fun hq => hnone (hmine.mpr hq), List.map_cons, List.map_cons,
          hrest]

/-- The modules' candidates are the first comers. -/
theorem map_claimFrom (serviceRoot : Path) (modules : List BlueprintModule)
    (remaining : List SurveyedFile) :
    (claimFrom serviceRoot remaining modules).1.map
        (fun c => (c.roots, c.files.map SurveyedFile.path)) =
      firstComers (remaining.map SurveyedFile.path)
        (modules.map fun module => blueprintReferenceRoots module serviceRoot) := by
  induction modules generalizing remaining with
  | nil => rfl
  | cons module rest ih =>
      have hrest := ih (remaining.filter fun file =>
        !coveredBy (blueprintReferenceRoots module serviceRoot) file.path)
      unfold claimFrom
      rw [List.map_cons, firstComers]
      simp only [List.filter_map, Function.comp_def, List.map_eq_nil_iff]
      split
      · exact hrest
      · rw [List.map_cons, hrest]
        rfl

theorem firstComers_subset (paths : List Path) (references : List (List Path))
    {e : List Path × List Path} (h : e ∈ firstComers paths references) :
    forall path, path ∈ e.2 -> path ∈ paths := by
  induction references generalizing paths with
  | nil => cases h
  | cons roots rest ih =>
      have hlater : e ∈ firstComers (paths.filter fun path => !coveredBy roots path) rest ->
          forall path, path ∈ e.2 -> path ∈ paths := by
        intro he path hpath
        exact (List.mem_filter.mp (ih _ he path hpath)).1
      unfold firstComers at h
      simp only at h
      split at h
      · exact hlater h
      · cases h with
        | head =>
            intro path hpath
            exact (List.mem_filter.mp hpath).1
        | tail _ h => exact hlater h

/-- A path under two references: one module has both, or another module's territory
takes in a path that this one came first to. -/
theorem firstComers_conflict {path : Path} {paths : List Path} (hpath : path ∈ paths)
    (references : List (List Path))
    (h : 2 ≤ ((firstComers paths references).flatMap Prod.fst).countP
      fun root => under '/' root path) :
    (exists e, e ∈ firstComers paths references ∧ path ∈ e.2 ∧
        2 ≤ e.1.countP fun root => under '/' root path) ∨
      exists e e', e ∈ firstComers paths references ∧ e' ∈ firstComers paths references ∧
        path ∈ e.2 ∧ path ∉ e'.2 ∧ coveredBy e'.1 path = true := by
  induction references generalizing paths with
  | nil => cases h
  | cons roots rest ih =>
      by_cases hcovered : coveredBy roots path = true
      · have hmine : path ∈ paths.filter (coveredBy roots) :=
          List.mem_filter.mpr ⟨hpath, hcovered⟩
        have hsome : paths.filter (coveredBy roots) ≠ [] := List.ne_nil_of_mem hmine
        unfold firstComers at h ⊢
        simp only [if_neg hsome, List.flatMap_cons, List.countP_append] at h ⊢
        by_cases htwo : 2 ≤ roots.countP fun root => under '/' root path
        · exact Or.inl ⟨_, List.mem_cons_self .., hmine, htwo⟩
        · apply Or.inr
          have hpos : 0 < ((firstComers (paths.filter fun path => !coveredBy roots path)
              rest).flatMap Prod.fst).countP fun root => under '/' root path := by
            omega
          rcases List.countP_pos_iff.mp hpos with ⟨root, hroot, hunder⟩
          rcases List.mem_flatMap.mp hroot with ⟨e', he', hroot'⟩
          refine ⟨_, e', List.mem_cons_self .., List.mem_cons_of_mem _ he', hmine, ?_,
            coveredBy_iff.mpr ⟨root, hroot', hunder⟩⟩
          intro hin
          have hleft := firstComers_subset _ _ he' path hin
          rw [List.mem_filter, hcovered] at hleft
          cases hleft.2
      · have hleft : path ∈ paths.filter fun path => !coveredBy roots path := by
          rw [List.mem_filter]
          exact ⟨hpath, by simpa using hcovered⟩
        have hnone : roots.countP (fun root => under '/' root path) = 0 := by
          rw [List.countP_eq_zero]
          intro root hroot hunder
          exact hcovered (coveredBy_iff.mpr ⟨root, hroot, hunder⟩)
        have htail : forall e, e ∈ firstComers (paths.filter fun path =>
            !coveredBy roots path) rest -> e ∈ firstComers paths (roots :: rest) := by
          intro e he
          unfold firstComers
          simp only
          split
          · exact he
          · exact List.mem_cons_of_mem _ he
        have hcount : 2 ≤ ((firstComers (paths.filter fun path => !coveredBy roots path)
            rest).flatMap Prod.fst).countP fun root => under '/' root path := by
          unfold firstComers at h
          simp only at h
          split at h
          · exact h
          · rw [List.flatMap_cons, List.countP_append, hnone, Nat.zero_add] at h
            exact h
        rcases ih hleft hcount with ⟨e, he, hfacts⟩ | ⟨e, e', he, he', hfacts⟩
        · exact Or.inl ⟨e, htail e he, hfacts⟩
        · exact Or.inr ⟨e, e', htail e he, htail e' he', hfacts⟩

end Expedition
end CatFactory
