import CatFactory.Failures.ErrorChain
import CatFactory.Foundation.DepthFirst

/-!
# What a classification reads

The walk over a failure is the depth-first walk of its links.  Since the objects
it has met are shared by all its branches, an object that is first met at the
last level is read without its own links, and is not read again on a shorter way.
-/

namespace CatFactory
namespace Failures

open Foundation.DepthFirst

section Chains

variable {node : Type} [DecidableEq node] {graph : node -> Properties node}

/-- What a value leads to: the branches, then the cause. -/
def linksOf (graph : node -> Properties node) (error : Thrown node) : List (Thrown node) :=
  aggregated graph error ++ [causeOf graph error]

/-!
## The walk as a depth-first one
-/

/-- The objects among the links are those that were seen. -/
def Walk.Tracked (walk : Walk node) : Prop :=
  walk.seen = walk.out.filter Thrown.isObject

/-- A walk goes on as the depth-first one does. -/
def Follows (graph : node -> Properties node) (left : Nat) : Prop :=
  forall (error : Thrown node) (walk : Walk node), walk.Tracked ->
    (flattenFrom graph left error walk).Tracked ∧
      (flattenFrom graph left error walk).out =
        visit (linksOf graph) Thrown.isNullish Thrown.isObject left error walk.out

theorem follows_foldl {left : Nat} (h : Follows graph left) (branches : List (Thrown node))
    (walk : Walk node) (htracked : walk.Tracked) :
    (branches.foldl (fun walk branch => flattenFrom graph left branch walk) walk).Tracked ∧
      (branches.foldl (fun walk branch => flattenFrom graph left branch walk) walk).out =
        branches.foldl (fun out link =>
          visit (linksOf graph) Thrown.isNullish Thrown.isObject left link out) walk.out := by
  induction branches generalizing walk with
  | nil => exact ⟨htracked, rfl⟩
  | cons branch branches ih =>
      rcases h branch walk htracked with ⟨hnext, hout⟩
      rw [List.foldl_cons, List.foldl_cons, ← hout]
      exact ih _ hnext

omit [DecidableEq node] in
theorem Walk.Tracked.mem_iff {walk : Walk node} (h : walk.Tracked) {error : Thrown node}
    (hobject : error.isObject = true) : error ∈ walk.seen <-> error ∈ walk.out := by
  rw [h, List.mem_filter]
  exact ⟨fun hmem => hmem.left, fun hmem => ⟨hmem, hobject⟩⟩

omit [DecidableEq node] in
theorem Walk.Tracked.enter {walk : Walk node} (h : walk.Tracked) (error : Thrown node) :
    Walk.Tracked
      { out := walk.out ++ [error]
        seen := if error.isObject = true then walk.seen ++ [error] else walk.seen } := by
  show (if error.isObject = true then walk.seen ++ [error] else walk.seen) =
    (walk.out ++ [error]).filter Thrown.isObject
  rw [List.filter_append, h]
  split
  · rename_i hobject
    rw [List.filter_cons_of_pos hobject, List.filter_nil]
  · rename_i hother
    rw [List.filter_cons_of_neg hother, List.filter_nil, List.append_nil]

/-- No value has more branches than are read. -/
def BranchesRead (graph : node -> Properties node) : Prop :=
  forall error : Thrown node, (aggregated graph error).length ≤ MAX_AGGREGATE_BRANCHES

omit [DecidableEq node] in
theorem branchesRead_of
    (h : forall id, ((graph id).errors.getD []).length ≤ MAX_AGGREGATE_BRANCHES) :
    BranchesRead graph := by
  intro error
  cases error with
  | object id => exact h id
  | callable id => exact h id
  | _ => exact Nat.zero_le _

theorem follows (hread : BranchesRead graph) (left : Nat) : Follows graph left := by
  induction left with
  | zero =>
      intro error walk htracked
      exact ⟨htracked, rfl⟩
  | succ left ih =>
      intro error walk htracked
      rw [flattenFrom, visit]
      by_cases hnull : error.isNullish = true
      · rw [if_pos hnull, if_pos (Or.inl hnull)]
        exact ⟨htracked, rfl⟩
      · rw [if_neg hnull]
        by_cases hseen : error.isObject = true ∧ error ∈ walk.seen
        · have hout : error ∈ walk.out := (htracked.mem_iff hseen.left).mp hseen.right
          rw [if_pos hseen, if_pos (Or.inr ⟨hseen.left, hout⟩)]
          exact ⟨htracked, rfl⟩
        · have hopen : ¬ (error.isNullish = true ∨
              error.isObject = true ∧ error ∈ walk.out) := by
            intro h
            rcases h with h | ⟨hobject, hout⟩
            · exact hnull h
            · exact hseen ⟨hobject, (htracked.mem_iff hobject).mpr hout⟩
          have htake : (aggregated graph error).take MAX_AGGREGATE_BRANCHES =
              aggregated graph error := List.take_of_length_le (hread error)
          have hall : ¬ MAX_AGGREGATE_BRANCHES < (aggregated graph error).length :=
            Nat.not_lt.mpr (hread error)
          rcases follows_foldl ih (aggregated graph error) _ (htracked.enter error) with
            ⟨hbranches, hout⟩
          rcases ih (causeOf graph error) _ hbranches with ⟨hcause, hlast⟩
          rw [if_neg hseen, if_neg hopen]
          simp only [htake, if_neg hall]
          refine ⟨hcause, ?_⟩
          rw [hlast, hout, linksOf, List.foldl_append, List.foldl_cons, List.foldl_nil]

/-- The links of a failure are what the depth-first walk visits. -/
theorem flattenErrorChain_eq_visit (hread : BranchesRead graph) (root : Thrown node) :
    flattenErrorChain graph root =
      visit (linksOf graph) Thrown.isNullish Thrown.isObject (MAX_CHAIN_DEPTH + 1) root [] :=
  (follows hread (MAX_CHAIN_DEPTH + 1) root { out := [], seen := [] } rfl).right

/-!
## The law
-/

/-- At most six causes and branches away. -/
def WithinReach (graph : node -> Properties node) (root error : Thrown node) : Prop :=
  Near (linksOf graph) Thrown.isNullish MAX_CHAIN_DEPTH root error

/-- The classification reads every link in reach, and each object once. -/
structure ChainLaw (graph : node -> Properties node) (root : Thrown node) : Prop where
  once : ((flattenErrorChain graph root).filter Thrown.isObject).Nodup
  reach : forall error, error ∈ flattenErrorChain graph root <-> WithinReach graph root error
  classified : forall search : String -> Option Nat,
    errorChainMatches graph root search = true <->
      exists error, WithinReach graph root error ∧
        (search (describeErrorLink graph error)).isSome = true

/-- What is met at the last level first, or not at all, is passed by its links: each is the root,
or also a link of a value that is first met before the last level. -/
def NoneCutShort (graph : node -> Properties node) (root : Thrown node) : Prop :=
  Timely (linksOf graph) Thrown.isNullish Thrown.isObject MAX_CHAIN_DEPTH root

theorem flattenErrorChain_law (graph : node -> Properties node) (root : Thrown node)
    (hread : BranchesRead graph) : ChainLaw graph root <-> NoneCutShort graph root := by
  have hvisit := flattenErrorChain_eq_visit hread root
  have hnear := @visit_near_iff (Thrown node) _ (linksOf graph) Thrown.isNullish Thrown.isObject
    MAX_CHAIN_DEPTH root
  rw [← hvisit] at hnear
  constructor
  · intro h
    exact hnear.mp h.reach
  · intro h
    have hreach := hnear.mpr h
    constructor
    · rw [hvisit]
      exact nodup_shared_visit MAX_CHAIN_DEPTH root
    · exact hreach
    · intro search
      rw [errorChainMatches, List.any_eq_true]
      constructor
      · intro h
        rcases h with ⟨error, hmem, hfound⟩
        exact ⟨error, (hreach error).mp hmem, hfound⟩
      · intro h
        rcases h with ⟨error, hmem, hfound⟩
        exact ⟨error, (hreach error).mpr hmem, hfound⟩

end Chains

/-- An error with this message, these branches and this cause. -/
def errorWith (message : String) (errors : Option (List (Thrown Nat))) (cause : Thrown Nat) :
    Properties Nat :=
  { isError := true, rendered := some ("Error: " ++ message), message := .text message
    code := .nullish, cause := cause, errors := errors }

/-- Two attempts of one dispatch, the first for the same reason as the second. -/
def dispatchFailure : Nat -> Properties Nat
  | 0 => errorWith "dispatch failed" (some [.object 1, .object 2]) (.object 2)
  | 1 => errorWith "first attempt failed" none (.object 2)
  | _ => errorWith "connect ECONNREFUSED" none .nullish

theorem branchesRead_dispatchFailure : BranchesRead dispatchFailure := by
  apply branchesRead_of
  intro id
  match id with
  | 0 => decide
  | 1 => decide
  | _ + 2 => exact Nat.zero_le _

theorem noneCutShort_dispatchFailure : NoneCutShort dispatchFailure (.object 0) := by
  intro u link hu hnot
  rcases hu with ⟨n, _, hreaches⟩
  have hmem : u ∈ [Thrown.object 0, .object 1, .object 2] :=
    hreaches.mem_of_closed (by decide) List.mem_cons_self
  exfalso
  apply hnot
  simp only [List.mem_cons, List.not_mem_nil, or_false] at hmem
  rcases hmem with heq | heq | heq
  · exact ⟨[], by rw [heq]; decide⟩
  · exact ⟨[0], by rw [heq]; decide⟩
  · exact ⟨[0, 0], by rw [heq]; decide⟩

theorem flattenErrorChain_law_shared : ChainLaw dispatchFailure (.object 0) :=
  (flattenErrorChain_law dispatchFailure (.object 0) branchesRead_dispatchFailure).mpr
    noneCutShort_dispatchFailure

/-- The sixth error down the only branch is also the cause, and has a cause of its own. -/
def rolloutFailure : Nat -> Properties Nat
  | 0 => errorWith "dispatch failed" (some [.object 1]) (.object 6)
  | n + 1 =>
      if n < 6 then errorWith "attempt failed" none (.object (n + 2))
      else errorWith "runtime signalled the container to exit" none .nullish

/-- The cause of the cause is not read. -/
theorem not_flattenErrorChain_law :
    ¬ forall graph : Nat -> Properties Nat, BranchesRead graph ->
      forall root : Thrown Nat, ChainLaw graph root := by
  intro h
  have hread : BranchesRead rolloutFailure := by
    apply branchesRead_of
    intro id
    cases id with
    | zero => decide
    | succ n =>
        rw [rolloutFailure]
        split
        · exact Nat.zero_le _
        · exact Nat.zero_le _
  have hreach : WithinReach rolloutFailure (.object 0) (.object 7) := by
    have hlast : Reaches (linksOf rolloutFailure) Thrown.isNullish 1 (.object 6) (.object 7) :=
      .link rfl (by decide) (.here rfl)
    exact ⟨2, by decide, .link rfl (by decide) hlast⟩
  have hmem := ((h rolloutFailure hread (.object 0)).reach (.object 7)).mpr hreach
  exact absurd hmem (by decide)

end Failures
end CatFactory
