import CatFactory.Foundation.CodeUnits
import CatFactory.Policy.Merge
import Mathlib.Data.List.Dedup
import Mathlib.Data.List.Sort

/-!
# The ladder of scopes

A key carries one rung of a ladder, and a reach: a list of boards, or all the
boards of its account.  Both are compared when one key mints or retires another.
-/

namespace CatFactory
namespace Access

open Policy (WorkspaceRole)

inductive PublicApiScope where
  | read
  | webhooks
  | write
  | decide
  | admin
deriving DecidableEq

/-- The order of the list is the ladder. -/
def PUBLIC_API_SCOPES : List PublicApiScope :=
  [.read, .webhooks, .write, .decide, .admin]

def PublicApiScope.text : PublicApiScope -> String
  | .read => "read"
  | .webhooks => "webhooks"
  | .write => "write"
  | .decide => "decide"
  | .admin => "admin"

/-- `SCOPE_RANK` -/
def PublicApiScope.rank (scope : PublicApiScope) : Nat :=
  PUBLIC_API_SCOPES.idxOf scope

def scopeSatisfies (holds need : PublicApiScope) : Bool :=
  need.rank ≤ holds.rank

def HEADLESS_KEY_MINT_SCOPE : PublicApiScope :=
  .admin

def HEADLESS_MINTABLE_SCOPES : List PublicApiScope :=
  PUBLIC_API_SCOPES.take (PUBLIC_API_SCOPES.idxOf HEADLESS_KEY_MINT_SCOPE)

/-- `SCOPE_CEILING` -/
def scopeCeiling : WorkspaceRole -> PublicApiScope
  | .viewer => .read
  | .member => .decide
  | .admin => .admin

def scopeInWorkspace (scope : PublicApiScope) (role : WorkspaceRole) : PublicApiScope :=
  if scope.rank ≤ (scopeCeiling role).rank then scope else scopeCeiling role

theorem scopeSatisfies_iff {holds need : PublicApiScope} :
    scopeSatisfies holds need = true <-> need.rank ≤ holds.rank := by
  unfold scopeSatisfies
  exact decide_eq_true_iff

theorem scopeSatisfies_trans {high mid low : PublicApiScope}
    (h : scopeSatisfies high mid = true) (h' : scopeSatisfies mid low = true) :
    scopeSatisfies high low = true := by
  rw [scopeSatisfies_iff] at *
  exact Nat.le_trans h' h

/-- A role only lowers a scope, and never leaves more than the role allows. -/
theorem scopeInWorkspace_le (scope : PublicApiScope) (role : WorkspaceRole) :
    scopeSatisfies scope (scopeInWorkspace scope role) = true ∧
      scopeSatisfies (scopeCeiling role) (scopeInWorkspace scope role) = true := by
  rw [scopeSatisfies_iff, scopeSatisfies_iff]
  unfold scopeInWorkspace
  split
  · rename_i h
    exact ⟨Nat.le_refl _, h⟩
  · rename_i h
    exact ⟨Nat.le_of_not_le h, Nat.le_refl _⟩

/-- What provisioning hands out cannot provision. -/
theorem not_satisfies_of_mintable {scope : PublicApiScope}
    (h : scope ∈ HEADLESS_MINTABLE_SCOPES) :
    scopeSatisfies scope HEADLESS_KEY_MINT_SCOPE = false := by
  revert scope
  decide

theorem admin_of_satisfies {scope : PublicApiScope}
    (h : scopeSatisfies scope HEADLESS_KEY_MINT_SCOPE = true) : scope = .admin := by
  cases scope <;> first | rfl | cases h

/-! ## Reach -/

def keyReaches : Option (List String) -> String -> Bool
  | none, _ => true
  | some ids, workspaceId => workspaceId ∈ ids

def reachCovers : Option (List String) -> Option (List String) -> Bool
  | none, _ => true
  | some _, none => false
  | some outer, some inner => inner.all fun id => id ∈ outer

/-- `ids.sort()` -/
def sortIds (ids : List String) : List String :=
  ids.insertionSort fun a b => Foundation.unitsBefore b a = false

theorem mem_sortIds {ids : List String} {id : String} : id ∈ sortIds ids <-> id ∈ ids :=
  List.mem_insertionSort _

theorem reachCovers_iff {outer inner : List String} :
    reachCovers (some outer) (some inner) = true <-> forall id, id ∈ inner -> id ∈ outer := by
  unfold reachCovers
  rw [List.all_eq_true]
  constructor
  · intro h id hid
    exact of_decide_eq_true (h id hid)
  · intro h id hid
    exact decide_eq_true (h id hid)

end Access
end CatFactory
