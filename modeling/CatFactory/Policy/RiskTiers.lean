import CatFactory.Foundation.Keyed

/-!
# The two tiers of risk policies

A board picks its risk policy from its own policies and from those of its
account that it has not hidden.  The settings list merges the two tiers; the
engine resolves the one policy a task pins.  Both must give an id the same
policy.
-/

namespace CatFactory
namespace Policy

open Foundation

/-- An account's policy; `rest` holds the fields that no function here reads. -/
structure AccountRiskPolicy (fields : Type) where
  id : String
  name : String
  rest : fields
deriving DecidableEq

/-- A board's policy, with its claims on the board's two defaults. -/
structure RiskPolicy (fields : Type) extends AccountRiskPolicy fields where
  isDefault : Bool
  isUnattendedDefault : Bool
deriving DecidableEq

inductive RiskPolicyTier where
  | account
  | workspace
deriving DecidableEq

structure RiskPolicyLibraryEntry (fields : Type) extends RiskPolicy fields where
  tier : RiskPolicyTier
deriving DecidableEq

variable {fields : Type}

def accountEntry (policy : AccountRiskPolicy fields) : RiskPolicyLibraryEntry fields :=
  { policy with
    isDefault := false
    isUnattendedDefault := false
    tier := RiskPolicyTier.account }

def workspaceEntry (policy : RiskPolicy fields) : RiskPolicyLibraryEntry fields :=
  { policy with tier := RiskPolicyTier.workspace }

structure RiskPolicyTierInput (fields : Type) where
  accountPolicies : List (AccountRiskPolicy fields)
  workspacePolicies : List (RiskPolicy fields)
  suppressedIds : List String

/-- The ids of the board's own policies. -/
def RiskPolicyTierInput.own (input : RiskPolicyTierInput fields) : List String :=
  input.workspacePolicies.map fun policy => policy.id

/-- The account's policies that the board neither hides nor shadows. -/
def RiskPolicyTierInput.inherited (input : RiskPolicyTierInput fields) :
    List (AccountRiskPolicy fields) :=
  input.accountPolicies.filter fun policy =>
    !decide (policy.id ∈ input.suppressedIds) && !decide (policy.id ∈ input.own)

def mergeRiskPolicyTiers (input : RiskPolicyTierInput fields) :
    List (RiskPolicyLibraryEntry fields) :=
  input.inherited.map accountEntry ++ input.workspacePolicies.map workspaceEntry

def resolveRiskPolicyTier (workspacePolicy : Option (RiskPolicy fields))
    (accountPolicy : Option (AccountRiskPolicy fields)) (suppressed : Bool) :
    Option (RiskPolicyLibraryEntry fields) :=
  match workspacePolicy, accountPolicy with
  | some policy, _ => some (workspaceEntry policy)
  | none, none => none
  | none, some policy => if suppressed then none else some (accountEntry policy)

/-!
## The entries
-/

@[simp] theorem accountEntry_id (policy : AccountRiskPolicy fields) :
    (accountEntry policy).id = policy.id :=
  rfl

@[simp] theorem workspaceEntry_id (policy : RiskPolicy fields) :
    (workspaceEntry policy).id = policy.id :=
  rfl

theorem accountEntry_ne_workspaceEntry (policy : AccountRiskPolicy fields)
    (row : RiskPolicy fields) : accountEntry policy ≠ workspaceEntry row := by
  intro h
  have htier := congrArg RiskPolicyLibraryEntry.tier h
  cases htier

theorem accountEntry_injective {policy policy' : AccountRiskPolicy fields}
    (h : accountEntry policy = accountEntry policy') : policy = policy' :=
  congrArg (fun entry => entry.toRiskPolicy.toAccountRiskPolicy) h

theorem mem_inherited {input : RiskPolicyTierInput fields} {policy : AccountRiskPolicy fields} :
    policy ∈ input.inherited <->
      policy ∈ input.accountPolicies ∧ policy.id ∉ input.suppressedIds ∧
        policy.id ∉ input.own := by
  simp [RiskPolicyTierInput.inherited]

theorem mem_mergeRiskPolicyTiers {input : RiskPolicyTierInput fields}
    {entry : RiskPolicyLibraryEntry fields} :
    entry ∈ mergeRiskPolicyTiers input <->
      (exists policy, policy ∈ input.inherited ∧ accountEntry policy = entry) ∨
        exists policy, policy ∈ input.workspacePolicies ∧ workspaceEntry policy = entry := by
  simp [mergeRiskPolicyTiers]

theorem ids_mergeRiskPolicyTiers (input : RiskPolicyTierInput fields) :
    (mergeRiskPolicyTiers input).map (fun entry => entry.id) =
      (input.inherited.map fun policy => policy.id) ++ input.own := by
  simp [mergeRiskPolicyTiers, RiskPolicyTierInput.own, Function.comp_def]

theorem nodup_mergeRiskPolicyTiers {input : RiskPolicyTierInput fields}
    (haccount : (input.accountPolicies.map fun policy => policy.id).Nodup)
    (hown : input.own.Nodup) :
    ((mergeRiskPolicyTiers input).map fun entry => entry.id).Nodup := by
  rw [ids_mergeRiskPolicyTiers]
  apply List.Nodup.append
  · exact haccount.sublist (List.filter_sublist.map _)
  · exact hown
  · intro id hinherited hid
    rcases List.mem_map.mp hinherited with ⟨policy, hpolicy, hkey⟩
    have hnot := (mem_inherited.mp hpolicy).right.right
    rw [hkey] at hnot
    exact hnot hid

/-!
## The list and the engine
-/

/-- The merged list, looked up at an id, is what the engine resolves. -/
theorem lookup_mergeRiskPolicyTiers (input : RiskPolicyTierInput fields) (id : String) :
    lookup (fun entry => entry.id) (mergeRiskPolicyTiers input) id =
      resolveRiskPolicyTier (lookup (fun policy => policy.id) input.workspacePolicies id)
        (lookup (fun policy => policy.id) input.accountPolicies id)
        (decide (id ∈ input.suppressedIds)) := by
  have haccount : lookup (fun entry => entry.id) (input.inherited.map accountEntry) id =
      (lookup (fun policy => policy.id) input.inherited id).map accountEntry :=
    lookup_map (fun _ => rfl) _ _
  have hboard : lookup (fun entry => entry.id) (input.workspacePolicies.map workspaceEntry) id =
      (lookup (fun policy => policy.id) input.workspacePolicies id).map workspaceEntry :=
    lookup_map (fun _ => rfl) _ _
  unfold mergeRiskPolicyTiers
  rw [lookup_append, haccount, hboard, RiskPolicyTierInput.inherited,
    @lookup_filter _ _ (fun policy : AccountRiskPolicy fields => policy.id) _
      (fun key => !decide (key ∈ input.suppressedIds) && !decide (key ∈ input.own))]
  cases hws : lookup (fun policy => policy.id) input.workspacePolicies id with
  | some row =>
      have hown : id ∈ input.own := by
        have hrow := List.mem_of_find?_eq_some hws
        have hkey : row.id = id := by
          simpa using List.find?_some hws
        rw [← hkey]
        exact List.mem_map_of_mem hrow
      simp [hown, resolveRiskPolicyTier]
  | none =>
      have hown : id ∉ input.own := by
        intro hmem
        rcases List.mem_map.mp hmem with ⟨row, hrow, hkey⟩
        exact lookup_eq_none_iff.mp hws row hrow hkey
      cases hacc : lookup (fun policy => policy.id) input.accountPolicies id with
      | none =>
          simp [resolveRiskPolicyTier]
      | some policy =>
          by_cases hsup : id ∈ input.suppressedIds
          · simp [hsup, resolveRiskPolicyTier]
          · simp [hsup, hown, resolveRiskPolicyTier]

/--
The library lists an entry under an id exactly when the engine resolves that id
to it.  No id is listed twice, only the board's own rows claim a default, and a
hidden or shadowed row of the account is not listed.
-/
theorem mergeRiskPolicyTiers_resolves (input : RiskPolicyTierInput fields)
    (haccount : (input.accountPolicies.map fun policy => policy.id).Nodup)
    (hown : (input.workspacePolicies.map fun policy => policy.id).Nodup) :
    (forall id entry,
      (entry ∈ mergeRiskPolicyTiers input ∧ entry.id = id) <->
        resolveRiskPolicyTier (lookup (fun policy => policy.id) input.workspacePolicies id)
          (lookup (fun policy => policy.id) input.accountPolicies id)
          (decide (id ∈ input.suppressedIds)) = some entry) ∧
    ((mergeRiskPolicyTiers input).map fun entry => entry.id).Nodup ∧
    (forall entry, entry ∈ mergeRiskPolicyTiers input ->
      entry.isDefault = true ∨ entry.isUnattendedDefault = true ->
        exists policy, policy ∈ input.workspacePolicies ∧ entry = workspaceEntry policy) ∧
    (forall policy, policy ∈ input.accountPolicies ->
      policy.id ∈ input.suppressedIds ∨
          (policy.id ∈ input.workspacePolicies.map fun row => row.id) ->
        accountEntry policy ∉ mergeRiskPolicyTiers input) := by
  have hnodup := nodup_mergeRiskPolicyTiers haccount hown
  constructor
  · intro id entry
    rw [← lookup_mergeRiskPolicyTiers input id]
    exact (lookup_eq_some_iff hnodup).symm
  constructor
  · exact hnodup
  constructor
  · intro entry hentry hclaim
    rcases mem_mergeRiskPolicyTiers.mp hentry with ⟨policy, _, heq⟩ | ⟨policy, hpolicy, heq⟩
    · rw [← heq] at hclaim
      rcases hclaim with hclaim | hclaim
      · cases hclaim
      · cases hclaim
    · exact ⟨policy, hpolicy, heq.symm⟩
  · intro policy _ hhidden hentry
    rcases mem_mergeRiskPolicyTiers.mp hentry with ⟨row, hrow, heq⟩ | ⟨row, _, heq⟩
    · have hsame := accountEntry_injective heq
      rw [hsame] at hrow
      have hkept := (mem_inherited.mp hrow).right
      rcases hhidden with hhidden | hhidden
      · exact hkept.left hhidden
      · exact hkept.right hhidden
    · exact accountEntry_ne_workspaceEntry policy row heq.symm

/-- A stale suppression of an id the board owns, and one of an id it inherits. -/
theorem mergeRiskPolicyTiers_resolves_stale :
    resolveRiskPolicyTier (some (⟨⟨"a", "Own", ()⟩, true, false⟩ : RiskPolicy Unit))
        (some ⟨"a", "Shared", ()⟩) true =
      some ⟨⟨⟨"a", "Own", ()⟩, true, false⟩, RiskPolicyTier.workspace⟩ :=
  ((mergeRiskPolicyTiers_resolves
    ⟨[⟨"a", "Shared", ()⟩, ⟨"b", "Hidden", ()⟩], [⟨⟨"a", "Own", ()⟩, true, false⟩], ["a", "b"]⟩
    (by decide) (by decide)).left "a"
      ⟨⟨⟨"a", "Own", ()⟩, true, false⟩, RiskPolicyTier.workspace⟩).mp (by decide)

end Policy
end CatFactory
