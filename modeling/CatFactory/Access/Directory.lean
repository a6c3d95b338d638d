import CatFactory.Access.Ladder
import CatFactory.Foundation.Keyed

/-!
# Accounts, boards and roles

Who may act on a board is decided in two ways: a single board by the access
resolution, and the list of a person's boards by the visibility clauses of one
query.  They agree.
-/

namespace CatFactory
namespace Access

open Foundation
open Policy (WorkspaceRole)

inductive AccountRole where
  | admin
  | developer
  | product
deriving DecidableEq

inductive WorkspaceAccessMode where
  | account
  | restricted
deriving DecidableEq

inductive WorkspacePermission where
  | workspaceRead
  | boardWrite
  | runsExecute
  | settingsManage
  | integrationsManage
  | secretsManage
  | membersManage
deriving DecidableEq

def WorkspacePermission.text : WorkspacePermission -> String
  | .workspaceRead => "workspace.read"
  | .boardWrite => "board.write"
  | .runsExecute => "runs.execute"
  | .settingsManage => "settings.manage"
  | .integrationsManage => "integrations.manage"
  | .secretsManage => "secrets.manage"
  | .membersManage => "members.manage"

def ALL_WORKSPACE_PERMISSIONS : List WorkspacePermission :=
  [.workspaceRead, .boardWrite, .runsExecute, .settingsManage, .integrationsManage,
    .secretsManage, .membersManage]

/-- `WORKSPACE_ROLE_PERMISSIONS` -/
def permissionsForRole : WorkspaceRole -> List WorkspacePermission
  | .viewer => [.workspaceRead]
  | .member => [.workspaceRead, .boardWrite, .runsExecute]
  | .admin => ALL_WORKSPACE_PERMISSIONS

/-- `ROLE_RANK` -/
def roleRank : WorkspaceRole -> Nat
  | .viewer => 0
  | .member => 1
  | .admin => 2

def workspaceRoleAtLeast (role floor : WorkspaceRole) : Bool :=
  roleRank floor ≤ roleRank role

def maxRole (a b : WorkspaceRole) : WorkspaceRole :=
  if roleRank b ≤ roleRank a then a else b

/-! ## Rows -/

structure Workspace where
  id : String
  accountId : Option String
  ownerUserId : Option String := none
  accessMode : WorkspaceAccessMode := .account
deriving DecidableEq

/-- A member of an account holds at least one role. -/
structure Membership where
  accountId : String
  userId : String
  roles : List AccountRole
  nonempty : roles ≠ []
deriving DecidableEq

structure WorkspaceMember where
  workspaceId : String
  userId : String
  role : WorkspaceRole
deriving DecidableEq

def Membership.key (m : Membership) : String × String :=
  (m.accountId, m.userId)

def WorkspaceMember.key (m : WorkspaceMember) : String × String :=
  (m.workspaceId, m.userId)

/-- The three tables, with their primary keys. -/
structure Directory where
  workspaces : List Workspace
  memberships : List Membership
  members : List WorkspaceMember
  oneWorkspace : (workspaces.map Workspace.id).Nodup
  oneMembership : (memberships.map Membership.key).Nodup
  oneMember : (members.map WorkspaceMember.key).Nodup

namespace Directory

def accessRowOf (d : Directory) (id : String) : Option Workspace :=
  lookup Workspace.id d.workspaces id

/-- `none` for a missing board, `some none` for one without an account. -/
def accountOf (d : Directory) (id : String) : Option (Option String) :=
  (d.accessRowOf id).map Workspace.accountId

def rolesFor (d : Directory) (accountId userId : String) : List AccountRole :=
  match lookup Membership.key d.memberships (accountId, userId) with
  | some m => m.roles
  | none => []

def memberRoleOf (d : Directory) (workspaceId userId : String) : Option WorkspaceRole :=
  (lookup WorkspaceMember.key d.members (workspaceId, userId)).map WorkspaceMember.role

end Directory

/-! ## One board -/

/-- The role a person has on a board; `none` denies. -/
def resolveWorkspaceAccess (userId : String) (workspace : Workspace)
    (accountRoles : List AccountRole) (memberRole : Option WorkspaceRole) :
    Option WorkspaceRole :=
  if workspace.accountId = none then
    if workspace.ownerUserId = some userId then some .admin else none
  else if accountRoles = [] then none
  else if AccountRole.admin ∈ accountRoles then some .admin
  else if workspace.accessMode = .account then
    match memberRole with
    | some role => some (maxRole .member role)
    | none => some .member
  else memberRole

/-- `none` for a missing board, `some none` for a denial. -/
def Directory.resolveWorkspaceAccessUncached (d : Directory) (workspaceId userId : String) :
    Option (Option WorkspaceRole) :=
  match d.accessRowOf workspaceId with
  | none => none
  | some row =>
      match row.accountId with
      | none => some (resolveWorkspaceAccess userId row [] none)
      | some accountId =>
          some (resolveWorkspaceAccess userId row (d.rolesFor accountId userId)
            (d.memberRoleOf workspaceId userId))

/-- What a call reads: the tables, and the tables that the access cache answers
from, which are those of an earlier time where the answer was loaded earlier. -/
structure Sight where
  tables : Directory
  access : Directory

/-- The access of a person to a board, denials and missing boards included, as the
`workspaceAccess` cache has it. -/
def Sight.loadWorkspaceAccess (s : Sight) (workspaceId userId : String) :
    Option (Option WorkspaceRole) :=
  s.access.resolveWorkspaceAccessUncached workspaceId userId

/-! ## All boards -/

structure AccountScopes where
  accountIds : List String
  adminAccountIds : List String
deriving DecidableEq

def Directory.accessibleAccountScopes (d : Directory) (userId : String) : AccountScopes :=
  let mine := d.memberships.filter fun m => m.userId = userId
  { accountIds := mine.map Membership.accountId
    adminAccountIds := (mine.filter fun m => AccountRole.admin ∈ m.roles).map
      Membership.accountId }

/-- The clauses of the query, for one row. -/
def visible (d : Directory) (scopes : AccountScopes) (userId : String) (w : Workspace) : Bool :=
  let inAccounts : List String -> Bool := fun ids => ids.any fun id => w.accountId = some id
  (inAccounts scopes.accountIds && w.accessMode = .account) ||
    inAccounts scopes.adminAccountIds ||
    (inAccounts scopes.accountIds &&
      d.members.any fun m => m.userId = userId ∧ m.workspaceId = w.id) ||
    (w.accountId = none && w.ownerUserId = some userId)

def Directory.listVisible (d : Directory) (scopes : AccountScopes) (userId : String) :
    List Workspace :=
  d.workspaces.filter (visible d scopes userId)

/-- The boards of an account that a person can act in now. -/
def Directory.membershipReachOf (d : Directory) (accountId : String)
    (actsAsUserId : Option String) : List String :=
  match actsAsUserId with
  | none => []
  | some userId =>
      let scopes := d.accessibleAccountScopes userId
      let inAccount : List String -> List String := fun ids =>
        ids.filter fun id => id = accountId
      let boards := d.listVisible
        { accountIds := inAccount scopes.accountIds
          adminAccountIds := inAccount scopes.adminAccountIds } userId
      sortIds ((boards.filter fun w => w.accountId = some accountId).map Workspace.id)

/-! ## The two ways agree -/

section Agreement

variable {d : Directory} {accountId userId : String}

theorem mem_rolesFor_iff {role : AccountRole} :
    role ∈ d.rolesFor accountId userId <->
      exists m, m ∈ d.memberships ∧ m.key = (accountId, userId) ∧ role ∈ m.roles := by
  unfold Directory.rolesFor
  cases hm : lookup Membership.key d.memberships (accountId, userId) with
  | none =>
      have hnone := lookup_eq_none_iff.mp hm
      constructor
      · intro h
        cases h
      · rintro ⟨m, hmem, hkey, _⟩
        exact absurd hkey (hnone m hmem)
  | some m =>
      have hsome := (lookup_eq_some_iff d.oneMembership).mp hm
      constructor
      · intro h
        exact ⟨m, hsome.left, hsome.right, h⟩
      · rintro ⟨m', hmem, hkey, hrole⟩
        rwa [eq_of_key d.oneMembership hsome.left hmem (hsome.right.trans hkey.symm)]

/-- A person belongs to the account exactly when some role is held there. -/
theorem rolesFor_ne_nil_iff :
    d.rolesFor accountId userId ≠ [] <->
      exists m, m ∈ d.memberships ∧ m.key = (accountId, userId) := by
  constructor
  · intro h
    rcases List.exists_mem_of_ne_nil _ h with ⟨role, hrole⟩
    rcases mem_rolesFor_iff.mp hrole with ⟨m, hm, hkey, _⟩
    exact ⟨m, hm, hkey⟩
  · rintro ⟨m, hm, hkey⟩
    rcases List.exists_mem_of_ne_nil _ m.nonempty with ⟨role, hrole⟩
    exact List.ne_nil_of_mem (mem_rolesFor_iff.mpr ⟨m, hm, hkey, hrole⟩)

theorem memberRoleOf_isSome_iff {id : String} :
    (d.memberRoleOf id userId).isSome = true <->
      exists m, m ∈ d.members ∧ m.userId = userId ∧ m.workspaceId = id := by
  unfold Directory.memberRoleOf
  rw [Option.isSome_map]
  constructor
  · intro h
    rcases Option.isSome_iff_exists.mp h with ⟨m, hm⟩
    have hsome := (lookup_eq_some_iff d.oneMember).mp hm
    exact ⟨m, hsome.left, congrArg Prod.snd hsome.right, congrArg Prod.fst hsome.right⟩
  · rintro ⟨m, hm, huser, hboard⟩
    have hkey : m.key = (id, userId) := Prod.ext hboard huser
    rw [(lookup_eq_some_iff d.oneMember).mpr ⟨hm, hkey⟩]
    rfl

/-- Which boards of an account the resolution grants at all. -/
theorem resolves_iff {w : Workspace} (haccount : w.accountId = some accountId)
    (roles : List AccountRole) (memberRole : Option WorkspaceRole) :
    (resolveWorkspaceAccess userId w roles memberRole).isSome = true <->
      roles ≠ [] ∧
        (AccountRole.admin ∈ roles ∨ w.accessMode = .account ∨ memberRole.isSome = true) := by
  unfold resolveWorkspaceAccess
  rw [if_neg (by rw [haccount]; exact Option.some_ne_none _)]
  by_cases hnil : roles = []
  · rw [if_pos hnil]
    constructor
    · intro h
      cases h
    · intro h
      exact absurd hnil h.left
  · rw [if_neg hnil]
    by_cases hadmin : AccountRole.admin ∈ roles
    · rw [if_pos hadmin]
      exact ⟨fun _ => ⟨hnil, Or.inl hadmin⟩, fun _ => rfl⟩
    · rw [if_neg hadmin]
      by_cases hmode : w.accessMode = .account
      · rw [if_pos hmode]
        constructor
        · intro _
          exact ⟨hnil, Or.inr (Or.inl hmode)⟩
        · intro _
          cases memberRole with
          | none => rfl
          | some role => rfl
      · rw [if_neg hmode]
        constructor
        · intro h
          exact ⟨hnil, Or.inr (Or.inr h)⟩
        · rintro ⟨_, h | h | h⟩
          · exact absurd h hadmin
          · exact absurd h hmode
          · exact h

theorem mem_accountIds :
    accountId ∈ (d.accessibleAccountScopes userId).accountIds <->
      d.rolesFor accountId userId ≠ [] := by
  rw [rolesFor_ne_nil_iff]
  show accountId ∈ (d.memberships.filter _).map _ <-> _
  rw [List.mem_map]
  constructor
  · rintro ⟨m, hm, hkey⟩
    rw [List.mem_filter, decide_eq_true_iff] at hm
    exact ⟨m, hm.left, Prod.ext hkey hm.right⟩
  · rintro ⟨m, hm, hkey⟩
    refine ⟨m, ?_, congrArg Prod.fst hkey⟩
    rw [List.mem_filter, decide_eq_true_iff]
    exact ⟨hm, congrArg Prod.snd hkey⟩

theorem mem_adminAccountIds :
    accountId ∈ (d.accessibleAccountScopes userId).adminAccountIds <->
      AccountRole.admin ∈ d.rolesFor accountId userId := by
  rw [mem_rolesFor_iff]
  show accountId ∈ ((d.memberships.filter _).filter _).map _ <-> _
  rw [List.mem_map]
  constructor
  · rintro ⟨m, hm, hkey⟩
    rw [List.mem_filter, List.mem_filter, decide_eq_true_iff, decide_eq_true_iff] at hm
    exact ⟨m, hm.left.left, Prod.ext hkey hm.left.right, hm.right⟩
  · rintro ⟨m, hm, hkey, hrole⟩
    refine ⟨m, ?_, congrArg Prod.fst hkey⟩
    rw [List.mem_filter, List.mem_filter, decide_eq_true_iff, decide_eq_true_iff]
    exact ⟨⟨hm, congrArg Prod.snd hkey⟩, hrole⟩

/-- The clauses of the query, for a board of the account that is asked about. -/
theorem visible_iff {w : Workspace} (haccount : w.accountId = some accountId)
    {scopes : AccountScopes}
    (hids : forall id, id ∈ scopes.accountIds <->
      id = accountId ∧ d.rolesFor accountId userId ≠ [])
    (hadmin : forall id, id ∈ scopes.adminAccountIds <->
      id = accountId ∧ AccountRole.admin ∈ d.rolesFor accountId userId) :
    visible d scopes userId w = true <->
      (resolveWorkspaceAccess userId w (d.rolesFor accountId userId)
        (d.memberRoleOf w.id userId)).isSome = true := by
  have hany : forall ids : List String,
      (ids.any fun id => some accountId = some id) = true <-> accountId ∈ ids := by
    intro ids
    simp
  have hrow : (d.members.any fun m => m.userId = userId ∧ m.workspaceId = w.id) = true <->
      (d.memberRoleOf w.id userId).isSome = true := by
    rw [memberRoleOf_isSome_iff, List.any_eq_true]
    simp only [decide_eq_true_iff]
  have hne : AccountRole.admin ∈ d.rolesFor accountId userId ->
      d.rolesFor accountId userId ≠ [] := List.ne_nil_of_mem
  rw [resolves_iff haccount]
  unfold visible
  simp only [Bool.or_eq_true, Bool.and_eq_true, hany, hrow, hids, hadmin, haccount,
    decide_eq_true_iff, reduceCtorEq, false_and, or_false, true_and]
  tauto

end Agreement

/-- The boards listed for a person in an account are those that the resolution
grants there. -/
theorem mem_membershipReachOf {d : Directory} {accountId userId id : String} :
    id ∈ d.membershipReachOf accountId (some userId) <->
      d.accountOf id = some (some accountId) ∧
        exists role, d.resolveWorkspaceAccessUncached id userId = some (some role) := by
  unfold Directory.membershipReachOf
  dsimp only
  have hscopes : forall {ids : List String} {P : Prop}, (accountId ∈ ids <-> P) ->
      forall other, other ∈ ids.filter (fun id => id = accountId) <-> other = accountId ∧ P := by
    intro ids P hP other
    rw [List.mem_filter, decide_eq_true_iff, ← hP]
    constructor
    · rintro ⟨hmem, rfl⟩
      exact ⟨rfl, hmem⟩
    · rintro ⟨rfl, hmem⟩
      exact ⟨hmem, rfl⟩
  rw [mem_sortIds, List.mem_map]
  constructor
  · rintro ⟨w, hw, rfl⟩
    rw [List.mem_filter, decide_eq_true_iff] at hw
    unfold Directory.listVisible at hw
    rw [List.mem_filter] at hw
    have hfound : d.accessRowOf w.id = some w :=
      (lookup_eq_some_iff d.oneWorkspace).mpr ⟨hw.left.left, rfl⟩
    have hvisible := (visible_iff hw.right (hscopes mem_accountIds)
      (hscopes mem_adminAccountIds)).mp hw.left.right
    rcases Option.isSome_iff_exists.mp hvisible with ⟨role, hrole⟩
    refine ⟨?_, role, ?_⟩
    · unfold Directory.accountOf
      rw [hfound, Option.map_some, hw.right]
    · simp only [Directory.resolveWorkspaceAccessUncached, hfound, hw.right, hrole]
  · rintro ⟨haccount, role, haccess⟩
    rcases Option.map_eq_some_iff.mp haccount with ⟨w, hfound, hw⟩
    have hsome := (lookup_eq_some_iff d.oneWorkspace).mp hfound
    simp only [Directory.resolveWorkspaceAccessUncached, hfound, hw, Option.some.injEq] at haccess
    refine ⟨w, ?_, hsome.right⟩
    rw [List.mem_filter, decide_eq_true_iff]
    unfold Directory.listVisible
    rw [List.mem_filter]
    refine ⟨⟨hsome.left, (visible_iff hw (hscopes mem_accountIds)
      (hscopes mem_adminAccountIds)).mpr ?_⟩, hw⟩
    rw [hsome.right, haccess]
    rfl

end Access
end CatFactory
