import CatFactory.Access.Keys

/-!
# The gate of the public surface

Every call names a raw key and, in a header, the board it acts on.  The gate
answers with the scope that the key has there, or with a refusal.
-/

namespace CatFactory
namespace Access

open Foundation
open Policy (WorkspaceRole)

/-- The headers of a call that the gate reads. -/
structure ApiRequest where
  authorization : Option String := none
  workspace : Option String := none
deriving DecidableEq

def PUBLIC_API_WORKSPACE_HEADER : String :=
  "x-cat-factory-workspace"

/-- `replace(/^Bearer\s+/i, '')` -/
def stripBearer (header : String) : String :=
  let cs := header.toList
  let rest := cs.drop 6
  if (cs.take 6).map Char.toLower = "bearer".toList ∧ rest.head?.any isSpace then
    String.ofList (rest.dropWhile isSpace)
  else header

def bearerToken (request : ApiRequest) : Option String :=
  request.authorization.map stripBearer

structure PublicApiKeyAuth where
  identity : PublicApiKeyIdentity
  workspaceId : String
deriving DecidableEq

/-! ## Refusals -/

def unauthorizedKey (message : String) : Refusal :=
  { status := 401, code := "unauthorized", message := message }

/-- Absent, foreign and out of reach are answered alike. -/
def WORKSPACE_NOT_FOUND : Refusal :=
  { status := 404, code := "not_found", message := "Workspace not found"
    reason := some "workspace_not_found" }

def WORKSPACE_REQUIRED : Refusal :=
  { status := 422, code := "validation"
    message := "This key reaches several workspaces; name one in the '"
      ++ PUBLIC_API_WORKSPACE_HEADER ++ "' header"
    reason := some "workspace_required" }

def insufficientScope (need : PublicApiScope) (why : String) : Refusal :=
  { status := 403, code := "insufficient_scope"
    message := "This action requires a '" ++ need.text ++ "'-scope key; " ++ why }

/-! ## The gate -/

/-- `{ ...auth, workspaceIds }` -/
def PublicApiKeyIdentity.withReach (auth : PublicApiKeyIdentity) (ids : List String) :
    PublicApiKeyIdentity :=
  { auth with workspaceIds := some ids }

/-- `{ ...auth, scope }` -/
def PublicApiKeyIdentity.withScope (auth : PublicApiKeyIdentity) (scope : PublicApiScope) :
    PublicApiKeyIdentity :=
  { auth with scope := scope }

section Gate

variable (hash : String -> String) (d : Directory) (s : Sight) (keys : List PublicApiKeyRecord)

/-- A key that follows its person's memberships reaches what that person can act
in now. -/
def resolveKey (request : ApiRequest) : Except Refusal PublicApiKeyIdentity :=
  match authenticate hash keys (bearerToken request) with
  | none => .error (unauthorizedKey "Invalid or missing API key")
  | some auth =>
      if auth.followsMemberships then
        let workspaceIds := d.membershipReachOf auth.accountId auth.actsAsUserId
        if workspaceIds = [] then
          .error (unauthorizedKey ("This key follows its person's workspaces, and they can act "
            ++ "in none of this account's"))
        else .ok (auth.withReach workspaceIds)
      else .ok auth

def authorizeKey (request : ApiRequest) (need : PublicApiScope) :
    Except Refusal PublicApiKeyIdentity :=
  match resolveKey hash d keys request with
  | .error refusal => .error refusal
  | .ok auth =>
      if scopeSatisfies auth.scope need then .ok auth
      else .error (insufficientScope need ("this key is scoped '" ++ auth.scope.text ++ "'"))

/-- The board the header names, else the only board of the key. -/
def namedWorkspace (request : ApiRequest) (auth : PublicApiKeyIdentity) : Option String :=
  match (request.workspace.map trim).filter fun id => id ≠ "" with
  | some id => some id
  | none =>
      match auth.workspaceIds with
      | some [id] => if id = "" then none else some id
      | _ => none

def resolveWorkspace (request : ApiRequest) (auth : PublicApiKeyIdentity) :
    Except Refusal String :=
  match namedWorkspace request auth with
  | none => .error WORKSPACE_REQUIRED
  | some workspaceId =>
      if ¬ keyReaches auth.workspaceIds workspaceId then .error WORKSPACE_NOT_FOUND
      else if auth.workspaceIds ≠ none then .ok workspaceId
      else if d.accountOf workspaceId = some (some auth.accountId) then .ok workspaceId
      else .error WORKSPACE_NOT_FOUND

/-- The scope of a following key, lowered to what its person's role allows. -/
def membershipScopeIn (auth : PublicApiKeyIdentity) (workspaceId : String) :
    Option PublicApiScope :=
  match auth.actsAsUserId with
  | none => none
  | some userId =>
      match s.loadWorkspaceAccess workspaceId userId with
      | some (some role) => some (scopeInWorkspace auth.scope role)
      | _ => none

def authorize (request : ApiRequest) (need : PublicApiScope) :
    Except Refusal PublicApiKeyAuth :=
  match authorizeKey hash s.tables keys request need with
  | .error refusal => .error refusal
  | .ok auth =>
      match resolveWorkspace s.tables request auth with
      | .error refusal => .error refusal
      | .ok workspaceId =>
          if ¬ auth.followsMemberships then .ok { identity := auth, workspaceId := workspaceId }
          else
            match membershipScopeIn s auth workspaceId with
            | none => .error WORKSPACE_NOT_FOUND
            | some scope =>
                if scopeSatisfies scope need then
                  .ok { identity := auth.withScope scope, workspaceId := workspaceId }
                else
                  .error (insufficientScope need ("this key follows its person's workspaces, "
                    ++ "and their role in this one allows '" ++ scope.text ++ "'"))

end Gate

/-! ## What the gate lets through -/

section Spec

variable {hash : String -> String} {d : Directory} {s : Sight}
  {keys : List PublicApiKeyRecord} {request : ApiRequest} {need : PublicApiScope}

/-- The row behind an identity, and the reach that the identity has now. -/
structure Identifies (hash : String -> String) (d : Directory) (keys : List PublicApiKeyRecord)
    (request : ApiRequest) (row : PublicApiKeyRecord) (auth : PublicApiKeyIdentity) : Prop where
  opened : authenticatedRow hash keys (bearerToken request) = some row
  plain : row.followsMemberships = false -> auth = identityOf row
  follows : row.followsMemberships = true ->
    auth = (identityOf row).withReach (d.membershipReachOf row.accountId row.actsAsUserId)

theorem resolveKey_ok {auth : PublicApiKeyIdentity}
    (h : resolveKey hash d keys request = .ok auth) :
    exists row, Identifies hash d keys request row auth := by
  unfold resolveKey at h
  split at h
  · cases h
  · rename_i found hfound
    rcases Option.map_eq_some_iff.mp hfound with ⟨row, hrow, rfl⟩
    refine ⟨row, hrow, ?_, ?_⟩
    · intro hplain
      have hplain' : (identityOf row).followsMemberships = false := hplain
      rw [if_neg (ne_true_of_eq_false hplain')] at h
      exact (Except.ok.inj h).symm
    · intro hfollows
      rw [if_pos (show (identityOf row).followsMemberships = true from hfollows)] at h
      dsimp only at h
      split at h
      · cases h
      · exact (Except.ok.inj h).symm

theorem authorizeKey_ok {auth : PublicApiKeyIdentity}
    (h : authorizeKey hash d keys request need = .ok auth) :
    resolveKey hash d keys request = .ok auth ∧ scopeSatisfies auth.scope need = true := by
  unfold authorizeKey at h
  split at h
  · cases h
  · rename_i found hfound
    split at h
    · rename_i hscope
      cases h
      exact ⟨hfound, hscope⟩
    · cases h

theorem resolveWorkspace_ok {auth : PublicApiKeyIdentity} {workspaceId : String}
    (h : resolveWorkspace d request auth = .ok workspaceId) :
    keyReaches auth.workspaceIds workspaceId = true ∧
      (auth.workspaceIds = none -> d.accountOf workspaceId = some (some auth.accountId)) := by
  unfold resolveWorkspace at h
  split at h
  · cases h
  · split at h
    · cases h
    · rename_i hreach
      split at h
      · rename_i hlisted
        cases h
        exact ⟨not_not.mp hreach, fun hnone => absurd hnone hlisted⟩
      · split at h
        · rename_i hsame
          cases h
          exact ⟨not_not.mp hreach, fun _ => hsame⟩
        · cases h

theorem membershipScopeIn_ok {auth : PublicApiKeyIdentity} {workspaceId : String}
    {scope : PublicApiScope} (h : membershipScopeIn s auth workspaceId = some scope) :
    exists userId role, auth.actsAsUserId = some userId ∧
      s.loadWorkspaceAccess workspaceId userId = some (some role) ∧
      scope = scopeInWorkspace auth.scope role := by
  unfold membershipScopeIn at h
  split at h
  · cases h
  · rename_i userId hacts
    split at h
    · rename_i role haccess
      exact ⟨userId, role, hacts, haccess, (Option.some.inj h).symm⟩
    · cases h

/-- What a call that is let through may do. -/
structure Admits (hash : String -> String) (s : Sight) (keys : List PublicApiKeyRecord)
    (request : ApiRequest) (need : PublicApiScope) (row : PublicApiKeyRecord)
    (auth : PublicApiKeyAuth) : Prop where
  opened : authenticatedRow hash keys (bearerToken request) = some row
  key : auth.identity.keyId = row.id
  account : auth.identity.accountId = row.accountId
  acts : auth.identity.actsAsUserId = row.actsAsUserId
  reaches : keyReaches auth.identity.workspaceIds auth.workspaceId = true
  whole : row.followsMemberships = false -> auth.identity.workspaceIds = row.workspaceIds ∧
    (row.workspaceIds = none -> s.tables.accountOf auth.workspaceId = some (some row.accountId))
  enough : scopeSatisfies auth.identity.scope need = true
  within : scopeSatisfies row.scope auth.identity.scope = true
  follows : row.followsMemberships = true ->
    s.tables.accountOf auth.workspaceId = some (some row.accountId) ∧
      auth.identity.workspaceIds =
        some (s.tables.membershipReachOf row.accountId row.actsAsUserId) ∧
      exists userId role, row.actsAsUserId = some userId ∧
        s.loadWorkspaceAccess auth.workspaceId userId = some (some role) ∧
        auth.identity.scope = scopeInWorkspace row.scope role

theorem authorize_ok {auth : PublicApiKeyAuth}
    (h : authorize hash s keys request need = .ok auth) :
    exists row, Admits hash s keys request need row auth := by
  unfold authorize at h
  split at h
  · cases h
  · rename_i found hfound
    rcases authorizeKey_ok hfound with ⟨hkey, hscope⟩
    rcases resolveKey_ok hkey with ⟨row, hrow⟩
    split at h
    · cases h
    · rename_i workspaceId hworkspace
      rcases resolveWorkspace_ok hworkspace with ⟨hreach, haccount⟩
      cases hmode : row.followsMemberships with
      | false =>
          rcases hrow.plain hmode with rfl
          have hmode' : (identityOf row).followsMemberships = false := hmode
          rw [if_pos (ne_true_of_eq_false hmode')] at h
          cases h
          refine ⟨row, hrow.opened, rfl, rfl, rfl, hreach, fun _ => ⟨rfl, haccount⟩, hscope, ?_, ?_⟩
          · exact scopeSatisfies_iff.mpr (Nat.le_refl _)
          · intro h
            rw [hmode] at h
            cases h
      | true =>
          rcases hrow.follows hmode with rfl
          have hmode' : ((identityOf row).withReach
              (s.tables.membershipReachOf row.accountId row.actsAsUserId)).followsMemberships = true :=
            hmode
          rw [if_neg (not_not.mpr hmode')] at h
          split at h
          · cases h
          · rename_i scope hmember
            split at h
            · rename_i henough
              cases h
              rcases membershipScopeIn_ok hmember with ⟨userId, role, hperson, haccess, rfl⟩
              have hacts : row.actsAsUserId = some userId := hperson
              have hlisted : workspaceId ∈
                  s.tables.membershipReachOf row.accountId row.actsAsUserId :=
                of_decide_eq_true hreach
              rw [hacts] at hlisted
              have hboard := (mem_membershipReachOf.mp hlisted).left
              refine ⟨row, hrow.opened, rfl, rfl, rfl, hreach, ?_, henough,
                (scopeInWorkspace_le _ _).left, fun _ =>
                  ⟨hboard, rfl, userId, role, hacts, haccess, rfl⟩⟩
              intro h
              rw [hmode] at h
              cases h
            · cases h

end Spec

end Access
end CatFactory
