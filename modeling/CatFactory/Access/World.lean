import CatFactory.Access.AuthorizationServer
import CatFactory.Access.Surface
import CatFactory.Foundation.Runs

/-!
# Calls on the key store

Keys are minted from a board's panel, by another key, and for the code of a host
that a person has approved.  A call goes from one await to the next, and between
two of its turns any other call, and any change of the directory, may come.  The
reads of the gate, of the panel's gate and of an approval stand in one turn each,
and the access of a person to a board is read through a cache, from the tables of
a minute ago at the earliest.  What was sealed, minted and redirected, and which
boards ever were, is kept for the proofs only.
-/

namespace CatFactory
namespace Access

open Foundation
open Policy (WorkspaceRole)

/-! ## Changes of the directory -/

inductive DirectoryWrite where
  | createWorkspace (w : Workspace)
  | deleteWorkspace (id : String)
  | linkAccount (id accountId : String)
  | setAccessMode (id : String) (mode : WorkspaceAccessMode)
  | setMembership (m : Membership)
  | removeMembership (accountId userId : String)
  | setMember (m : WorkspaceMember)
  | removeMember (workspaceId userId : String)

/-- Only a board without an account is linked to one. -/
def linkRow (id accountId : String) (w : Workspace) : Workspace :=
  if w.id = id ∧ w.accountId = none then { w with accountId := some accountId } else w

def modeRow (id : String) (mode : WorkspaceAccessMode) (w : Workspace) : Workspace :=
  if w.id = id then { w with accessMode := mode } else w

@[simp] theorem linkRow_id (id accountId : String) (w : Workspace) :
    (linkRow id accountId w).id = w.id := by
  unfold linkRow
  split <;> rfl

@[simp] theorem modeRow_id (id : String) (mode : WorkspaceAccessMode) (w : Workspace) :
    (modeRow id mode w).id = w.id := by
  unfold modeRow
  split <;> rfl

theorem nodup_put {item key : Type} [DecidableEq key] {keyOf : item -> key} {xs : List item}
    (h : (xs.map keyOf).Nodup) (x : item) :
    (((xs.filter fun y => keyOf y ≠ keyOf x) ++ [x]).map keyOf).Nodup := by
  rw [List.map_append, List.nodup_append]
  refine ⟨(List.filter_sublist.map keyOf).nodup h, List.nodup_singleton _, ?_⟩
  intro a ha b hb
  rcases List.mem_map.mp ha with ⟨y, hy, rfl⟩
  rw [List.mem_filter, decide_eq_true_iff] at hy
  rw [List.map_singleton, List.mem_singleton] at hb
  rw [hb]
  exact hy.right

namespace Directory

variable (d : Directory)

def createWorkspace (w : Workspace) (h : w.id ∉ d.workspaces.map Workspace.id) : Directory :=
  { d with
    workspaces := d.workspaces ++ [w]
    oneWorkspace := by
      rw [List.map_append, List.nodup_append]
      refine ⟨d.oneWorkspace, List.nodup_singleton _, ?_⟩
      intro a ha b hb
      rw [List.map_singleton, List.mem_singleton] at hb
      rw [hb]
      rintro rfl
      exact h ha }

/-- The members of a board go with it. -/
def deleteWorkspace (id : String) : Directory :=
  { d with
    workspaces := d.workspaces.filter fun w => w.id ≠ id
    members := d.members.filter fun m => m.workspaceId ≠ id
    oneWorkspace := (List.filter_sublist.map _).nodup d.oneWorkspace
    oneMember := (List.filter_sublist.map _).nodup d.oneMember }

def mapWorkspaces (f : Workspace -> Workspace) (hf : forall w, (f w).id = w.id) : Directory :=
  { d with
    workspaces := d.workspaces.map f
    oneWorkspace := by
      rw [List.map_map, show Workspace.id ∘ f = Workspace.id from funext hf]
      exact d.oneWorkspace }

def setMembership (m : Membership) : Directory :=
  { d with
    memberships := (d.memberships.filter fun other => other.key ≠ m.key) ++ [m]
    oneMembership := nodup_put d.oneMembership m }

def removeMembership (accountId userId : String) : Directory :=
  { d with
    memberships := d.memberships.filter fun other => other.key ≠ (accountId, userId)
    oneMembership := (List.filter_sublist.map _).nodup d.oneMembership }

def setMember (m : WorkspaceMember) : Directory :=
  { d with
    members := (d.members.filter fun other => other.key ≠ m.key) ++ [m]
    oneMember := nodup_put d.oneMember m }

def removeMember (workspaceId userId : String) : Directory :=
  { d with
    members := d.members.filter fun other => other.key ≠ (workspaceId, userId)
    oneMember := (List.filter_sublist.map _).nodup d.oneMember }

def apply : DirectoryWrite -> Option Directory
  | .createWorkspace w =>
      if h : w.id ∈ d.workspaces.map Workspace.id then none else some (d.createWorkspace w h)
  | .deleteWorkspace id => some (d.deleteWorkspace id)
  | .linkAccount id accountId => some (d.mapWorkspaces (linkRow id accountId) (by simp))
  | .setAccessMode id mode => some (d.mapWorkspaces (modeRow id mode) (by simp))
  | .setMembership m => some (d.setMembership m)
  | .removeMembership accountId userId => some (d.removeMembership accountId userId)
  | .setMember m => some (d.setMember m)
  | .removeMember workspaceId userId => some (d.removeMember workspaceId userId)

end Directory

/-! ## Requests -/

structure CreateKeyInput where
  label : Utf16
  scope : PublicApiScope := .write
  actsAsSelf : Bool := false
  workspaceIds : Option (Option (List String)) := none
  followsMemberships : Bool := false
deriving DecidableEq

/-- The body's schema admits no rung that could mint in turn. -/
structure HeadlessKeyInput where
  label : Utf16
  scope : Option { s : PublicApiScope // s ∈ HEADLESS_MINTABLE_SCOPES } := none
  externalIdentity : Option Utf16 := none
  workspaceIds : Option (Option (List String)) := none
deriving DecidableEq

inductive Decision where
  | approve (workspaceId : String) (scope : PublicApiScope)
  | deny
deriving DecidableEq

/-- A session's person is `none` where nobody is signed in. -/
inductive Request where
  | createKey (workspaceId : String) (user : Option String) (input : CreateKeyInput)
  | revokeKey (workspaceId : String) (user : Option String) (keyId : String)
  | createHeadless (headers : ApiRequest) (input : HeadlessKeyInput)
  | revokeHeadless (headers : ApiRequest) (keyId : String)
  | useKey (headers : ApiRequest) (need : PublicApiScope)
  | register (clientName : Option String) (redirectUris : List (Option String))
  | beginAuthorization (input : AuthorizationInput)
  | decideAuthorization (user : Option String) (request : String) (decision : Decision)
  | redeem (grantType : String) (input : RedeemInput)

/-- Which call a key comes from, with what that call had seen. -/
inductive Origin where
  | panel (workspaceId : String) (user : Option String) (seen : Sight)
  | headless (auth : PublicApiKeyAuth) (headers : ApiRequest) (seen : Sight)
    (keys : List PublicApiKeyRecord)
  | code (code : SealedCode) (verifier : String) (time : Nat)

inductive Answer where
  | key (row : PublicApiKeyRecord) (raw : String)
  | token (accessToken : String) (scope : PublicApiScope) (keyId : String)
  | admitted (auth : PublicApiKeyAuth)
  | registered (clientId : String) (client : SealedClient)
  | consent (sealedRequest : String)
  | redirect (target : Redirect)
  | noContent
  | refused (refusal : Refusal)
  | protocolError (error : McpOAuthProtocolError)
  | storeFailed

inductive Call where
  | asked (request : Request)
  | vetting (owner : KeyOwner) (label : Utf16) (scope : PublicApiScope) (origin : Origin)
  | counting (owner : KeyOwner) (label : Utf16) (scope : PublicApiScope) (origin : Origin)
  | storing (row : PublicApiKeyRecord) (secret : String) (origin : Origin)
  | revoking (accountId keyId : String)
  | cascading (accountId keyId : String) (time : Nat)
  | done (answer : Answer)

/-- A sealed value, with what was seen when it was sealed. -/
structure Sealing where
  text : String
  value : Sealed
  time : Nat
  seen : Sight

/-- `past` has the earlier directories, each with the time it was replaced; `cached`
names the one that the access cache of the process at work answers from. -/
structure World where
  directory : Directory
  past : List (Nat × Directory)
  cached : Option Nat
  used : List String
  keys : List PublicApiKeyRecord
  now : Nat
  calls : List Call
  sealings : List Sealing
  redirects : List Redirect
  minted : List (PublicApiKeyRecord × Origin)

/-- `workspaceAccess.ttlInMsecs` -/
def WORKSPACE_ACCESS_TTL_MS : Nat :=
  60000

/-- The tables of now, or earlier ones whose answers may still be cached. -/
def World.Recent (w : World) (d : Directory) : Prop :=
  d = w.directory ∨ exists replaced, (replaced, d) ∈ w.past ∧
    w.now ≤ replaced + WORKSPACE_ACCESS_TTL_MS

/-- What a turn sees; without an answer that is still cached, the access is read
from the tables of now. -/
def World.sight (w : World) : Sight where
  tables := w.directory
  access :=
    match w.cached.bind fun i => w.past[i]? with
    | none => w.directory
    | some (replaced, d) =>
        if w.now ≤ replaced + WORKSPACE_ACCESS_TTL_MS then d else w.directory

theorem World.recent_access (w : World) : w.Recent w.sight.access := by
  unfold World.sight
  dsimp only
  split
  · exact Or.inl rfl
  · rename_i replaced d hfound
    split
    · rename_i hcached
      rcases Option.bind_eq_some_iff.mp hfound with ⟨i, _, hi⟩
      exact Or.inr ⟨replaced, List.mem_of_getElem? hi, hcached⟩
    · exact Or.inl rfl

/-- What a turn does besides leading to the next one. -/
structure Effect where
  write : Option KeyWrite := none
  sealing : Option Sealing := none
  redirect : Option Redirect := none
  minted : Option (PublicApiKeyRecord × Origin) := none

/-- The values that a turn draws. -/
structure Fresh where
  id : String
  secret : String
  nonce : Nat
deriving DecidableEq

/-! ## The panel -/

def refuse (refusal : Refusal) : Call :=
  .done (.refused refusal)

/-- The session gate of a write under a board's path. -/
def sessionGate (dep : Deployment) (s : Sight) (user : Option String)
    (workspaceId : String) : Except Refusal (Option WorkspaceRole) :=
  match user with
  | none =>
      if dep.authEnabled then .error (unauthorizedKey "Authentication required") else .ok none
  | some userId =>
      match s.loadWorkspaceAccess workspaceId userId with
      | none => .ok none
      | some none =>
          .error { status := 404, code := "not_found", message := "Workspace not found" }
      | some (some role) =>
          if workspaceRoleAtLeast role .member then .ok (some role)
          else .error (forbiddenError
            "This action requires at least member access to this workspace")

/-- Without a session, nothing is gated; a person without a resolved access fails. -/
def holds (user : Option String) (access : Option WorkspaceRole)
    (permission : WorkspacePermission) : Bool :=
  match access with
  | none => user = none
  | some role => permission ∈ permissionsForRole role

def permissionError (permission : WorkspacePermission) : Refusal :=
  forbiddenError ("This action requires the " ++ permission.text ++ " permission")

def requireAccountAdmin (d : Directory) (user : Option String) (accountId : String) :
    Option Refusal :=
  match user with
  | none => some (unauthorizedKey "Managing a multi-workspace key requires a signed-in user")
  | some userId =>
      if AccountRole.admin ∈ d.rolesFor accountId userId then none
      else some (forbiddenError
        "Only an account admin can manage a key that reaches other workspaces"
        (some "account_admin_required"))

def assertFollowable (input : CreateKeyInput) : Option Refusal :=
  if ¬ input.actsAsSelf then
    some (validationError ("A key that follows your workspaces has to run as you: only a "
      ++ "person's own key has memberships to follow") "follows_memberships_requires_person")
  else if input.workspaceIds ≠ none then
    some (validationError ("A key that follows your workspaces takes its reach from your "
      ++ "memberships, so it names none") "follows_memberships_with_workspaces")
  else none

/-- What is asked for, or the board of the path alone. -/
def requestedReach (asked : Option (Option (List String))) (workspaceId : String) :
    Option (List String) :=
  asked.getD (some [workspaceId])

def panelOwner (accountId workspaceId : String) (user : Option String) (input : CreateKeyInput) :
    KeyOwner :=
  { accountId := accountId
    workspaceIds :=
      if input.followsMemberships then some []
      else requestedReach input.workspaceIds workspaceId
    createdByUserId := user
    actsAsUserId := if input.actsAsSelf then user else none
    followsMemberships := input.followsMemberships }

def mintPermission (input : CreateKeyInput) : WorkspacePermission :=
  if input.followsMemberships then .runsExecute else .secretsManage

def askCreateKey (dep : Deployment) (s : Sight) (workspaceId : String)
    (user : Option String) (input : CreateKeyInput) : Call :=
  match sessionGate dep s user workspaceId with
  | .error refusal => refuse refusal
  | .ok access =>
      match s.tables.accountOf workspaceId with
      | some (some accountId) =>
          let owner := panelOwner accountId workspaceId user input
          let origin := Origin.panel workspaceId user s
          let permission := mintPermission input
          if input.actsAsSelf ∧ user = none then
            refuse (validationError ("A key can only be bound to the person minting it, and this "
              ++ "request has no signed-in user. Sign in and mint the key again, or mint it "
              ++ "unbound.") "acts_as_self_requires_session")
          else if ¬ holds user access permission then refuse (permissionError permission)
          else if input.followsMemberships then
            match assertFollowable input with
            | some refusal => refuse refusal
            | none => .counting owner input.label input.scope origin
          else if owner.workspaceIds = some [workspaceId] then
            .counting owner input.label input.scope origin
          else
            match requireAccountAdmin s.tables user accountId with
            | some refusal => refuse refusal
            | none => .vetting owner input.label input.scope origin
      | _ => refuse (notFoundError "Workspace" workspaceId)

/-- Whether the viewer may retire a key that follows a person's memberships. -/
def managesMembershipKey (d : Directory) (user : Option String) (row : PublicApiKeyRecord) :
    Bool :=
  match user with
  | none => false
  | some userId =>
      AccountRole.admin ∈ d.rolesFor row.accountId userId || row.actsAsUserId = some userId

def askRevokeKey (dep : Deployment) (s : Sight) (keys : List PublicApiKeyRecord)
    (workspaceId : String) (user : Option String) (keyId : String) : Call :=
  match sessionGate dep s user workspaceId with
  | .error refusal => refuse refusal
  | .ok access =>
      match s.tables.accountOf workspaceId with
      | some (some accountId) =>
          match getLive keys accountId keyId with
          | none =>
              if holds user access .secretsManage then .done .noContent
              else refuse (permissionError .secretsManage)
          | some target =>
              if target.followsMemberships then
                if managesMembershipKey s.tables user target then .revoking accountId target.id
                else .done .noContent
              else if ¬ holds user access .secretsManage then
                refuse (permissionError .secretsManage)
              else if ¬ keyReaches target.workspaceIds workspaceId then .done .noContent
              else if target.workspaceIds = some [workspaceId] then .revoking accountId target.id
              else
                match requireAccountAdmin s.tables user accountId with
                | some refusal => refuse refusal
                | none => .revoking accountId target.id
      | _ => refuse (notFoundError "Workspace" workspaceId)

/-! ## Keys that manage keys -/

def PUBLIC_API_KEY_REACH_EXCEEDED_REASON : String :=
  "workspace_reach_exceeded"

def assertReachCovers (holder requested : Option (List String)) (action : String) :
    Option Refusal :=
  if reachCovers holder requested then none
  else some (forbiddenError
    ("This key cannot " ++ action ++ ": it reaches workspaces this key does not")
    (some PUBLIC_API_KEY_REACH_EXCEEDED_REASON))

def assertMayRevoke (holder : PublicApiKeyIdentity) (target : PublicApiKeyRecord) :
    Option Refusal :=
  if ¬ target.followsMemberships then
    assertReachCovers holder.workspaceIds target.workspaceIds "revoke that key"
  else if (holder.actsAsUserId = none ∨ holder.actsAsUserId ≠ target.actsAsUserId) ∧
      holder.workspaceIds ≠ none then
    some (forbiddenError ("This key cannot revoke that key: it follows a person's workspaces, so "
      ++ "only that person's own key or one reaching the whole account may")
      (some PUBLIC_API_KEY_REACH_EXCEEDED_REASON))
  else none

def DEFAULT_MINTED_SCOPE : PublicApiScope :=
  .write

def headlessOwner (auth : PublicApiKeyAuth) (input : HeadlessKeyInput) : KeyOwner :=
  { accountId := auth.identity.accountId
    workspaceIds := requestedReach input.workspaceIds auth.workspaceId
    createdByKeyId := some auth.identity.keyId
    externalIdentity := input.externalIdentity }

def HeadlessKeyInput.mintedScope (input : HeadlessKeyInput) : PublicApiScope :=
  match input.scope with
  | none => DEFAULT_MINTED_SCOPE
  | some s => s.val

def askCreateHeadless (dep : Deployment) (s : Sight) (keys : List PublicApiKeyRecord)
    (headers : ApiRequest) (input : HeadlessKeyInput) : Call :=
  match authorize dep.hash s keys headers HEADLESS_KEY_MINT_SCOPE with
  | .error refusal => refuse refusal
  | .ok auth =>
      let owner := headlessOwner auth input
      match assertReachCovers auth.identity.workspaceIds owner.workspaceIds
          "mint a key with that reach" with
      | some refusal => refuse refusal
      | none => .vetting owner input.label input.mintedScope (.headless auth headers s keys)

def askRevokeHeadless (dep : Deployment) (s : Sight) (keys : List PublicApiKeyRecord)
    (headers : ApiRequest) (keyId : String) : Call :=
  match authorize dep.hash s keys headers HEADLESS_KEY_MINT_SCOPE with
  | .error refusal => refuse refusal
  | .ok auth =>
      match getLive keys auth.identity.accountId keyId with
      | none => .done .noContent
      | some target =>
          match assertMayRevoke auth.identity target with
          | some refusal => refuse refusal
          | none => .revoking auth.identity.accountId target.id

/-- The write of a use: a stamp, when the last one is old. -/
def stampOf (dep : Deployment) (keys : List PublicApiKeyRecord) (headers : ApiRequest)
    (now : Nat) : Option KeyWrite :=
  match authenticatedRow dep.hash keys (bearerToken headers) with
  | none => none
  | some row => if stampDue row now then some (.markUsed row.id now) else none

/-! ## The flow of a host -/

/-- The board is one this person may mint a key on; the account the key belongs to. -/
def assertMayApprove (s : Sight) (user : Option String) (workspaceId : String) :
    Except Refusal String :=
  let denied : Option Refusal :=
    match user with
    | none => none
    | some userId =>
        match s.loadWorkspaceAccess workspaceId userId with
        | some (some role) =>
            if .secretsManage ∈ permissionsForRole role then none
            else some (permissionError .secretsManage)
        | _ => some (notFoundError "Workspace" workspaceId)
  match denied with
  | some refusal => .error refusal
  | none =>
      match s.tables.accountOf workspaceId with
      | some (some accountId) => .ok accountId
      | _ => .error (notFoundError "Workspace" workspaceId)

def REQUEST_INVALID : Refusal :=
  { status := 401, code := "unauthorized"
    message := "This authorization request is invalid or has expired"
    reason := some "mcp_authorization_request_invalid" }

def sealValue (dep : Deployment) (w : World) (fresh : Fresh) (value : Sealed) : Sealing :=
  { text := dep.encrypt fresh.nonce value, value := value, time := w.now, seen := w.sight }

def askRegister (dep : Deployment) (w : World) (fresh : Fresh) (clientName : Option String)
    (redirectUris : List (Option String)) : Call × Effect :=
  match registerClient dep clientName redirectUris w.now with
  | .error e => (.done (.protocolError e), {})
  | .ok client =>
      let sealing := sealValue dep w fresh (.client client)
      (.done (.registered sealing.text client), { sealing := some sealing })

def askBegin (dep : Deployment) (w : World) (fresh : Fresh) (input : AuthorizationInput) :
    Call × Effect :=
  match beginAuthorization dep input w.now with
  | .refused e => (.done (.protocolError e), {})
  | .reported target e =>
      let redirect := redirectWithError target e
      (.done (.redirect redirect), { redirect := some redirect })
  | .sealed request =>
      let sealing := sealValue dep w fresh (.request request)
      (.done (.consent sealing.text), { sealing := some sealing })

def askDecide (dep : Deployment) (w : World) (fresh : Fresh) (user : Option String)
    (sealedRequest : String) (decision : Decision) : Call × Effect :=
  if user = none ∧ dep.authEnabled then
    (refuse (unauthorizedKey "Authentication required"), {})
  else
    match readAuthorizationRequest dep sealedRequest w.now with
    | none => (refuse REQUEST_INVALID, {})
    | some request =>
        match decision with
        | .deny => (.done (.redirect (denial request)), { redirect := some (denial request) })
        | .approve workspaceId scope =>
            match assertMayApprove w.sight user workspaceId with
            | .error refusal => (refuse refusal, {})
            | .ok accountId =>
                let code := approvedCode request
                  { accountId := accountId, workspaceId := workspaceId, scope := scope
                    approvedByUserId := user } w.now
                let sealing := sealValue dep w fresh (.code code)
                let redirect := approvalRedirect request sealing.text
                (.done (.redirect redirect),
                  { sealing := some sealing, redirect := some redirect })

def askRedeem (dep : Deployment) (now : Nat) (grantType : String) (input : RedeemInput) : Call :=
  if grantType ≠ "authorization_code" then
    .done (.protocolError ⟨.unsupportedGrantType,
      "This authorization server serves the authorization_code grant; got '" ++ grantType
        ++ "'. There is no refresh grant: the issued token does not expire, so there is nothing "
        ++ "to refresh."⟩)
  else
    match redeemable dep input now with
    | .error e => .done (.protocolError e)
    | .ok code =>
        .counting (codeOwner code) (keyLabelFor code.clientName) code.scope
          (.code code input.codeVerifier now)

/-! ## Turns -/

/-- A mint's refusal, in the words of the surface that asked for it. -/
def mintRefused (origin : Origin) (refusal : Refusal) : Call :=
  match origin with
  | .code _ _ _ =>
      if refusal.code = "conflict" then .done (.protocolError (issueKeyRefusal refusal))
      else refuse refusal
  | _ => refuse refusal

def mintAnswer (row : PublicApiKeyRecord) (secret : String) (origin : Origin) : Answer :=
  match origin with
  | .code code _ _ => .token (rawKey row.id secret) code.scope row.id
  | _ => .key row (rawKey row.id secret)

def foreignWorkspace (d : Directory) (owner : KeyOwner) : Option String :=
  match owner.workspaceIds with
  | none => none
  | some ids => ids.find? fun id => d.accountOf id ≠ some (some owner.accountId)

def Request.turn (dep : Deployment) (w : World) (fresh : Fresh) : Request -> Call × Effect
  | .createKey workspaceId user input =>
      (askCreateKey dep w.sight workspaceId user input, {})
  | .revokeKey workspaceId user keyId =>
      (askRevokeKey dep w.sight w.keys workspaceId user keyId, {})
  | .createHeadless headers input =>
      (askCreateHeadless dep w.sight w.keys headers input,
        { write := stampOf dep w.keys headers w.now })
  | .revokeHeadless headers keyId =>
      (askRevokeHeadless dep w.sight w.keys headers keyId,
        { write := stampOf dep w.keys headers w.now })
  | .useKey headers need =>
      (match authorize dep.hash w.sight w.keys headers need with
        | .error refusal => refuse refusal
        | .ok auth => .done (.admitted auth),
        { write := stampOf dep w.keys headers w.now })
  | .register clientName redirectUris => askRegister dep w fresh clientName redirectUris
  | .beginAuthorization input => askBegin dep w fresh input
  | .decideAuthorization user request decision => askDecide dep w fresh user request decision
  | .redeem grantType input => (askRedeem dep w.now grantType input, {})

def Call.turn (dep : Deployment) (w : World) (fresh : Fresh) : Call -> Option (Call × Effect)
  | .asked request => some (request.turn dep w fresh)
  | .vetting owner label scope origin =>
      match foreignWorkspace w.directory owner with
      | some id =>
          some (refuse (notFoundError "Workspace" id (some "workspace_not_found")), {})
      | none => some (.counting owner label scope origin, {})
  | .counting owner label scope origin =>
      match issueRefusal w.keys owner with
      | some refusal => some (mintRefused origin refusal, {})
      | none =>
          some (.storing (issuedRecord dep.hash owner label scope fresh.id fresh.secret w.now)
            fresh.secret origin, {})
  | .storing row secret origin =>
      some (.done (mintAnswer row secret origin),
        { write := some (.add row), minted := some (row, origin) })
  | .revoking accountId keyId =>
      some (.cascading accountId keyId w.now,
        { write := some (.revoke accountId keyId w.now) })
  | .cascading accountId keyId time =>
      some (.done .noContent, { write := some (.revokeMintedBy accountId keyId time) })
  | .done _ => none

/-! ## Steps -/

/-- With a tick, the turn comes to a process whose access cache may answer from
earlier tables. -/
inductive Action where
  | change (write : DirectoryWrite)
  | tick (elapsed : Nat) (cached : Option Nat := none)
  | arrive (request : Request)
  | turn (i : Nat) (fresh : Fresh)

/-- A new board has an id that none had before; a deleted one takes its grants along. -/
def World.change (w : World) (write : DirectoryWrite) : Option World :=
  match w.directory.apply write with
  | none => none
  | some directory =>
      let next := { w with directory := directory, past := w.past ++ [(w.now, w.directory)] }
      match write with
      | .createWorkspace row =>
          if row.id ∈ w.used then none else some { next with used := row.id :: w.used }
      | .deleteWorkspace id =>
          some { next with keys := w.keys.map fun row => (KeyWrite.dropGrants id).onRow row }
      | _ => some next

/-- The effect of a turn; a failed write ends the call and leaves the rest. -/
def World.commit (w : World) (i : Nat) (next : Call) (effect : Effect) : World :=
  match effect.write.elim (some w.keys) (KeyWrite.apply w.keys) with
  | none => { w with calls := w.calls.set i (.done .storeFailed) }
  | some keys =>
      { w with
        keys := keys
        calls := w.calls.set i next
        sealings := w.sealings ++ effect.sealing.toList
        redirects := w.redirects ++ effect.redirect.toList
        minted := w.minted ++ effect.minted.toList }

def World.step (dep : Deployment) (w : World) : Action -> Option World
  | .change write => w.change write
  | .tick elapsed cached => some { w with now := w.now + elapsed, cached := cached }
  | .arrive request => some { w with calls := w.calls ++ [.asked request] }
  | .turn i fresh =>
      match w.calls[i]? with
      | none => none
      | some call =>
          match call.turn dep w fresh with
          | none => none
          | some (next, effect) => some (w.commit i next effect)

/-! ## Runs -/

/-- The sealed values that a request brings along. -/
def Request.presented : Request -> List String
  | .beginAuthorization input => [input.clientId]
  | .decideAuthorization _ request _ => [request]
  | .redeem _ input => [input.code]
  | _ => []

/-- Whatever opens was sealed here. -/
def Unforged (dep : Deployment) (w : World) : Action -> Prop
  | .turn i _ => forall request, w.calls[i]? = some (.asked request) ->
      forall text, text ∈ request.presented -> forall value, dep.decrypt text = some value ->
        exists s, s ∈ w.sealings ∧ s.text = text ∧ s.value = value
  | _ => True

/-- The same as a test. -/
def unforgedTest (dep : Deployment) (w : World) : Action -> Bool
  | .turn i _ =>
      match w.calls[i]? with
      | some (.asked request) =>
          request.presented.all fun text =>
            match dep.decrypt text with
            | none => true
            | some value => w.sealings.any fun s => s.text = text ∧ s.value = value
      | _ => true
  | _ => true

theorem unforged_of_test {dep : Deployment} (w : World) (a : Action)
    (h : unforgedTest dep w a = true) : Unforged dep w a := by
  cases a with
  | turn i fresh =>
      intro request hrequest text htext value hvalue
      simp only [unforgedTest, hrequest] at h
      have hany := List.all_eq_true.mp h text htext
      simp only [hvalue] at hany
      rcases List.any_eq_true.mp hany with ⟨s, hs, hsame⟩
      exact ⟨s, hs, of_decide_eq_true hsame⟩
  | change | tick | arrive => trivial

/-- A deployment with boards and people, before its first key. -/
def World.start (directory : Directory) : World :=
  { directory := directory
    past := []
    cached := none
    used := directory.workspaces.map Workspace.id
    keys := []
    now := 0
    calls := []
    sealings := []
    redirects := []
    minted := [] }

/-- Runs in which every value that opens was sealed here. -/
abbrev SealedRun (dep : Deployment) (directory : Directory) : List Action -> World -> Prop :=
  RunWhere (World.step dep) (Unforged dep) (World.start directory)

end Access
end CatFactory
