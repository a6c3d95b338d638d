import CatFactory.Access.Granting

/-!
# Every key has been granted

Behind every row of the store stands a mint that it evolved from, and behind
every mint somebody who was entitled to it when it was asked for.  The key of a
host goes back, seal by seal, to the approval of a person and to a registration.
-/

namespace CatFactory
namespace Access

open Foundation
open Policy (WorkspaceRole)

/-! ## Rows go back to mints -/

/-- A mint that the row evolved from; its boards are known, so they can only go. -/
def Recorded (w : World) (row : PublicApiKeyRecord) : Prop :=
  exists m, m ∈ w.minted ∧ Evolves w.directory m.1 row ∧
    forall ids, m.1.workspaceIds = some ids -> forall id, id ∈ ids -> id ∈ w.used

section Steps

variable {dep : Deployment} {w w' : World}

theorem Recorded.evolve {row row' : PublicApiKeyRecord} (h : Recorded w row) (hg : Grows w w')
    (he : Evolves w'.directory row row') : Recorded w' row' := by
  rcases h with ⟨m, hm, hold, hused⟩
  refine ⟨m, hg.minted m hm, hold.trans he ?_, ?_⟩
  · intro ids hids id hid hgone
    exact hg.gone id (hused ids hids id hid) hgone
  · intro ids hids id hid
    exact hg.used id (hused ids hids id hid)

theorem recorded_step {a : Action} (hs : Sound w)
    (hr : forall row, row ∈ w.keys -> Recorded w row) (h : World.step dep w a = some w') :
    forall row, row ∈ w'.keys -> Recorded w' row := by
  intro row' hrow'
  have hstep := stepped_of_step h
  have hg := step_grows hstep
  rcases (step_rows hstep).right row' hrow' with
    ⟨row, hrow, he⟩ | ⟨secret, origin, hcall, hminted, _⟩
  · exact (hr row hrow).evolve hg he
  · refine ⟨(row', origin), hminted, Evolves.refl _ _, ?_⟩
    have hsound : RowSound w row' := hs.calls _ hcall
    intro ids hids id hid
    exact hg.used id (hsound.anchors ids hids id hid).left

theorem run_recorded {directory : Directory} {trace : List Action}
    (h : SealedRun dep directory trace w) : forall row, row ∈ w.keys -> Recorded w row := by
  have hboth : Sound w ∧ forall row, row ∈ w.keys -> Recorded w row := by
    refine RunWhere.invariant (I := fun v => Sound v ∧ forall row, row ∈ v.keys -> Recorded v row)
      ⟨start_sound directory, fun row hrow => by cases hrow⟩ ?_ h
    rintro v a v' ⟨hs, hr⟩ hok hstep
    exact ⟨step_sound hs hok hstep, recorded_step hs hr hstep⟩
  exact hboth.right

end Steps

/-! ## Who was entitled -/

/-- The row as it was stored is one that its origin could have. -/
def Entitled (dep : Deployment) (w : World) (stored : PublicApiKeyRecord) : Origin -> Prop
  | .panel workspaceId user seen =>
      exists userId role, user = some userId ∧ stored.createdByUserId = some userId ∧
        stored.createdByKeyId = none ∧
        seen.tables.accountOf workspaceId = some (some stored.accountId) ∧
        seen.loadWorkspaceAccess workspaceId userId = some (some role) ∧
        (stored.followsMemberships = true ∧ stored.actsAsUserId = some userId ∧
            .runsExecute ∈ permissionsForRole role ∨
          stored.followsMemberships = false ∧ .secretsManage ∈ permissionsForRole role ∧
            (stored.workspaceIds = some [workspaceId] ∨
              AccountRole.admin ∈ seen.tables.rolesFor stored.accountId userId))
  | .headless auth headers seen keys =>
      authorize dep.hash seen keys headers .admin = .ok auth ∧
        stored.createdByKeyId = some auth.identity.keyId ∧
        stored.accountId = auth.identity.accountId ∧
        (exists minter, minter ∈ w.keys ∧ minter.id = auth.identity.keyId ∧
          minter.accountId = stored.accountId ∧ minter.scope = .admin ∧
          minter.createdByKeyId = none) ∧
        reachCovers auth.identity.workspaceIds stored.workspaceIds = true ∧
        stored.scope ∈ HEADLESS_MINTABLE_SCOPES
  | .code code verifier time =>
      stored.accountId = code.accountId ∧ stored.workspaceIds = some [code.workspaceId] ∧
        stored.scope = code.scope ∧ stored.createdByUserId = code.approvedByUserId ∧
        stored.createdByKeyId = none ∧ CodeBacked dep w code verifier time ∧
        exists approval, approval ∈ w.sealings ∧ approval.value = .code code ∧
          exists userId role, code.approvedByUserId = some userId ∧
            approval.seen.tables.accountOf code.workspaceId = some (some code.accountId) ∧
            approval.seen.loadWorkspaceAccess code.workspaceId userId = some (some role) ∧
            .secretsManage ∈ permissionsForRole role

section Entitlement

variable {dep : Deployment} {w : World}

/-- Under sessions, the panel lets nobody in but a person with a role on the board. -/
theorem panelAllows_person {s : Sight} {workspaceId accountId : String}
    {user : Option String} {permission : WorkspacePermission} (hauth : dep.authEnabled = true)
    (h : PanelAllows dep s workspaceId user accountId permission) :
    exists userId role, user = some userId ∧
      s.loadWorkspaceAccess workspaceId userId = some (some role) ∧
      permission ∈ permissionsForRole role := by
  rcases h.gate with ⟨access, hgate, hholds⟩
  unfold sessionGate at hgate
  split at hgate
  · rw [if_pos hauth] at hgate
    cases hgate
  · rename_i userId
    split at hgate
    · -- a person without an access holds nothing
      cases hgate
      exact absurd hholds (by simp [holds])
    · cases hgate
    · rename_i role haccess
      split at hgate
      · cases hgate
        exact ⟨userId, role, rfl, haccess, of_decide_eq_true hholds⟩
      · cases hgate

theorem requireAccountAdmin_none {d : Directory} {userId accountId : String}
    (h : requireAccountAdmin d (some userId) accountId = none) :
    AccountRole.admin ∈ d.rolesFor accountId userId := by
  unfold requireAccountAdmin at h
  dsimp only at h
  split at h
  · assumption
  · cases h

theorem storedReach_single {owner : KeyOwner} {id : String}
    (hplain : owner.followsMemberships = false) (h : owner.workspaceIds = some [id]) :
    owner.storedReach = some [id] := by
  unfold KeyOwner.storedReach
  rw [if_neg (ne_true_of_eq_false hplain), h]
  rfl

theorem reachCovers_storedReach {owner : KeyOwner} {outer : Option (List String)}
    (hplain : owner.followsMemberships = false)
    (h : reachCovers outer owner.workspaceIds = true) :
    reachCovers outer owner.storedReach = true := by
  unfold KeyOwner.storedReach
  rw [if_neg (ne_true_of_eq_false hplain)]
  cases outer with
  | none => rfl
  | some ids =>
      cases hinner : owner.workspaceIds with
      | none =>
          rw [hinner] at h
          cases h
      | some asked =>
          rw [hinner] at h
          refine reachCovers_iff.mpr ?_
          intro id hid
          rw [mem_sortIds, List.mem_dedup] at hid
          exact reachCovers_iff.mp h id hid

theorem entitled_panel {stored : PublicApiKeyRecord} {workspaceId : String}
    {user : Option String} {seen : Sight} (hauth : dep.authEnabled = true)
    (h : Stores dep w stored (.panel workspaceId user seen)) :
    Entitled dep w stored (.panel workspaceId user seen) := by
  rcases h with ⟨owner, ⟨accountId, input, rfl, hallowed, hreach⟩, haccount, hids, hfollows,
    huser, hkey, _, hacts⟩
  rcases panelAllows_person hauth hallowed with ⟨userId, role, rfl, haccess, hpermitted⟩
  have hsame : stored.accountId = accountId := haccount
  refine ⟨userId, role, rfl, huser, hkey, ?_, haccess, ?_⟩
  · rw [hsame]
    exact hallowed.account
  · unfold mintPermission at hpermitted
    rcases hreach with ⟨hmode, hself, _⟩ | ⟨hplain, hreach⟩
    · rw [if_pos hmode] at hpermitted
      refine Or.inl ⟨hfollows.trans hmode, hacts.trans ?_, hpermitted⟩
      exact if_pos hself
    · rw [if_neg (ne_true_of_eq_false hplain)] at hpermitted
      refine Or.inr ⟨hfollows.trans hplain, hpermitted, ?_⟩
      rcases hreach with honly | hadmin
      · refine Or.inl (hids.trans (storedReach_single hplain ?_))
        exact (if_neg (ne_true_of_eq_false hplain)).trans honly
      · rw [hsame]
        exact Or.inr (requireAccountAdmin_none hadmin)

theorem entitled_headless (hs : Sound w) {stored row : PublicApiKeyRecord}
    (hrow : row ∈ w.keys) (he : Evolves w.directory stored row) {auth : PublicApiKeyAuth}
    {headers : ApiRequest} {seen : Sight} {keys : List PublicApiKeyRecord}
    (h : Stores dep w stored (.headless auth headers seen keys)) :
    Entitled dep w stored (.headless auth headers seen keys) := by
  rcases h with ⟨owner, ⟨hmints, input, rfl, hscope, hcovered⟩, haccount, hids, _, _, hkey, _, _⟩
  rcases minter_of_sound hs hrow (he.createdByKeyId.trans hkey) with
    ⟨minter, hminter, hid, hsame, hadmin, hunminted⟩
  refine ⟨hmints, hkey, haccount, ⟨minter, hminter, hid, hsame.trans he.accountId, hadmin,
    hunminted⟩, ?_, ?_⟩
  · rw [hids]
    exact reachCovers_storedReach rfl hcovered
  · rw [hscope]
    exact mintedScope_mem input

/-- The approval that a code was sealed in. -/
theorem code_approved (ha : Accounted dep w) {code : SealedCode} {verifier : String}
    {time : Nat} (hback : CodeBacked dep w code verifier time) :
    exists approval, approval ∈ w.sealings ∧ approval.value = .code code ∧
      SealingSound dep w approval := by
  rcases hback.sealed with ⟨approval, hmem, hvalue⟩
  exact ⟨approval, hmem, hvalue, ha.sealings approval hmem⟩

theorem entitled_code (ha : Accounted dep w) {stored : PublicApiKeyRecord} {code : SealedCode}
    {verifier : String} {time : Nat} (hauth : dep.authEnabled = true)
    (h : Stores dep w stored (.code code verifier time)) :
    Entitled dep w stored (.code code verifier time) := by
  rcases h with ⟨owner, ⟨rfl, _, hscope, hback⟩, haccount, hids, _, huser, hkey, _, _⟩
  rcases code_approved ha hback with ⟨approval, hmem, hvalue, hsound⟩
  refine ⟨haccount, hids.trans (storedReach_single rfl rfl), hscope, huser, hkey, hback,
    approval, hmem, hvalue, ?_⟩
  unfold SealingSound at hsound
  rw [hvalue] at hsound
  rcases hsound with ⟨_, happrove, hperson, _⟩
  rcases assertMayApprove_ok happrove with ⟨hboard, hrole⟩
  rcases Option.ne_none_iff_exists'.mp (hperson hauth) with ⟨userId, huserId⟩
  rcases hrole userId huserId with ⟨role, haccess, hholds⟩
  exact ⟨userId, role, huserId, hboard, haccess, hholds⟩

end Entitlement

/-- In every state of every run under sessions, each row of the store evolved
from a mint that was asked for by somebody entitled to it: by a person whose role
on the board of the panel allowed it, and who was an admin of the account where
the key reaches other boards; by an admin key of the store, let through by the
gate, that reaches all that the new one reaches; or for a code that a person who may
manage secrets on that board approved. -/
theorem every_key_granted {dep : Deployment} {directory : Directory} {trace : List Action}
    {w : World} (hrun : SealedRun dep directory trace w) (hauth : dep.authEnabled = true)
    {row : PublicApiKeyRecord} (hrow : row ∈ w.keys) :
    exists stored origin, (stored, origin) ∈ w.minted ∧ Evolves w.directory stored row ∧
      Entitled dep w stored origin := by
  have ha := run_accounted hrun
  rcases run_recorded hrun row hrow with ⟨⟨stored, origin⟩, hm, he, _⟩
  refine ⟨stored, origin, hm, he, ?_⟩
  have hstores := ha.minted (stored, origin) hm
  cases origin with
  | panel workspaceId user seen => exact entitled_panel hauth hstores
  | headless auth headers seen keys => exact entitled_headless (run_sound hrun) hrow he hstores
  | code code verifier time => exact entitled_code ha hauth hstores

/-- A host registers, asks, is approved, and redeems its code. -/
def hostConnects : List Action :=
  [.arrive (.register (some "Host") [some HOST_URI]), .turn 0 ⟨"", "", 1⟩,
    .arrive (.beginAuthorization
      { clientId := "client", redirectUri := HOST_URI, responseType := "code"
        codeChallenge := "digest of verifier", codeChallengeMethod := "S256"
        state := some "tab" }),
    .turn 1 ⟨"", "", 2⟩,
    .arrive (.decideAuthorization (some "ada") "request" (.approve "ws1" .write)),
    .turn 2 ⟨"", "", 3⟩,
    .arrive (.redeem "authorization_code"
      { code := "code", clientId := "client", codeVerifier := "verifier" })]
    ++ takeTurns 3 3 ⟨"key4", "fourth", 4⟩

theorem hostConnects_sealed :
    SealedRun acmeDeployment acme hostConnects (acmeAfter hostConnects) :=
  @runWhere_endOf _ _ _ _ (unforgedTest acmeDeployment) unforged_of_test _ _
    (by decide +kernel)

theorem every_key_granted_host :
    exists stored origin, (stored, origin) ∈ (acmeAfter hostConnects).minted ∧
      Evolves (acmeAfter hostConnects).directory stored (rowAfter hostConnects "key4") ∧
      Entitled acmeDeployment (acmeAfter hostConnects) stored origin :=
  @every_key_granted acmeDeployment acme hostConnects (acmeAfter hostConnects)
    hostConnects_sealed rfl (rowAfter hostConnects "key4") (by decide +kernel)

/-- The flow that a host's key came out of, seal by seal. -/
structure HostFlow (dep : Deployment) (stored : PublicApiKeyRecord) (code : SealedCode)
    (verifier : String) (time : Nat) (registration opening approval : Sealing)
    (client : SealedClient) (request : McpAuthorizationRequestState) : Prop where
  registered : registration.value = .client client
  opened : opening.value = .request request
  approved : approval.value = .code code
  asks : request.clientId = registration.text
  redeems : code.clientId = registration.text
  listed : request.redirectUri ∈ client.redirectUris
  sent : code.redirectUri = request.redirectUri
  allowed : isAllowedRedirectUri dep code.redirectUri = true
  approvedInTime : approval.time ≤ opening.time + AUTHORIZATION_REQUEST_TTL_MS
  redeemedInTime : time ≤ approval.time + AUTHORIZATION_CODE_TTL_MS
  verified : dep.digest verifier = request.codeChallenge
  mayApprove : assertMayApprove approval.seen stored.createdByUserId code.workspaceId =
    .ok stored.accountId
  person : stored.createdByUserId = code.approvedByUserId
  board : stored.workspaceIds = some [code.workspaceId]
  scope : stored.scope = code.scope
  host : stored.externalIdentity = some (externalIdentityFor client.name)
  unbound : stored.actsAsUserId = none
  unminted : stored.createdByKeyId = none

/-- The key of a host goes back to a registration, a request and an approval.  The
code was approved while the request lived and redeemed while it lived itself, by
whoever knew the verifier that the request was opened with; it was sent to a URI
of the registration; and the key has the board, the scope and the person of the
approval, and acts for nobody. -/
theorem host_key_traces_to_approval {dep : Deployment} {directory : Directory}
    {trace : List Action} {w : World} (hrun : SealedRun dep directory trace w)
    {stored : PublicApiKeyRecord} {code : SealedCode} {verifier : String} {time : Nat}
    (hminted : (stored, Origin.code code verifier time) ∈ w.minted) :
    exists registration opening approval client request, registration ∈ w.sealings ∧
      opening ∈ w.sealings ∧ approval ∈ w.sealings ∧
      HostFlow dep stored code verifier time registration opening approval client request := by
  have ha := run_accounted hrun
  rcases ha.minted _ hminted with ⟨owner, ⟨rfl, _, hscope, hback⟩, haccount, hids, _, huser, hkey,
    hidentity, hacts⟩
  rcases code_approved ha hback with ⟨approval, happroval, hvalue, hsound⟩
  unfold SealingSound at hsound
  rw [hvalue] at hsound
  rcases hsound with ⟨hcodeExp, happrove, _, opening, request, hopening, hrequest, hlive, hclientId,
    hname, huri, hchallenge⟩
  have hopened := ha.sealings opening hopening
  unfold SealingSound at hopened
  rw [hrequest] at hopened
  rcases hopened with ⟨hrequestExp, registration, client, hregistration, hclient, htext, hlisted,
    hclientName⟩
  have hallowed := ha.sealings registration hregistration
  unfold SealingSound at hallowed
  rw [hclient] at hallowed
  refine ⟨registration, opening, approval, client, request, hregistration, hopening, happroval,
    hclient, hrequest, hvalue, htext.symm, hclientId.trans htext.symm, hlisted, huri, ?_,
    hrequestExp ▸ hlive, hcodeExp ▸ hback.live, hback.verified.trans hchallenge, ?_,
    huser, hids.trans (storedReach_single rfl rfl), hscope, ?_, hacts, hkey⟩
  · rw [huri]
    exact hallowed _ hlisted
  · have huser' : stored.createdByUserId = code.approvedByUserId := huser
    have haccount' : stored.accountId = code.accountId := haccount
    rw [huser', haccount']
    exact happrove
  · rw [← hclientName, ← hname]
    exact hidentity

theorem host_key_traces_to_ada :
    exists registration opening approval client request,
      registration ∈ (acmeAfter hostConnects).sealings ∧
      opening ∈ (acmeAfter hostConnects).sealings ∧
      approval ∈ (acmeAfter hostConnects).sealings ∧
      HostFlow acmeDeployment (rowAfter hostConnects "key4") hostCode "verifier" 0 registration
        opening approval client request :=
  @host_key_traces_to_approval acmeDeployment acme hostConnects (acmeAfter hostConnects)
    hostConnects_sealed (rowAfter hostConnects "key4") hostCode "verifier" 0 (.head _)

/-- Whatever the server redirects to is a URI that it allows and that some client
has registered, and a code goes to no other URI than the one it was sealed for. -/
theorem redirects_only_registered {dep : Deployment} {directory : Directory}
    {trace : List Action} {w : World} (hrun : SealedRun dep directory trace w) {r : Redirect}
    (hr : r ∈ w.redirects) :
    isAllowedRedirectUri dep r.url = true ∧
      (exists registration client, registration ∈ w.sealings ∧
        registration.value = .client client ∧ r.url ∈ client.redirectUris) ∧
      forall text, ("code", text) ∈ r.params -> exists approval code,
        approval ∈ w.sealings ∧ approval.text = text ∧ approval.value = .code code ∧
          code.redirectUri = r.url := by
  have ha := run_accounted hrun
  rcases ha.redirects r hr with ⟨⟨registration, client, hmem, hvalue, hlisted⟩, hcode⟩
  have hallowed := ha.sealings registration hmem
  unfold SealingSound at hallowed
  rw [hvalue] at hallowed
  exact ⟨hallowed _ hlisted, ⟨registration, client, hmem, hvalue, hlisted⟩, hcode⟩

def hostRedirect : Redirect :=
  { url := HOST_URI, params := [("code", "code"), ("state", "tab")] }

theorem redirects_only_registered_host :
    isAllowedRedirectUri acmeDeployment HOST_URI = true ∧
      (exists registration client, registration ∈ (acmeAfter hostConnects).sealings ∧
        registration.value = .client client ∧ HOST_URI ∈ client.redirectUris) ∧
      forall text, ("code", text) ∈ hostRedirect.params -> exists approval code,
        approval ∈ (acmeAfter hostConnects).sealings ∧ approval.text = text ∧
          approval.value = .code code ∧ code.redirectUri = HOST_URI :=
  @redirects_only_registered acmeDeployment acme hostConnects (acmeAfter hostConnects)
    hostConnects_sealed hostRedirect (by decide +kernel)

end Access
end CatFactory
