import CatFactory.Access.MintLaw

/-!
# Who granted a key

Every row of the store was asked for by somebody entitled to it: a person on the
panel of a board, an admin key, or a host that redeemed what a person approved.
-/

namespace CatFactory
namespace Access

open Foundation
open Policy (WorkspaceRole)

/-! ## The flow of a host -/

/-- Where a sealed value comes from. -/
def SealingSound (dep : Deployment) (w : World) (s : Sealing) : Prop :=
  match s.value with
  | .client client => forall uri, uri ∈ client.redirectUris -> isAllowedRedirectUri dep uri = true
  | .request request =>
      request.exp = s.time + AUTHORIZATION_REQUEST_TTL_MS ∧
        exists s' client, s' ∈ w.sealings ∧ s'.value = .client client ∧
          s'.text = request.clientId ∧ request.redirectUri ∈ client.redirectUris ∧
          request.clientName = client.name
  | .code code =>
      code.exp = s.time + AUTHORIZATION_CODE_TTL_MS ∧
        assertMayApprove s.seen code.approvedByUserId code.workspaceId = .ok code.accountId ∧
        (dep.authEnabled = true -> code.approvedByUserId ≠ none) ∧
        exists s' request, s' ∈ w.sealings ∧ s'.value = .request request ∧
          s.time ≤ request.exp ∧ code.clientId = request.clientId ∧
          code.clientName = request.clientName ∧ code.redirectUri = request.redirectUri ∧
          code.codeChallenge = request.codeChallenge

/-- A code that was sealed here, redeemed in time with its verifier. -/
structure CodeBacked (dep : Deployment) (w : World) (code : SealedCode) (verifier : String)
    (time : Nat) : Prop where
  sealed : exists s, s ∈ w.sealings ∧ s.value = .code code
  live : time ≤ code.exp
  verified : dep.digest verifier = code.codeChallenge

/-- A redirect goes to a URI that a client has registered. -/
def Registered (w : World) (url : String) : Prop :=
  exists s client, s ∈ w.sealings ∧ s.value = .client client ∧ url ∈ client.redirectUris

/-- The code on a redirect was sealed for the very URI it is sent to. -/
def CarriesOwnCode (sealings : List Sealing) (r : Redirect) : Prop :=
  forall text, ("code", text) ∈ r.params -> exists s code, s ∈ sealings ∧ s.text = text ∧
    s.value = .code code ∧ code.redirectUri = r.url

/-! ## Grants -/

/-- What a mint under way, or a stored key, was granted by. -/
def Granted (dep : Deployment) (w : World) (owner : KeyOwner) (label : Utf16)
    (scope : PublicApiScope) : Origin -> Prop
  | .panel workspaceId user seen =>
      exists accountId input, owner = panelOwner accountId workspaceId user input ∧
        PanelAllows dep seen workspaceId user accountId (mintPermission input) ∧
        (input.followsMemberships = true ∧ input.actsAsSelf = true ∧ user ≠ none ∨
          input.followsMemberships = false ∧
            (requestedReach input.workspaceIds workspaceId = some [workspaceId] ∨
              requireAccountAdmin seen.tables user accountId = none))
  | .headless auth headers seen keys =>
      authorize dep.hash seen keys headers HEADLESS_KEY_MINT_SCOPE = .ok auth ∧
        exists input, owner = headlessOwner auth input ∧ scope = input.mintedScope ∧
          reachCovers auth.identity.workspaceIds owner.workspaceIds = true
  | .code code verifier time =>
      owner = codeOwner code ∧ label = keyLabelFor code.clientName ∧ scope = code.scope ∧
        CodeBacked dep w code verifier time

/-- A row that stores what was asked for. -/
def Stores (dep : Deployment) (w : World) (row : PublicApiKeyRecord) (origin : Origin) : Prop :=
  exists owner, Granted dep w owner row.label row.scope origin ∧
    row.accountId = owner.accountId ∧ row.workspaceIds = owner.storedReach ∧
    row.followsMemberships = owner.followsMemberships ∧
    row.createdByUserId = owner.createdByUserId ∧ row.createdByKeyId = owner.createdByKeyId ∧
    row.externalIdentity = owner.externalIdentity ∧ row.actsAsUserId = owner.actsAsUserId

def CallGranted (dep : Deployment) (w : World) : Call -> Prop
  | .vetting owner label scope origin => Granted dep w owner label scope origin
  | .counting owner label scope origin => Granted dep w owner label scope origin
  | .storing row _ origin => Stores dep w row origin
  | _ => True

structure Accounted (dep : Deployment) (w : World) : Prop where
  sealings : forall s, s ∈ w.sealings -> SealingSound dep w s
  redirects : forall r, r ∈ w.redirects -> Registered w r.url ∧ CarriesOwnCode w.sealings r
  calls : forall c, c ∈ w.calls -> CallGranted dep w c
  minted : forall m, m ∈ w.minted -> Stores dep w m.1 m.2

/-! ## A step keeps it -/

section Growth

variable {dep : Deployment} {w w' : World}

theorem SealingSound.grow {s : Sealing} (h : SealingSound dep w s)
    (hg : forall s, s ∈ w.sealings -> s ∈ w'.sealings) : SealingSound dep w' s := by
  unfold SealingSound at h ⊢
  split at h
  · exact h
  · rcases h with ⟨hexp, s', client, hmem, hrest⟩
    exact ⟨hexp, s', client, hg s' hmem, hrest⟩
  · rcases h with ⟨hexp, happrove, hperson, s', request, hmem, hrest⟩
    exact ⟨hexp, happrove, hperson, s', request, hg s' hmem, hrest⟩

theorem Registered.grow {url : String} (h : Registered w url)
    (hg : forall s, s ∈ w.sealings -> s ∈ w'.sealings) : Registered w' url := by
  rcases h with ⟨s, client, hmem, hrest⟩
  exact ⟨s, client, hg s hmem, hrest⟩

theorem CarriesOwnCode.grow {sealings sealings' : List Sealing} {r : Redirect}
    (h : CarriesOwnCode sealings r) (hg : forall s, s ∈ sealings -> s ∈ sealings') :
    CarriesOwnCode sealings' r := by
  intro text htext
  rcases h text htext with ⟨s, code, hmem, hrest⟩
  exact ⟨s, code, hg s hmem, hrest⟩

theorem Granted.grow {owner : KeyOwner} {label : Utf16} {scope : PublicApiScope}
    {origin : Origin} (h : Granted dep w owner label scope origin)
    (hg : forall s, s ∈ w.sealings -> s ∈ w'.sealings) :
    Granted dep w' owner label scope origin := by
  cases origin with
  | panel workspaceId user seen => exact h
  | headless auth headers seen keys => exact h
  | code code verifier time =>
      rcases h with ⟨howner, hlabel, hscope, ⟨s, hmem, hvalue⟩, hlive, hverified⟩
      exact ⟨howner, hlabel, hscope, ⟨s, hg s hmem, hvalue⟩, hlive, hverified⟩

theorem Stores.grow {row : PublicApiKeyRecord} {origin : Origin} (h : Stores dep w row origin)
    (hg : forall s, s ∈ w.sealings -> s ∈ w'.sealings) : Stores dep w' row origin := by
  rcases h with ⟨owner, hgranted, hrest⟩
  exact ⟨owner, hgranted.grow hg, hrest⟩

theorem CallGranted.grow {c : Call} (h : CallGranted dep w c)
    (hg : forall s, s ∈ w.sealings -> s ∈ w'.sealings) : CallGranted dep w' c := by
  cases c with
  | vetting owner label scope origin =>
      have hgranted : Granted dep w owner label scope origin := h
      exact hgranted.grow hg
  | counting owner label scope origin =>
      have hgranted : Granted dep w owner label scope origin := h
      exact hgranted.grow hg
  | storing row secret origin =>
      have hstores : Stores dep w row origin := h
      exact hstores.grow hg
  | asked | revoking | cascading | done => trivial

end Growth

section Steps

variable {dep : Deployment} {w w' : World}

/-- What the values that a request presents were sealed as. -/
def PresentsSealed (dep : Deployment) (w : World) (request : Request) : Prop :=
  forall text, text ∈ request.presented -> forall value, dep.decrypt text = some value ->
    exists s, s ∈ w.sealings ∧ s.text = text ∧ s.value = value

theorem granted_leads {request : Request} {next : Call}
    (hsealed : PresentsSealed dep w request) (h : Leads dep w request next) :
    CallGranted dep w next := by
  cases h with
  | answers => trivial
  | @panelCounts workspaceId accountId user input hallowed hreach =>
      refine ⟨accountId, input, rfl, hallowed, ?_⟩
      rcases hreach with hfollows | ⟨hplain, honly⟩
      · exact Or.inl hfollows
      · exact Or.inr ⟨hplain, Or.inl honly⟩
  | @panelVets workspaceId accountId user input hallowed hplain hadmin =>
      exact ⟨accountId, input, rfl, hallowed, Or.inr ⟨hplain, Or.inr hadmin⟩⟩
  | @headlessVets headers input auth hauth hcovered =>
      exact ⟨hauth, input, rfl, rfl, hcovered⟩
  | @redeems grantType input code hvalid =>
      have hchecked := redeemable_ok hvalid
      rcases hsealed input.code List.mem_cons_self _ hchecked.left with ⟨s, hmem, _, hvalue⟩
      exact ⟨rfl, rfl, rfl, ⟨s, hmem, hvalue⟩, hchecked.right.left, hchecked.right.right.right⟩
  | retires => trivial

theorem stores_issuedRecord {owner : KeyOwner} {label : Utf16} {scope : PublicApiScope}
    {origin : Origin} {id secret : String} {now : Nat}
    (h : Granted dep w owner label scope origin) :
    Stores dep w (issuedRecord dep.hash owner label scope id secret now) origin :=
  ⟨owner, h, rfl, rfl, rfl, rfl, rfl, rfl, rfl⟩

theorem registered_of_client (hsealed : forall value, dep.decrypt text = some value ->
      exists s, s ∈ w.sealings ∧ s.text = text ∧ s.value = value)
    {client : SealedClient} (hopen : openClient dep text = some client) {url : String}
    (hurl : url ∈ client.redirectUris) : Registered w url := by
  rcases hsealed _ (openClient_some hopen) with ⟨s, hmem, _, hvalue⟩
  exact ⟨s, client, hmem, hvalue, hurl⟩

/-- The redirect URI of a sealed request is one that its client registered. -/
theorem registered_of_request (ha : Accounted dep w) {s : Sealing} (hmem : s ∈ w.sealings)
    {request : McpAuthorizationRequestState} (hvalue : s.value = .request request) :
    Registered w request.redirectUri := by
  have hsound := ha.sealings s hmem
  unfold SealingSound at hsound
  rw [hvalue] at hsound
  rcases hsound with ⟨_, s', client, hmem', hvalue', _, hurl, _⟩
  exact ⟨s', client, hmem', hvalue', hurl⟩

theorem state_not_code (state : Option String) (text : String) :
    ("code", text) ∉ stateParams state := by
  unfold stateParams
  split
  · intro h
    exact absurd (Prod.mk.inj (List.mem_singleton.mp h)).left (by decide)
  · exact List.not_mem_nil

theorem error_carries_no_code (sealings : List Sealing) (target : McpOAuthRedirectTarget)
    (e : McpOAuthProtocolError) : CarriesOwnCode sealings (redirectWithError target e) := by
  intro text htext
  rcases List.mem_append.mp htext with hfirst | hstate
  · rcases List.mem_cons.mp hfirst with h | hsecond
    · exact absurd (Prod.mk.inj h).left (by decide)
    · exact absurd (Prod.mk.inj (List.mem_singleton.mp hsecond)).left (by decide)
  · exact absurd hstate (state_not_code _ text)

/-- What a turn may seal, and where it may redirect to. -/
structure EffectAccounted (dep : Deployment) (w : World) (effect : Effect) : Prop where
  sealing : forall s, effect.sealing = some s -> SealingSound dep w s
  redirect : forall r, effect.redirect = some r ->
    Registered w r.url ∧ CarriesOwnCode (w.sealings ++ effect.sealing.toList) r

theorem quiet_accounted {effect : Effect} (hs : effect.sealing = none)
    (hr : effect.redirect = none) : EffectAccounted dep w effect where
  sealing := by
    intro s hsome
    rw [hs] at hsome
    cases hsome
  redirect := by
    intro r hsome
    rw [hr] at hsome
    cases hsome

theorem sealing_accounted {effect : Effect} {s : Sealing} (hs : effect.sealing = some s)
    (hr : effect.redirect = none) (hsound : SealingSound dep w s) :
    EffectAccounted dep w effect where
  sealing := by
    intro s' hsome
    rw [hs] at hsome
    cases hsome
    exact hsound
  redirect := by
    intro r hsome
    rw [hr] at hsome
    cases hsome

theorem redirect_accounted {effect : Effect} {r : Redirect} (hs : effect.sealing = none)
    (hr : effect.redirect = some r) (hurl : Registered w r.url)
    (hcode : CarriesOwnCode w.sealings r) : EffectAccounted dep w effect where
  sealing := by
    intro s hsome
    rw [hs] at hsome
    cases hsome
  redirect := by
    intro r' hsome
    rw [hr] at hsome
    cases hsome
    exact ⟨hurl, hcode.grow (fun s => List.mem_append_left _)⟩

theorem accounted_begin {fresh : Fresh} {input : AuthorizationInput}
    (hsealed : PresentsSealed dep w (.beginAuthorization input)) :
    EffectAccounted dep w (askBegin dep w fresh input).2 := by
  have hclientSealed := hsealed input.clientId List.mem_cons_self
  unfold askBegin
  split
  · exact quiet_accounted rfl rfl
  · rename_i target e hreported
    rcases beginAuthorization_reported hreported with ⟨client, hopen, hurl⟩
    exact redirect_accounted rfl rfl (registered_of_client hclientSealed hopen hurl)
      (error_carries_no_code _ _ _)
  · rename_i request hbegun
    rcases beginAuthorization_sealed hbegun with ⟨hid, _, hexp, client, hopen, hurl, hname⟩
    rcases hclientSealed _ (openClient_some hopen) with ⟨s', hmem, htext, hvalue⟩
    refine sealing_accounted rfl rfl ?_
    exact ⟨hexp, s', client, hmem, hvalue, htext.trans hid.symm, hurl, hname⟩

theorem accounted_decide (ha : Accounted dep w) {fresh : Fresh} {user : Option String}
    {sealedRequest : String} {decision : Decision}
    (hsealed : PresentsSealed dep w (.decideAuthorization user sealedRequest decision)) :
    EffectAccounted dep w (askDecide dep w fresh user sealedRequest decision).2 := by
  have hrequestSealed := hsealed sealedRequest List.mem_cons_self
  unfold askDecide
  split
  · exact quiet_accounted rfl rfl
  · rename_i hperson
    split
    · exact quiet_accounted rfl rfl
    · rename_i request hread
      have hchecked := readAuthorizationRequest_some hread
      rcases hrequestSealed _ hchecked.left with ⟨s', hmem, _, hvalue⟩
      have hurl := registered_of_request ha hmem hvalue
      split
      · exact redirect_accounted rfl rfl hurl (error_carries_no_code _ _ _)
      · split
        · exact quiet_accounted rfl rfl
        · rename_i accountId happrove
          constructor
          · intro s hs
            cases hs
            refine ⟨rfl, happrove, ?_, s', request, hmem, hvalue, hchecked.right, rfl, rfl,
              rfl, rfl⟩
            intro hauth hnone
            exact hperson ⟨hnone, hauth⟩
          · intro r hr
            cases hr
            refine ⟨hurl, ?_⟩
            intro text htext
            rcases List.mem_cons.mp htext with h | hstate
            · refine ⟨_, _, List.mem_append_right _ List.mem_cons_self, ?_, rfl, rfl⟩
              exact (Prod.mk.inj h).right.symm
            · exact absurd hstate (state_not_code _ text)

theorem effect_accounted (ha : Accounted dep w) {fresh : Fresh} {request : Request}
    (hsealed : PresentsSealed dep w request) :
    EffectAccounted dep w (request.turn dep w fresh).2 := by
  cases request with
  | createKey | revokeKey | createHeadless | revokeHeadless | useKey | redeem =>
      exact quiet_accounted rfl rfl
  | register clientName redirectUris =>
      simp only [Request.turn, askRegister]
      split
      · exact quiet_accounted rfl rfl
      · rename_i client hclient
        refine sealing_accounted rfl rfl ?_
        exact (registerClient_ok hclient).right
  | beginAuthorization input => exact accounted_begin hsealed
  | decideAuthorization user sealedRequest decision => exact accounted_decide ha hsealed

theorem accounted_step {a : Action} (ha : Accounted dep w) (hunforged : Unforged dep w a)
    (h : World.step dep w a = some w') : Accounted dep w' := by
  have hstep := stepped_of_step h
  have hg := (step_grows hstep).sealings
  have hcalls : forall c, c ∈ w'.calls -> CallGranted dep w' c := by
    intro c hc
    rcases step_calls hstep hc with hold | ⟨request, rfl⟩ | rfl |
      ⟨i, fresh, call, effect, rfl, hfound, hturn, hcommit⟩
    · exact (ha.calls c hold).grow hg
    · trivial
    · trivial
    · have hcall := ha.calls call (List.mem_of_getElem? hfound)
      cases turn_next hturn with
      | asked hleads => exact (granted_leads (hunforged _ hfound) hleads).grow hg
      | answers => trivial
      | vetted hown => exact hcall.grow hg
      | counted hfree =>
          have hgranted : Granted dep w _ _ _ _ := hcall
          exact (stores_issuedRecord hgranted).grow hg
      | revoked => trivial
  rcases step_kept hstep with ⟨hs, hr, hm⟩ | ⟨i, fresh, call, next, effect, rfl, hfound, hturn, hcommit⟩
  · refine ⟨?_, ?_, hcalls, ?_⟩
    · rw [hs]
      exact fun s hmem => (ha.sealings s hmem).grow hg
    · rw [hr]
      exact fun r hmem => ⟨(ha.redirects r hmem).left.grow hg, (ha.redirects r hmem).right.grow hg⟩
    · rw [hm]
      exact fun m hmem => (ha.minted m hmem).grow hg
  · have hshows : (exists s, effect.sealing = some s) ∨ (exists r, effect.redirect = some r) ->
        EffectAccounted dep w effect := by
      intro hshown
      rcases turn_shows hturn hshown with ⟨request, rfl, heffect⟩
      rw [← heffect]
      exact effect_accounted ha (hunforged request hfound)
    refine ⟨?_, ?_, hcalls, ?_⟩
    · intro s hmem
      rw [hcommit.sealings] at hmem
      rcases List.mem_append.mp hmem with hold | hnew
      · exact (ha.sealings s hold).grow hg
      · have hsome := Option.mem_toList.mp hnew
        exact ((hshows (Or.inl ⟨s, hsome⟩)).sealing s hsome).grow hg
    · intro r hmem
      rw [hcommit.redirects] at hmem
      rcases List.mem_append.mp hmem with hold | hnew
      · exact ⟨(ha.redirects r hold).left.grow hg, (ha.redirects r hold).right.grow hg⟩
      · have hsome := Option.mem_toList.mp hnew
        have hredirect := (hshows (Or.inr ⟨r, hsome⟩)).redirect r hsome
        rw [← hcommit.sealings] at hredirect
        exact ⟨hredirect.left.grow hg, hredirect.right⟩
    · intro m hmem
      rw [hcommit.minted] at hmem
      rcases List.mem_append.mp hmem with hold | hnew
      · exact (ha.minted m hold).grow hg
      · have hsome := Option.mem_toList.mp hnew
        cases turn_write hturn with
        | quiet hwrite hminted =>
            rw [hminted] at hsome
            cases hsome
        | stamp hwrite hminted =>
            rw [hminted] at hsome
            cases hsome
        | store =>
            cases hsome
            have hstores : Stores dep w _ _ := ha.calls _ (List.mem_of_getElem? hfound)
            exact hstores.grow hg
        | revoke => cases hsome
        | cascade => cases hsome

end Steps

theorem start_accounted (dep : Deployment) (directory : Directory) :
    Accounted dep (World.start directory) where
  sealings := fun s hs => by cases hs
  redirects := fun r hr => by cases hr
  calls := fun c hc => by cases hc
  minted := fun m hm => by cases hm

theorem run_accounted {dep : Deployment} {directory : Directory} {trace : List Action}
    {w : World} (h : SealedRun dep directory trace w) : Accounted dep w :=
  RunWhere.invariant (I := Accounted dep) (start_accounted dep directory)
    (fun _ _ _ hi hok hstep => accounted_step hi hok hstep) h

end Access
end CatFactory
