import CatFactory.Access.Growth

/-!
# Where a turn leads

Every request comes to an answer, to a mint or to a retirement, and what was
checked on the way is known from there on.
-/

namespace CatFactory
namespace Access

open Foundation
open Policy (WorkspaceRole)

/-- The panel of a board lets a person use a permission. -/
structure PanelAllows (dep : Deployment) (s : Sight) (workspaceId : String)
    (user : Option String) (accountId : String) (permission : WorkspacePermission) : Prop where
  account : s.tables.accountOf workspaceId = some (some accountId)
  gate : exists access, sessionGate dep s user workspaceId = .ok access ∧
    holds user access permission = true

/-- What a request may lead to, with what was checked. -/
inductive Leads (dep : Deployment) (w : World) : Request -> Call -> Prop where
  | answers {request : Request} {answer : Answer} : Leads dep w request (.done answer)
  | panelCounts {workspaceId accountId : String} {user : Option String} {input : CreateKeyInput}
      (allowed : PanelAllows dep w.sight workspaceId user accountId (mintPermission input))
      (reach : input.followsMemberships = true ∧ input.actsAsSelf = true ∧ user ≠ none ∨
        input.followsMemberships = false ∧
          requestedReach input.workspaceIds workspaceId = some [workspaceId]) :
      Leads dep w (.createKey workspaceId user input)
        (.counting (panelOwner accountId workspaceId user input) input.label input.scope
          (.panel workspaceId user w.sight))
  | panelVets {workspaceId accountId : String} {user : Option String} {input : CreateKeyInput}
      (allowed : PanelAllows dep w.sight workspaceId user accountId (mintPermission input))
      (plain : input.followsMemberships = false)
      (admin : requireAccountAdmin w.directory user accountId = none) :
      Leads dep w (.createKey workspaceId user input)
        (.vetting (panelOwner accountId workspaceId user input) input.label input.scope
          (.panel workspaceId user w.sight))
  | headlessVets {headers : ApiRequest} {input : HeadlessKeyInput} {auth : PublicApiKeyAuth}
      (admitted : authorize dep.hash w.sight w.keys headers HEADLESS_KEY_MINT_SCOPE = .ok auth)
      (covered : reachCovers auth.identity.workspaceIds
        (headlessOwner auth input).workspaceIds = true) :
      Leads dep w (.createHeadless headers input)
        (.vetting (headlessOwner auth input) input.label input.mintedScope
          (.headless auth headers w.sight w.keys))
  | redeems {grantType : String} {input : RedeemInput} {code : SealedCode}
      (valid : redeemable dep input w.now = .ok code) :
      Leads dep w (.redeem grantType input)
        (.counting (codeOwner code) (keyLabelFor code.clientName) code.scope
          (.code code input.codeVerifier w.now))
  | retires {request : Request} {accountId id : String} {target : PublicApiKeyRecord}
      (live : getLive w.keys accountId id = some target) :
      Leads dep w request (.revoking accountId target.id)

section Requests

variable {dep : Deployment} {w : World}

theorem leads_createKey (workspaceId : String) (user : Option String) (input : CreateKeyInput) :
    Leads dep w (.createKey workspaceId user input)
      (askCreateKey dep w.sight workspaceId user input) := by
  unfold askCreateKey
  split
  · exact .answers
  · rename_i access hgate
    split
    · rename_i accountId haccount
      dsimp only
      split
      · exact .answers
      · rename_i hself
        split
        · exact .answers
        · rename_i hholds
          have hallowed : PanelAllows dep w.sight workspaceId user accountId
              (mintPermission input) := ⟨haccount, access, hgate, not_not.mp hholds⟩
          split
          · rename_i hfollows
            split
            · exact .answers
            · rename_i hfollowable
              refine .panelCounts hallowed (Or.inl ⟨hfollows, ?_⟩)
              unfold assertFollowable at hfollowable
              split at hfollowable
              · cases hfollowable
              · rename_i hacts
                have hacts' := not_not.mp hacts
                exact ⟨hacts', fun hnone => hself ⟨hacts', hnone⟩⟩
          · rename_i hplain
            have hplain' := Bool.eq_false_of_not_eq_true hplain
            have hreach : (panelOwner accountId workspaceId user input).workspaceIds =
                requestedReach input.workspaceIds workspaceId := by
              unfold panelOwner
              exact if_neg hplain
            split
            · rename_i honly
              exact .panelCounts hallowed (Or.inr ⟨hplain', hreach.symm.trans honly⟩)
            · split
              · exact .answers
              · rename_i hadmin
                exact .panelVets hallowed hplain' hadmin
    · exact .answers

theorem leads_revokeKey (workspaceId : String) (user : Option String) (keyId : String) :
    Leads dep w (.revokeKey workspaceId user keyId)
      (askRevokeKey dep w.sight w.keys workspaceId user keyId) := by
  unfold askRevokeKey
  split
  · exact .answers
  · split
    · split
      · split <;> exact .answers
      · rename_i target hlive
        split
        · split
          · exact .retires hlive
          · exact .answers
        · split
          · exact .answers
          · split
            · exact .answers
            · split
              · exact .retires hlive
              · split
                · exact .answers
                · exact .retires hlive
    · exact .answers

theorem leads_createHeadless (headers : ApiRequest) (input : HeadlessKeyInput) :
    Leads dep w (.createHeadless headers input)
      (askCreateHeadless dep w.sight w.keys headers input) := by
  unfold askCreateHeadless
  split
  · exact .answers
  · rename_i auth hauth
    dsimp only
    split
    · exact .answers
    · rename_i hcovers
      refine .headlessVets hauth ?_
      unfold assertReachCovers at hcovers
      split at hcovers
      · assumption
      · cases hcovers

theorem leads_revokeHeadless (headers : ApiRequest) (keyId : String) :
    Leads dep w (.revokeHeadless headers keyId)
      (askRevokeHeadless dep w.sight w.keys headers keyId) := by
  unfold askRevokeHeadless
  split
  · exact .answers
  · split
    · exact .answers
    · rename_i target hlive
      split
      · exact .answers
      · exact .retires hlive

theorem leads_redeem (grantType : String) (input : RedeemInput) :
    Leads dep w (.redeem grantType input) (askRedeem dep w.now grantType input) := by
  unfold askRedeem
  split
  · exact .answers
  · split
    · exact .answers
    · rename_i code hcode
      exact .redeems hcode

theorem request_leads (fresh : Fresh) (request : Request) :
    Leads dep w request (request.turn dep w fresh).1 := by
  cases request with
  | createKey workspaceId user input => exact leads_createKey workspaceId user input
  | revokeKey workspaceId user keyId => exact leads_revokeKey workspaceId user keyId
  | createHeadless headers input => exact leads_createHeadless headers input
  | revokeHeadless headers keyId => exact leads_revokeHeadless headers keyId
  | useKey headers need =>
      simp only [Request.turn]
      split <;> exact .answers
  | register clientName redirectUris =>
      simp only [Request.turn, askRegister]
      split <;> exact .answers
  | beginAuthorization input =>
      simp only [Request.turn, askBegin]
      split <;> exact .answers
  | decideAuthorization user request decision =>
      simp only [Request.turn, askDecide]
      split
      · exact .answers
      · split
        · exact .answers
        · split
          · exact .answers
          · split <;> exact .answers
  | redeem grantType input => exact leads_redeem grantType input

end Requests

/-- Where the turn of a call leads. -/
inductive Next (dep : Deployment) (w : World) (fresh : Fresh) : Call -> Call -> Prop where
  | asked {request : Request} {next : Call} (leads : Leads dep w request next) :
      Next dep w fresh (.asked request) next
  | answers {call : Call} {answer : Answer} : Next dep w fresh call (.done answer)
  | vetted {owner : KeyOwner} {label : Utf16} {scope : PublicApiScope} {origin : Origin}
      (own : foreignWorkspace w.directory owner = none) :
      Next dep w fresh (.vetting owner label scope origin) (.counting owner label scope origin)
  | counted {owner : KeyOwner} {label : Utf16} {scope : PublicApiScope} {origin : Origin}
      (free : issueRefusal w.keys owner = none) :
      Next dep w fresh (.counting owner label scope origin)
        (.storing (issuedRecord dep.hash owner label scope fresh.id fresh.secret w.now)
          fresh.secret origin)
  | revoked {accountId keyId : String} :
      Next dep w fresh (.revoking accountId keyId) (.cascading accountId keyId w.now)

theorem mintRefused_done (origin : Origin) (refusal : Refusal) :
    exists answer, mintRefused origin refusal = .done answer := by
  unfold mintRefused
  split
  · split
    · exact ⟨_, rfl⟩
    · exact ⟨_, rfl⟩
  · exact ⟨_, rfl⟩

theorem turn_next {dep : Deployment} {w : World} {fresh : Fresh} {call next : Call}
    {effect : Effect} (h : call.turn dep w fresh = some (next, effect)) :
    Next dep w fresh call next := by
  cases call with
  | asked request =>
      have hleads := @request_leads dep w fresh request
      rw [show request.turn dep w fresh = (next, effect) from Option.some.inj h] at hleads
      exact .asked hleads
  | vetting owner label scope origin =>
      simp only [Call.turn] at h
      split at h
      · cases h
        exact .answers
      · rename_i hown
        cases h
        exact .vetted hown
  | counting owner label scope origin =>
      simp only [Call.turn] at h
      split at h
      · rename_i refusal _
        rcases mintRefused_done origin refusal with ⟨answer, hanswer⟩
        rw [hanswer] at h
        cases h
        exact .answers
      · rename_i hfree
        cases h
        exact .counted hfree
  | storing row secret origin =>
      cases h
      exact .answers
  | revoking accountId keyId =>
      cases h
      exact .revoked
  | cascading accountId keyId time =>
      cases h
      exact .answers
  | done answer => cases h

end Access
end CatFactory
