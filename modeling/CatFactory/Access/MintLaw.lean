import CatFactory.Access.Minting

/-!
# What a run of mints and retirements leads to

In every run, the store stays sound.  So a key that another key minted is a rung
below it and reaches no further, and nothing is minted by a minted key.
-/

namespace CatFactory
namespace Access

open Foundation

section Steps

variable {dep : Deployment} {w w' : World}

/-- All but the first write of a retirement leads to a call that is sound already. -/
theorem turn_callSound (hs : Sound w) {i : Nat} {fresh : Fresh} {call next : Call}
    {effect : Effect} (hunforged : Unforged dep w (.turn i fresh))
    (hfound : w.calls[i]? = some call) (hturn : call.turn dep w fresh = some (next, effect)) :
    CallSound w next ∨ exists accountId keyId,
      call = .revoking accountId keyId ∧ next = .cascading accountId keyId w.now ∧
        effect.write = some (.revoke accountId keyId w.now) := by
  have hcall := hs.calls call (List.mem_of_getElem? hfound)
  cases turn_next hturn with
  | asked hleads => exact Or.inl (sound_leads hs hleads (hunforged _ hfound))
  | answers => exact Or.inl trivial
  | vetted hown => exact Or.inl ⟨hcall, anchors_of_vetted hs hown⟩
  | counted hfree => exact Or.inl (sound_issuedRecord hcall.left hcall.right)
  | revoked =>
      cases hturn
      exact Or.inr ⟨_, _, rfl, rfl, rfl⟩

/-- Once the first write of a retirement is made, the key is revoked. -/
theorem sound_cascading {i : Nat} {accountId keyId : String} {next : Call}
    {effect : Effect} (hcall : CallSound w (.revoking accountId keyId))
    (heffect : effect.write = some (.revoke accountId keyId w.now))
    (hcommit : Committed w i next effect w') :
    CallSound w' (.cascading accountId keyId w.now) := by
  rcases hcall with ⟨row, hrow, hid, haccount⟩
  refine ⟨_, (mem_apply (hcommit.applied heffect)).left row hrow, ?_⟩
  simp only [KeyWrite.onRow]
  split
  · exact ⟨hid, haccount, Option.some_ne_none _⟩
  · rename_i hcond
    refine ⟨hid, haccount, ?_⟩
    intro hlive
    exact hcond ⟨hid, haccount, hlive⟩

theorem onRow_id (row : PublicApiKeyRecord) (write : KeyWrite) :
    (write.onRow row).id = row.id := by
  cases write with
  | add other => rfl
  | markUsed | revoke | revokeMintedBy =>
      simp only [KeyWrite.onRow]
      split <;> rfl
  | dropGrants id => rfl

theorem map_onRow_ids (keys : List PublicApiKeyRecord) (write : KeyWrite) :
    (keys.map fun row => write.onRow row).map PublicApiKeyRecord.id =
      keys.map PublicApiKeyRecord.id := by
  rw [List.map_map]
  exact List.map_congr_left fun row _ => onRow_id row write

theorem apply_nodup {keys keys' : List PublicApiKeyRecord} {write : KeyWrite}
    (h : write.apply keys = some keys')
    (hids : (keys.map PublicApiKeyRecord.id).Nodup) :
    (keys'.map PublicApiKeyRecord.id).Nodup := by
  cases write with
  | add row =>
      simp only [KeyWrite.apply] at h
      split at h
      · cases h
      · rename_i hnew
        cases h
        rw [List.map_append, List.nodup_append]
        refine ⟨hids, List.nodup_singleton _, ?_⟩
        intro a ha b hb
        rw [List.map_singleton, List.mem_singleton] at hb
        rcases List.mem_map.mp ha with ⟨other, hother, rfl⟩
        rw [hb]
        exact lookup_eq_none_iff.mp (Option.not_isSome_iff_eq_none.mp hnew) other hother
  | markUsed | revoke | revokeMintedBy | dropGrants =>
      cases h
      rwa [map_onRow_ids]

theorem step_ids {a : Action} (hs : Sound w) (h : Stepped dep w w' a) :
    (w'.keys.map PublicApiKeyRecord.id).Nodup := by
  cases h with
  | change hdirectory hfresh hknown hused hkeys hrest =>
      rcases hkeys with hkeys | ⟨id, _, hkeys⟩
      · rw [hkeys]
        exact hs.ids
      · rw [hkeys, map_onRow_ids]
        exact hs.ids
  | tick hw =>
      subst hw
      exact hs.ids
  | arrive hw =>
      subst hw
      exact hs.ids
  | @turn i fresh call next effect hfound hturn hcommit =>
      cases hw : effect.write with
      | none =>
          rw [hcommit.unwritten hw]
          exact hs.ids
      | some write => exact apply_nodup (hcommit.applied hw) hs.ids
  | failed hfound hw =>
      subst hw
      exact hs.ids

theorem step_known {a : Action} (hs : Sound w) (h : Stepped dep w w' a) {id : String}
    (hid : w'.directory.accountOf id ≠ none) : id ∈ w'.used := by
  have hg := step_grows h
  have hsame : w'.directory = w.directory -> id ∈ w'.used := by
    intro hd
    rw [hd] at hid
    exact hg.used id (hs.known id hid)
  cases h with
  | change hdirectory hfresh hknown hused hkeys hrest =>
      by_cases hold : w.directory.accountOf id = none
      · rcases apply_gone hdirectory hold with hgone | ⟨row, hcreate, rfl⟩
        · exact absurd hgone hid
        · exact hknown row hcreate
      · exact hg.used id (hs.known id hold)
  | tick hw => exact hsame (by rw [hw])
  | arrive hw => exact hsame (by rw [hw])
  | turn hfound hturn hcommit => exact hsame hcommit.directory
  | failed hfound hw => exact hsame (by rw [hw])

/-- Only a request seals something or redirects. -/
theorem turn_shows {call next : Call} {fresh : Fresh} {effect : Effect}
    (h : call.turn dep w fresh = some (next, effect))
    (hshows : (exists s, effect.sealing = some s) ∨ exists r, effect.redirect = some r) :
    exists request, call = .asked request ∧ (request.turn dep w fresh).2 = effect := by
  have hloud : ¬ (effect.sealing = none ∧ effect.redirect = none) := by
    rintro ⟨hs, hr⟩
    rcases hshows with ⟨s, hsome⟩ | ⟨r, hsome⟩
    · rw [hs] at hsome
      cases hsome
    · rw [hr] at hsome
      cases hsome
  cases call with
  | asked request => exact ⟨request, rfl, congrArg Prod.snd (Option.some.inj h)⟩
  | vetting | counting =>
      simp only [Call.turn] at h
      split at h <;> (cases h; exact absurd ⟨rfl, rfl⟩ hloud)
  | storing | revoking | cascading =>
      cases h
      exact absurd ⟨rfl, rfl⟩ hloud
  | done answer => cases h

theorem assertMayApprove_ok {s : Sight} {user : Option String} {workspaceId accountId : String}
    (h : assertMayApprove s user workspaceId = .ok accountId) :
    s.tables.accountOf workspaceId = some (some accountId) ∧
      forall userId, user = some userId -> exists role,
        s.loadWorkspaceAccess workspaceId userId = some (some role) ∧
          .secretsManage ∈ permissionsForRole role := by
  unfold assertMayApprove at h
  dsimp only at h
  split at h
  · cases h
  · rename_i hallowed
    constructor
    · split at h
      · rename_i found hfound
        cases h
        exact hfound
      · cases h
    · rintro userId rfl
      dsimp only at hallowed
      split at hallowed
      · rename_i role haccess
        split at hallowed
        · rename_i hholds
          exact ⟨role, haccess, hholds⟩
        · cases hallowed
      · cases hallowed

/-- Only an approval seals a code, for a board of the account that it names. -/
theorem request_seals_code {request : Request} {fresh : Fresh} {s : Sealing} {code : SealedCode}
    (h : (request.turn dep w fresh).2.sealing = some s) (hvalue : s.value = .code code) :
    w.directory.accountOf code.workspaceId = some (some code.accountId) := by
  cases request with
  | createKey | revokeKey | createHeadless | revokeHeadless | useKey => cases h
  | register clientName redirectUris =>
      simp only [Request.turn, askRegister] at h
      split at h
      · cases h
      · cases h
        cases hvalue
  | beginAuthorization input =>
      simp only [Request.turn, askBegin] at h
      split at h
      · cases h
      · cases h
      · cases h
        cases hvalue
  | decideAuthorization user request decision =>
      simp only [Request.turn, askDecide] at h
      split at h
      · cases h
      · split at h
        · cases h
        · split at h
          · cases h
          · split at h
            · cases h
            · rename_i accountId happrove
              cases h
              cases hvalue
              exact (assertMayApprove_ok happrove).left
  | redeem grantType input => cases h

theorem step_codes {a : Action} (hs : Sound w) (h : Stepped dep w w' a) {s : Sealing}
    (hmem : s ∈ w'.sealings) {code : SealedCode} (hvalue : s.value = .code code) :
    Anchored w' code.accountId code.workspaceId := by
  have hg := step_grows h
  have hold : s ∈ w.sealings -> Anchored w' code.accountId code.workspaceId :=
    fun hs' => (hs.codes s hs' code hvalue).grow hg
  rcases step_kept h with ⟨hsame, _, _⟩ | ⟨i, fresh, call, next, effect, rfl, _, hturn, hcommit⟩
  · rw [hsame] at hmem
    exact hold hmem
  · rw [hcommit.sealings] at hmem
    rcases List.mem_append.mp hmem with hmem | hnew
    · exact hold hmem
    · have hsome := Option.mem_toList.mp hnew
      rcases turn_shows hturn (Or.inl ⟨s, hsome⟩) with ⟨request, rfl, heffect⟩
      exact (anchored_of_accountOf hs (request_seals_code
        ((congrArg Effect.sealing heffect).trans hsome) hvalue)).grow hg

theorem step_sound {a : Action} (hs : Sound w) (hunforged : Unforged dep w a)
    (h : World.step dep w a = some w') : Sound w' := by
  have hstep := stepped_of_step h
  have hg := step_grows hstep
  refine ⟨fun id hid => step_known hs hstep hid, step_ids hs hstep, ?_,
    fun s hmem code hvalue => step_codes hs hstep hmem hvalue, ?_⟩
  · intro row' hrow'
    rcases (step_rows hstep).right row' hrow' with ⟨row, hrow, he⟩ | ⟨secret, origin, hcall, _, _⟩
    · exact ((hs.rows row hrow).grow hs hg).evolve he
    · have hsound : RowSound w row' := hs.calls _ hcall
      exact hsound.grow hs hg
  · intro c hc
    rcases step_calls hstep hc with hold | ⟨request, rfl⟩ | rfl |
      ⟨i, fresh, call, effect, rfl, hfound, hturn, hcommit⟩
    · exact (hs.calls c hold).grow hs hg
    · trivial
    · trivial
    · rcases turn_callSound hs hunforged hfound hturn with
        hsound | ⟨accountId, keyId, rfl, rfl, hwrite⟩
      · exact hsound.grow hs hg
      · exact sound_cascading (hs.calls _ (List.mem_of_getElem? hfound)) hwrite hcommit

theorem start_sound (directory : Directory) : Sound (World.start directory) where
  known := by
    intro id hid
    rw [ne_eq, ← Option.not_isSome_iff_eq_none, not_not] at hid
    exact accountOf_isSome.mp hid
  ids := List.nodup_nil
  rows := fun row hrow => by cases hrow
  codes := fun s hs => by cases hs
  calls := fun c hc => by cases hc

end Steps

theorem run_sound {dep : Deployment} {directory : Directory} {trace : List Action} {w : World}
    (h : SealedRun dep directory trace w) : Sound w :=
  h.invariant (start_sound directory) fun _ _ _ hs hok hstep => step_sound hs hok hstep

/-- A listed board that is there belongs to the account of the key. -/
theorem account_of_listed {w : World} {row : PublicApiKeyRecord} (h : RowSound w row)
    {ids : List String} (hids : row.workspaceIds = some ids) {id : String} (hid : id ∈ ids)
    {account : Option String} (hboard : w.directory.accountOf id = some account) :
    account = some row.accountId := by
  rcases (h.anchors ids hids id hid).right with hthere | hgone
  · exact Option.some.inj (hboard.symm.trans hthere)
  · rw [hgone] at hboard
    cases hboard

/-! ## Chains of mints -/

theorem minter_of_sound {w : World} (hs : Sound w) {row : PublicApiKeyRecord}
    (hrow : row ∈ w.keys) {minterId : String} (hminted : row.createdByKeyId = some minterId) :
    exists minter, minter ∈ w.keys ∧ minter.id = minterId ∧ minter.accountId = row.accountId ∧
      minter.scope = .admin ∧ minter.createdByKeyId = none := by
  rcases (hs.rows row hrow).shaped.minted minterId hminted with
    ⟨_, minter, hmem, hid, haccount, hadmin, _⟩
  refine ⟨minter, hmem, hid, haccount, hadmin, ?_⟩
  cases hchain : minter.createdByKeyId with
  | none => rfl
  | some other =>
      have hlower := ((hs.rows minter hmem).shaped.minted other hchain).lower
      rw [hadmin] at hlower
      exact absurd hlower (by decide)

/-- How a key stands to the one that minted it. -/
structure BelowMinter (w : World) (row minter : PublicApiKeyRecord) : Prop where
  account : minter.accountId = row.accountId
  admin : minter.scope = .admin
  unminted : minter.createdByKeyId = none
  lower : scopeSatisfies row.scope HEADLESS_KEY_MINT_SCOPE = false
  unbound : row.actsAsUserId = none
  plain : row.followsMemberships = false
  own : forall ids, row.workspaceIds = some ids -> forall id, id ∈ ids -> forall account,
    w.directory.accountOf id = some account -> account = some minter.accountId
  reach : minter.followsMemberships = false -> forall id, w.directory.accountOf id ≠ none ->
    keyReaches row.workspaceIds id = true -> keyReaches minter.workspaceIds id = true

/-- In every state of every run, a key that another one minted stands below it:
the minter is an admin key of the same account that no key minted, the minted
one is no admin, acts for nobody, lists boards of that account only, and of the
boards still there it reaches only such as its minter reaches. -/
theorem minted_key_below_minter {dep : Deployment} {directory : Directory}
    {trace : List Action} {w : World} (hrun : SealedRun dep directory trace w)
    {row : PublicApiKeyRecord} (hrow : row ∈ w.keys) {minterId : String}
    (hminted : row.createdByKeyId = some minterId) :
    exists minter, minter ∈ w.keys ∧ minter.id = minterId ∧ BelowMinter w row minter := by
  have hs := run_sound hrun
  have hshaped := (hs.rows row hrow).shaped
  have hkey : (ownerOf row).createdByKeyId = some minterId := hminted
  rcases minter_of_sound hs hrow hminted with ⟨minter, hmem, hid, haccount, hadmin, hchain⟩
  rcases hshaped.minted minterId hminted with ⟨hlower, minter', hmem', hid', _, _, hcovers⟩
  rcases eq_of_key hs.ids hmem' hmem (hid'.trans hid.symm) with rfl
  refine ⟨minter', hmem, hid, haccount, hadmin, hchain, not_satisfies_of_mintable hlower, ?_, ?_,
    ?_, ?_⟩
  · by_contra hacts
    have hnone := (hshaped.bound hacts).right
    rw [hkey] at hnone
    cases hnone
  · by_contra hfollows
    have hnone := (hshaped.follows (Bool.eq_true_of_not_eq_false hfollows)).left
    rw [hkey] at hnone
    cases hnone
  · intro ids hids id hid account hboard
    rw [haccount]
    exact account_of_listed (hs.rows row hrow) hids hid hboard
  · intro hplain id hthere hreach
    cases hids : minter'.workspaceIds with
    | none => rfl
    | some ids =>
        rcases hcovers hplain ids hids with ⟨ids', hids', hmembers⟩
        rw [show row.workspaceIds = some ids' from hids'] at hreach
        rcases hmembers id (of_decide_eq_true hreach) with hin | ⟨_, hgone⟩
        · exact decide_eq_true hin
        · exact absurd hgone hthere

/-! ## A deployment with two boards -/

def HOST_URI : String :=
  "https://host.example/callback"

def hostClient : SealedClient :=
  { name := "Host", redirectUris := [HOST_URI], issuedAt := 0 }

def hostRequest : McpAuthorizationRequestState :=
  { clientId := "client"
    clientName := "Host"
    redirectUri := HOST_URI
    codeChallenge := "digest of verifier"
    state := some "tab"
    requestedScope := none
    exp := AUTHORIZATION_REQUEST_TTL_MS }

def hostCode : SealedCode :=
  { clientId := "client"
    clientName := "Host"
    redirectUri := HOST_URI
    codeChallenge := "digest of verifier"
    accountId := "acme"
    workspaceId := "ws1"
    scope := .write
    approvedByUserId := some "ada"
    exp := AUTHORIZATION_CODE_TTL_MS }

/-- One host, whose three values are the only ones that open. -/
def acmeDeployment : Deployment :=
  { authEnabled := true
    hash := fun secret => "hash of " ++ secret
    encrypt := fun _ value =>
      match value with
      | .client _ => "client"
      | .request _ => "request"
      | .code _ => "code"
    decrypt := fun text =>
      if text = "client" then some (.client hostClient)
      else if text = "request" then some (.request hostRequest)
      else if text = "code" then some (.code hostCode)
      else none
    digest := fun verifier => "digest of " ++ verifier
    parseUrl := fun raw =>
      if raw = HOST_URI then
        some { protocol := "https:", hostname := "host.example", hash := ""
               origin := "https://host.example" }
      else none
    expectedResource := "https://board.example/mcp" }

/-- An account with an admin and a developer, and two boards. -/
def acme : Directory :=
  { workspaces := [{ id := "ws1", accountId := some "acme" },
      { id := "ws2", accountId := some "acme", accessMode := .restricted }]
    memberships := [⟨"acme", "ada", [.admin], by decide⟩, ⟨"acme", "dev", [.developer], by decide⟩]
    members := []
    oneWorkspace := by decide
    oneMembership := by decide
    oneMember := by decide }

/-- One call taken through all of its turns. -/
def takeTurns (i count : Nat) (fresh : Fresh) : List Action :=
  List.replicate count (.turn i fresh)

/-- An admin key for both boards, and a key for one of them that it mints. -/
def mintOfMint : List Action :=
  [.arrive (.createKey "ws1" (some "ada")
      { label := "ops", scope := .admin, workspaceIds := some (some ["ws1", "ws2"]) })]
    ++ takeTurns 0 4 ⟨"key1", "first", 0⟩
    ++ [.arrive (.createHeadless
      { authorization := some "Bearer cf_live_key1.first", workspace := some "ws2" }
      { label := "ci" })]
    ++ takeTurns 1 4 ⟨"key2", "second", 0⟩

def acmeAfter (trace : List Action) : World :=
  endOf (World.step acmeDeployment) (World.start acme) trace

/-- What the key with an id has become. -/
def rowAfter (trace : List Action) (id : String) : PublicApiKeyRecord :=
  ((acmeAfter trace).keys.find? fun row => row.id = id).getD
    (issuedRecord acmeDeployment.hash { accountId := "", workspaceIds := none } "" .read "" "" 0)

theorem mintOfMint_sealed : SealedRun acmeDeployment acme mintOfMint (acmeAfter mintOfMint) :=
  @runWhere_endOf _ _ _ _ (unforgedTest acmeDeployment) unforged_of_test _ _
    (by decide +kernel)

theorem minted_key_below_ops :
    exists minter, minter ∈ (acmeAfter mintOfMint).keys ∧ minter.id = "key1" ∧
      BelowMinter (acmeAfter mintOfMint) (rowAfter mintOfMint "key2") minter :=
  @minted_key_below_minter acmeDeployment acme mintOfMint (acmeAfter mintOfMint)
    mintOfMint_sealed (rowAfter mintOfMint "key2") (by decide +kernel) "key1" (by decide +kernel)

end Access
end CatFactory
