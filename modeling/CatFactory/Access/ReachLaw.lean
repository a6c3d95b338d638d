import CatFactory.Access.MintLaw

/-!
# What a key may do later on

A call is let through for a board of the key's account only, within the scope of
the key and, where the key follows a person, within what that person may do
there now.  A raw key opens its own row for as long as the row is alive.
-/

namespace CatFactory
namespace Access

open Foundation
open Policy (WorkspaceRole)

/-! ## Calls that are let through -/

/-- What a call that is let through stays within. -/
structure WithinKey (w : World) (row : PublicApiKeyRecord) (need : PublicApiScope)
    (auth : PublicApiKeyAuth) : Prop where
  key : row.id = auth.identity.keyId
  live : row.revokedAt = none
  account : forall account, w.directory.accountOf auth.workspaceId = some account ->
    account = some row.accountId
  enough : scopeSatisfies auth.identity.scope need = true
  within : scopeSatisfies row.scope auth.identity.scope = true
  person : row.followsMemberships = true -> exists userId,
    row.createdByUserId = some userId ∧ auth.identity.actsAsUserId = some userId ∧
    (exists role, w.directory.resolveWorkspaceAccessUncached auth.workspaceId userId =
      some (some role)) ∧
    exists loaded role, w.Recent loaded ∧
      loaded.resolveWorkspaceAccessUncached auth.workspaceId userId = some (some role) ∧
      scopeSatisfies (scopeCeiling role) auth.identity.scope = true

/-- In every state of every run, a call that the gate lets through acts for a
live key, on no board of another account, with a scope that suffices and does not
exceed the key's.  A key that follows a person acts for the person who minted it,
who may act on that board now, and not beyond that person's role there, as it is
or was a minute ago at most. -/
theorem admitted_call_within_key {dep : Deployment} {directory : Directory}
    {trace : List Action} {w : World} (hrun : SealedRun dep directory trace w)
    {request : ApiRequest} {need : PublicApiScope} {auth : PublicApiKeyAuth}
    (h : authorize dep.hash w.sight w.keys request need = .ok auth) :
    exists row, row ∈ w.keys ∧ WithinKey w row need auth := by
  have hs := run_sound hrun
  rcases authorize_ok h with ⟨row, hadmits⟩
  rcases authenticatedRow_spec hadmits.opened with ⟨hrow, hlive⟩
  have hsound := hs.rows row hrow
  refine ⟨row, hrow, hadmits.key.symm, hlive, ?_, hadmits.enough, hadmits.within, ?_⟩
  · intro account haccount
    cases hmode : row.followsMemberships with
    | true => exact Option.some.inj (haccount.symm.trans (hadmits.follows hmode).left)
    | false =>
        rcases hadmits.whole hmode with ⟨hreach, hwhole⟩
        cases hids : row.workspaceIds with
        | none => exact Option.some.inj (haccount.symm.trans (hwhole hids))
        | some ids =>
            have hmem := hadmits.reaches
            rw [hreach, hids] at hmem
            exact account_of_listed hsound hids (of_decide_eq_true hmem) haccount
  · intro hfollows
    rcases hadmits.follows hfollows with ⟨_, hlisted, userId, role, hacts, haccess, hscope⟩
    have hbound : (ownerOf row).actsAsUserId ≠ none := by
      rw [show (ownerOf row).actsAsUserId = some userId from hacts]
      exact Option.some_ne_none _
    have hreaches := hadmits.reaches
    rw [hlisted, hacts] at hreaches
    refine ⟨userId, (hsound.shaped.bound hbound).left.symm.trans hacts,
      hadmits.acts.trans hacts, (mem_membershipReachOf.mp (of_decide_eq_true hreaches)).right,
      w.sight.access, role, w.recent_access, haccess, ?_⟩
    rw [hscope]
    exact (scopeInWorkspace_le _ _).right

/-- A key that follows the developer, who has a role on one of the boards only. -/
def mintFollower : List Action :=
  [.arrive (.createKey "ws1" (some "dev")
      { label := "mine", actsAsSelf := true, followsMemberships := true })]
    ++ takeTurns 0 3 ⟨"key3", "third", 0⟩

theorem mintFollower_sealed :
    SealedRun acmeDeployment acme mintFollower (acmeAfter mintFollower) :=
  @runWhere_endOf _ _ _ _ (unforgedTest acmeDeployment) unforged_of_test _ _
    (by decide +kernel)

def followerCall : ApiRequest :=
  { authorization := some "Bearer cf_live_key3.third", workspace := some " ws1 " }

def followerAuth : PublicApiKeyAuth :=
  { identity := (identityOf (rowAfter mintFollower "key3")).withReach ["ws1"]
    workspaceId := "ws1" }

theorem admitted_call_within_follower :
    exists row, row ∈ (acmeAfter mintFollower).keys ∧
      WithinKey (acmeAfter mintFollower) row .write followerAuth :=
  @admitted_call_within_key acmeDeployment acme mintFollower (acmeAfter mintFollower)
    mintFollower_sealed followerCall .write followerAuth rfl

/-! ## Following a person -/

section Following

variable {hash : String -> String} {s : Sight} {keys : List PublicApiKeyRecord}
  {request : ApiRequest} {need : PublicApiScope}

theorem resolveKey_of_follower {d : Directory} {row : PublicApiKeyRecord}
    (hopen : authenticatedRow hash keys (bearerToken request) = some row)
    (hfollows : row.followsMemberships = true) {id : String}
    (hid : id ∈ d.membershipReachOf row.accountId row.actsAsUserId) :
    resolveKey hash d keys request = .ok ((identityOf row).withReach
      (d.membershipReachOf row.accountId row.actsAsUserId)) := by
  have hauth : authenticate hash keys (bearerToken request) = some (identityOf row) := by
    unfold authenticate
    rw [hopen, Option.map_some]
  have hfollows' : (identityOf row).followsMemberships = true := hfollows
  unfold resolveKey
  simp only [hauth, if_pos hfollows']
  exact if_neg (List.ne_nil_of_mem hid)

theorem satisfies_of_scopeInWorkspace {scope need : PublicApiScope} {role : WorkspaceRole}
    (h : scopeSatisfies (scopeInWorkspace scope role) need = true) :
    scopeSatisfies scope need = true :=
  scopeSatisfies_trans (scopeInWorkspace_le scope role).left h

/-- A key that follows a person, once it is let through, is answered with what the person's
role on the named board leaves of its scope. -/
theorem authorize_of_follower {identity : PublicApiKeyIdentity} {userId header : String}
    {role : WorkspaceRole}
    (hkey : authorizeKey hash s.tables keys request need = .ok identity)
    (hfollows : identity.followsMemberships = true) (hacts : identity.actsAsUserId = some userId)
    (hlist : identity.workspaceIds ≠ none)
    (hreaches : keyReaches identity.workspaceIds (trim header) = true)
    (hnamed : request.workspace = some header) (hheader : trim header ≠ "")
    (haccess : s.loadWorkspaceAccess (trim header) userId = some (some role))
    (henough : scopeSatisfies (scopeInWorkspace identity.scope role) need = true) :
    authorize hash s keys request need =
      .ok ⟨identity.withScope (scopeInWorkspace identity.scope role), trim header⟩ := by
  have hname : namedWorkspace request identity = some (trim header) := by
    unfold namedWorkspace
    simp only [hnamed, Option.map_some, Option.filter_some, decide_eq_true hheader, if_true]
  have hworkspace : resolveWorkspace s.tables request identity = .ok (trim header) := by
    unfold resolveWorkspace
    simp only [hname]
    rw [if_neg (not_not.mpr hreaches), if_pos hlist]
  have hmember : membershipScopeIn s identity (trim header) =
      some (scopeInWorkspace identity.scope role) := by
    unfold membershipScopeIn
    simp only [hacts, haccess]
  unfold authorize
  simp only [hkey, hworkspace, hmember]
  rw [if_neg (not_not.mpr hfollows), if_pos henough]

theorem follower_admitted {row : PublicApiKeyRecord} {userId header : String}
    (hopen : authenticatedRow hash keys (bearerToken request) = some row)
    (hfollows : row.followsMemberships = true) (hacts : row.actsAsUserId = some userId)
    (hnamed : request.workspace = some header) (hheader : trim header ≠ "") :
    (exists auth, authorize hash s keys request need = .ok auth ∧
      auth.workspaceId = trim header) <->
      s.tables.accountOf (trim header) = some (some row.accountId) ∧
        (exists role, s.tables.resolveWorkspaceAccessUncached (trim header) userId =
          some (some role)) ∧
        exists role, s.loadWorkspaceAccess (trim header) userId = some (some role) ∧
          scopeSatisfies (scopeInWorkspace row.scope role) need = true := by
  constructor
  · rintro ⟨auth, hauth, hboard⟩
    rcases authorize_ok hauth with ⟨row', hadmits⟩
    rcases Option.some.inj (hopen.symm.trans hadmits.opened) with rfl
    rcases hadmits.follows hfollows with ⟨haccount, hlisted, userId', role, hacts', haccess, hscope⟩
    rw [hacts] at hacts'
    cases hacts'
    have hreaches := hadmits.reaches
    rw [hlisted, hacts] at hreaches
    have hnow := (mem_membershipReachOf.mp (of_decide_eq_true hreaches)).right
    rw [hboard] at haccount haccess hnow
    refine ⟨haccount, hnow, role, haccess, ?_⟩
    rw [← hscope]
    exact hadmits.enough
  · rintro ⟨haccount, hnow, role, haccess, henough⟩
    have hlisted : trim header ∈ s.tables.membershipReachOf row.accountId row.actsAsUserId := by
      rw [hacts]
      exact mem_membershipReachOf.mpr ⟨haccount, hnow⟩
    have hkey : authorizeKey hash s.tables keys request need =
        .ok ((identityOf row).withReach
          (s.tables.membershipReachOf row.accountId row.actsAsUserId)) := by
      unfold authorizeKey
      simp only [resolveKey_of_follower hopen hfollows hlisted]
      exact if_pos (satisfies_of_scopeInWorkspace henough)
    exact ⟨_, authorize_of_follower hkey hfollows hacts (Option.some_ne_none _)
      (decide_eq_true hlisted) hnamed hheader haccess henough, rfl⟩

/-- A key that follows a person is let through on a board exactly when that
person may act there now, in the key's account, and the access answer, which may
be cached, has a role that allows the rung.  With the answer of now, the role
decides alone: the list of the person's boards and the resolution of one board do
not disagree about a call. -/
theorem follower_admitted_iff {row : PublicApiKeyRecord} {userId header : String}
    (hopen : authenticatedRow hash keys (bearerToken request) = some row)
    (hfollows : row.followsMemberships = true) (hacts : row.actsAsUserId = some userId)
    (hnamed : request.workspace = some header) (hheader : trim header ≠ "") :
    ((exists auth, authorize hash s keys request need = .ok auth ∧
        auth.workspaceId = trim header) <->
      s.tables.accountOf (trim header) = some (some row.accountId) ∧
        (exists role, s.tables.resolveWorkspaceAccessUncached (trim header) userId =
          some (some role)) ∧
        exists role, s.loadWorkspaceAccess (trim header) userId = some (some role) ∧
          scopeSatisfies (scopeInWorkspace row.scope role) need = true) ∧
    (s.access = s.tables ->
      ((exists auth, authorize hash s keys request need = .ok auth ∧
          auth.workspaceId = trim header) <->
        s.tables.accountOf (trim header) = some (some row.accountId) ∧
          exists role, s.tables.resolveWorkspaceAccessUncached (trim header) userId =
              some (some role) ∧
            scopeSatisfies (scopeInWorkspace row.scope role) need = true)) := by
  have hadmitted := @follower_admitted hash s _ _ need _ _ _ hopen hfollows hacts hnamed hheader
  refine ⟨hadmitted, ?_⟩
  intro hcurrent
  unfold Sight.loadWorkspaceAccess at hadmitted
  rw [hadmitted, hcurrent]
  constructor
  · rintro ⟨haccount, _, hrole⟩
    exact ⟨haccount, hrole⟩
  · rintro ⟨haccount, role, haccess, henough⟩
    exact ⟨haccount, ⟨role, haccess⟩, role, haccess, henough⟩

end Following

/-- Before the developer came to the account. -/
def acmeBefore : Directory :=
  acme.removeMembership "acme" "dev"

/-- The developer's key is let through, but not where the access of before is cached. -/
theorem follower_admitted_dev :
    (exists auth, authorize acmeDeployment.hash ⟨acme, acme⟩ (acmeAfter mintFollower).keys
        followerCall .write = .ok auth ∧ auth.workspaceId = trim " ws1 ") ∧
      ¬ exists auth, authorize acmeDeployment.hash ⟨acme, acmeBefore⟩
        (acmeAfter mintFollower).keys followerCall .write = .ok auth ∧
          auth.workspaceId = trim " ws1 " := by
  have hlaw (access : Directory) :=
    @follower_admitted_iff acmeDeployment.hash ⟨acme, access⟩ (acmeAfter mintFollower).keys
      followerCall .write (rowAfter mintFollower "key3") "dev" " ws1 " rfl rfl rfl rfl (by decide)
  constructor
  · exact ((hlaw acme).right rfl).mpr ⟨rfl, .member, rfl, rfl⟩
  · intro hadmitted
    rcases (hlaw acmeBefore).left.mp hadmitted with ⟨_, _, role, haccess, _⟩
    cases haccess

/-! ## Raw keys -/

/-- A mint about to be stored holds the hash of the secret that it will hand out. -/
def HoldsHash (dep : Deployment) (w : World) : Prop :=
  forall c, c ∈ w.calls -> forall row secret origin, c = .storing row secret origin ->
    row.secretHash = dep.hash secret

section Raw

variable {dep : Deployment} {w w' : World}

theorem holdsHash_step {a : Action} (hh : HoldsHash dep w) (h : World.step dep w a = some w') :
    HoldsHash dep w' := by
  intro c hc row secret origin heq
  rcases step_calls (stepped_of_step h) hc with hold | ⟨request, rfl⟩ | rfl |
    ⟨i, fresh, call, effect, rfl, hfound, hturn, _⟩
  · exact hh c hold row secret origin heq
  · cases heq
  · cases heq
  · subst heq
    cases turn_next hturn with
    | asked hleads => cases hleads
    | counted hfree => rfl

theorem holdsHash_run {directory : Directory} {trace : List Action}
    (h : SealedRun dep directory trace w) : HoldsHash dep w :=
  RunWhere.invariant (I := HoldsHash dep) (fun c hc => by cases hc)
    (fun _ _ _ hi _ hstep => holdsHash_step hi hstep) h

/-- A row of one state, as it stands in every later one. -/
theorem row_later {later : List Action} (hs : Sound w) {row : PublicApiKeyRecord}
    (hrow : row ∈ w.keys) (h : RunWhere (World.step dep) (Unforged dep) w later w') :
    Sound w' ∧ exists row', row' ∈ w'.keys ∧ Evolves w'.directory row row' := by
  have hused : forall ids, row.workspaceIds = some ids -> forall id, id ∈ ids -> id ∈ w.used :=
    fun ids hids id hid => ((hs.rows row hrow).anchors ids hids id hid).left
  have hlater : Sound w' ∧ (forall id, id ∈ w.used -> id ∈ w'.used) ∧
      exists row', row' ∈ w'.keys ∧ Evolves w'.directory row row' := by
    refine RunWhere.invariant (I := fun v => Sound v ∧ (forall id, id ∈ w.used -> id ∈ v.used) ∧
      exists row', row' ∈ v.keys ∧ Evolves v.directory row row')
      ⟨hs, fun id hid => hid, row, hrow, Evolves.refl _ _⟩ ?_ h
    rintro v a v' ⟨hsound, hkept, row', hrow', he⟩ hok hstep
    have hstepped := stepped_of_step hstep
    have hg := step_grows hstepped
    rcases hg.kept row' hrow' with ⟨row'', hrow'', he'⟩
    refine ⟨step_sound hsound hok hstep, fun id hid => hg.used id (hkept id hid), row'', hrow'',
      he.trans he' ?_⟩
    intro ids hids id hid hgone
    exact hg.gone id (hkept id (hused ids hids id hid)) hgone
  exact ⟨hlater.left, hlater.right.right⟩

end Raw

/-- The raw key that a mint hands out opens the stored row in every later state
in which that row is neither revoked nor without a board, and nothing in any
other state. -/
theorem raw_key_opens_its_row {dep : Deployment} {directory : Directory}
    {trace later : List Action} {w w' w'' : World} (hrun : SealedRun dep directory trace w)
    {i : Nat} {fresh : Fresh} {row : PublicApiKeyRecord} {secret : String} {origin : Origin}
    (hcall : w.calls[i]? = some (.storing row secret origin))
    (hunforged : Unforged dep w (.turn i fresh))
    (hstep : World.step dep w (.turn i fresh) = some w') (hstored : row ∈ w'.keys)
    (hlater : RunWhere (World.step dep) (Unforged dep) w' later w'')
    (hid : '.' ∉ row.id.toList) (hne : row.id ≠ "") (hsecret : secret ≠ "") :
    exists row', row' ∈ w''.keys ∧ row'.id = row.id ∧ row'.accountId = row.accountId ∧
      row'.scope = row.scope ∧
      authenticatedRow dep.hash w''.keys (some (rawKey row.id secret)) =
        if row'.revokedAt = none ∧
            (row'.followsMemberships = true ∨ row'.workspaceIds ≠ some []) then some row'
        else none := by
  have hsound := step_sound (run_sound hrun) hunforged hstep
  rcases row_later hsound hstored hlater with ⟨hlast, row', hrow', he⟩
  refine ⟨row', hrow', he.id, he.accountId, he.scope, ?_⟩
  have hhash : dep.hash secret = row'.secretHash := by
    rw [he.secretHash]
    exact (holdsHash_run hrun _ (List.mem_of_getElem? hcall) row secret origin rfl).symm
  have hfound : getById w''.keys row.id = some row' :=
    (lookup_eq_some_iff hlast.ids).mpr ⟨hrow', he.id⟩
  unfold authenticatedRow
  simp only [Option.bind_some, parseRawKey_rawKey hid hne hsecret, hfound, Option.filter_some]
  by_cases hopens : opens dep.hash secret row' = true
  · have hlive := opens_iff.mp hopens
    rw [if_pos hopens, if_pos ⟨hlive.left, hlive.right.left⟩]
  · rw [if_neg hopens, if_neg]
    rintro ⟨hrevoked, hreaches⟩
    exact hopens (opens_iff.mpr ⟨hrevoked, hreaches, hhash⟩)

/-- The follower's key is about to be stored. -/
def storesFollower : List Action :=
  mintFollower.take 3

theorem raw_key_opens_follower :
    exists row', row' ∈ (acmeAfter (mintFollower ++ [.tick 5])).keys ∧
      row'.id = (rowAfter mintFollower "key3").id ∧
      row'.accountId = (rowAfter mintFollower "key3").accountId ∧
      row'.scope = (rowAfter mintFollower "key3").scope ∧
      authenticatedRow acmeDeployment.hash (acmeAfter (mintFollower ++ [.tick 5])).keys
          (some (rawKey (rowAfter mintFollower "key3").id "third")) =
        if row'.revokedAt = none ∧
            (row'.followsMemberships = true ∨ row'.workspaceIds ≠ some []) then some row'
        else none :=
  @raw_key_opens_its_row acmeDeployment acme storesFollower [.tick 5] (acmeAfter storesFollower)
    (acmeAfter mintFollower) (acmeAfter (mintFollower ++ [.tick 5]))
    (@runWhere_endOf _ _ _ _ (unforgedTest acmeDeployment) unforged_of_test _ _
      (by decide +kernel))
    0 ⟨"key3", "third", 0⟩ (rowAfter mintFollower "key3") "third" (.panel "ws1" (some "dev") ⟨acme, acme⟩)
    rfl (unforged_of_test _ _ (by decide +kernel)) rfl (by decide +kernel)
    (.snoc .nil trivial rfl) (by decide +kernel) (by decide +kernel) (by decide)

end Access
end CatFactory
