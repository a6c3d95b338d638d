import CatFactory.Access.World

/-!
# What every step leaves as it was

Rows are never taken out of the key store, and of a row only the reach, the last
use and the revocation change: the reach loses boards that are gone, and what is
revoked stays revoked.  A board never moves to another account.
-/

namespace CatFactory
namespace Access

open Foundation

variable {effect : Effect} {a : Action} {w w' : World} {dep : Deployment}

/-! ## The directory -/

theorem accountOf_isSome {d : Directory} {id : String} :
    (d.accountOf id).isSome = true <-> id ∈ d.workspaces.map Workspace.id := by
  unfold Directory.accountOf Directory.accessRowOf
  rw [Option.isSome_map, List.mem_map]
  constructor
  · intro h
    rcases Option.isSome_iff_exists.mp h with ⟨w, hw⟩
    exact ⟨w, (lookup_eq_some_iff d.oneWorkspace).mp hw⟩
  · rintro ⟨w, hw⟩
    rw [(lookup_eq_some_iff d.oneWorkspace).mpr hw]
    rfl

theorem accountOf_create {d : Directory} {w : Workspace}
    (h : w.id ∉ d.workspaces.map Workspace.id) (id : String) :
    (d.createWorkspace w h).accountOf id =
      if id = w.id then some w.accountId else d.accountOf id := by
  have hmiss : lookup Workspace.id d.workspaces w.id = none := by
    rw [lookup_eq_none_iff]
    intro x hx hid
    exact h (hid ▸ List.mem_map_of_mem hx)
  unfold Directory.accountOf Directory.accessRowOf
  show (lookup Workspace.id (d.workspaces ++ [w]) id).map _ = _
  rw [lookup_append]
  by_cases hid : id = w.id
  · rw [if_pos hid, hid, hmiss, Option.none_or]
    simp [lookup]
  · have hone : lookup Workspace.id [w] id = none := by
      simp [lookup, Ne.symm hid]
    rw [if_neg hid, hone, Option.or_none]

theorem accountOf_delete (d : Directory) (gone id : String) :
    (d.deleteWorkspace gone).accountOf id = if id = gone then none else d.accountOf id := by
  unfold Directory.accountOf Directory.accessRowOf
  show (lookup Workspace.id (d.workspaces.filter fun w => w.id ≠ gone) id).map _ = _
  rw [lookup_filter (fun id => decide (id ≠ gone))]
  by_cases hid : id = gone
  · simp [hid]
  · simp [hid]

theorem accountOf_map (d : Directory) (f : Workspace -> Workspace)
    (hf : forall w, (f w).id = w.id) (id : String) :
    (d.mapWorkspaces f hf).accountOf id =
      (d.accessRowOf id).map fun w => (f w).accountId := by
  unfold Directory.accountOf Directory.accessRowOf
  show (lookup Workspace.id (d.workspaces.map f) id).map _ = _
  rw [lookup_map hf, Option.map_map]
  rfl

/-- A linked board keeps its account as long as it is there. -/
theorem apply_stays {d d' : Directory} {write : DirectoryWrite} (h : d.apply write = some d')
    {id accountId : String} (hid : d.accountOf id = some (some accountId)) :
    d'.accountOf id = some (some accountId) ∨ d'.accountOf id = none := by
  cases write with
  | createWorkspace w =>
      simp only [Directory.apply] at h
      split at h
      · cases h
      · rename_i hnew
        cases h
        left
        rw [accountOf_create, if_neg, hid]
        rintro rfl
        exact hnew (accountOf_isSome.mp (by rw [hid]; rfl))
  | deleteWorkspace gone =>
      cases h
      rw [accountOf_delete]
      split
      · exact Or.inr rfl
      · exact Or.inl hid
  | linkAccount linked other =>
      cases h
      left
      rw [accountOf_map]
      rcases Option.map_eq_some_iff.mp hid with ⟨w, hw, haccount⟩
      rw [hw, Option.map_some]
      unfold linkRow
      rw [if_neg, haccount]
      rintro ⟨_, hnone⟩
      rw [haccount] at hnone
      cases hnone
  | setAccessMode changed mode =>
      cases h
      left
      rw [accountOf_map]
      rcases Option.map_eq_some_iff.mp hid with ⟨w, hw, haccount⟩
      rw [hw, Option.map_some]
      unfold modeRow
      split
      · exact congrArg some haccount
      · exact congrArg some haccount
  | setMembership | removeMembership | setMember | removeMember =>
      cases h
      exact Or.inl hid

/-- A missing board stays missing unless it is the one created. -/
theorem apply_gone {d d' : Directory} {write : DirectoryWrite} (h : d.apply write = some d')
    {id : String} (hid : d.accountOf id = none) :
    d'.accountOf id = none ∨ exists w, write = .createWorkspace w ∧ w.id = id := by
  cases write with
  | createWorkspace w =>
      simp only [Directory.apply] at h
      split at h
      · cases h
      · cases h
        rw [accountOf_create]
        split
        · rename_i heq
          exact Or.inr ⟨w, rfl, heq.symm⟩
        · exact Or.inl hid
  | deleteWorkspace gone =>
      cases h
      left
      rw [accountOf_delete]
      split
      · rfl
      · exact hid
  | linkAccount | setAccessMode =>
      cases h
      left
      rw [accountOf_map, Option.map_eq_none_iff.mp hid]
      rfl
  | setMembership | removeMembership | setMember | removeMember =>
      cases h
      exact Or.inl hid

/-! ## Rows -/

/-- How a row of an earlier world stands in a later one, whose directory is `d`. -/
structure Evolves (d : Directory) (old new : PublicApiKeyRecord) : Prop where
  id : new.id = old.id
  accountId : new.accountId = old.accountId
  followsMemberships : new.followsMemberships = old.followsMemberships
  label : new.label = old.label
  scope : new.scope = old.scope
  secretHash : new.secretHash = old.secretHash
  createdByUserId : new.createdByUserId = old.createdByUserId
  createdByKeyId : new.createdByKeyId = old.createdByKeyId
  externalIdentity : new.externalIdentity = old.externalIdentity
  actsAsUserId : new.actsAsUserId = old.actsAsUserId
  createdAt : new.createdAt = old.createdAt
  whole : old.workspaceIds = none -> new.workspaceIds = none
  listed : forall ids, old.workspaceIds = some ids -> exists ids', new.workspaceIds = some ids' ∧
    (forall id, id ∈ ids' -> id ∈ ids) ∧
    forall id, id ∈ ids -> id ∈ ids' ∨ d.accountOf id = none
  revoked : old.revokedAt ≠ none -> new.revokedAt ≠ none

theorem Evolves.refl (d : Directory) (row : PublicApiKeyRecord) : Evolves d row row where
  id := rfl
  accountId := rfl
  followsMemberships := rfl
  label := rfl
  scope := rfl
  secretHash := rfl
  createdByUserId := rfl
  createdByKeyId := rfl
  externalIdentity := rfl
  actsAsUserId := rfl
  createdAt := rfl
  whole := fun h => h
  listed := fun ids h => ⟨ids, h, fun _ hid => hid, fun _ hid => Or.inl hid⟩
  revoked := fun h => h

/-- Two changes of a row in a row; `used` boards that were gone are still gone. -/
theorem Evolves.trans {d d' : Directory} {a b c : PublicApiKeyRecord} (h : Evolves d a b)
    (h' : Evolves d' b c)
    (hgone : forall ids, a.workspaceIds = some ids -> forall id, id ∈ ids ->
      d.accountOf id = none -> d'.accountOf id = none) : Evolves d' a c where
  id := h'.id.trans h.id
  accountId := h'.accountId.trans h.accountId
  followsMemberships := h'.followsMemberships.trans h.followsMemberships
  label := h'.label.trans h.label
  scope := h'.scope.trans h.scope
  secretHash := h'.secretHash.trans h.secretHash
  createdByUserId := h'.createdByUserId.trans h.createdByUserId
  createdByKeyId := h'.createdByKeyId.trans h.createdByKeyId
  externalIdentity := h'.externalIdentity.trans h.externalIdentity
  actsAsUserId := h'.actsAsUserId.trans h.actsAsUserId
  createdAt := h'.createdAt.trans h.createdAt
  whole := fun hnone => h'.whole (h.whole hnone)
  listed := by
    intro ids hids
    rcases h.listed ids hids with ⟨ids', hids', hsub, hlost⟩
    rcases h'.listed ids' hids' with ⟨ids'', hids'', hsub', hlost'⟩
    refine ⟨ids'', hids'', fun id hid => hsub id (hsub' id hid), ?_⟩
    intro id hid
    rcases hlost id hid with hkept | hgone'
    · exact hlost' id hkept
    · exact Or.inr (hgone ids hids id hid hgone')
  revoked := fun hr => h'.revoked (h.revoked hr)

/-- Whatever is written, a row keeps all but its reach, its last use and its
revocation; only the deletion of a board takes that board from its reach. -/
theorem onRow_evolves (d : Directory) (row : PublicApiKeyRecord) (write : KeyWrite)
    (hdrop : forall id, write = .dropGrants id -> d.accountOf id = none) :
    Evolves d row (write.onRow row) := by
  cases write with
  | add other => exact Evolves.refl d row
  | markUsed id time =>
      simp only [KeyWrite.onRow]
      split
      · exact { Evolves.refl d row with }
      · exact Evolves.refl d row
  | revoke | revokeMintedBy =>
      simp only [KeyWrite.onRow]
      split
      · exact { Evolves.refl d row with revoked := fun _ h => by cases h }
      · exact Evolves.refl d row
  | dropGrants gone =>
      refine { Evolves.refl d row with whole := ?_, listed := ?_ }
      · intro hnone
        simp only [KeyWrite.onRow, hnone, Option.map_none]
      · intro ids hids
        refine ⟨ids.filter fun id => id ≠ gone, ?_, ?_, ?_⟩
        · simp only [KeyWrite.onRow, hids, Option.map_some]
        · intro id hid
          exact List.mem_of_mem_filter hid
        · intro id hid
          by_cases hg : id = gone
          · rw [hg]
            exact Or.inr (hdrop gone rfl)
          · exact Or.inl (List.mem_filter.mpr ⟨hid, decide_eq_true hg⟩)

/-! ## Steps -/

/-- What a step leaves as it was. -/
structure Grows (w w' : World) : Prop where
  now : w.now ≤ w'.now
  used : forall id, id ∈ w.used -> id ∈ w'.used
  gone : forall id, id ∈ w.used -> w.directory.accountOf id = none ->
    w'.directory.accountOf id = none
  stays : forall id accountId, w.directory.accountOf id = some (some accountId) ->
    w'.directory.accountOf id = some (some accountId) ∨ w'.directory.accountOf id = none
  kept : forall row, row ∈ w.keys -> exists row', row' ∈ w'.keys ∧ Evolves w'.directory row row'
  sealings : forall s, s ∈ w.sealings -> s ∈ w'.sealings
  minted : forall m, m ∈ w.minted -> m ∈ w'.minted

/-- Where a row of the key store comes from. -/
def RowFrom (w w' : World) (row' : PublicApiKeyRecord) : Prop :=
  (exists row, row ∈ w.keys ∧ Evolves w'.directory row row') ∨
    exists secret origin, Call.storing row' secret origin ∈ w.calls ∧
      (row', origin) ∈ w'.minted ∧ getById w.keys row'.id = none

theorem mem_map_onRow (keys : List PublicApiKeyRecord) (write : KeyWrite) :
    (forall row, row ∈ keys -> write.onRow row ∈ keys.map fun row => write.onRow row) ∧
      forall row', row' ∈ (keys.map fun row => write.onRow row) ->
        (exists row, row ∈ keys ∧ row' = write.onRow row) ∨
          write = .add row' ∧ getById keys row'.id = none := by
  constructor
  · intro row hrow
    exact List.mem_map_of_mem hrow
  · intro row' hrow'
    rcases List.mem_map.mp hrow' with ⟨row, hrow, rfl⟩
    exact Or.inl ⟨row, hrow, rfl⟩

theorem mem_apply {keys keys' : List PublicApiKeyRecord} {write : KeyWrite}
    (h : write.apply keys = some keys') :
    (forall row, row ∈ keys -> write.onRow row ∈ keys') ∧
      forall row', row' ∈ keys' -> (exists row, row ∈ keys ∧ row' = write.onRow row) ∨
        write = .add row' ∧ getById keys row'.id = none := by
  cases write with
  | add row =>
      simp only [KeyWrite.apply] at h
      split at h
      · cases h
      · rename_i hnew
        cases h
        constructor
        · intro other hother
          exact List.mem_append_left _ hother
        · intro row' hrow'
          rcases List.mem_append.mp hrow' with hold | hadded
          · exact Or.inl ⟨row', hold, rfl⟩
          · rw [List.mem_singleton.mp hadded]
            exact Or.inr ⟨rfl, Option.not_isSome_iff_eq_none.mp hnew⟩
  | markUsed | revoke | revokeMintedBy | dropGrants =>
      cases h
      exact mem_map_onRow keys _

/-! ## Turns -/

/-- What one turn may write. -/
inductive TurnWrite : Call -> Effect -> Prop where
  | quiet {call : Call} {effect : Effect} (write : effect.write = none)
      (minted : effect.minted = none) : TurnWrite call effect
  | stamp {call : Call} {effect : Effect} {id : String} {time : Nat}
      (write : effect.write = some (.markUsed id time)) (minted : effect.minted = none) :
      TurnWrite call effect
  | store {row : PublicApiKeyRecord} {secret : String} {origin : Origin} :
      TurnWrite (.storing row secret origin)
        { write := some (.add row), minted := some (row, origin) }
  | revoke {accountId keyId : String} {time : Nat} :
      TurnWrite (.revoking accountId keyId) { write := some (.revoke accountId keyId time) }
  | cascade {accountId keyId : String} {time : Nat} :
      TurnWrite (.cascading accountId keyId time)
        { write := some (.revokeMintedBy accountId keyId time) }

theorem stampOf_cases (dep : Deployment) (keys : List PublicApiKeyRecord)
    (headers : ApiRequest) (now : Nat) :
    stampOf dep keys headers now = none ∨
      exists id, stampOf dep keys headers now = some (.markUsed id now) := by
  unfold stampOf
  split
  · exact Or.inl rfl
  · rename_i row _
    split
    · exact Or.inr ⟨row.id, rfl⟩
    · exact Or.inl rfl

theorem stamp_write {call : Call} {keys : List PublicApiKeyRecord} {headers : ApiRequest}
    {now : Nat} :
    TurnWrite call { write := stampOf dep keys headers now } := by
  rcases stampOf_cases dep keys headers now with h | ⟨id, h⟩
  · exact .quiet h rfl
  · exact .stamp h rfl

section Turns

variable {dep : Deployment} {w : World} {fresh : Fresh}

theorem request_write (call : Call) (request : Request) :
    TurnWrite call (request.turn dep w fresh).2 := by
  cases request with
  | createKey | revokeKey => exact .quiet rfl rfl
  | createHeadless | revokeHeadless | useKey => exact stamp_write
  | register clientName redirectUris =>
      simp only [Request.turn, askRegister]
      split <;> exact .quiet rfl rfl
  | beginAuthorization input =>
      simp only [Request.turn, askBegin]
      split <;> exact .quiet rfl rfl
  | decideAuthorization user request decision =>
      simp only [Request.turn, askDecide]
      split
      · exact .quiet rfl rfl
      · split
        · exact .quiet rfl rfl
        · split
          · exact .quiet rfl rfl
          · split <;> exact .quiet rfl rfl
  | redeem grantType input => exact .quiet rfl rfl

theorem turn_write {call next : Call}
    (h : call.turn dep w fresh = some (next, effect)) : TurnWrite call effect := by
  cases call with
  | asked request =>
      have hwrite := @request_write dep w fresh (.asked request) request
      rw [show request.turn dep w fresh = (next, effect) from Option.some.inj h] at hwrite
      exact hwrite
  | vetting | counting =>
      simp only [Call.turn] at h
      split at h <;> (cases h; exact .quiet rfl rfl)
  | storing row secret origin =>
      cases h
      exact .store
  | revoking accountId keyId =>
      cases h
      exact .revoke
  | cascading accountId keyId time =>
      cases h
      exact .cascade
  | done answer => cases h

end Turns

/-! ## A step taken apart -/

/-- A turn whose write the store took. -/
structure Committed (w : World) (i : Nat) (next : Call) (effect : Effect) (w' : World) :
    Prop where
  keys : effect.write.elim (some w.keys) (KeyWrite.apply w.keys) = some w'.keys
  directory : w'.directory = w.directory
  used : w'.used = w.used
  now : w'.now = w.now
  calls : w'.calls = w.calls.set i next
  sealings : w'.sealings = w.sealings ++ effect.sealing.toList
  redirects : w'.redirects = w.redirects ++ effect.redirect.toList
  minted : w'.minted = w.minted ++ effect.minted.toList

theorem Committed.applied {i : Nat} {next : Call} {write : KeyWrite}
    (h : Committed w i next effect w') (hw : effect.write = some write) :
    write.apply w.keys = some w'.keys := by
  have hkeys := h.keys
  rw [hw] at hkeys
  exact hkeys

theorem Committed.unwritten {i : Nat} {next : Call} (h : Committed w i next effect w')
    (hw : effect.write = none) : w'.keys = w.keys := by
  have hkeys := h.keys
  rw [hw] at hkeys
  exact (Option.some.inj hkeys).symm

/-- The steps of a world, one by one. -/
inductive Stepped (dep : Deployment) (w w' : World) : Action -> Prop where
  | change {write : DirectoryWrite} (directory : w.directory.apply write = some w'.directory)
      (fresh : forall row, write = .createWorkspace row -> row.id ∉ w.used)
      (known : forall row, write = .createWorkspace row -> row.id ∈ w'.used)
      (used : w'.used = w.used ∨ exists id, w'.used = id :: w.used)
      (keys : w'.keys = w.keys ∨ exists id, w'.directory.accountOf id = none ∧
        w'.keys = w.keys.map fun row => (KeyWrite.dropGrants id).onRow row)
      (same : w'.now = w.now ∧ w'.calls = w.calls ∧ w'.sealings = w.sealings ∧
        w'.redirects = w.redirects ∧ w'.minted = w.minted) :
      Stepped dep w w' (.change write)
  | tick {elapsed : Nat} {cached : Option Nat}
      (same : w' = { w with now := w.now + elapsed, cached := cached }) :
      Stepped dep w w' (.tick elapsed cached)
  | arrive {request : Request} (same : w' = { w with calls := w.calls ++ [.asked request] }) :
      Stepped dep w w' (.arrive request)
  | turn {i : Nat} {fresh : Fresh} {call next : Call} {effect : Effect}
      (found : w.calls[i]? = some call) (turned : call.turn dep w fresh = some (next, effect))
      (committed : Committed w i next effect w') : Stepped dep w w' (.turn i fresh)
  | failed {i : Nat} {fresh : Fresh} {call : Call} (found : w.calls[i]? = some call)
      (same : w' = { w with calls := w.calls.set i (.done .storeFailed) }) :
      Stepped dep w w' (.turn i fresh)

theorem stepped_of_change {write : DirectoryWrite}
    (h : w.change write = some w') : Stepped dep w w' (.change write) := by
  unfold World.change at h
  split at h
  · cases h
  · rename_i directory hdirectory
    split at h
    · split at h
      · cases h
      · rename_i row hnew
        cases h
        refine .change hdirectory ?_ ?_ (Or.inr ⟨row.id, rfl⟩) (Or.inl rfl)
          ⟨rfl, rfl, rfl, rfl, rfl⟩
        · rintro other hother
          cases hother
          exact hnew
        · rintro other hother
          cases hother
          exact List.mem_cons_self
    · rename_i id
      cases h
      refine .change hdirectory (fun row hrow => by cases hrow) (fun row hrow => by cases hrow)
        (Or.inl rfl) (Or.inr ⟨id, ?_, rfl⟩) ⟨rfl, rfl, rfl, rfl, rfl⟩
      cases hdirectory
      rw [accountOf_delete, if_pos rfl]
    · rename_i hcreate _
      cases h
      exact .change hdirectory (fun row hrow => absurd hrow (hcreate row))
        (fun row hrow => absurd hrow (hcreate row)) (Or.inl rfl) (Or.inl rfl) ⟨rfl, rfl, rfl, rfl, rfl⟩

theorem stepped_of_step (h : w.step dep a = some w') : Stepped dep w w' a := by
  cases a with
  | change write => exact stepped_of_change h
  | tick elapsed cached => exact .tick (Option.some.inj h).symm
  | arrive request => exact .arrive (Option.some.inj h).symm
  | turn i fresh =>
      simp only [World.step] at h
      split at h
      · cases h
      · rename_i call hcall
        split at h
        · cases h
        · rename_i next effect hturn
          have hcommit := Option.some.inj h
          unfold World.commit at hcommit
          split at hcommit
          · exact .failed hcall hcommit.symm
          · rename_i keys hkeys
            subst hcommit
            exact .turn hcall hturn ⟨hkeys, rfl, rfl, rfl, rfl, rfl, rfl, rfl⟩

/-- The rows after a turn. -/
theorem committed_rows {i : Nat} {call next : Call} (hwrite : TurnWrite call effect)
    (h : Committed w i next effect w') :
    (forall row, row ∈ w.keys -> exists row', row' ∈ w'.keys ∧
      Evolves w'.directory row row') ∧
      forall row', row' ∈ w'.keys ->
        (exists row, row ∈ w.keys ∧ Evolves w'.directory row row') ∨
          exists secret origin, call = .storing row' secret origin ∧
            (row', origin) ∈ w'.minted ∧ getById w.keys row'.id = none := by
  cases hw : effect.write with
  | none =>
      rw [h.unwritten hw]
      exact ⟨fun row hrow => ⟨row, hrow, Evolves.refl _ _⟩,
        fun row' hrow' => Or.inl ⟨row', hrow', Evolves.refl _ _⟩⟩
  | some write =>
      have hkeys := h.applied hw
      have hdrop : forall id, write ≠ .dropGrants id := by
        intro id heq
        subst heq
        cases hwrite with
        | quiet hnone _ =>
            rw [hnone] at hw
            cases hw
        | stamp hstamp _ =>
            rw [hstamp] at hw
            cases hw
        | store | revoke | cascade => cases hw
      have hmem := mem_apply hkeys
      constructor
      · intro row hrow
        exact ⟨_, hmem.left row hrow,
          onRow_evolves _ row write (fun id heq => absurd heq (hdrop id))⟩
      · intro row' hrow'
        rcases hmem.right row' hrow' with ⟨row, hrow, rfl⟩ | ⟨rfl, hnew⟩
        · exact Or.inl ⟨row, hrow,
            onRow_evolves _ row write (fun id heq => absurd heq (hdrop id))⟩
        · cases hwrite with
          | quiet hnone _ =>
              rw [hnone] at hw
              cases hw
          | stamp hstamp _ =>
              rw [hstamp] at hw
              cases hw
          | @store row secret origin =>
              cases hw
              refine Or.inr ⟨secret, origin, rfl, ?_, hnew⟩
              rw [h.minted]
              exact List.mem_append_right _ List.mem_cons_self
          | revoke => cases hw
          | cascade => cases hw

theorem step_rows (h : Stepped dep w w' a) :
    (forall row, row ∈ w.keys -> exists row', row' ∈ w'.keys ∧
      Evolves w'.directory row row') ∧ forall row', row' ∈ w'.keys -> RowFrom w w' row' := by
  have hsame : w'.keys = w.keys -> (forall row, row ∈ w.keys -> exists row', row' ∈ w'.keys ∧
      Evolves w'.directory row row') ∧ forall row', row' ∈ w'.keys -> RowFrom w w' row' := by
    intro hkeys
    rw [hkeys]
    exact ⟨fun row hrow => ⟨row, hrow, Evolves.refl _ _⟩,
      fun row' hrow' => Or.inl ⟨row', hrow', Evolves.refl _ _⟩⟩
  cases h with
  | change hdirectory hfresh hknown hused hkeys hrest =>
      rcases hkeys with hkeys | ⟨id, hgone, hkeys⟩
      · exact hsame hkeys
      · have hevolves : forall row, Evolves w'.directory row ((KeyWrite.dropGrants id).onRow row) := by
          intro row
          apply onRow_evolves
          intro other heq
          cases heq
          exact hgone
        rw [hkeys]
        constructor
        · intro row hrow
          exact ⟨_, List.mem_map_of_mem hrow, hevolves row⟩
        · intro row' hrow'
          rcases List.mem_map.mp hrow' with ⟨row, hrow, rfl⟩
          exact Or.inl ⟨row, hrow, hevolves row⟩
  | tick hw => exact hsame (by rw [hw])
  | arrive hw => exact hsame (by rw [hw])
  | turn hfound hturn hcommit =>
      have hrows := committed_rows (turn_write hturn) hcommit
      refine ⟨hrows.left, fun row' hrow' => ?_⟩
      rcases hrows.right row' hrow' with hold | ⟨secret, origin, rfl, hminted, hnew⟩
      · exact Or.inl hold
      · exact Or.inr ⟨secret, origin, List.mem_of_getElem? hfound, hminted, hnew⟩
  | failed hfound hw => exact hsame (by rw [hw])

theorem step_grows (h : Stepped dep w w' a) :
    Grows w w' := by
  have hkept := (step_rows h).left
  have hquiet : w'.directory = w.directory -> w'.used = w.used -> w.now ≤ w'.now ->
      (forall s, s ∈ w.sealings -> s ∈ w'.sealings) ->
      (forall m, m ∈ w.minted -> m ∈ w'.minted) -> Grows w w' := by
    intro hd hu hnow hs hm
    refine ⟨hnow, fun id hid => hu ▸ hid, ?_, ?_, hkept, hs, hm⟩
    · intro id _ hgone
      rw [hd]
      exact hgone
    · intro id accountId haccount
      rw [hd]
      exact Or.inl haccount
  cases h with
  | change hdirectory hfresh hknown hused hkeys hrest =>
      refine ⟨Nat.le_of_eq hrest.left.symm, ?_, ?_, fun id accountId => apply_stays hdirectory,
        hkept, ?_, ?_⟩
      · intro id hid
        rcases hused with hsame | ⟨other, hcons⟩
        · rw [hsame]
          exact hid
        · rw [hcons]
          exact List.mem_cons_of_mem _ hid
      · intro id hid hgone
        rcases apply_gone hdirectory hgone with hstill | ⟨row, hcreate, hrow⟩
        · exact hstill
        · exact absurd hid (hrow ▸ hfresh row hcreate)
      · rw [hrest.right.right.left]
        exact fun s hs => hs
      · rw [hrest.right.right.right.right]
        exact fun m hm => hm
  | tick hw =>
      subst hw
      exact hquiet rfl rfl (Nat.le_add_right _ _) (fun s hs => hs) (fun m hm => hm)
  | arrive hw =>
      subst hw
      exact hquiet rfl rfl (Nat.le_refl _) (fun s hs => hs) (fun m hm => hm)
  | turn hfound hturn hcommit =>
      refine hquiet hcommit.directory hcommit.used (Nat.le_of_eq hcommit.now.symm) ?_ ?_
      · intro s hs
        rw [hcommit.sealings]
        exact List.mem_append_left _ hs
      · intro m hm
        rw [hcommit.minted]
        exact List.mem_append_left _ hm
  | failed hfound hw =>
      subst hw
      exact hquiet rfl rfl (Nat.le_refl _) (fun s hs => hs) (fun m hm => hm)

/-- What is kept for the proofs is added to by turns only. -/
theorem step_kept (h : Stepped dep w w' a) :
    (w'.sealings = w.sealings ∧ w'.redirects = w.redirects ∧ w'.minted = w.minted) ∨
      exists i fresh call next effect, a = .turn i fresh ∧ w.calls[i]? = some call ∧
        call.turn dep w fresh = some (next, effect) ∧ Committed w i next effect w' := by
  cases h with
  | change hdirectory hfresh hknown hused hkeys hrest => exact Or.inl hrest.right.right
  | tick hw =>
      subst hw
      exact Or.inl ⟨rfl, rfl, rfl⟩
  | arrive hw =>
      subst hw
      exact Or.inl ⟨rfl, rfl, rfl⟩
  | turn hfound hturn hcommit => exact Or.inr ⟨_, _, _, _, _, rfl, hfound, hturn, hcommit⟩
  | failed hfound hw =>
      subst hw
      exact Or.inl ⟨rfl, rfl, rfl⟩

/-- Where a call in flight comes from. -/
theorem step_calls (h : Stepped dep w w' a) {c : Call} (hc : c ∈ w'.calls) :
    c ∈ w.calls ∨ (exists request, c = .asked request) ∨ c = .done .storeFailed ∨
      exists i fresh call effect, a = .turn i fresh ∧ w.calls[i]? = some call ∧
        call.turn dep w fresh = some (c, effect) ∧ Committed w i c effect w' := by
  cases h with
  | change hdirectory hfresh hknown hused hkeys hrest =>
      rw [hrest.right.left] at hc
      exact Or.inl hc
  | tick hw =>
      subst hw
      exact Or.inl hc
  | @arrive request hw =>
      subst hw
      rcases List.mem_append.mp hc with hold | hnew
      · exact Or.inl hold
      · exact Or.inr (Or.inl ⟨request, List.mem_singleton.mp hnew⟩)
  | turn hfound hturn hcommit =>
      rw [hcommit.calls] at hc
      rcases List.mem_or_eq_of_mem_set hc with hold | rfl
      · exact Or.inl hold
      · exact Or.inr (Or.inr (Or.inr ⟨_, _, _, _, rfl, hfound, hturn, hcommit⟩))
  | failed hfound hw =>
      subst hw
      rcases List.mem_or_eq_of_mem_set hc with hold | rfl
      · exact Or.inl hold
      · exact Or.inr (Or.inr (Or.inl rfl))

end Access
end CatFactory
