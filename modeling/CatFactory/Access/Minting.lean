import CatFactory.Access.Turns

/-!
# Every key is within what minted it

The boards of a key belong to its account, a key minted by another is a rung
below it and reaches no further, and none of this is undone by what else is
under way between the checks of a mint and its write.
-/

namespace CatFactory
namespace Access

open Foundation

/-! ## What holds of a key and of a mint under way -/

/-- A board of the account, or one that is gone for good. -/
def Anchored (w : World) (accountId id : String) : Prop :=
  id ∈ w.used ∧
    (w.directory.accountOf id = some (some accountId) ∨ w.directory.accountOf id = none)

/-- Of the boards still there, the inner reach has none that the outer lacks. -/
def Covers (w : World) (outer inner : Option (List String)) : Prop :=
  forall ids, outer = some ids -> exists ids', inner = some ids' ∧
    forall id, id ∈ ids' -> id ∈ ids ∨ (id ∈ w.used ∧ w.directory.accountOf id = none)

structure MintedBy (w : World) (minterId : String) (owner : KeyOwner)
    (scope : PublicApiScope) : Prop where
  lower : scope ∈ HEADLESS_MINTABLE_SCOPES
  minter : exists row, row ∈ w.keys ∧ row.id = minterId ∧ row.accountId = owner.accountId ∧
    row.scope = .admin ∧
    (row.followsMemberships = false -> Covers w row.workspaceIds owner.workspaceIds)

structure Shaped (w : World) (owner : KeyOwner) (scope : PublicApiScope) : Prop where
  bound : owner.actsAsUserId ≠ none ->
    owner.actsAsUserId = owner.createdByUserId ∧ owner.createdByKeyId = none
  follows : owner.followsMemberships = true ->
    owner.createdByKeyId = none ∧ owner.workspaceIds = some []
  minted : forall minterId, owner.createdByKeyId = some minterId ->
    MintedBy w minterId owner scope

def Anchors (w : World) (owner : KeyOwner) : Prop :=
  forall ids, owner.workspaceIds = some ids -> forall id, id ∈ ids ->
    Anchored w owner.accountId id

/-- A row, seen as what it was minted for. -/
def ownerOf (row : PublicApiKeyRecord) : KeyOwner :=
  { accountId := row.accountId
    workspaceIds := row.workspaceIds
    createdByUserId := row.createdByUserId
    createdByKeyId := row.createdByKeyId
    externalIdentity := row.externalIdentity
    actsAsUserId := row.actsAsUserId
    followsMemberships := row.followsMemberships }

structure RowSound (w : World) (row : PublicApiKeyRecord) : Prop where
  shaped : Shaped w (ownerOf row) row.scope
  anchors : Anchors w (ownerOf row)

/-- What a call in flight relies on. -/
def CallSound (w : World) : Call -> Prop
  | .vetting owner _ scope _ => Shaped w owner scope
  | .counting owner _ scope _ => Shaped w owner scope ∧ Anchors w owner
  | .storing row _ _ => RowSound w row
  | .revoking accountId keyId =>
      exists row, row ∈ w.keys ∧ row.id = keyId ∧ row.accountId = accountId
  | .cascading accountId keyId _ =>
      exists row, row ∈ w.keys ∧ row.id = keyId ∧ row.accountId = accountId ∧
        row.revokedAt ≠ none
  | _ => True

structure Sound (w : World) : Prop where
  known : forall id, w.directory.accountOf id ≠ none -> id ∈ w.used
  ids : (w.keys.map PublicApiKeyRecord.id).Nodup
  rows : forall row, row ∈ w.keys -> RowSound w row
  codes : forall s, s ∈ w.sealings -> forall code, s.value = .code code ->
    Anchored w code.accountId code.workspaceId
  calls : forall c, c ∈ w.calls -> CallSound w c

/-! ## A step keeps it -/

section Growth

variable {w w' : World}

theorem Anchored.grow {accountId id : String} (h : Anchored w accountId id) (hg : Grows w w') :
    Anchored w' accountId id := by
  refine ⟨hg.used id h.left, ?_⟩
  rcases h.right with hthere | hgone
  · exact hg.stays id accountId hthere
  · exact Or.inr (hg.gone id h.left hgone)

theorem Anchors.grow {owner : KeyOwner} (h : Anchors w owner) (hg : Grows w w') :
    Anchors w' owner :=
  fun ids hids id hid => (h ids hids id hid).grow hg

/-- A minter may lose boards, but only such as the minted key has lost as well. -/
theorem Covers.grow {row row' : PublicApiKeyRecord} {inner : Option (List String)}
    (h : Covers w row.workspaceIds inner) (hanchors : Anchors w (ownerOf row))
    (hg : Grows w w') (he : Evolves w'.directory row row') : Covers w' row'.workspaceIds inner := by
  intro ids' hids'
  cases hids : row.workspaceIds with
  | none =>
      rw [he.whole hids] at hids'
      cases hids'
  | some ids =>
      rcases he.listed ids hids with ⟨ids'', hids'', _, hlost⟩
      rw [hids'] at hids''
      cases hids''
      rcases h ids hids with ⟨listed, hlisted, hsub⟩
      refine ⟨listed, hlisted, ?_⟩
      intro id hid
      rcases hsub id hid with hthere | ⟨hused, hgone⟩
      · rcases hlost id hthere with hkept | hgone
        · exact Or.inl hkept
        · exact Or.inr ⟨hg.used id (hanchors ids hids id hthere).left, hgone⟩
      · exact Or.inr ⟨hg.used id hused, hg.gone id hused hgone⟩

theorem Shaped.grow {owner : KeyOwner} {scope : PublicApiScope} (h : Shaped w owner scope)
    (hs : Sound w) (hg : Grows w w') : Shaped w' owner scope := by
  refine ⟨h.bound, h.follows, ?_⟩
  intro minterId hminter
  rcases h.minted minterId hminter with ⟨hlower, row, hrow, hid, haccount, hadmin, hcovers⟩
  rcases hg.kept row hrow with ⟨row', hrow', he⟩
  refine ⟨hlower, row', hrow', he.id.trans hid, he.accountId.trans haccount,
    he.scope.trans hadmin, ?_⟩
  intro hplain
  exact (hcovers (he.followsMemberships.symm.trans hplain)).grow (hs.rows row hrow).anchors hg he

/-- A row that has changed is as sound as before. -/
theorem RowSound.evolve {row row' : PublicApiKeyRecord} (h : RowSound w' row)
    (he : Evolves w'.directory row row') : RowSound w' row' := by
  have hsub : forall ids', row'.workspaceIds = some ids' ->
      exists ids, row.workspaceIds = some ids ∧ forall id, id ∈ ids' -> id ∈ ids := by
    intro ids' hids'
    cases hids : row.workspaceIds with
    | none =>
        rw [he.whole hids] at hids'
        cases hids'
    | some ids =>
        rcases he.listed ids hids with ⟨ids'', hids'', hsub, _⟩
        rw [hids'] at hids''
        cases hids''
        exact ⟨ids, rfl, hsub⟩
  constructor
  · constructor
    · intro hbound
      rw [show (ownerOf row').actsAsUserId = (ownerOf row).actsAsUserId from he.actsAsUserId] at *
      rw [show (ownerOf row').createdByUserId = _ from he.createdByUserId,
        show (ownerOf row').createdByKeyId = _ from he.createdByKeyId]
      exact h.shaped.bound hbound
    · intro hfollows
      have hold := h.shaped.follows (he.followsMemberships.symm.trans hfollows)
      refine ⟨he.createdByKeyId.trans hold.left, ?_⟩
      rcases he.listed [] hold.right with ⟨ids', hids', hempty, _⟩
      rw [show ids' = [] from List.eq_nil_iff_forall_not_mem.mpr
        fun id hid => by cases hempty id hid] at hids'
      exact hids'
    · intro minterId hminter
      rcases h.shaped.minted minterId (he.createdByKeyId.symm.trans hminter) with
        ⟨hlower, minter, hmem, hid, haccount, hadmin, hcovers⟩
      refine ⟨he.scope ▸ hlower, minter, hmem, hid, haccount.trans he.accountId.symm, hadmin, ?_⟩
      intro hplain ids hids
      rcases hcovers hplain ids hids with ⟨listed, hlisted, hmembers⟩
      rcases he.listed listed hlisted with ⟨listed', hlisted', hshrunk, _⟩
      exact ⟨listed', hlisted', fun id hid => hmembers id (hshrunk id hid)⟩
  · intro ids' hids' id hid
    rcases hsub ids' hids' with ⟨ids, hids, hmem⟩
    have hanchored := h.anchors ids hids id (hmem id hid)
    rw [show (ownerOf row').accountId = (ownerOf row).accountId from he.accountId]
    exact hanchored

theorem RowSound.grow {row : PublicApiKeyRecord} (h : RowSound w row) (hs : Sound w)
    (hg : Grows w w') : RowSound w' row :=
  ⟨h.shaped.grow hs hg, h.anchors.grow hg⟩

theorem CallSound.grow {c : Call} (h : CallSound w c) (hs : Sound w) (hg : Grows w w') :
    CallSound w' c := by
  cases c with
  | asked request => trivial
  | vetting owner label scope origin =>
      have hshaped : Shaped w owner scope := h
      exact hshaped.grow hs hg
  | counting owner label scope origin => exact ⟨h.left.grow hs hg, h.right.grow hg⟩
  | storing row secret origin =>
      have hrow : RowSound w row := h
      exact hrow.grow hs hg
  | revoking accountId keyId =>
      rcases h with ⟨row, hrow, hid, haccount⟩
      rcases hg.kept row hrow with ⟨row', hrow', he⟩
      exact ⟨row', hrow', he.id.trans hid, he.accountId.trans haccount⟩
  | cascading accountId keyId time =>
      rcases h with ⟨row, hrow, hid, haccount, hrevoked⟩
      rcases hg.kept row hrow with ⟨row', hrow', he⟩
      exact ⟨row', hrow', he.id.trans hid, he.accountId.trans haccount, he.revoked hrevoked⟩
  | done answer => trivial

end Growth

/-! ## What the checks establish -/

section Checks

variable {dep : Deployment} {w : World}

theorem getLive_some {keys : List PublicApiKeyRecord} {accountId id : String}
    {row : PublicApiKeyRecord} (h : getLive keys accountId id = some row) :
    row ∈ keys ∧ row.accountId = accountId ∧ row.revokedAt = none := by
  unfold getLive at h
  rw [Option.filter_eq_some_iff, decide_eq_true_iff] at h
  exact ⟨List.mem_of_find?_eq_some h.left, h.right⟩

theorem anchored_of_accountOf (hs : Sound w) {accountId id : String}
    (h : w.directory.accountOf id = some (some accountId)) : Anchored w accountId id :=
  ⟨hs.known id (by rw [h]; exact Option.some_ne_none _), Or.inl h⟩

/-- What the panel asks for is not minted by a key, and follows nobody but the
person asking. -/
theorem shaped_panelOwner (accountId workspaceId : String) (user : Option String)
    (input : CreateKeyInput) (scope : PublicApiScope) :
    Shaped w (panelOwner accountId workspaceId user input) scope := by
  refine ⟨?_, ?_, ?_⟩
  · intro hbound
    refine ⟨?_, rfl⟩
    show (if input.actsAsSelf = true then user else none) = user
    cases hself : input.actsAsSelf with
    | true => rfl
    | false =>
        exfalso
        apply hbound
        show (if input.actsAsSelf = true then user else none) = none
        rw [hself]
        rfl
  · intro hfollows
    refine ⟨rfl, ?_⟩
    have hfollows' : input.followsMemberships = true := hfollows
    show (if input.followsMemberships = true then some [] else _) = some []
    rw [if_pos hfollows']
  · intro minterId hminter
    cases hminter

theorem mintedScope_mem (input : HeadlessKeyInput) :
    input.mintedScope ∈ HEADLESS_MINTABLE_SCOPES := by
  unfold HeadlessKeyInput.mintedScope
  split
  · decide
  · rename_i s _
    exact s.property

theorem covers_of_reachCovers {outer inner : Option (List String)}
    (h : reachCovers outer inner = true) : Covers w outer inner := by
  intro ids hids
  rw [hids] at h
  cases inner with
  | none => cases h
  | some ids' => exact ⟨ids', rfl, fun id hid => Or.inl (reachCovers_iff.mp h id hid)⟩

/-- A key that provisions is an admin key of the store, whose reach covers what
it hands out. -/
theorem shaped_headlessOwner {headers : ApiRequest} {input : HeadlessKeyInput}
    {auth : PublicApiKeyAuth}
    (hauth : authorize dep.hash w.sight w.keys headers HEADLESS_KEY_MINT_SCOPE = .ok auth)
    (hreach : reachCovers auth.identity.workspaceIds
      (headlessOwner auth input).workspaceIds = true) :
    Shaped w (headlessOwner auth input) input.mintedScope := by
  rcases authorize_ok hauth with ⟨row, hadmits⟩
  have hrow := (authenticatedRow_spec hadmits.opened).left
  have hadmin : row.scope = .admin :=
    admin_of_satisfies (scopeSatisfies_trans hadmits.within hadmits.enough)
  refine ⟨fun hbound => absurd rfl hbound, fun hfollows => Bool.noConfusion hfollows, ?_⟩
  intro minterId hminter
  cases hminter
  refine ⟨mintedScope_mem input, row, hrow, hadmits.key.symm, hadmits.account.symm, hadmin, ?_⟩
  intro hplain
  rw [← (hadmits.whole hplain).left]
  exact covers_of_reachCovers hreach

theorem shaped_codeOwner (code : SealedCode) : Shaped w (codeOwner code) code.scope :=
  ⟨fun hbound => absurd rfl hbound, fun hfollows => Bool.noConfusion hfollows,
    fun _ hminter => nomatch hminter⟩

/-- The boards of a stored reach are those that were asked for. -/
theorem storedReach_listed {owner : KeyOwner} {ids : List String}
    (h : owner.storedReach = some ids) :
    owner.followsMemberships = true ∧ ids = [] ∨
      exists asked, owner.workspaceIds = some asked ∧ forall id, id ∈ ids <-> id ∈ asked := by
  unfold KeyOwner.storedReach at h
  split at h
  · rename_i hfollows
    cases h
    exact Or.inl ⟨hfollows, rfl⟩
  · rcases Option.map_eq_some_iff.mp h with ⟨asked, hasked, rfl⟩
    refine Or.inr ⟨asked, hasked, ?_⟩
    intro id
    rw [mem_sortIds, List.mem_dedup]

theorem sound_issuedRecord {owner : KeyOwner} {label : Utf16} {scope : PublicApiScope}
    {id secret : String} {now : Nat} (hshaped : Shaped w owner scope) (hanchors : Anchors w owner) :
    RowSound w (issuedRecord dep.hash owner label scope id secret now) := by
  constructor
  · refine ⟨hshaped.bound, ?_, ?_⟩
    · intro hfollows
      have hfollows' : owner.followsMemberships = true := hfollows
      refine ⟨(hshaped.follows hfollows).left, ?_⟩
      show owner.storedReach = some []
      unfold KeyOwner.storedReach
      rw [if_pos hfollows']
    · intro minterId hminter
      have hminter' : owner.createdByKeyId = some minterId := hminter
      rcases hshaped.minted minterId hminter with
        ⟨hlower, row, hrow, hid, haccount, hadmin, hcovers⟩
      refine ⟨hlower, row, hrow, hid, haccount, hadmin, ?_⟩
      intro hplain ids hids
      rcases hcovers hplain ids hids with ⟨asked, hasked, hmem⟩
      have hfollows : ¬ owner.followsMemberships = true := by
        intro hfollows
        rw [(hshaped.follows hfollows).left] at hminter'
        cases hminter'
      refine ⟨sortIds asked.dedup, ?_, ?_⟩
      · show owner.storedReach = _
        unfold KeyOwner.storedReach
        rw [if_neg hfollows, hasked]
        rfl
      · intro id hid
        rw [mem_sortIds, List.mem_dedup] at hid
        exact hmem id hid
  · intro ids hids id hid
    rcases storedReach_listed hids with ⟨_, rfl⟩ | ⟨asked, hasked, hmem⟩
    · cases hid
    · exact hanchors asked hasked id ((hmem id).mp hid)

theorem anchors_of_vetted (hs : Sound w) {owner : KeyOwner}
    (h : foreignWorkspace w.directory owner = none) : Anchors w owner := by
  intro ids hids id hid
  unfold foreignWorkspace at h
  rw [hids] at h
  have hsame := List.find?_eq_none.mp h id hid
  rw [decide_eq_true_iff, not_not] at hsame
  exact anchored_of_accountOf hs hsame

/-- What a request leads to relies on no more than was checked. -/
theorem sound_leads (hs : Sound w) {request : Request} {next : Call}
    (h : Leads dep w request next)
    (hsealed : forall text, text ∈ request.presented -> forall value,
      dep.decrypt text = some value ->
        exists s, s ∈ w.sealings ∧ s.text = text ∧ s.value = value) :
    CallSound w next := by
  cases h with
  | answers => trivial
  | @panelCounts workspaceId accountId user input hallowed hreach =>
      have hshaped := shaped_panelOwner (w := w) accountId workspaceId user input input.scope
      refine ⟨hshaped, ?_⟩
      intro ids hids id hid
      rcases hreach with ⟨hfollows, _⟩ | ⟨hplain, honly⟩
      · rw [(hshaped.follows hfollows).right] at hids
        cases hids
        cases hid
      · have howner : (panelOwner accountId workspaceId user input).workspaceIds =
            some [workspaceId] := (if_neg (ne_true_of_eq_false hplain)).trans honly
        rw [howner] at hids
        cases hids
        rw [List.mem_singleton.mp hid]
        exact anchored_of_accountOf hs hallowed.account
  | panelVets => exact shaped_panelOwner _ _ _ _ _
  | headlessVets hauth hcovered => exact shaped_headlessOwner hauth hcovered
  | @redeems grantType input code hvalid =>
      rcases hsealed input.code List.mem_cons_self _ (redeemable_ok hvalid).left with
        ⟨s, hmem, _, hvalue⟩
      refine ⟨shaped_codeOwner code, ?_⟩
      intro ids hids id hid
      cases hids
      rw [List.mem_singleton.mp hid]
      exact hs.codes s hmem code hvalue
  | retires hlive =>
      have htarget := getLive_some hlive
      exact ⟨_, htarget.left, rfl, htarget.right.left⟩

end Checks

end Access
end CatFactory
