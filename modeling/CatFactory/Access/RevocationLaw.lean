import CatFactory.Access.MintLaw

/-!
# A retired key takes its mints along

A retirement revokes the key and then all that it minted.  Where no mint of the
key is under way by then, nothing that goes back to it is alive ever after.
-/

namespace CatFactory
namespace Access

open Foundation

/-- A mint under way for a key. -/
def MintsFor (minterId : String) : Call -> Prop
  | .vetting owner _ _ _ => owner.createdByKeyId = some minterId
  | .counting owner _ _ _ => owner.createdByKeyId = some minterId
  | .storing row _ _ => row.createdByKeyId = some minterId
  | _ => False

instance (minterId : String) : (c : Call) -> Decidable (MintsFor minterId c)
  | .vetting owner _ _ _ => inferInstanceAs (Decidable (owner.createdByKeyId = some minterId))
  | .counting owner _ _ _ => inferInstanceAs (Decidable (owner.createdByKeyId = some minterId))
  | .storing row _ _ => inferInstanceAs (Decidable (row.createdByKeyId = some minterId))
  | .asked _ => isFalse not_false
  | .revoking _ _ => isFalse not_false
  | .cascading _ _ _ => isFalse not_false
  | .done _ => isFalse not_false

structure Retired (w : World) (keyId : String) : Prop where
  present : exists row, row ∈ w.keys ∧ row.id = keyId
  key : forall row, row ∈ w.keys -> row.id = keyId -> row.revokedAt ≠ none
  minted : forall row, row ∈ w.keys -> row.createdByKeyId = some keyId -> row.revokedAt ≠ none
  quiet : forall c, c ∈ w.calls -> ¬ MintsFor keyId c

/-- A key and all that it minted, and what these minted, and so on. -/
inductive GoesBackTo (keys : List PublicApiKeyRecord) (keyId : String) :
    PublicApiKeyRecord -> Prop where
  | self {row : PublicApiKeyRecord} (mem : row ∈ keys) (id : row.id = keyId) :
      GoesBackTo keys keyId row
  | minted {row parent : PublicApiKeyRecord} (mem : row ∈ keys)
      (by_ : row.createdByKeyId = some parent.id) (back : GoesBackTo keys keyId parent) :
      GoesBackTo keys keyId row

section Steps

variable {dep : Deployment} {w w' : World} {keyId : String}

/-- Only a request with the key itself starts a mint for it. -/
theorem quiet_turn {call next : Call} {fresh : Fresh} {effect : Effect}
    (hkey : forall row, row ∈ w.keys -> row.id = keyId -> row.revokedAt ≠ none)
    (hcall : ¬ MintsFor keyId call) (h : call.turn dep w fresh = some (next, effect)) :
    ¬ MintsFor keyId next := by
  cases turn_next h with
  | asked hleads =>
      cases hleads with
      | answers => exact not_false
      | panelCounts => exact fun hmints => nomatch hmints
      | panelVets => exact fun hmints => nomatch hmints
      | redeems => exact fun hmints => nomatch hmints
      | retires => exact not_false
      | headlessVets hauth hcovered =>
          intro hmints
          rcases authorize_ok hauth with ⟨row, hadmits⟩
          rcases authenticatedRow_spec hadmits.opened with ⟨hrow, hlive⟩
          exact hkey row hrow (hadmits.key.symm.trans (Option.some.inj hmints)) hlive
  | answers => exact not_false
  | vetted hown => exact hcall
  | counted hfree => exact hcall
  | revoked => exact not_false

/-- What is retired stays retired, whatever else is under way. -/
theorem retired_step {a : Action} (hr : Retired w keyId) (h : Stepped dep w w' a) :
    Retired w' keyId := by
  have hrows := step_rows h
  refine ⟨?_, ?_, ?_, ?_⟩
  · rcases hr.present with ⟨row, hrow, hid⟩
    rcases hrows.left row hrow with ⟨row', hrow', he⟩
    exact ⟨row', hrow', he.id.trans hid⟩
  · intro row' hrow' hid
    rcases hrows.right row' hrow' with ⟨row, hrow, he⟩ | ⟨_, _, _, _, hnew⟩
    · exact he.revoked (hr.key row hrow (he.id.symm.trans hid))
    · rcases hr.present with ⟨row, hrow, hrowId⟩
      exact absurd (hrowId.trans hid.symm) (lookup_eq_none_iff.mp hnew row hrow)
  · intro row' hrow' hminted
    rcases hrows.right row' hrow' with ⟨row, hrow, he⟩ | ⟨_, _, hcall, _, _⟩
    · exact he.revoked (hr.minted row hrow (he.createdByKeyId.symm.trans hminted))
    · exact absurd hminted (hr.quiet _ hcall)
  · intro c hc
    rcases step_calls h hc with hold | ⟨request, rfl⟩ | rfl |
      ⟨i, fresh, call, effect, rfl, hfound, hturn, _⟩
    · exact hr.quiet c hold
    · exact not_false
    · exact not_false
    · exact quiet_turn hr.key (hr.quiet call (List.mem_of_getElem? hfound)) hturn

theorem retired_run {later : List Action} (hr : Retired w keyId)
    (h : RunWhere (World.step dep) (Unforged dep) w later w') : Retired w' keyId :=
  RunWhere.invariant (I := fun v => Retired v keyId) hr
    (fun _ _ _ hi _ hstep => retired_step hi (stepped_of_step hstep)) h

/-- The second write of a retirement, where no mint of the key is under way. -/
theorem retired_of_cascade {i : Nat} {fresh : Fresh} {accountId : String} {time : Nat}
    (hs : Sound w) (hcall : w.calls[i]? = some (.cascading accountId keyId time))
    (hquiet : forall c, c ∈ w.calls -> ¬ MintsFor keyId c)
    (h : World.step dep w (.turn i fresh) = some w') : Retired w' keyId := by
  have hstep := stepped_of_step h
  rcases hs.calls _ (List.mem_of_getElem? hcall) with ⟨row, hrow, hid, haccount, hrevoked⟩
  have hrows := step_rows hstep
  have hkey : forall other, other ∈ w.keys -> other.id = keyId -> other.revokedAt ≠ none := by
    intro other hother hotherId
    rw [eq_of_key hs.ids hother hrow (hotherId.trans hid.symm)]
    exact hrevoked
  refine ⟨?_, ?_, ?_, ?_⟩
  · rcases hrows.left row hrow with ⟨row', hrow', he⟩
    exact ⟨row', hrow', he.id.trans hid⟩
  · intro row' hrow' hrowId
    rcases hrows.right row' hrow' with ⟨old, hold, he⟩ | ⟨_, _, _, _, hnew⟩
    · exact he.revoked (hkey old hold (he.id.symm.trans hrowId))
    · exact absurd (hid.trans hrowId.symm) (lookup_eq_none_iff.mp hnew row hrow)
  · intro row' hrow' hminted
    cases hstep with
    | turn hfound hturn hcommit =>
        rw [hcall] at hfound
        cases hfound
        cases hturn
        rcases (mem_apply (hcommit.applied rfl)).right row' hrow' with ⟨old, hold, rfl⟩ | ⟨hadd, _⟩
        · have holdMinted : old.createdByKeyId = some keyId := by
            have he := onRow_evolves w.directory old (.revokeMintedBy accountId keyId time)
              (fun id heq => by cases heq)
            exact he.createdByKeyId.symm.trans hminted
          rcases minter_of_sound hs hold holdMinted with ⟨minter, hmem, hminterId, hsame, _, _⟩
          rw [eq_of_key hs.ids hmem hrow (hminterId.trans hid.symm)] at hsame
          simp only [KeyWrite.onRow]
          split
          · exact Option.some_ne_none _
          · rename_i hcond
            intro hlive
            exact hcond ⟨holdMinted, hsame.symm.trans haccount, hlive⟩
        · cases hadd
    | failed hfound hw =>
        rw [hcall] at hfound
        cases hfound
        -- this write never fails
        simp only [World.step, hcall, Call.turn, World.commit, Option.elim_some, KeyWrite.apply,
          Option.some.injEq] at h
        rw [hw] at h
        have hcalls := congrArg World.calls h
        have hlength := (List.getElem?_eq_some_iff.mp hcall).1
        have hset := congrArg (fun calls => calls[i]?) hcalls
        simp only [List.getElem?_set_self hlength, Option.some.injEq, Call.done.injEq,
          reduceCtorEq] at hset
  · intro c hc
    rcases step_calls hstep hc with hold | ⟨request, rfl⟩ | rfl |
      ⟨j, fresh', call, effect, heq, hfound, hturn, _⟩
    · exact hquiet c hold
    · exact not_false
    · exact not_false
    · exact quiet_turn hkey (hquiet call (List.mem_of_getElem? hfound)) hturn

end Steps

/-- From the second write of a retirement on, no key that goes back to the
retired one is alive or opens anything, where no mint of it was under way at
that write. -/
theorem retired_with_its_mints {dep : Deployment} {directory : Directory}
    {trace later : List Action} {w w' w'' : World} (hrun : SealedRun dep directory trace w)
    {i : Nat} {fresh : Fresh} {accountId keyId : String} {time : Nat}
    (hcall : w.calls[i]? = some (.cascading accountId keyId time))
    (hquiet : forall c, c ∈ w.calls -> ¬ MintsFor keyId c)
    (hunforged : Unforged dep w (.turn i fresh))
    (hstep : World.step dep w (.turn i fresh) = some w')
    (hlater : RunWhere (World.step dep) (Unforged dep) w' later w'')
    {row : PublicApiKeyRecord} (hback : GoesBackTo w''.keys keyId row) :
    row.revokedAt ≠ none ∧ forall raw, authenticatedRow dep.hash w''.keys raw ≠ some row := by
  have hs := run_sound hrun
  have hretired := retired_run (retired_of_cascade hs hcall hquiet hstep) hlater
  have hsound : Sound w'' := hlater.invariant (step_sound hs hunforged hstep)
    fun _ _ _ hi hok h => step_sound hi hok h
  have hrevoked : row.revokedAt ≠ none := by
    cases hback with
    | self hmem hid => exact hretired.key row hmem hid
    | minted hmem hby hparent =>
        rcases minter_of_sound hsound hmem hby with ⟨minter, hminter, hminterId, _, _, hchain⟩
        apply hretired.minted row hmem
        rw [hby]
        cases hparent with
        | self _ hid => rw [hid]
        | minted hparentMem hparentBy _ =>
            rw [eq_of_key hsound.ids hminter hparentMem hminterId, hparentBy] at hchain
            cases hchain
  refine ⟨hrevoked, ?_⟩
  intro raw hopens
  exact hrevoked (authenticatedRow_spec hopens).right

/-- The admin key is revoked, its mint not yet. -/
def halfRetired : List Action :=
  mintOfMint ++ [.arrive (.revokeKey "ws1" (some "ada") "key1")] ++ takeTurns 2 2 ⟨"", "", 0⟩

def retired : List Action :=
  halfRetired ++ takeTurns 2 1 ⟨"", "", 0⟩

def retiredLater : List Action :=
  retired ++ [.tick 60000]

theorem retired_with_its_mints_ops :
    (rowAfter retiredLater "key2").revokedAt ≠ none ∧ forall raw,
      authenticatedRow acmeDeployment.hash (acmeAfter retiredLater).keys raw ≠
        some (rowAfter retiredLater "key2") :=
  @retired_with_its_mints acmeDeployment acme halfRetired [.tick 60000] (acmeAfter halfRetired)
    (acmeAfter retired) (acmeAfter retiredLater)
    (@runWhere_endOf _ _ _ _ (unforgedTest acmeDeployment) unforged_of_test _ _
      (by decide +kernel))
    2 ⟨"", "", 0⟩ "acme" "key1" 0 rfl
    (by decide +kernel) (unforged_of_test _ _ (by decide +kernel)) rfl
    (.snoc .nil trivial rfl) (rowAfter retiredLater "key2")
    (.minted (by decide +kernel) (show _ = some (rowAfter retiredLater "key1").id by decide +kernel)
      (.self (by decide +kernel) (by decide +kernel)))

end Access
end CatFactory
