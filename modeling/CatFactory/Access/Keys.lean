import CatFactory.Access.Directory
import CatFactory.Foundation.Text
import Mathlib.Data.LawfulXor.Basic

/-!
# Public-API keys

The rows of the key store, the writes that change them, and what the key
service computes from them: what a mint stores, and whose row a raw key opens.
-/

namespace CatFactory
namespace Access

open Foundation

/-- A failed call, as the error envelope shows it. -/
structure Refusal where
  status : Nat
  code : String
  message : String
  reason : Option String := none
deriving DecidableEq

def notFoundError (entity id : String) (reason : Option String := none) : Refusal :=
  { status := 404, code := "not_found", message := entity ++ " '" ++ id ++ "' not found"
    reason := reason }

def conflictError (message : String) : Refusal :=
  { status := 409, code := "conflict", message := message }

def validationError (message reason : String) : Refusal :=
  { status := 422, code := "validation", message := message, reason := some reason }

def forbiddenError (message : String) (reason : Option String := none) : Refusal :=
  { status := 403, code := "forbidden", message := message, reason := reason }

structure PublicApiKeyRecord where
  id : String
  accountId : String
  workspaceIds : Option (List String)
  followsMemberships : Bool
  label : Utf16
  scope : PublicApiScope
  secretHash : String
  createdByUserId : Option String
  createdByKeyId : Option String
  externalIdentity : Option Utf16
  actsAsUserId : Option String
  createdAt : Nat
  lastUsedAt : Option Nat
  revokedAt : Option Nat
deriving DecidableEq

/-! ## The store -/

def getById (keys : List PublicApiKeyRecord) (id : String) : Option PublicApiKeyRecord :=
  lookup PublicApiKeyRecord.id keys id

def getLive (keys : List PublicApiKeyRecord) (accountId id : String) :
    Option PublicApiKeyRecord :=
  (getById keys id).filter fun row => row.accountId = accountId ∧ row.revokedAt = none

/-- A restricted key with no board left does not count. -/
def countLiveByAccount (keys : List PublicApiKeyRecord) (accountId : String) : Nat :=
  keys.countP fun row =>
    row.accountId = accountId ∧ row.revokedAt = none ∧
      (row.workspaceIds = none ∨ row.followsMemberships = true ∨ row.workspaceIds ≠ some [])

inductive KeyWrite where
  | add (row : PublicApiKeyRecord)
  | markUsed (id : String) (time : Nat)
  | revoke (accountId id : String) (time : Nat)
  | revokeMintedBy (accountId minterId : String) (time : Nat)
  | dropGrants (workspaceId : String)
deriving DecidableEq

/-- What a write makes of one row. -/
def KeyWrite.onRow (row : PublicApiKeyRecord) : KeyWrite -> PublicApiKeyRecord
  | .add _ => row
  | .markUsed id now => if row.id = id then { row with lastUsedAt := some now } else row
  | .revoke accountId id now =>
      if row.id = id ∧ row.accountId = accountId ∧ row.revokedAt = none then
        { row with revokedAt := some now }
      else row
  | .revokeMintedBy accountId minterId now =>
      if row.createdByKeyId = some minterId ∧ row.accountId = accountId ∧
          row.revokedAt = none then
        { row with revokedAt := some now }
      else row
  | .dropGrants workspaceId =>
      { row with workspaceIds := row.workspaceIds.map fun ids =>
          ids.filter fun id => id ≠ workspaceId }

/-- The id of a row is its primary key; an insert under a taken id fails. -/
def KeyWrite.apply (keys : List PublicApiKeyRecord) (write : KeyWrite) :
    Option (List PublicApiKeyRecord) :=
  match write with
  | .add row => if (getById keys row.id).isSome then none else some (keys ++ [row])
  | other => some (keys.map fun row => other.onRow row)

/-! ## Raw keys -/

def RAW_KEY_PREFIX : String :=
  "cf_live_"

def rawKey (id secret : String) : String :=
  RAW_KEY_PREFIX ++ id ++ "." ++ secret

def parseRest (rest : List Char) : Option (String × String) :=
  let keyId := rest.takeWhile fun c => c ≠ '.'
  match rest.drop keyId.length with
  | [] => none
  | _ :: secret =>
      if keyId = [] ∨ secret = [] then none
      else some (String.ofList keyId, String.ofList secret)

def parseRawKey (raw : String) : Option (String × String) :=
  if RAW_KEY_PREFIX.toList.isPrefixOf raw.toList then
    parseRest (raw.toList.drop RAW_KEY_PREFIX.length)
  else none

theorem parseRest_append {id secret : String} (hid : '.' ∉ id.toList) (hne : id ≠ "")
    (hsecret : secret ≠ "") : parseRest (id.toList ++ '.' :: secret.toList) = some (id, secret) := by
  have htake : (id.toList ++ '.' :: secret.toList).takeWhile (fun c => c ≠ '.') = id.toList := by
    rw [List.takeWhile_append_of_pos]
    · rw [List.takeWhile_cons_of_neg (by decide), List.append_nil]
    · intro c hc
      apply decide_eq_true
      rintro rfl
      exact hid hc
  have hempty : ¬ (id.toList = [] ∨ secret.toList = []) := by
    rintro (h | h)
    · exact hne (String.toList_injective h)
    · exact hsecret (String.toList_injective h)
  unfold parseRest
  rw [htake]
  simp only [List.drop_left, if_neg hempty, String.ofList_toList]

/-- A raw key is read back as it was put together. -/
theorem parseRawKey_rawKey {id secret : String} (hid : '.' ∉ id.toList) (hne : id ≠ "")
    (hsecret : secret ≠ "") : parseRawKey (rawKey id secret) = some (id, secret) := by
  have htext : (rawKey id secret).toList =
      RAW_KEY_PREFIX.toList ++ (id.toList ++ '.' :: secret.toList) := by
    unfold rawKey
    rw [String.toList_append, String.toList_append, String.toList_append, List.append_assoc,
      List.append_assoc]
    rfl
  have hstart : RAW_KEY_PREFIX.toList.isPrefixOf (rawKey id secret).toList = true := by
    rw [htext, List.isPrefixOf_iff_prefix]
    exact List.prefix_append _ _
  unfold parseRawKey
  rw [if_pos hstart, htext]
  show parseRest (List.drop RAW_KEY_PREFIX.toList.length _) = _
  rw [List.drop_left]
  exact parseRest_append hid hne hsecret

/-! ## Minting -/

def MAX_PUBLIC_API_KEYS_PER_ACCOUNT : Nat :=
  200

/-- Whom a key is minted for. -/
structure KeyOwner where
  accountId : String
  workspaceIds : Option (List String)
  createdByUserId : Option String := none
  createdByKeyId : Option String := none
  externalIdentity : Option Utf16 := none
  actsAsUserId : Option String := none
  followsMemberships : Bool := false
deriving DecidableEq

/-- The refusals of `issue`, in its order. -/
def issueRefusal (keys : List PublicApiKeyRecord) (owner : KeyOwner) : Option Refusal :=
  if MAX_PUBLIC_API_KEYS_PER_ACCOUNT ≤ countLiveByAccount keys owner.accountId then
    some (conflictError ("This account already has the maximum of 200 public-API keys; "
      ++ "revoke one before creating another"))
  else if owner.followsMemberships ∧ owner.actsAsUserId = none then
    some (validationError
      "Only a key bound to a person can follow that person's workspaces: mint it as yourself"
      "follows_memberships_requires_person")
  else if ¬ owner.followsMemberships ∧ owner.workspaceIds = some [] then
    some (validationError "A key must reach at least one workspace" "workspace_required")
  else none

/-- The reach that a row stores. -/
def KeyOwner.storedReach (owner : KeyOwner) : Option (List String) :=
  if owner.followsMemberships then some []
  else owner.workspaceIds.map fun ids => sortIds ids.dedup

def issuedRecord (hash : String -> String) (owner : KeyOwner) (label : Utf16)
    (scope : PublicApiScope) (id secret : String) (now : Nat) : PublicApiKeyRecord :=
  { id := id
    accountId := owner.accountId
    workspaceIds := owner.storedReach
    followsMemberships := owner.followsMemberships
    label := label
    scope := scope
    secretHash := hash secret
    createdByUserId := owner.createdByUserId
    createdByKeyId := owner.createdByKeyId
    externalIdentity := owner.externalIdentity
    actsAsUserId := owner.actsAsUserId
    createdAt := now
    lastUsedAt := none
    revokedAt := none }

/-! ## Authentication -/

structure PublicApiKeyIdentity where
  keyId : String
  accountId : String
  workspaceIds : Option (List String)
  followsMemberships : Bool
  scope : PublicApiScope
  label : Utf16
  externalIdentity : Option Utf16
  actsAsUserId : Option String
  createdByUserId : Option String
  createdAt : Nat
deriving DecidableEq

def identityOf (row : PublicApiKeyRecord) : PublicApiKeyIdentity :=
  { keyId := row.id
    accountId := row.accountId
    workspaceIds := row.workspaceIds
    followsMemberships := row.followsMemberships
    scope := row.scope
    label := row.label
    externalIdentity := row.externalIdentity
    actsAsUserId := row.actsAsUserId
    createdByUserId := row.createdByUserId
    createdAt := row.createdAt }

/-- Every pair of units is compared, whatever the pairs before showed. -/
def timingSafeEqualHex (a b : String) : Bool :=
  if (stringUnits a).length ≠ (stringUnits b).length then false
  else ((stringUnits a).zip (stringUnits b)).foldl (fun diff p => diff ||| (p.1 ^^^ p.2)) 0 = 0

/-- A live row that reaches something and holds the hash of the secret. -/
def opens (hash : String -> String) (secret : String) (row : PublicApiKeyRecord) : Bool :=
  row.revokedAt = none &&
    !(!row.followsMemberships && row.workspaceIds = some []) &&
    timingSafeEqualHex (hash secret) row.secretHash

def authenticatedRow (hash : String -> String) (keys : List PublicApiKeyRecord)
    (raw : Option String) : Option PublicApiKeyRecord :=
  match raw.bind parseRawKey with
  | none => none
  | some parsed => (getById keys parsed.1).filter (opens hash parsed.2)

def authenticate (hash : String -> String) (keys : List PublicApiKeyRecord)
    (raw : Option String) : Option PublicApiKeyIdentity :=
  (authenticatedRow hash keys raw).map identityOf

def LAST_USED_STAMP_THROTTLE_MS : Nat :=
  60000

/-- The stamp of a use is written again only after a while. -/
def stampDue (row : PublicApiKeyRecord) (now : Nat) : Bool :=
  match row.lastUsedAt with
  | none => true
  | some last => LAST_USED_STAMP_THROTTLE_MS ≤ now - last

theorem foldl_or_xor_eq_zero (pairs : List (Nat × Nat)) (diff : Nat) :
    pairs.foldl (fun diff p => diff ||| (p.1 ^^^ p.2)) diff = 0 <->
      diff = 0 ∧ forall p, p ∈ pairs -> p.1 = p.2 := by
  induction pairs generalizing diff with
  | nil => simp
  | cons p rest ih =>
      rw [List.foldl_cons, ih, Nat.or_eq_zero_iff, xor_eq_zero_iff, List.forall_mem_cons,
        and_assoc]

/-- The comparison that takes the same time everywhere is an equality. -/
theorem timingSafeEqualHex_iff {a b : String} : timingSafeEqualHex a b = true <-> a = b := by
  unfold timingSafeEqualHex
  constructor
  · intro h
    split at h
    · cases h
    · rename_i hlength
      have hpairs := ((foldl_or_xor_eq_zero _ _).mp (of_decide_eq_true h)).right
      apply stringUnits_injective
      apply List.ext_getElem (not_not.mp hlength)
      intro i hi hi'
      have hzip : i < ((stringUnits a).zip (stringUnits b)).length := by
        rw [List.length_zip]
        exact Nat.lt_min.mpr ⟨hi, hi'⟩
      have hmem := List.getElem_mem hzip
      rw [List.getElem_zip] at hmem
      exact hpairs _ hmem
  · rintro rfl
    rw [if_neg (fun h => h rfl)]
    apply decide_eq_true
    rw [foldl_or_xor_eq_zero]
    refine ⟨rfl, ?_⟩
    intro p hp
    rcases List.mem_iff_getElem.mp hp with ⟨i, hi, rfl⟩
    rw [List.getElem_zip]

theorem opens_iff {hash : String -> String} {secret : String} {row : PublicApiKeyRecord} :
    opens hash secret row = true <->
      row.revokedAt = none ∧ (row.followsMemberships = true ∨ row.workspaceIds ≠ some []) ∧
        hash secret = row.secretHash := by
  unfold opens
  rw [Bool.and_eq_true, Bool.and_eq_true, timingSafeEqualHex_iff, decide_eq_true_iff, and_assoc]
  cases row.followsMemberships <;> simp

theorem authenticatedRow_spec {hash : String -> String} {keys : List PublicApiKeyRecord}
    {raw : Option String} {row : PublicApiKeyRecord}
    (h : authenticatedRow hash keys raw = some row) :
    row ∈ keys ∧ row.revokedAt = none := by
  unfold authenticatedRow at h
  split at h
  · cases h
  · rw [Option.filter_eq_some_iff] at h
    exact ⟨List.mem_of_find?_eq_some h.left, (opens_iff.mp h.right).left⟩

end Access
end CatFactory
