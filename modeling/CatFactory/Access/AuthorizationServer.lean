import CatFactory.Access.Keys

/-!
# The authorization server for hosts

A host registers itself, asks for a grant, and redeems a code for a key.  What
one request leaves for the next is sealed into the value that the other party
carries, so the server keeps no row: the client id, the request that the consent
screen is opened on, and the code.
-/

namespace CatFactory
namespace Access

open Foundation

def AUTHORIZATION_REQUEST_TTL_MS : Nat :=
  15 * 60 * 1000

def AUTHORIZATION_CODE_TTL_MS : Nat :=
  60 * 1000

def REQUIRED_CODE_CHALLENGE_METHOD : String :=
  "S256"

def MAX_REDIRECT_URIS : Nat :=
  8

def MAX_CLIENT_NAME_LENGTH : Nat :=
  120

/-! ## Sealed values -/

structure SealedClient where
  name : Utf16
  redirectUris : List String
  issuedAt : Nat
deriving DecidableEq

structure McpAuthorizationRequestState where
  clientId : String
  clientName : Utf16
  redirectUri : String
  codeChallenge : String
  state : Option String
  requestedScope : Option PublicApiScope
  exp : Nat
deriving DecidableEq

structure SealedCode where
  clientId : String
  clientName : Utf16
  redirectUri : String
  codeChallenge : String
  accountId : String
  workspaceId : String
  scope : PublicApiScope
  approvedByUserId : Option String
  exp : Nat
deriving DecidableEq

/-- The three values, told apart by their `kind`. -/
inductive Sealed where
  | client (value : SealedClient)
  | request (value : McpAuthorizationRequestState)
  | code (value : SealedCode)
deriving DecidableEq

/-- What a parsed URL is asked for. -/
structure Url where
  protocol : String
  hostname : String
  hash : String
  origin : String
deriving DecidableEq

/-- What a deployment brings along: the hash under its pepper, its cipher (the
number stands for the random part), and the platform's URL parser and digest. -/
structure Deployment where
  authEnabled : Bool
  hash : String -> String
  encrypt : Nat -> Sealed -> String
  decrypt : String -> Option Sealed
  digest : String -> String
  parseUrl : String -> Option Url
  expectedResource : String

/-! ## Refusals -/

inductive McpOAuthErrorCode where
  | invalidRequest
  | invalidClient
  | invalidGrant
  | unsupportedGrantType
  | unsupportedResponseType
  | accessDenied
  | invalidRedirectUri
  | invalidClientMetadata
deriving DecidableEq

def McpOAuthErrorCode.text : McpOAuthErrorCode -> String
  | .invalidRequest => "invalid_request"
  | .invalidClient => "invalid_client"
  | .invalidGrant => "invalid_grant"
  | .unsupportedGrantType => "unsupported_grant_type"
  | .unsupportedResponseType => "unsupported_response_type"
  | .accessDenied => "access_denied"
  | .invalidRedirectUri => "invalid_redirect_uri"
  | .invalidClientMetadata => "invalid_client_metadata"

structure McpOAuthProtocolError where
  oauthError : McpOAuthErrorCode
  message : String
deriving DecidableEq

structure McpOAuthRedirectTarget where
  redirectUri : String
  state : Option String := none
deriving DecidableEq

/-- A URL the browser is sent to, with what was set on its query. -/
structure Redirect where
  url : String
  params : List (String × String)
deriving DecidableEq

/-- An empty text counts as an absent one. -/
def given (text : Option String) : Option String :=
  text.filter fun t => t ≠ ""

def stateParams (state : Option String) : List (String × String) :=
  match given state with
  | some s => [("state", s)]
  | none => []

def redirectWithError (target : McpOAuthRedirectTarget) (error : McpOAuthProtocolError) :
    Redirect :=
  { url := target.redirectUri
    params := [("error", error.oauthError.text), ("error_description", error.message)]
      ++ stateParams target.state }

/-! ## Registration -/

def LOOPBACK_HOSTS : List String :=
  ["localhost", "127.0.0.1", "::1"]

/-- `hostname.replace(/^\[|\]$/g, '')` -/
def unbracket (hostname : String) : String :=
  let cs := hostname.toList
  let cs := if cs.head? = some '[' then cs.tail else cs
  String.ofList (if cs.getLast? = some ']' then cs.dropLast else cs)

def isLoopbackHost (hostname : String) : Bool :=
  unbracket hostname ∈ LOOPBACK_HOSTS

def BROWSER_INTERPRETED_SCHEMES : List String :=
  ["ftp:", "file:", "ws:", "wss:", "javascript:", "vbscript:", "data:", "blob:", "about:",
    "filesystem:", "view-source:"]

/-- `/^[a-z][a-z0-9+.-]*:$/i` -/
def isSchemeText (protocol : String) : Bool :=
  match protocol.toList with
  | [] => false
  | c :: rest =>
      c.isAlpha && rest.getLast? = some ':' &&
        rest.dropLast.all fun c => c.isAlphanum || c ∈ ['+', '.', '-']

/-- A URL that a code may be sent to. -/
def isAllowedRedirectUri (dep : Deployment) (raw : String) : Bool :=
  match dep.parseUrl raw with
  | none => false
  | some url =>
      if url.hash ≠ "" then false
      else if url.protocol = "https:" then true
      else if url.protocol = "http:" then isLoopbackHost url.hostname
      else isSchemeText url.protocol && toLowerCase url.protocol ∉ BROWSER_INTERPRETED_SCHEMES

/-- An entry that is not a string is `none`; what is no array is `[]`. -/
def normaliseRedirectUris (dep : Deployment) (raw : List (Option String)) :
    Except McpOAuthProtocolError (List String) :=
  let uris := raw.filterMap given
  if uris = [] then
    .error ⟨.invalidClientMetadata,
      "redirect_uris must name at least one URI this client will be redirected to."⟩
  else if MAX_REDIRECT_URIS < uris.length then
    .error ⟨.invalidClientMetadata, "A client may register at most 8 redirect URIs."⟩
  else
    match uris.find? fun uri => !isAllowedRedirectUri dep uri with
    | some uri =>
        .error ⟨.invalidRedirectUri, uri ++ " is not a redirect URI this authorization server "
          ++ "will send a code to. Use https, a loopback http address, or a private-use scheme."⟩
    | none => .ok uris

/-- The ranges of the format characters, `\p{Cf}`. -/
def FORMAT_RANGES : List (Nat × Nat) :=
  [(0xAD, 0xAD), (0x600, 0x605), (0x61C, 0x61C), (0x6DD, 0x6DD), (0x70F, 0x70F),
    (0x890, 0x891), (0x8E2, 0x8E2), (0x180E, 0x180E), (0x200B, 0x200F), (0x202A, 0x202E),
    (0x2060, 0x2064), (0x2066, 0x206F), (0xFEFF, 0xFEFF), (0xFFF9, 0xFFFB),
    (0x110BD, 0x110BD), (0x110CD, 0x110CD), (0x13430, 0x1343F), (0x1BCA0, 0x1BCA3),
    (0x1D173, 0x1D17A), (0xE0001, 0xE0001), (0xE0020, 0xE007F)]

/-- `[\p{Cc}\p{Cf}\p{Zl}\p{Zp}]` -/
def isUnsafeNameChar (c : Char) : Bool :=
  c.toNat < 0x20 || (0x7F ≤ c.toNat && c.toNat ≤ 0x9F) || c.toNat ∈ [0x2028, 0x2029] ||
    FORMAT_RANGES.any fun r => r.1 ≤ c.toNat && c.toNat ≤ r.2

def blankUnsafe (s : String) : String :=
  String.ofList (s.toList.map fun c => if isUnsafeNameChar c then ' ' else c)

def normaliseClientName (raw : Option String) : Utf16 :=
  let cleaned := trim (blankUnsafe (raw.getD ""))
  if cleaned = "" then "An unnamed MCP client"
  else if MAX_CLIENT_NAME_LENGTH < (stringUnits cleaned).length then
    sliceTo (MAX_CLIENT_NAME_LENGTH - 1) cleaned ++ stringUnits "…"
  else cleaned

def registerClient (dep : Deployment) (clientName : Option String)
    (redirectUris : List (Option String)) (now : Nat) :
    Except McpOAuthProtocolError SealedClient :=
  match normaliseRedirectUris dep redirectUris with
  | .error e => .error e
  | .ok uris =>
      .ok { name := normaliseClientName clientName, redirectUris := uris, issuedAt := now }

/-! ## The request for a grant -/

/-- Open a sealed value and pin its kind. -/
def openClient (dep : Deployment) (text : String) : Option SealedClient :=
  match dep.decrypt text with
  | some (.client value) => some value
  | _ => none

def openRequest (dep : Deployment) (text : String) : Option McpAuthorizationRequestState :=
  match dep.decrypt text with
  | some (.request value) => some value
  | _ => none

def openCode (dep : Deployment) (text : String) : Option SealedCode :=
  match dep.decrypt text with
  | some (.code value) => some value
  | _ => none

structure AuthorizationInput where
  clientId : String
  redirectUri : String
  responseType : String
  codeChallenge : String
  codeChallengeMethod : String
  state : Option String := none
  scope : Option String := none
  resource : Option String := none
deriving DecidableEq

/-- The first of the listed scopes that the ladder knows. -/
def readScope (raw : Option String) : Option PublicApiScope :=
  ((raw.getD "").toList.splitOnP isSpace).findSome? fun word =>
    PUBLIC_API_SCOPES.find? fun scope => scope.text = String.ofList word

def trimSlashes (value : String) : String :=
  String.ofList (value.toList.reverse.dropWhile (· = '/')).reverse

def resourceMatches (presented expected : String) : Bool :=
  trimSlashes presented = trimSlashes expected

/-- Where a request for a grant leads.  A refusal is reported to the host only
once the redirect URI is known to be registered. -/
inductive Begun where
  | refused (error : McpOAuthProtocolError)
  | reported (target : McpOAuthRedirectTarget) (error : McpOAuthProtocolError)
  | sealed (request : McpAuthorizationRequestState)
deriving DecidableEq

def beginAuthorization (dep : Deployment) (input : AuthorizationInput) (now : Nat) : Begun :=
  match openClient dep input.clientId with
  | none =>
      .refused ⟨.invalidClient,
        "This client_id was not issued by this deployment. Register the client first."⟩
  | some client =>
      let target : McpOAuthRedirectTarget :=
        { redirectUri := input.redirectUri, state := given input.state }
      if input.redirectUri ∉ client.redirectUris then
        .refused ⟨.invalidRequest, "redirect_uri does not match any URI this client registered."⟩
      else if input.responseType ≠ "code" then
        .reported target ⟨.unsupportedResponseType,
          "Only the authorization-code response type is served; got '" ++ input.responseType
            ++ "'."⟩
      else if input.codeChallengeMethod ≠ REQUIRED_CODE_CHALLENGE_METHOD ∨
          input.codeChallenge = "" then
        .reported target ⟨.invalidRequest,
          "This authorization server requires PKCE with code_challenge_method=S256."⟩
      else if (given input.resource).any (fun r => !resourceMatches r dep.expectedResource) then
        .reported target ⟨.invalidRequest,
          "This authorization server issues tokens for " ++ dep.expectedResource ++ ", not "
            ++ input.resource.getD "" ++ "."⟩
      else
        .sealed
          { clientId := input.clientId
            clientName := client.name
            redirectUri := input.redirectUri
            codeChallenge := input.codeChallenge
            state := given input.state
            requestedScope := readScope input.scope
            exp := now + AUTHORIZATION_REQUEST_TTL_MS }

def readAuthorizationRequest (dep : Deployment) (text : String) (now : Nat) :
    Option McpAuthorizationRequestState :=
  if text = "" then none
  else (openRequest dep text).filter fun request => now ≤ request.exp

/-! ## Consent -/

structure Approval where
  accountId : String
  workspaceId : String
  scope : PublicApiScope
  approvedByUserId : Option String
deriving DecidableEq

def approvedCode (request : McpAuthorizationRequestState) (approval : Approval) (now : Nat) :
    SealedCode :=
  { clientId := request.clientId
    clientName := request.clientName
    redirectUri := request.redirectUri
    codeChallenge := request.codeChallenge
    accountId := approval.accountId
    workspaceId := approval.workspaceId
    scope := approval.scope
    approvedByUserId := approval.approvedByUserId
    exp := now + AUTHORIZATION_CODE_TTL_MS }

/-- The redirect of `approve`, once the code is sealed. -/
def approvalRedirect (request : McpAuthorizationRequestState) (sealedCode : String) : Redirect :=
  { url := request.redirectUri
    params := ("code", sealedCode) :: stateParams request.state }

def denial (request : McpAuthorizationRequestState) : Redirect :=
  redirectWithError { redirectUri := request.redirectUri, state := given request.state }
    ⟨.accessDenied, "The request was declined."⟩

/-! ## Redemption -/

structure RedeemInput where
  code : String
  clientId : String
  redirectUri : Option String := none
  codeVerifier : String
deriving DecidableEq

def pkceMatches (dep : Deployment) (verifier challenge : String) : Bool :=
  if verifier = "" then false else dep.digest verifier = challenge

/-- The checks of `redeemCode`, up to the mint. -/
def redeemable (dep : Deployment) (input : RedeemInput) (now : Nat) :
    Except McpOAuthProtocolError SealedCode :=
  match openCode dep input.code with
  | none => .error ⟨.invalidGrant, "This authorization code is invalid or has expired."⟩
  | some code =>
      if code.exp < now then .error ⟨.invalidGrant, "This authorization code has expired."⟩
      else if code.clientId ≠ input.clientId then
        .error ⟨.invalidGrant, "This authorization code was issued to a different client."⟩
      else if (given input.redirectUri).any (fun uri => uri ≠ code.redirectUri) then
        .error ⟨.invalidGrant, "redirect_uri does not match the one this code was issued for."⟩
      else if ¬ pkceMatches dep input.codeVerifier code.codeChallenge then
        .error ⟨.invalidGrant, "The PKCE code verifier does not match."⟩
      else .ok code

def keyLabelFor (clientName : Utf16) : Utf16 :=
  "MCP: " ++ clientName

def externalIdentityFor (clientName : Utf16) : Utf16 :=
  "mcp-client:" ++ clientName

/-- Whom the key of a code is minted for. -/
def codeOwner (code : SealedCode) : KeyOwner :=
  { accountId := code.accountId
    workspaceIds := some [code.workspaceId]
    createdByUserId := code.approvedByUserId
    externalIdentity := some (externalIdentityFor code.clientName) }

/-- The mint's conflict in the protocol's words. -/
def issueKeyRefusal (refusal : Refusal) : McpOAuthProtocolError :=
  ⟨.accessDenied, refusal.message ++ ". The connection was approved, but no key could be issued "
    ++ "on that board: revoke one in the board settings and connect again."⟩

/-! ## What the steps check -/

section Spec

variable {dep : Deployment}

theorem registerClient_ok {name : Option String} {raw : List (Option String)} {now : Nat}
    {client : SealedClient} (h : registerClient dep name raw now = .ok client) :
    client.issuedAt = now ∧
      forall uri, uri ∈ client.redirectUris -> isAllowedRedirectUri dep uri = true := by
  unfold registerClient at h
  split at h
  · cases h
  · rename_i uris huris
    rw [← Except.ok.inj h]
    refine ⟨rfl, ?_⟩
    show forall uri, uri ∈ uris -> _
    unfold normaliseRedirectUris at huris
    dsimp only at huris
    split at huris
    · cases huris
    · split at huris
      · cases huris
      · split at huris
        · cases huris
        · rename_i hnone
          cases huris
          intro uri huri
          simpa using List.find?_eq_none.mp hnone uri huri

theorem beginAuthorization_reported {input : AuthorizationInput} {now : Nat}
    {target : McpOAuthRedirectTarget} {error : McpOAuthProtocolError}
    (h : beginAuthorization dep input now = .reported target error) :
    exists client, openClient dep input.clientId = some client ∧
      target.redirectUri ∈ client.redirectUris := by
  unfold beginAuthorization at h
  split at h
  · cases h
  · rename_i client hclient
    refine ⟨client, hclient, ?_⟩
    dsimp only at h
    split at h
    · cases h
    · rename_i hmem
      split at h
      · cases h
        exact not_not.mp hmem
      · split at h
        · cases h
          exact not_not.mp hmem
        · split at h
          · cases h
            exact not_not.mp hmem
          · cases h

theorem beginAuthorization_sealed {input : AuthorizationInput} {now : Nat}
    {request : McpAuthorizationRequestState}
    (h : beginAuthorization dep input now = .sealed request) :
    request.clientId = input.clientId ∧ request.codeChallenge = input.codeChallenge ∧
      request.exp = now + AUTHORIZATION_REQUEST_TTL_MS ∧
      exists client, openClient dep input.clientId = some client ∧
        request.redirectUri ∈ client.redirectUris ∧ request.clientName = client.name := by
  unfold beginAuthorization at h
  split at h
  · cases h
  · rename_i client hclient
    dsimp only at h
    split at h
    · cases h
    · rename_i hmem
      split at h
      · cases h
      · split at h
        · cases h
        · split at h
          · cases h
          · cases h
            exact ⟨rfl, rfl, rfl, client, hclient, not_not.mp hmem, rfl⟩

theorem readAuthorizationRequest_some {text : String} {now : Nat}
    {request : McpAuthorizationRequestState}
    (h : readAuthorizationRequest dep text now = some request) :
    dep.decrypt text = some (.request request) ∧ now ≤ request.exp := by
  unfold readAuthorizationRequest at h
  split at h
  · cases h
  · rw [Option.filter_eq_some_iff, decide_eq_true_iff] at h
    refine ⟨?_, h.right⟩
    have hopen := h.left
    unfold openRequest at hopen
    split at hopen
    · rename_i value hvalue
      cases hopen
      exact hvalue
    · cases hopen

theorem openClient_some {text : String} {client : SealedClient}
    (h : openClient dep text = some client) : dep.decrypt text = some (.client client) := by
  unfold openClient at h
  split at h
  · rename_i value hvalue
    cases h
    exact hvalue
  · cases h

theorem redeemable_ok {input : RedeemInput} {now : Nat} {code : SealedCode}
    (h : redeemable dep input now = .ok code) :
    dep.decrypt input.code = some (.code code) ∧ now ≤ code.exp ∧
      code.clientId = input.clientId ∧ dep.digest input.codeVerifier = code.codeChallenge := by
  unfold redeemable at h
  split at h
  · cases h
  · rename_i found hfound
    have hdecrypt : dep.decrypt input.code = some (.code found) := by
      unfold openCode at hfound
      split at hfound
      · rename_i value hvalue
        cases hfound
        exact hvalue
      · cases hfound
    split at h
    · cases h
    · rename_i hexp
      split at h
      · cases h
      · rename_i hclient
        split at h
        · cases h
        · split at h
          · cases h
          · rename_i hpkce
            cases h
            refine ⟨hdecrypt, Nat.le_of_not_lt hexp, not_not.mp hclient, ?_⟩
            have hmatch := not_not.mp hpkce
            unfold pkceMatches at hmatch
            split at hmatch
            · cases hmatch
            · exact of_decide_eq_true hmatch

end Spec

end Access
end CatFactory
