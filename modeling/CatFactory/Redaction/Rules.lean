import CatFactory.Redaction.PrivateKeys

/-!
# Redaction rules

A text that is stored or sent away is scrubbed of credentials: private key blocks
first, then ten patterns in turn, each over the output of the one before.

A string is the list of its UTF-16 units.
-/

namespace CatFactory
namespace Redaction

open Foundation

/-!
## Plausible secrets
-/

def underscore : Nat :=
  unitOf '_'

def isEnvUnit (u : Nat) : Bool :=
  isUpperUnit u || isDigitUnit u

/-- `/^[A-Z][A-Z0-9]*(?:_[A-Z0-9]+)+$/`: words of capitals and digits between
underscores, two at least, the first of them begun by a letter. -/
def isEnvVarName (value : List Nat) : Bool :=
  match value.splitOn underscore with
  | first :: rest =>
      (first.head?.any isUpperUnit && first.all isEnvUnit) && !rest.isEmpty &&
        rest.all fun word => !word.isEmpty && word.all isEnvUnit
  | [] => false

/-- `/^(?:[a-z]+|[A-Z]+|[A-Z][a-z]+)$/` -/
def isProseWord (value : List Nat) : Bool :=
  !value.isEmpty && (value.all isLowerUnit || value.all isUpperUnit ||
    (value.head?.any isUpperUnit && !value.tail.isEmpty && value.tail.all isLowerUnit))

def MIN_ALPHABETIC_SECRET_CHARS : Nat := 16

def looksLikeSecretValue (value : List Nat) : Bool :=
  if isEnvVarName value then false
  else !(value.length < MIN_ALPHABETIC_SECRET_CHARS && isProseWord value)

/-!
## The patterns
-/

def isAlphanumeric (u : Nat) : Bool :=
  isUpperUnit u || isLowerUnit u || isDigitUnit u

/-- A class of letters, digits and the units given. -/
def tokenUnit (others : String) (u : Nat) : Bool :=
  isAlphanumeric u || u ∈ stringUnits others

def spaces (least : Nat) : Regex Nat :=
  Regex.many isSpaceUnit least none

/-- `["']?\s*[:=]\s*["']?` -/
def separator : Regex Nat :=
  Regex.all
    [Regex.optional (Regex.oneOf (stringUnits "\"'")), spaces 0, Regex.oneOf (stringUnits ":="),
      spaces 0, Regex.optional (Regex.oneOf (stringUnits "\"'"))]

/-- `\b(bearer|basic|token)\s+([A-Za-z0-9._+/=~-]{8,})` -/
def SCHEME_PATTERN : Regex Nat :=
  Regex.all
    [wordEdge, Regex.group 1 (Regex.any [loose "bearer", loose "basic", loose "token"]), spaces 1,
      Regex.group 2 (Regex.many (tokenUnit "._+/=~-") 8 none)]

/-- White space and the units that end a header's value. -/
def endsHeader (u : Nat) : Bool :=
  isSpaceUnit u || u ∈ stringUnits "\"',\x7d"

def HEADER_PATTERN : Regex Nat :=
  Regex.all
    [wordEdge,
      Regex.group 1 (Regex.any [loose "authorization", loose "x-api-key", loose "x-auth-token",
        loose "proxy-authorization"]),
      Regex.group 2 separator, Regex.group 3 (Regex.many (!endsHeader ·) 1 none)]

def isSchemeUnit (u : Nat) : Bool :=
  tokenUnit "+.-" u

/-- `[a-z][a-z0-9+.-]{0,39}:\/\/` -/
def URL_SCHEME : Regex Nat :=
  Regex.all
    [Regex.one fun u => isUpperUnit u || isLowerUnit u, Regex.many isSchemeUnit 0 (some 39),
      Regex.lit (stringUnits "://")]

def isUserUnit (u : Nat) : Bool :=
  !isSpaceUnit u && !(u ∈ stringUnits "/:@")

def isPasswordUnit (u : Nat) : Bool :=
  !isSpaceUnit u && !(u ∈ stringUnits "/@")

/-- `(?<=scheme:\/\/)([^/\s:@]+):([^/\s@]+)@` -/
def USERINFO_PATTERN : Regex Nat :=
  Regex.all
    [Regex.behind URL_SCHEME, Regex.group 1 (Regex.many isUserUnit 1 none),
      Regex.lit (stringUnits ":"), Regex.group 2 (Regex.many isPasswordUnit 1 none),
      Regex.lit (stringUnits "@")]

/-- An optional qualifier of a field's name, `_` or `-` after it or not. -/
def qualifier (word : String) : Regex Nat :=
  Regex.optional (Regex.all [loose word, Regex.optional (Regex.oneOf (stringUnits "_-"))])

def SECRET_WORD : Regex Nat :=
  Regex.any [loose "token", loose "secret", loose "password", loose "passwd", loose "pwd",
    loose "sig", loose "signature", loose "key", loose "apikey", loose "auth"]

/-- White space and the units that end a field's value. -/
def endsField (u : Nat) : Bool :=
  isSpaceUnit u || u ∈ stringUnits "\"',&\x7d@/"

def FIELD_PATTERN : Regex Nat :=
  Regex.all
    [wordEdge,
      Regex.group 1 (Regex.all
        [qualifier "access", qualifier "api", qualifier "client", SECRET_WORD]),
      Regex.group 2 separator, Regex.group 3 (Regex.many (!endsField ·) 4 none)]

/-- `\b(sk|rk|pk)-[A-Za-z0-9_-]{16,}` -/
def API_KEY_PATTERN : Regex Nat :=
  Regex.all
    [wordEdge, Regex.group 1 (Regex.any [literal "sk", literal "rk", literal "pk"]), literal "-",
      Regex.many (tokenUnit "_-") 16 none]

/-- `\bgh[pousr]_[A-Za-z0-9]{20,}` -/
def GITHUB_TOKEN_PATTERN : Regex Nat :=
  Regex.all
    [wordEdge, literal "gh", Regex.oneOf (stringUnits "pousr"), literal "_",
      Regex.many isAlphanumeric 20 none]

/-- `\bgithub_pat_[A-Za-z0-9_]{20,}` -/
def GITHUB_PAT_PATTERN : Regex Nat :=
  Regex.all [wordEdge, literal "github_pat_", Regex.many (tokenUnit "_") 20 none]

/-- `\bxox[baprs]-[A-Za-z0-9-]{10,}` -/
def SLACK_TOKEN_PATTERN : Regex Nat :=
  Regex.all
    [wordEdge, literal "xox", Regex.oneOf (stringUnits "baprs"), literal "-",
      Regex.many (tokenUnit "-") 10 none]

/-- `\bAKIA[0-9A-Z]{16}\b` -/
def AWS_KEY_PATTERN : Regex Nat :=
  Regex.all [wordEdge, literal "AKIA", Regex.many isEnvUnit 16 (some 16), wordEdge]

/-- `\beyJ[A-Za-z0-9_-]+\.[A-Za-z0-9_-]+\.[A-Za-z0-9_-]+` -/
def JWT_PATTERN : Regex Nat :=
  let segment := Regex.many (tokenUnit "_-") 1 none
  Regex.all [wordEdge, literal "eyJ", segment, literal ".", segment, literal ".", segment]

/-!
## The rules
-/

structure Rule where
  pattern : Regex Nat
  replace : Match Nat -> List Nat

/-- A rule that drops a standalone token. -/
def tokenRule (pattern : Regex Nat) : Rule where
  pattern := pattern
  replace := fun _ => REPLACEMENT

def schemeRule : Rule where
  pattern := SCHEME_PATTERN
  replace := fun m =>
    if looksLikeSecretValue (m.captured 2) then m.captured 1 ++ unitOf ' ' :: REPLACEMENT
    else m.text

def headerRule : Rule where
  pattern := HEADER_PATTERN
  replace := fun m => m.captured 1 ++ (m.captured 2 ++ REPLACEMENT)

def userinfoRule : Rule where
  pattern := USERINFO_PATTERN
  replace := fun m => m.captured 1 ++ (unitOf ':' :: (REPLACEMENT ++ [unitOf '@']))

def fieldRule : Rule where
  pattern := FIELD_PATTERN
  replace := fun m =>
    if looksLikeSecretValue (m.captured 3) then m.captured 1 ++ (m.captured 2 ++ REPLACEMENT)
    else m.text

def RULES : List Rule :=
  [schemeRule, headerRule, userinfoRule, fieldRule, tokenRule API_KEY_PATTERN,
    tokenRule GITHUB_TOKEN_PATTERN, tokenRule GITHUB_PAT_PATTERN, tokenRule SLACK_TOKEN_PATTERN,
    tokenRule AWS_KEY_PATTERN, tokenRule JWT_PATTERN]

def Rule.apply (rule : Rule) (value : List Nat) : List Nat :=
  rule.pattern.replaceAll rule.replace value

/-- The scrub of a string; null passes through unchanged and is left out. -/
def redactSecrets (value : List Nat) : List Nat :=
  RULES.foldl (fun out rule => rule.apply out) (redactPrivateKeyBlocks value)

end Redaction
end CatFactory
