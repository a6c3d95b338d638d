import CatFactory.Foundation.CodeUnits
import CatFactory.Foundation.Rewriting

/-!
# JSON texts

`JSON.stringify` and `JSON.parse` of the source's language on texts of UTF-16
units.  An object is the list of its fields in the order of its properties.  How a
number is written and read back is a parameter.
-/

namespace CatFactory
namespace Foundation

inductive Json (num : Type) where
  | null
  | bool (value : Bool)
  | number (value : num)
  | string (units : List Nat)
  | array (items : List (Json num))
  | object (fields : List (List Nat × Json num))

namespace Json

def leftBracket : Nat := 0x5B
def rightBracket : Nat := 0x5D
def leftBrace : Nat := 0x7B
def rightBrace : Nat := 0x7D
def colon : Nat := 0x3A
def comma : Nat := 0x2C
def quote : Nat := 0x22
def escape : Nat := 0x5C

/-!
## Numbers
-/

/-- `-?(0|[1-9]\d*)(\.\d+)?([eE][+-]?\d+)?` -/
def NUMBER : Regex Nat :=
  let digits := Regex.many isDigitUnit 1 none
  Regex.all
    [Regex.optional (Regex.lit (stringUnits "-")),
      Regex.alt (Regex.lit (stringUnits "0"))
        (Regex.seq (Regex.one fun u => isDigitUnit u && u ≠ unitOf '0')
          (Regex.many isDigitUnit 0 none)),
      Regex.optional (Regex.seq (Regex.lit (stringUnits ".")) digits),
      Regex.optional (Regex.all
        [Regex.oneOf (stringUnits "eE"), Regex.optional (Regex.oneOf (stringUnits "+-")), digits])]

def isNumberLexeme (text : List Nat) : Bool :=
  (NUMBER.run [] text).any fun m => m.rest.isEmpty

/-- Every number has a text of its own, and reading that text gives it back. -/
structure NumberFormat (num : Type) where
  format : num -> List Nat
  read : List Nat -> num
  lexeme : forall n, isNumberLexeme (format n) = true
  read_format : forall n, read (format n) = n

variable {num : Type}

/-!
## `JSON.stringify`
-/

def hexDigit (d : Nat) : Nat :=
  if d < 10 then unitOf '0' + d else unitOf 'a' + (d - 10)

/-- `\uXXXX` -/
def unicodeEscape (u : Nat) : List Nat :=
  [escape, unitOf 'u', hexDigit (u / 0x1000), hexDigit (u / 0x100 % 16),
    hexDigit (u / 0x10 % 16), hexDigit (u % 16)]

def isHighSurrogate (u : Nat) : Bool :=
  0xD800 ≤ u && u ≤ 0xDBFF

def isLowSurrogate (u : Nat) : Bool :=
  0xDC00 ≤ u && u ≤ 0xDFFF

/-- The letter after the backslash for the units that have a short escape. -/
def shortEscapes : List (Nat × Nat) :=
  [(0x22, 0x22), (0x5C, 0x5C), (0x08, unitOf 'b'), (0x0C, unitOf 'f'), (0x0A, unitOf 'n'),
    (0x0D, unitOf 'r'), (0x09, unitOf 't')]

/-- A unit of a string literal that is not half of a surrogate pair. -/
def quoteUnit (u : Nat) : List Nat :=
  match shortEscapes.lookup u with
  | some letter => [escape, letter]
  | none =>
      if u < 0x20 || isHighSurrogate u || isLowSurrogate u then unicodeEscape u else [u]

/-- `paired` says that the next unit ends a surrogate pair. -/
def quoteFrom : Bool -> List Nat -> List Nat
  | _, [] => []
  | true, u :: rest => u :: quoteFrom false rest
  | false, u :: rest =>
      if isHighSurrogate u && rest.head?.any isLowSurrogate then u :: quoteFrom true rest
      else quoteUnit u ++ quoteFrom false rest

def quoted (text : List Nat) : List Nat :=
  quote :: (quoteFrom false text ++ [quote])

mutual

/-- `JSON.stringify(value)` -/
def stringify (numbers : NumberFormat num) : Json num -> List Nat
  | .null => stringUnits "null"
  | .bool true => stringUnits "true"
  | .bool false => stringUnits "false"
  | .number n => numbers.format n
  | .string text => quoted text
  | .array items => leftBracket :: (stringifyItems numbers items ++ [rightBracket])
  | .object fields => leftBrace :: (stringifyFields numbers fields ++ [rightBrace])

def stringifyItems (numbers : NumberFormat num) : List (Json num) -> List Nat
  | [] => []
  | item :: rest =>
      stringify numbers item ++ if rest.isEmpty then [] else comma :: stringifyItems numbers rest

def stringifyFields (numbers : NumberFormat num) : List (List Nat × Json num) -> List Nat
  | [] => []
  | (key, value) :: rest =>
      quoted key ++ colon :: (stringify numbers value ++
        if rest.isEmpty then [] else comma :: stringifyFields numbers rest)

end

/-!
## Tokens
-/

inductive Token where
  | mark (unit : Nat)
  | text (units : List Nat)
  | word (units : List Nat)
deriving DecidableEq

/-- Where the scan stands; what was read of a token is kept last unit first. -/
inductive Scan where
  | between
  | word (read : List Nat)
  | text (read : List Nat)
  | escaped (read : List Nat)
  | unicode (read : List Nat) (left value : Nat)
deriving DecidableEq

def isBlankUnit (u : Nat) : Bool :=
  u ∈ [0x20, 0x09, 0x0A, 0x0D]

def isMark (u : Nat) : Bool :=
  u ∈ [leftBracket, rightBracket, leftBrace, rightBrace, colon, comma]

/-- The units of numbers and of the literal names. -/
def isLexemeUnit (u : Nat) : Bool :=
  isDigitUnit u || isUpperUnit u || isLowerUnit u || u ∈ stringUnits "+-."

def hexValue (u : Nat) : Option Nat :=
  if isDigitUnit u then some (u - unitOf '0')
  else if unitOf 'a' ≤ u ∧ u ≤ unitOf 'f' then some (u - unitOf 'a' + 10)
  else if unitOf 'A' ≤ u ∧ u ≤ unitOf 'F' then some (u - unitOf 'A' + 10)
  else none

/-- What the letter after a backslash stands for. -/
def unescape (letter : Nat) : Option Nat :=
  if letter = unitOf '/' then some letter
  else (shortEscapes.find? fun e => e.2 = letter).map (·.1)

/-- What a unit begins between two tokens. -/
def beginToken (u : Nat) : Option (List Token × Scan) :=
  if isBlankUnit u then some ([], .between)
  else if isMark u then some ([.mark u], .between)
  else if u = quote then some ([], .text [])
  else if isLexemeUnit u then some ([], .word [u])
  else none

def scanUnit : Scan -> Nat -> Option (List Token × Scan)
  | .between, u => beginToken u
  | .word read, u =>
      if isLexemeUnit u then some ([], .word (u :: read))
      else (beginToken u).map fun begun => (.word read.reverse :: begun.1, begun.2)
  | .text read, u =>
      if u = quote then some ([.text read.reverse], .between)
      else if u = escape then some ([], .escaped read)
      else if u < 0x20 then none
      else some ([], .text (u :: read))
  | .escaped read, u =>
      if u = unitOf 'u' then some ([], .unicode read 4 0)
      else (unescape u).map fun c => ([], .text (c :: read))
  | .unicode read left value, u =>
      (hexValue u).map fun d =>
        ([], if left ≤ 1 then .text ((value * 16 + d) :: read)
          else .unicode read (left - 1) (value * 16 + d))

def tokensFrom : Scan -> List Nat -> Option (List Token)
  | .between, [] => some []
  | .word read, [] => some [.word read.reverse]
  | _, [] => none
  | scan, u :: rest =>
      match scanUnit scan u with
      | none => none
      | some (tokens, scan) => (tokensFrom scan rest).map (tokens ++ ·)

/-!
## `JSON.parse`
-/

/-- A container that is still being read. -/
inductive Frame (num : Type) where
  | items (done : List (Json num))
  | fields (done : List (List Nat × Json num))
  | field (done : List (List Nat × Json num)) (key : List Nat)

/-- What may come next. -/
inductive Mode (num : Type) where
  | value
  | firstItem
  | firstKey
  | key
  | colon (key : List Nat)
  | read (value : Json num)

structure Reading (num : Type) where
  stack : List (Frame num)
  mode : Mode num

/-- A field that is there already keeps its place and takes the new value. -/
def setField (key : List Nat) (value : Json num) :
    List (List Nat × Json num) -> List (List Nat × Json num)
  | [] => [(key, value)]
  | field :: rest => if field.1 = key then (key, value) :: rest else field :: setField key value rest

def wordValue (numbers : NumberFormat num) (word : List Nat) : Option (Json num) :=
  if word = stringUnits "null" then some .null
  else if word = stringUnits "true" then some (.bool true)
  else if word = stringUnits "false" then some (.bool false)
  else if isNumberLexeme word then some (.number (numbers.read word))
  else none

/-- A token where a value must come. -/
def beginValue (numbers : NumberFormat num) (stack : List (Frame num)) : Token ->
    Option (Reading num)
  | .text units => some ⟨stack, .read (.string units)⟩
  | .word word => (wordValue numbers word).map fun value => ⟨stack, .read value⟩
  | .mark u =>
      if u = leftBracket then some ⟨.items [] :: stack, .firstItem⟩
      else if u = leftBrace then some ⟨.fields [] :: stack, .firstKey⟩
      else none

def readKey (stack : List (Frame num)) : Token -> Option (Reading num)
  | .text key => some ⟨stack, .colon key⟩
  | _ => none

/-- A token after a value that stands in a container. -/
def afterValue (value : Json num) : List (Frame num) -> Token -> Option (Reading num)
  | .items done :: stack, .mark u =>
      if u = comma then some ⟨.items (done ++ [value]) :: stack, .value⟩
      else if u = rightBracket then some ⟨stack, .read (.array (done ++ [value]))⟩
      else none
  | .field done key :: stack, .mark u =>
      if u = comma then some ⟨.fields (setField key value done) :: stack, .key⟩
      else if u = rightBrace then some ⟨stack, .read (.object (setField key value done))⟩
      else none
  | _, _ => none

def readToken (numbers : NumberFormat num) (reading : Reading num) (token : Token) :
    Option (Reading num) :=
  match reading.mode with
  | .value => beginValue numbers reading.stack token
  | .firstItem =>
      match reading.stack with
      | .items _ :: stack =>
          if token = .mark rightBracket then some ⟨stack, .read (.array [])⟩
          else beginValue numbers reading.stack token
      | _ => none
  | .firstKey =>
      match reading.stack with
      | .fields _ :: stack =>
          if token = .mark rightBrace then some ⟨stack, .read (.object [])⟩
          else readKey reading.stack token
      | _ => none
  | .key => readKey reading.stack token
  | .colon key =>
      match reading.stack with
      | .fields done :: stack =>
          if token = .mark colon then some ⟨.field done key :: stack, .value⟩ else none
      | _ => none
  | .read value => afterValue value reading.stack token

def readTokens (numbers : NumberFormat num) (reading : Reading num) :
    List Token -> Option (Reading num)
  | [] => some reading
  | token :: rest => (readToken numbers reading token).bind fun next => readTokens numbers next rest

/-- `JSON.parse(text)`, none where it throws. -/
def parse (numbers : NumberFormat num) (text : List Nat) : Option (Json num) :=
  match (tokensFrom .between text).bind (readTokens numbers ⟨[], .value⟩) with
  | some ⟨[], .read value⟩ => some value
  | _ => none

end Json
end Foundation
end CatFactory
