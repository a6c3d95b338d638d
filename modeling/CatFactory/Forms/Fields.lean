import CatFactory.Foundation.Text

/-!
# Descriptor forms

A deployment declares a small form as a list of fields.  The functions here say
which fields are visible, what is wrong with a filled bag of values, which
required fields it leaves unfilled and what of it is kept.  A bag is a plain
object: under a name of `Object.prototype` every bag has something to read.
-/

namespace CatFactory
namespace Forms

open Foundation

/-!
## Values and bags
-/

/-- What the forms do with numbers. -/
structure NumberOps (num : Type) where
  /-- The finite number that a text denotes. -/
  parseFinite : String -> Option num
  isInteger : num -> Bool
  lt : num -> num -> Bool
  text : num -> String
  ofNat : Nat -> num

/-- A value of a form; `member` is a function or an object that an object inherits. -/
inductive DescriptorFieldValue (num : Type) where
  | text (value : String)
  | list (entries : List String)
  | flag (value : Bool)
  | number (value : num)
  | member
deriving DecidableEq

/-- What an object inherits of an array that was assigned to its `__proto__`. -/
structure ArrayPrototype (num : Type) where
  entries : List String
  length : num
deriving DecidableEq

/-- A filled form: values under the keys of its fields.  Its prototype is
`Object.prototype`, or else an array. -/
structure DescriptorFieldValues (num : Type) where
  own : List (String × DescriptorFieldValue num) := []
  proto : Option (ArrayPrototype num) := none
deriving DecidableEq

/-- The names of `Object.prototype`. -/
def OBJECT_MEMBERS : List String :=
  ["constructor", "__defineGetter__", "__defineSetter__", "hasOwnProperty",
    "__lookupGetter__", "__lookupSetter__", "isPrototypeOf", "propertyIsEnumerable",
    "toString", "valueOf", "__proto__", "toLocaleString"]

/-- The names of `Array.prototype`. -/
def ARRAY_MEMBERS : List String :=
  ["length", "constructor", "at", "concat", "copyWithin", "fill", "find", "findIndex",
    "findLast", "findLastIndex", "lastIndexOf", "pop", "push", "reverse", "shift", "unshift",
    "slice", "sort", "splice", "includes", "indexOf", "join", "keys", "entries", "values",
    "forEach", "filter", "flat", "flatMap", "map", "every", "some", "reduce", "reduceRight",
    "toReversed", "toSorted", "toSpliced", "toLocaleString", "toString", "with"]

/-- The key whose assignment sets the prototype. -/
def protoKey : String :=
  "__proto__"

namespace ArrayPrototype

variable {num : Type}

/-- The entry at an index that is spelt as the language spells it. -/
def entryAt (array : ArrayPrototype num) (key : String) : Option String :=
  (array.entries.zipIdx.find? fun entry => toString entry.2 = key).map Prod.fst

def get (array : ArrayPrototype num) (key : String) : Option (DescriptorFieldValue num) :=
  if key = protoKey then some (DescriptorFieldValue.list array.entries)
  else if key = "length" then some (DescriptorFieldValue.number array.length)
  else
    match array.entryAt key with
    | some entry => some (DescriptorFieldValue.text entry)
    | none =>
        if key ∈ ARRAY_MEMBERS ∨ key ∈ OBJECT_MEMBERS then some DescriptorFieldValue.member
        else none

end ArrayPrototype

namespace DescriptorFieldValues

variable {num : Type}

/-- What a bag has under a key when no value of its own stands there. -/
def inherited (values : DescriptorFieldValues num) (key : String) :
    Option (DescriptorFieldValue num) :=
  match values.proto with
  | some array => array.get key
  | none => if key ∈ OBJECT_MEMBERS then some DescriptorFieldValue.member else none

/-- `values[key]` -/
def get (values : DescriptorFieldValues num) (key : String) :
    Option (DescriptorFieldValue num) :=
  ((values.own.find? fun entry => entry.1 = key).map Prod.snd).or (values.inherited key)

/-- `Object.keys` -/
def keys (values : DescriptorFieldValues num) : List String :=
  values.own.map Prod.fst

/-- `values[key] = value`; under `__proto__` an array becomes the prototype, and any
other value is lost. -/
def set (ops : NumberOps num) (values : DescriptorFieldValues num) (key : String)
    (value : DescriptorFieldValue num) : DescriptorFieldValues num :=
  if key = protoKey then
    match value with
    | DescriptorFieldValue.list entries =>
        { values with
          proto := some { entries := entries, length := ops.ofNat entries.length } }
    | _ => values
  else if key ∈ values.keys then
    { values with
      own := values.own.map fun entry => if entry.1 = key then (key, value) else entry }
  else { values with own := values.own ++ [(key, value)] }

end DescriptorFieldValues

/-!
## Fields
-/

inductive DescriptorFieldType where
  | text
  | password
  | select
  | number
  | checkbox
  | textarea
  | checkboxGroup
  | path
deriving DecidableEq

namespace DescriptorFieldType

def name : DescriptorFieldType -> String
  | text => "text"
  | password => "password"
  | select => "select"
  | number => "number"
  | checkbox => "checkbox"
  | textarea => "textarea"
  | checkboxGroup => "checkbox-group"
  | path => "path"

end DescriptorFieldType

/-- The scalar that a condition compares with. -/
inductive ConditionScalar (num : Type) where
  | text (value : String)
  | flag (value : Bool)
  | number (value : num)
deriving DecidableEq

structure DescriptorFieldShowWhen (num : Type) where
  key : String
  equals : Option (ConditionScalar num)
  includes : Option String
deriving DecidableEq

structure DescriptorFieldOption where
  value : String
  label : String
deriving DecidableEq

structure DescriptorField (num : Type) where
  key : String
  label : String
  type : Option DescriptorFieldType
  required : Bool
  options : List DescriptorFieldOption
  default : Option String
  defaultValues : List String
  showWhen : Option (DescriptorFieldShowWhen num)
  maxLength : Option Nat
  min : Option num
  max : Option num
  integer : Bool
deriving DecidableEq

/-!
## Paths
-/

/-- `split('/')` on characters. -/
def pathSegments (path : List Char) : List (List Char) :=
  path.splitOn '/'

def startsWithDrive : List Char -> Bool
  | letter :: ':' :: _ => letter.isAlpha
  | _ => false

def lengthUnits (text : List Char) : Nat :=
  (text.map utf16Units).sum

def isSafeRepoDirPath (path : String) : Bool :=
  let p := (trim path).toList
  if p = [] || 300 < lengthUnits p then false
  else if p.head? = some '/' || startsWithDrive p then false
  else if '\\' ∈ p || Char.ofNat 0 ∈ p then false
  else !(pathSegments p).any (fun segment => segment = ['.', '.'])

section Forms

variable {num : Type} [DecidableEq num] (ops : NumberOps num)

/-!
## Defaults
-/

def descriptorFieldDefault (field : DescriptorField num) : Option (DescriptorFieldValue num) :=
  match field.type with
  | some DescriptorFieldType.checkboxGroup =>
      if field.defaultValues ≠ [] then some (DescriptorFieldValue.list field.defaultValues)
      else none
  | some DescriptorFieldType.checkbox =>
      if field.default = some "true" then some (DescriptorFieldValue.flag true) else none
  | some DescriptorFieldType.number =>
      match field.default with
      | none => none
      | some text =>
          if text ≠ "" then (ops.parseFinite text).map DescriptorFieldValue.number else none
  | _ =>
      match field.default with
      | none => none
      | some text => if text ≠ "" then some (DescriptorFieldValue.text text) else none

def descriptorFieldDefaults (fields : List (DescriptorField num)) :
    DescriptorFieldValues num :=
  fields.foldl
    (fun values field =>
      match descriptorFieldDefault ops field with
      | some value => values.set ops field.key value
      | none => values)
    {}

/-- Only absent keys are filled, and `in` finds inherited ones. -/
def withDescriptorFieldDefaults (fields : List (DescriptorField num))
    (values : DescriptorFieldValues num) : DescriptorFieldValues num :=
  (descriptorFieldDefaults ops fields).own.foldl
    (fun merged entry =>
      if (merged.get entry.1).isSome then merged else merged.set ops entry.1 entry.2)
    { own := values.own }

/-!
## Visibility
-/

/-- Strict equality of a value with a condition's scalar. -/
def DescriptorFieldValue.isScalar (value : DescriptorFieldValue num)
    (scalar : ConditionScalar num) : Bool :=
  match value, scalar with
  | DescriptorFieldValue.text s, ConditionScalar.text t => s = t
  | DescriptorFieldValue.flag a, ConditionScalar.flag b => a = b
  | DescriptorFieldValue.number m, ConditionScalar.number n => m = n
  | _, _ => false

/-- An absent value reads as `false` where the condition compares with a boolean. -/
def matchesScalar (value : Option (DescriptorFieldValue num)) (scalar : ConditionScalar num) :
    Bool :=
  match value with
  | some value => value.isScalar scalar
  | none => scalar = ConditionScalar.flag false

/-- A condition without a predicate is malformed and reads as satisfied. -/
def matchesDescriptorCondition (condition : DescriptorFieldShowWhen num)
    (values : DescriptorFieldValues num) : Bool :=
  match condition.equals, condition.includes with
  | some scalar, _ => matchesScalar (values.get condition.key) scalar
  | none, some entry =>
      match values.get condition.key with
      | some (DescriptorFieldValue.list entries) => entry ∈ entries
      | _ => false
  | none, none => true

def isDescriptorFieldVisible (field : DescriptorField num)
    (values : DescriptorFieldValues num) : Bool :=
  match field.showWhen with
  | some condition => matchesDescriptorCondition condition values
  | none => true

/-!
## Answers
-/

def valueMatchesFieldType (field : DescriptorField num) (value : DescriptorFieldValue num) :
    Bool :=
  match field.type, value with
  | some DescriptorFieldType.checkboxGroup, DescriptorFieldValue.list _ => true
  | some DescriptorFieldType.checkboxGroup, _ => false
  | some DescriptorFieldType.checkbox, DescriptorFieldValue.flag _ => true
  | some DescriptorFieldType.checkbox, _ => false
  | some DescriptorFieldType.number, DescriptorFieldValue.number _ => true
  | some DescriptorFieldType.number, _ => false
  | _, DescriptorFieldValue.text _ => true
  | _, _ => false

def isFilled : Option (DescriptorFieldValue num) -> Bool
  | none => false
  | some (DescriptorFieldValue.flag value) => value
  | some (DescriptorFieldValue.text value) => trim value ≠ ""
  | some (DescriptorFieldValue.list entries) => entries ≠ []
  | some (DescriptorFieldValue.number _) => true
  | some DescriptorFieldValue.member => true

/-- The opt-out of a checkbox that is on by default. -/
def isExplicitOptOut (field : DescriptorField num) (value : DescriptorFieldValue num) : Bool :=
  field.type = some DescriptorFieldType.checkbox &&
    value = DescriptorFieldValue.flag false

def isDescriptorFieldAnswer (field : DescriptorField num)
    (value : Option (DescriptorFieldValue num)) : Bool :=
  match value with
  | none => false
  | some answer => isFilled value || isExplicitOptOut field answer

/-!
## Problems
-/

def fieldProblem (field : DescriptorField num) (problem : String) : String :=
  "Field \"" ++ field.key ++ "\" " ++ problem

def optionValues (field : DescriptorField num) : List String :=
  field.options.map DescriptorFieldOption.value

def optionProblems (field : DescriptorField num) (value : DescriptorFieldValue num) :
    List String :=
  match field.type, value with
  | some DescriptorFieldType.select, DescriptorFieldValue.text s =>
      if optionValues field ≠ [] ∧ s ∉ optionValues field then
        [fieldProblem field "has a value outside its options."]
      else []
  | some DescriptorFieldType.checkboxGroup, DescriptorFieldValue.list entries =>
      if optionValues field ≠ [] then
        (entries.filter (fun entry => entry ∉ optionValues field)).map
          (fun entry =>
            fieldProblem field ("has an option \"" ++ entry ++ "\" outside its choices."))
      else []
  | _, _ => []

def pathProblems (field : DescriptorField num) (value : DescriptorFieldValue num) :
    List String :=
  match field.type, value with
  | some DescriptorFieldType.path, DescriptorFieldValue.text s =>
      if isSafeRepoDirPath s then []
      else [fieldProblem field ("must be a relative path inside the repo " ++
        "(no \"..\", absolute, or backslash segments).")]
  | _, _ => []

def lengthProblems (field : DescriptorField num) (value : DescriptorFieldValue num) :
    List String :=
  match field.maxLength, value with
  | some maxLength, DescriptorFieldValue.text s =>
      if maxLength < lengthUnits s.toList then
        [fieldProblem field ("exceeds its maximum length of " ++ toString maxLength ++ ".")]
      else []
  | _, _ => []

def numberProblems (field : DescriptorField num) (value : DescriptorFieldValue num) :
    List String :=
  match value with
  | DescriptorFieldValue.number n =>
      (if field.integer && !ops.isInteger n then
        [fieldProblem field "must be a whole number."] else []) ++
      (match field.min with
        | some bound =>
            if ops.lt n bound then
              [fieldProblem field ("must be at least " ++ ops.text bound ++ ".")]
            else []
        | none => []) ++
      (match field.max with
        | some bound =>
            if ops.lt bound n then
              [fieldProblem field ("must be at most " ++ ops.text bound ++ ".")]
            else []
        | none => [])
  | _ => []

/-- The checks by type, for a value of the field's type. -/
def semanticProblems (field : DescriptorField num) (value : DescriptorFieldValue num) :
    List String :=
  optionProblems field value ++ pathProblems field value ++ lengthProblems field value ++
    numberProblems ops field value

/-- The keys whose values a call may judge: those it names, or every key. -/
def isJudged (named : Option (List String)) (key : String) : Bool :=
  match named with
  | some keys => key ∈ keys
  | none => true

/-- What one field of the list has to say about the bag. -/
def fieldProblems (values : DescriptorFieldValues num) (named : Option (List String))
    (field : DescriptorField num) : List String :=
  if isDescriptorFieldVisible field values = false then []
  else
    match values.get field.key with
    | none => if field.required then [fieldProblem field "is required."] else []
    | some value =>
        if isFilled (some value) = false then
          if field.required then [fieldProblem field "is required."] else []
        else if isJudged named field.key = false then []
        else if valueMatchesFieldType field value = false then
          [fieldProblem field ("has the wrong type for a " ++
            (field.type.getD DescriptorFieldType.text).name ++ " field.")]
        else semanticProblems ops field value

def unknownProblems (fields : List (DescriptorField num)) (keys : List String) :
    List String :=
  (keys.filter (fun key => key ∉ fields.map DescriptorField.key)).map
    (fun key => "Unknown field \"" ++ key ++ "\".")

def descriptorProblems (fields : List (DescriptorField num))
    (values : DescriptorFieldValues num) (named : Option (List String)) : List String :=
  unknownProblems fields (named.getD values.keys) ++
    fields.flatMap (fieldProblems ops values named)

def validateDescriptorFields (fields : List (DescriptorField num))
    (values : DescriptorFieldValues num) : List String :=
  descriptorProblems ops fields values none

def unfilledRequiredDescriptorFields (fields : List (DescriptorField num))
    (values : DescriptorFieldValues num) : List (DescriptorField num) :=
  fields.filter (fun field =>
    field.required && isDescriptorFieldVisible field values &&
      !isFilled (values.get field.key))

/-!
## Freezing
-/

/-- What one field keeps of the bag. -/
def keptValue (values : DescriptorFieldValues num) (field : DescriptorField num) :
    Option (DescriptorFieldValue num) :=
  if isDescriptorFieldVisible field values = false then none
  else
    match values.get field.key with
    | none => none
    | some value =>
        if isDescriptorFieldAnswer field (some value) then some value else none

/-- The body of the loop over the fields. -/
def keepField (values sanitized : DescriptorFieldValues num) (field : DescriptorField num) :
    DescriptorFieldValues num :=
  match keptValue values field with
  | some value => sanitized.set ops field.key value
  | none => sanitized

def sanitizeDescriptorFields (fields : List (DescriptorField num))
    (values : DescriptorFieldValues num) : DescriptorFieldValues num :=
  fields.foldl (keepField ops values) {}

end Forms

end Forms
end CatFactory
