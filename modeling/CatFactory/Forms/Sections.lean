import CatFactory.Forms.Fields

/-!
# Sections

A form is rendered in runs of the visible fields that share a caption.  The
captions that a form can be made to print twice are found from the declared list:
two fields of one section with a field of another between them, where every two
of the three can be visible together.
-/

namespace CatFactory
namespace Forms

open Foundation

/-- A field with the caption that it declares, `section`. -/
structure SectionedField (num : Type) extends DescriptorField num where
  sectionText : Option String
deriving DecidableEq

/-- A section's caption, and what it is folded to. -/
structure SectionKey where
  key : String
  caption : String
deriving DecidableEq

/-- `replace(/\s+/g, ' ')`; `inRun` says that the unit before was white space. -/
def collapseSpaces (inRun : Bool) : List Char -> List Char
  | [] => []
  | c :: rest =>
      if isSpace c = true then
        if inRun = true then collapseSpaces true rest else ' ' :: collapseSpaces true rest
      else c :: collapseSpaces false rest

/-- One run: the caption above it, if any, and the visible fields in declaration order. -/
structure DescriptorFieldSection (num : Type) where
  caption : Option String
  fields : List (SectionedField num)
deriving DecidableEq

section Sections

variable {num : Type} [DecidableEq num] (lower : String -> String)

/-- A caption folded on case and on white space. -/
def foldCaption (caption : String) : String :=
  String.ofList (collapseSpaces false (lower caption).toList)

/-- The caption that a section groups under; white space only is no section at all. -/
def sectionOf (field : SectionedField num) : Option SectionKey :=
  match field.sectionText with
  | none => none
  | some text =>
      if trim text = "" then none
      else some { key := foldCaption lower (trim text), caption := trim text }

/-- `sectionOf(field)?.key`. -/
def keyOf (field : SectionedField num) : Option String :=
  (sectionOf lower field).map SectionKey.key

/-!
## The runs
-/

/-- The runs so far, and the key of the open one. -/
structure Cutting (num : Type) where
  sections : List (DescriptorFieldSection num)
  openKey : Option String

def openSection (cutting : Cutting num) (field : SectionedField num) : Cutting num :=
  { sections := cutting.sections ++
      [{ caption := (sectionOf lower field).map SectionKey.caption, fields := [field] }]
    openKey := keyOf lower field }

/-- A visible field extends the open run or opens the next. -/
def placeField (cutting : Cutting num) (field : SectionedField num) : Cutting num :=
  match cutting.sections.getLast? with
  | some last =>
      if keyOf lower field = cutting.openKey then
        { cutting with
          sections := cutting.sections.dropLast ++
            [{ last with fields := last.fields ++ [field] }] }
      else openSection lower cutting field
  | none => openSection lower cutting field

def descriptorFieldSections (fields : List (SectionedField num))
    (values : DescriptorFieldValues num) : List (DescriptorFieldSection num) :=
  (fields.foldl
    (fun cutting field =>
      if isDescriptorFieldVisible field.toDescriptorField values = true then
        placeField lower cutting field
      else cutting)
    { sections := [], openKey := none }).sections

/-!
## The check
-/

def descriptorConditionHasPredicate (condition : DescriptorFieldShowWhen num) : Bool :=
  condition.equals.isSome || condition.includes.isSome

def canCoexist (a b : SectionedField num) : Bool :=
  match a.showWhen, b.showWhen with
  | some x, some y =>
      if descriptorConditionHasPredicate x = false ∨ descriptorConditionHasPredicate y = false then
        true
      else if x.key ≠ y.key then true
      else
        match x.equals, y.equals with
        | some s, some t => s = t
        | _, _ => x.includes.isSome && y.includes.isSome
  | _, _ => true

/-- Some later field of the section is visible beside both. -/
def reopens (opener splitter : SectionedField num) (key : String)
    (rest : List (SectionedField num)) : Bool :=
  rest.any fun candidate =>
    keyOf lower candidate = some key && canCoexist opener candidate &&
      canCoexist splitter candidate

/-- The inner loop: some field closes the opener's run, and a later one reopens it. -/
def splits (opener : SectionedField num) (key : String) : List (SectionedField num) -> Bool
  | [] => false
  | splitter :: rest =>
      if keyOf lower splitter = some key then splits opener key rest
      else if canCoexist opener splitter = false then splits opener key rest
      else if reopens lower opener splitter key rest = true then true
      else splits opener key rest

/-- The outer loop, with the sections that are reported so far. -/
def reportFrom (reported : List SectionKey) : List (SectionedField num) -> List SectionKey
  | [] => reported
  | opener :: rest =>
      match sectionOf lower opener with
      | none => reportFrom reported rest
      | some declared =>
          if declared.key ∈ reported.map SectionKey.key then reportFrom reported rest
          else if splits lower opener declared.key rest = true then
            reportFrom (reported ++ [declared]) rest
          else reportFrom reported rest

/-- The captions that a form can be made to print twice, in first-offence order. -/
def duplicatedDescriptorSectionCaptions (fields : List (SectionedField num)) : List String :=
  (reportFrom lower [] fields).map SectionKey.caption

end Sections

end Forms
end CatFactory
