import CatFactory.Forms.Fields
import Mathlib.Data.List.Nodup

/-!
# The create door and the input gate

The create door validates a filled bag and freezes what sanitizing leaves of
it; the input gate later asks the frozen bag for the required fields.  The two
read visibility off different bags, and this module says when they agree.
-/

namespace CatFactory
namespace Forms

open Foundation

/-!
## The input gate
-/

/-- The findings of the checks on the description and on the built-in types. -/
inductive BuiltInIssueCode where
  | descriptionMissing
  | descriptionPlaceholder
  | descriptionThin
  | reproductionMissing
  | reviewTargetMissing
  | successCriteriaMissing
deriving DecidableEq

inductive InputGateIssueCode where
  | builtIn (code : BuiltInIssueCode)
  | requiredFieldMissing
deriving DecidableEq

inductive InputGateSeverity where
  | blocking
  | advisory
deriving DecidableEq

inductive InputGateMode where
  | standard
  | advisory
  | off
deriving DecidableEq

inductive InputGateStatus where
  | off
  | notApplicable
  | blocked
  | passed
deriving DecidableEq

structure PendingIssue where
  code : InputGateIssueCode
  field : Option (String × String)
deriving DecidableEq

structure InputGateIssue where
  code : InputGateIssueCode
  field : Option (String × String)
  severity : InputGateSeverity
deriving DecidableEq

structure InputGateVerdict where
  status : InputGateStatus
  mode : InputGateMode
  issues : List InputGateIssue
deriving DecidableEq

/-- A task's input: whether it is authored task input at all, what the checks on
its description and built-in type find, the custom fields its type declares and
the frozen bag. -/
structure InputGateInput (num : Type) where
  describesAuthoredTaskInput : Bool
  builtInFindings : List BuiltInIssueCode
  customFields : List (DescriptorField num)
  custom : DescriptorFieldValues num

def inputGateSeverity : InputGateIssueCode -> InputGateSeverity
  | InputGateIssueCode.builtIn BuiltInIssueCode.descriptionThin => InputGateSeverity.advisory
  | InputGateIssueCode.builtIn BuiltInIssueCode.successCriteriaMissing =>
      InputGateSeverity.advisory
  | _ => InputGateSeverity.blocking

section Gate

variable {num : Type} [DecidableEq num]

def customFieldFindings (input : InputGateInput num) : List PendingIssue :=
  if input.customFields = [] then []
  else
    (unfilledRequiredDescriptorFields input.customFields input.custom).map
      (fun field =>
        { code := InputGateIssueCode.requiredFieldMissing
          field := some (field.key, field.label) })

def pendingIssues (input : InputGateInput num) : List PendingIssue :=
  input.builtInFindings.map
      (fun code => { code := InputGateIssueCode.builtIn code, field := none }) ++
    customFieldFindings input

def evaluateInputGate (input : InputGateInput num) (mode : InputGateMode) : InputGateVerdict :=
  if mode = InputGateMode.off then
    { status := InputGateStatus.off, mode := mode, issues := [] }
  else if input.describesAuthoredTaskInput = false then
    { status := InputGateStatus.notApplicable, mode := mode, issues := [] }
  else
    let issues := (pendingIssues input).map (fun issue =>
      { code := issue.code
        field := issue.field
        severity :=
          if mode = InputGateMode.advisory then InputGateSeverity.advisory
          else inputGateSeverity issue.code : InputGateIssue })
    { status :=
        if issues.any (fun issue => issue.severity = InputGateSeverity.blocking) then
          InputGateStatus.blocked
        else InputGateStatus.passed
      mode := mode
      issues := issues }

/-- A gate that finds no unfilled required field reports none. -/
theorem not_requiredFieldMissing {input : InputGateInput num}
    (h : unfilledRequiredDescriptorFields input.customFields input.custom = [])
    (mode : InputGateMode) {issue : InputGateIssue}
    (hmem : issue ∈ (evaluateInputGate input mode).issues) :
    issue.code ≠ InputGateIssueCode.requiredFieldMissing := by
  have hcustom : customFieldFindings input = [] := by
    unfold customFieldFindings
    split
    · rfl
    · rw [h]
      rfl
  unfold evaluateInputGate at hmem
  split at hmem
  · cases hmem
  · split at hmem
    · cases hmem
    · rcases List.mem_map.mp hmem with ⟨pending, hpending, rfl⟩
      unfold pendingIssues at hpending
      rw [hcustom, List.append_nil] at hpending
      rcases List.mem_map.mp hpending with ⟨code, _, rfl⟩
      intro hcode
      cases hcode

end Gate

/-!
## Frozen bags
-/

/-- The fields of a form, no two under one key. -/
structure DescriptorForm (num : Type) where
  fields : List (DescriptorField num)
  keys_nodup : (fields.map DescriptorField.key).Nodup

section Freezing

variable {num : Type} [DecidableEq num] (ops : NumberOps num)

omit [DecidableEq num] in
theorem get_eq_inherited {values : DescriptorFieldValues num} {key : String}
    (h : key ∉ values.keys) : values.get key = values.inherited key := by
  have hnone : values.own.find? (fun entry => entry.1 = key) = none := by
    apply List.find?_eq_none.mpr
    intro entry hmem
    have hne : entry.1 ≠ key := fun heq => h (heq ▸ List.mem_map_of_mem hmem)
    simpa using hne
  rw [DescriptorFieldValues.get, hnone]
  rfl

omit [DecidableEq num] in
theorem get_empty (key : String) :
    DescriptorFieldValues.get ({} : DescriptorFieldValues num) key =
      if key ∈ OBJECT_MEMBERS then some DescriptorFieldValue.member else none :=
  get_eq_inherited List.not_mem_nil

/-- The entry that one field contributes to the frozen bag. -/
def keptEntry (values : DescriptorFieldValues num) (field : DescriptorField num) :
    Option (String × DescriptorFieldValue num) :=
  if field.key = protoKey then none
  else (keptValue values field).map fun value => (field.key, value)

/-- The prototype that one field gives the frozen bag. -/
def keptProto (values : DescriptorFieldValues num) (field : DescriptorField num) :
    Option (ArrayPrototype num) :=
  if field.key = protoKey then
    match keptValue values field with
    | some (DescriptorFieldValue.list entries) =>
        some { entries := entries, length := ops.ofNat entries.length }
    | _ => none
  else none

theorem keepField_proto {values sanitized : DescriptorFieldValues num}
    {field : DescriptorField num} (h : field.key = protoKey) :
    keepField ops values sanitized field =
      { sanitized with proto := (keptProto ops values field).or sanitized.proto } := by
  unfold keepField keptProto DescriptorFieldValues.set
  simp only [h, if_true]
  cases keptValue values field with
  | none => rfl
  | some value => cases value <;> rfl

theorem keepField_entry {values sanitized : DescriptorFieldValues num}
    {field : DescriptorField num} (h : field.key ≠ protoKey)
    (hnew : field.key ∉ sanitized.keys) :
    keepField ops values sanitized field =
      { sanitized with own := sanitized.own ++ (keptEntry values field).toList } := by
  unfold keepField keptEntry
  cases hkept : keptValue values field with
  | none => simp [h]
  | some value => simp [h, hnew, DescriptorFieldValues.set]

/-- Under distinct keys nothing is overwritten, and at most one field sets the prototype. -/
theorem foldl_keepField {values : DescriptorFieldValues num}
    {fields : List (DescriptorField num)} {sanitized : DescriptorFieldValues num}
    (hnodup : (fields.map DescriptorField.key).Nodup)
    (hfresh : forall field, field ∈ fields -> field.key ∉ sanitized.keys) :
    fields.foldl (keepField ops values) sanitized =
      { own := sanitized.own ++ fields.filterMap (keptEntry values)
        proto := (fields.findSome? (keptProto ops values)).or sanitized.proto } := by
  induction fields generalizing sanitized with
  | nil => simp
  | cons field rest ih =>
      rcases List.nodup_cons.mp hnodup with ⟨hfield, hrest⟩
      have hnew := hfresh field List.mem_cons_self
      have hlater : forall other, other ∈ rest -> other.key ≠ field.key :=
        fun other hmem heq => hfield (heq ▸ List.mem_map_of_mem hmem)
      rw [List.foldl_cons, List.filterMap_cons, List.findSome?_cons]
      by_cases hproto : field.key = protoKey
      · have hentry : keptEntry values field = none := if_pos hproto
        have hnone : rest.findSome? (keptProto ops values) = none := by
          apply List.findSome?_eq_none_iff.mpr
          intro other hmem
          exact if_neg fun heq => hlater other hmem (heq.trans hproto.symm)
        have hstep := @ih (keepField ops values sanitized field) hrest fun other hmem => by
          rw [keepField_proto ops hproto]
          exact hfresh other (List.mem_cons_of_mem _ hmem)
        rw [hstep, keepField_proto ops hproto, hentry, hnone]
        cases keptProto ops values field <;> rfl
      · have hnoProto : keptProto ops values field = none := if_neg hproto
        rw [keepField_entry ops hproto hnew, hnoProto, ih hrest]
        · cases keptEntry values field with
          | none => simp
          | some entry => simp
        · intro other hmem hin
          have hold := hfresh other (List.mem_cons_of_mem _ hmem)
          unfold DescriptorFieldValues.keys at hin hold
          rw [List.map_append] at hin
          rcases List.mem_append.mp hin with hin | hin
          · exact hold hin
          · rcases List.mem_map.mp hin with ⟨entry, hentry, hkey⟩
            have hmade := Option.mem_toList.mp hentry
            unfold keptEntry at hmade
            rw [if_neg hproto] at hmade
            rcases Option.map_eq_some_iff.mp hmade with ⟨value, _, rfl⟩
            exact hlater other hmem hkey.symm

theorem sanitize_eq (form : DescriptorForm num) (values : DescriptorFieldValues num) :
    sanitizeDescriptorFields ops form.fields values =
      { own := form.fields.filterMap (keptEntry values)
        proto := form.fields.findSome? (keptProto ops values) } := by
  unfold sanitizeDescriptorFields
  rw [foldl_keepField ops form.keys_nodup fun field _ hmem => absurd hmem List.not_mem_nil]
  simp

end Freezing

/-!
## Reading the frozen bag
-/

section Reading

variable {num : Type} [DecidableEq num] {ops : NumberOps num} {form : DescriptorForm num}
  {values : DescriptorFieldValues num}

/-- The frozen bag has the field's value: the field is visible, the value is an answer,
and under `__proto__` it is an array. -/
def IsKept (values : DescriptorFieldValues num) (field : DescriptorField num) : Prop :=
  isDescriptorFieldVisible field values = true ∧
    isDescriptorFieldAnswer field (values.get field.key) = true ∧
    (field.key = protoKey ->
      exists entries, values.get field.key = some (DescriptorFieldValue.list entries))

def KeepsKey (form : DescriptorForm num) (values : DescriptorFieldValues num)
    (key : String) : Prop :=
  exists field, field ∈ form.fields ∧ field.key = key ∧ IsKept values field

/-- The frozen bag without its entries. -/
def bareBag (ops : NumberOps num) (form : DescriptorForm num)
    (values : DescriptorFieldValues num) : DescriptorFieldValues num :=
  { proto := form.fields.findSome? (keptProto ops values) }

theorem keptValue_eq_some_iff (field : DescriptorField num)
    (value : DescriptorFieldValue num) :
    keptValue values field = some value <->
      isDescriptorFieldVisible field values = true ∧ values.get field.key = some value ∧
        isDescriptorFieldAnswer field (some value) = true := by
  unfold keptValue
  split
  · rename_i hhidden
    simp [hhidden]
  · rename_i hvisible
    split
    · rename_i hnone
      simp [hnone]
    · rename_i found hfound
      rw [hfound]
      split
      · rename_i hanswer
        constructor
        · intro h
          cases h
          exact ⟨by simpa using hvisible, rfl, hanswer⟩
        · intro h
          exact h.2.1
      · rename_i hanswer
        constructor
        · intro h
          cases h
        · intro h
          cases h.2.1
          exact absurd h.2.2 hanswer

theorem isKept_iff (field : DescriptorField num) :
    IsKept values field <->
      exists value, keptValue values field = some value ∧ values.get field.key = some value ∧
        (field.key = protoKey -> exists entries, value = DescriptorFieldValue.list entries) := by
  constructor
  · rintro ⟨hvisible, hanswer, hproto⟩
    cases hvalue : values.get field.key with
    | none =>
        rw [hvalue] at hanswer
        cases hanswer
    | some value =>
        rw [hvalue] at hanswer hproto
        refine ⟨value, (keptValue_eq_some_iff field value).mpr ⟨hvisible, hvalue, hanswer⟩,
          rfl, fun hkey => ?_⟩
        rcases hproto hkey with ⟨entries, hentries⟩
        cases hentries
        exact ⟨entries, rfl⟩
  · rintro ⟨value, hkept, hvalue, hproto⟩
    rcases (keptValue_eq_some_iff field value).mp hkept with ⟨hvisible, _, hanswer⟩
    refine ⟨hvisible, hvalue ▸ hanswer, fun hkey => ?_⟩
    rcases hproto hkey with ⟨entries, rfl⟩
    exact ⟨entries, hvalue⟩

theorem keptEntry_eq_some_iff (field : DescriptorField num)
    (entry : String × DescriptorFieldValue num) :
    keptEntry values field = some entry <->
      field.key ≠ protoKey ∧ field.key = entry.1 ∧ keptValue values field = some entry.2 := by
  unfold keptEntry
  split
  · rename_i hkey
    simp [hkey]
  · rename_i hkey
    rw [Option.map_eq_some_iff]
    constructor
    · rintro ⟨value, hkept, rfl⟩
      exact ⟨hkey, rfl, hkept⟩
    · rintro ⟨_, hname, hkept⟩
      exact ⟨entry.2, hkept, Prod.ext hname rfl⟩

theorem keptProto_eq_some_iff (field : DescriptorField num) (array : ArrayPrototype num) :
    keptProto ops values field = some array <->
      field.key = protoKey ∧ array.length = ops.ofNat array.entries.length ∧
        keptValue values field = some (DescriptorFieldValue.list array.entries) := by
  unfold keptProto
  split
  · rename_i hkey
    split
    · rename_i entries hkept
      rw [hkept]
      constructor
      · intro h
        cases h
        exact ⟨hkey, rfl, rfl⟩
      · rintro ⟨_, hlength, hentries⟩
        cases hentries
        rw [← hlength]
    · rename_i hother
      constructor
      · intro h
        cases h
      · rintro ⟨_, _, hkept⟩
        exact absurd hkept (hother _)
  · rename_i hkey
    simp [hkey]

/-- A key that the frozen bag does not keep reads what the bare bag reads. -/
theorem get_sanitize_bare {key : String} (h : ¬ KeepsKey form values key) :
    (sanitizeDescriptorFields ops form.fields values).get key =
      (bareBag ops form values).get key := by
  have hbare : (bareBag ops form values).get key = (bareBag ops form values).inherited key :=
    get_eq_inherited List.not_mem_nil
  rw [hbare, sanitize_eq]
  apply get_eq_inherited
  intro hin
  rcases List.mem_map.mp hin with ⟨entry, hentry, rfl⟩
  rcases List.mem_filterMap.mp hentry with ⟨field, hfield, hmade⟩
  rcases (keptEntry_eq_some_iff field entry).mp hmade with ⟨hproto, hkey, hkept⟩
  have hvalue := ((keptValue_eq_some_iff field entry.2).mp hkept).2.1
  exact h ⟨field, hfield, hkey,
    (isKept_iff field).mpr ⟨entry.2, hkept, hvalue, fun hsame => absurd hsame hproto⟩⟩

omit [DecidableEq num] in
theorem eq_of_key {field other : DescriptorField num} (hfield : field ∈ form.fields)
    (hother : other ∈ form.fields) (h : other.key = field.key) : other = field :=
  List.inj_on_of_nodup_map form.keys_nodup hother hfield h

theorem mem_keptEntries_iff {field : DescriptorField num} (hfield : field ∈ form.fields)
    {entry : String × DescriptorFieldValue num} (hkey : entry.1 = field.key) :
    entry ∈ form.fields.filterMap (keptEntry values) <-> keptEntry values field = some entry := by
  constructor
  · intro h
    rcases List.mem_filterMap.mp h with ⟨other, hother, hmade⟩
    have hsame := ((keptEntry_eq_some_iff other entry).mp hmade).2.1
    rwa [eq_of_key hfield hother (hsame.trans hkey)] at hmade
  · intro h
    exact List.mem_filterMap.mpr ⟨field, hfield, h⟩

theorem findSome_keptProto {field : DescriptorField num} (hfield : field ∈ form.fields)
    (hkey : field.key = protoKey) :
    form.fields.findSome? (keptProto ops values) = keptProto ops values field := by
  cases hfound : form.fields.findSome? (keptProto ops values) with
  | none => exact (List.findSome?_eq_none_iff.mp hfound field hfield).symm
  | some array =>
      rcases List.exists_of_findSome?_eq_some hfound with ⟨other, hother, harray⟩
      have hsame := ((keptProto_eq_some_iff other array).mp harray).1
      rw [← eq_of_key hfield hother (hsame.trans hkey.symm), harray]

/-- A kept field reads its own value back. -/
theorem get_sanitize {field : DescriptorField num} (hfield : field ∈ form.fields)
    (h : IsKept values field) :
    (sanitizeDescriptorFields ops form.fields values).get field.key =
      values.get field.key := by
  rcases (isKept_iff field).mp h with ⟨value, hkept, hvalue, hproto⟩
  rw [hvalue, sanitize_eq]
  by_cases hkey : field.key = protoKey
  · rcases hproto hkey with ⟨entries, rfl⟩
    rw [get_eq_inherited]
    · unfold DescriptorFieldValues.inherited
      simp only [findSome_keptProto hfield hkey, keptProto, hkey, if_true, hkept,
        ArrayPrototype.get]
    · intro hin
      rcases List.mem_map.mp hin with ⟨entry, hentry, hname⟩
      rcases List.mem_filterMap.mp hentry with ⟨other, _, hmade⟩
      rcases (keptEntry_eq_some_iff other entry).mp hmade with ⟨hother, hsame, _⟩
      exact hother (hsame.trans (hname.trans hkey))
  · have hentry := (keptEntry_eq_some_iff field (field.key, value)).mpr ⟨hkey, rfl, hkept⟩
    have hsome : ((form.fields.filterMap (keptEntry values)).find?
        fun entry => decide (entry.1 = field.key)).isSome = true :=
      List.find?_isSome.mpr ⟨_, (mem_keptEntries_iff hfield rfl).mpr hentry, decide_eq_true rfl⟩
    rcases Option.isSome_iff_exists.mp hsome with ⟨entry, hfound⟩
    have hname : entry.1 = field.key := by
      simpa using List.find?_some hfound
    have hsame := (mem_keptEntries_iff hfield hname).mp (List.mem_of_find?_eq_some hfound)
    rw [hentry, Option.some.injEq] at hsame
    unfold DescriptorFieldValues.get
    rw [hfound, ← hsame]
    rfl

end Reading

/-!
## Visibility on the frozen bag
-/

section Doors

variable {num : Type} [DecidableEq num] {ops : NumberOps num} {form : DescriptorForm num}
  {values : DescriptorFieldValues num}

theorem matches_congr {condition : DescriptorFieldShowWhen num}
    {values values' : DescriptorFieldValues num}
    (h : values.get condition.key = values'.get condition.key) :
    matchesDescriptorCondition condition values =
      matchesDescriptorCondition condition values' := by
  unfold matchesDescriptorCondition
  rw [h]

theorem validate_eq_nil_iff (fields : List (DescriptorField num))
    (values : DescriptorFieldValues num) :
    validateDescriptorFields ops fields values = [] <->
      (forall key, key ∈ values.keys -> key ∈ fields.map DescriptorField.key) ∧
        forall field, field ∈ fields -> fieldProblems ops values none field = [] := by
  unfold validateDescriptorFields descriptorProblems unknownProblems
  rw [List.append_eq_nil_iff, List.flatMap_eq_nil_iff, List.map_eq_nil_iff,
    List.filter_eq_nil_iff]
  simp

/-- The field's condition, if it has one, holds of the filled bag where the value that it
looks at is kept, and of the bare bag where it is not. -/
def ShownFrozen (ops : NumberOps num) (form : DescriptorForm num)
    (values : DescriptorFieldValues num) (field : DescriptorField num) : Prop :=
  forall condition, field.showWhen = some condition ->
    (KeepsKey form values condition.key ->
      matchesDescriptorCondition condition values = true) ∧
    (¬ KeepsKey form values condition.key ->
      matchesDescriptorCondition condition (bareBag ops form values) = true)

theorem visible_sanitize_iff (field : DescriptorField num) :
    isDescriptorFieldVisible field (sanitizeDescriptorFields ops form.fields values) = true <->
      ShownFrozen ops form values field := by
  unfold isDescriptorFieldVisible ShownFrozen
  cases field.showWhen with
  | none => simp
  | some condition =>
      simp only [Option.some.injEq, forall_eq']
      by_cases hkeeps : KeepsKey form values condition.key
      · rcases hkeeps with ⟨other, hother, hkey, hkept⟩
        have hread := @get_sanitize _ _ ops _ _ _ hother hkept
        rw [hkey] at hread
        have hkeeps : KeepsKey form values condition.key := ⟨other, hother, hkey, hkept⟩
        simp [matches_congr hread, hkeeps]
      · simp [matches_congr (get_sanitize_bare hkeeps), hkeeps]

/-- What is kept stays visible; of the other fields that the frozen bag shows none is
required, and none finds an answer in the bare bag. -/
def VisibilityKept (ops : NumberOps num) (form : DescriptorForm num)
    (values : DescriptorFieldValues num) : Prop :=
  forall field, field ∈ form.fields ->
    (IsKept values field -> ShownFrozen ops form values field) ∧
    (¬ IsKept values field -> ShownFrozen ops form values field ->
      field.required = false ∧
        isDescriptorFieldAnswer field ((bareBag ops form values).get field.key) = false)

/-- The two doors read one frozen bag alike: nothing required is missing from
it, the gate reports nothing missing, it is valid, and freezing it again keeps it. -/
structure DoorsAgree (ops : NumberOps num) (fields : List (DescriptorField num))
    (frozen : DescriptorFieldValues num) : Prop where
  filled : unfilledRequiredDescriptorFields fields frozen = []
  gate : forall (input : InputGateInput num) (mode : InputGateMode) (issue : InputGateIssue),
    input.customFields = fields -> input.custom = frozen ->
      issue ∈ (evaluateInputGate input mode).issues ->
        issue.code ≠ InputGateIssueCode.requiredFieldMissing
  valid : validateDescriptorFields ops fields frozen = []
  stable : sanitizeDescriptorFields ops fields frozen = frozen

/-- A field that is not kept reads the bare bag. -/
theorem get_sanitize_dropped {field : DescriptorField num} (hfield : field ∈ form.fields)
    (h : ¬ IsKept values field) :
    (sanitizeDescriptorFields ops form.fields values).get field.key =
      (bareBag ops form values).get field.key := by
  apply get_sanitize_bare
  rintro ⟨other, hother, hkey, hkept⟩
  rw [eq_of_key hfield hother hkey] at hkept
  exact h hkept

theorem isFilled_answer {field : DescriptorField num}
    {value : Option (DescriptorFieldValue num)} (h : isFilled value = true) :
    isDescriptorFieldAnswer field value = true := by
  cases value with
  | none => cases h
  | some answer => simp [isDescriptorFieldAnswer, h]

theorem not_filled_of_not_answer {field : DescriptorField num}
    {value : Option (DescriptorFieldValue num)}
    (h : isDescriptorFieldAnswer field value = false) : isFilled value = false := by
  by_contra hfilled
  rw [isFilled_answer (Bool.not_eq_false _ ▸ hfilled)] at h
  cases h

/-- A visible required field of a valid bag is filled. -/
theorem filled_of_fieldProblems {field : DescriptorField num}
    (h : fieldProblems ops values none field = [])
    (hvisible : isDescriptorFieldVisible field values = true)
    (hrequired : field.required = true) : isFilled (values.get field.key) = true := by
  unfold fieldProblems at h
  rw [if_neg (by simp [hvisible])] at h
  cases hvalue : values.get field.key with
  | none =>
      simp [hvalue, hrequired] at h
  | some value =>
      cases hfilled : isFilled (some value) with
      | true => rfl
      | false => simp [hvalue, hfilled, hrequired] at h

theorem unfilled_sanitize (hvalid : validateDescriptorFields ops form.fields values = [])
    (hkept : VisibilityKept ops form values) :
    unfilledRequiredDescriptorFields form.fields
      (sanitizeDescriptorFields ops form.fields values) = [] := by
  apply List.filter_eq_nil_iff.mpr
  intro field hfield hunfilled
  simp only [Bool.and_eq_true, Bool.not_eq_true'] at hunfilled
  rcases hunfilled with ⟨⟨hrequired, hvisible⟩, hblank⟩
  by_cases hkeep : IsKept values field
  · have hproblems := ((validate_eq_nil_iff form.fields values).mp hvalid).2 field hfield
    rw [get_sanitize hfield hkeep, filled_of_fieldProblems hproblems hkeep.1 hrequired]
      at hblank
    cases hblank
  · have hoptional :=
      ((hkept field hfield).2 hkeep ((visible_sanitize_iff field).mp hvisible)).1
    rw [hrequired] at hoptional
    cases hoptional

/-- A kept value passed its field's checks in the filled bag, and another that is shown
is no answer. -/
theorem fieldProblems_sanitize (hvalid : validateDescriptorFields ops form.fields values = [])
    (hkept : VisibilityKept ops form values) {field : DescriptorField num}
    (hfield : field ∈ form.fields) :
    fieldProblems ops (sanitizeDescriptorFields ops form.fields values) none field = [] := by
  unfold fieldProblems
  split
  · rfl
  · rename_i hvisible
    simp only [Bool.not_eq_false] at hvisible
    by_cases hkeep : IsKept values field
    · have hold := ((validate_eq_nil_iff form.fields values).mp hvalid).2 field hfield
      unfold fieldProblems at hold
      rw [if_neg (by simp [hkeep.1])] at hold
      rw [get_sanitize hfield hkeep]
      exact hold
    · rcases (hkept field hfield).2 hkeep ((visible_sanitize_iff field).mp hvisible) with
        ⟨hoptional, hanswer⟩
      have hblank := not_filled_of_not_answer hanswer
      rw [get_sanitize_dropped hfield hkeep]
      cases hvalue : (bareBag ops form values).get field.key with
      | none => simp [hoptional]
      | some value =>
          rw [hvalue] at hblank
          simp [hblank, hoptional]

theorem keptValue_sanitize (hkept : VisibilityKept ops form values)
    {field : DescriptorField num} (hfield : field ∈ form.fields) (hkeep : IsKept values field) :
    keptValue (sanitizeDescriptorFields ops form.fields values) field =
      keptValue values field := by
  rcases (isKept_iff field).mp hkeep with ⟨value, hvalue, hget, _⟩
  rw [hvalue]
  apply (keptValue_eq_some_iff field value).mpr
  refine ⟨(visible_sanitize_iff field).mpr ((hkept field hfield).1 hkeep), ?_, ?_⟩
  · rw [get_sanitize hfield hkeep, hget]
  · exact ((keptValue_eq_some_iff field value).mp hvalue).2.2

theorem keptValue_sanitize_dropped (hkept : VisibilityKept ops form values)
    {field : DescriptorField num} (hfield : field ∈ form.fields)
    (hdropped : ¬ IsKept values field) :
    keptValue (sanitizeDescriptorFields ops form.fields values) field = none := by
  cases hagain : keptValue (sanitizeDescriptorFields ops form.fields values) field with
  | none => rfl
  | some value =>
      rcases (keptValue_eq_some_iff field value).mp hagain with ⟨hvisible, hget, hanswer⟩
      have hno := ((hkept field hfield).2 hdropped
        ((visible_sanitize_iff field).mp hvisible)).2
      rw [← get_sanitize_dropped hfield hdropped, hget, hanswer] at hno
      cases hno

/-- A field that is not kept puts nothing into the frozen bag. -/
theorem keptEntry_of_dropped {field : DescriptorField num} (h : ¬ IsKept values field) :
    keptEntry values field = none := by
  cases hmade : keptEntry values field with
  | none => rfl
  | some entry =>
      rcases (keptEntry_eq_some_iff field entry).mp hmade with ⟨hproto, _, hvalue⟩
      have hget := ((keptValue_eq_some_iff field entry.2).mp hvalue).2.1
      exact absurd ((isKept_iff field).mpr
        ⟨entry.2, hvalue, hget, fun hsame => absurd hsame hproto⟩) h

theorem keptProto_of_dropped {field : DescriptorField num} (h : ¬ IsKept values field) :
    keptProto ops values field = none := by
  cases hmade : keptProto ops values field with
  | none => rfl
  | some array =>
      rcases (keptProto_eq_some_iff field array).mp hmade with ⟨_, _, hvalue⟩
      have hget := ((keptValue_eq_some_iff field _).mp hvalue).2.1
      exact absurd ((isKept_iff field).mpr
        ⟨_, hvalue, hget, fun _ => ⟨array.entries, rfl⟩⟩) h

theorem sanitize_again (hkept : VisibilityKept ops form values) :
    sanitizeDescriptorFields ops form.fields (sanitizeDescriptorFields ops form.fields values) =
      sanitizeDescriptorFields ops form.fields values := by
  have hsame : forall field, field ∈ form.fields ->
      keptEntry (sanitizeDescriptorFields ops form.fields values) field =
          keptEntry values field ∧
        keptProto ops (sanitizeDescriptorFields ops form.fields values) field =
          keptProto ops values field := by
    intro field hfield
    by_cases hkeep : IsKept values field
    · unfold keptEntry keptProto
      rw [keptValue_sanitize hkept hfield hkeep]
      exact ⟨rfl, rfl⟩
    · have hnone := keptValue_sanitize_dropped hkept hfield hkeep
      rw [keptEntry_of_dropped hkeep, keptProto_of_dropped hkeep]
      unfold keptEntry keptProto
      rw [hnone]
      simp
  rw [sanitize_eq ops form (sanitizeDescriptorFields ops form.fields values),
    List.filterMap_congr fun field hfield => (hsame field hfield).1, ← List.head?_filterMap,
    List.filterMap_congr fun field hfield => (hsame field hfield).2, List.head?_filterMap]
  exact (sanitize_eq ops form values).symm

/-- Where freezing again keeps the bag, each field puts into it what it put there before. -/
theorem kept_of_stable
    (hstable : sanitizeDescriptorFields ops form.fields
      (sanitizeDescriptorFields ops form.fields values) =
        sanitizeDescriptorFields ops form.fields values)
    {field : DescriptorField num} (hfield : field ∈ form.fields) :
    keptEntry (sanitizeDescriptorFields ops form.fields values) field =
        keptEntry values field ∧
      keptProto ops (sanitizeDescriptorFields ops form.fields values) field =
        keptProto ops values field := by
  rw [sanitize_eq ops form (sanitizeDescriptorFields ops form.fields values)] at hstable
  conv_rhs at hstable => rw [sanitize_eq]
  injection hstable with hown hproto
  by_cases hkey : field.key = protoKey
  · rw [findSome_keptProto hfield hkey, findSome_keptProto hfield hkey] at hproto
    exact ⟨by simp only [keptEntry, hkey, if_true], hproto⟩
  · constructor
    · apply Option.ext
      intro entry
      by_cases hname : entry.1 = field.key
      · rw [← mem_keptEntries_iff hfield hname, hown, mem_keptEntries_iff hfield hname]
      · constructor
        · intro hmade
          exact absurd ((keptEntry_eq_some_iff field entry).mp hmade).2.1.symm hname
        · intro hmade
          exact absurd ((keptEntry_eq_some_iff field entry).mp hmade).2.1.symm hname
    · simp only [keptProto, hkey, if_false]

/-- A field that is kept is shown where freezing again keeps it. -/
theorem shown_of_stable
    (hstable : sanitizeDescriptorFields ops form.fields
      (sanitizeDescriptorFields ops form.fields values) =
        sanitizeDescriptorFields ops form.fields values)
    {field : DescriptorField num} (hfield : field ∈ form.fields) (h : IsKept values field) :
    ShownFrozen ops form values field := by
  rcases (isKept_iff field).mp h with ⟨value, hvalue, _, hproto⟩
  rcases kept_of_stable hstable hfield with ⟨hentry, harray⟩
  apply (visible_sanitize_iff field).mp
  by_cases hkey : field.key = protoKey
  · rcases hproto hkey with ⟨entries, rfl⟩
    have hmade := (keptProto_eq_some_iff field
      { entries := entries, length := ops.ofNat entries.length }).mpr ⟨hkey, rfl, hvalue⟩
    rw [← harray, keptProto_eq_some_iff] at hmade
    exact ((keptValue_eq_some_iff field _).mp hmade.2.2).1
  · have hmade := (keptEntry_eq_some_iff field (field.key, value)).mpr ⟨hkey, rfl, hvalue⟩
    rw [← hentry, keptEntry_eq_some_iff] at hmade
    exact ((keptValue_eq_some_iff field _).mp hmade.2.2).1

/-- What a field finds in the bare bag is frozen with the next bag, or fails its check. -/
theorem bare_not_answer (h : DoorsAgree ops form.fields
      (sanitizeDescriptorFields ops form.fields values))
    {field : DescriptorField num} (hfield : field ∈ form.fields)
    (hdropped : ¬ IsKept values field) (hshown : ShownFrozen ops form values field) :
    isDescriptorFieldAnswer field ((bareBag ops form values).get field.key) = false := by
  have hvisible := (visible_sanitize_iff field).mpr hshown
  have hread := @get_sanitize_dropped _ _ ops _ _ _ hfield hdropped
  by_contra hanswer
  rw [Bool.not_eq_false] at hanswer
  by_cases hkey : field.key = protoKey
  · have hbare : (bareBag ops form values).get field.key = some DescriptorFieldValue.member := by
      unfold bareBag
      rw [findSome_keptProto hfield hkey, keptProto_of_dropped hdropped, hkey, get_empty,
        if_pos (by decide)]
    have hproblems := ((validate_eq_nil_iff _ _).mp h.valid).2 field hfield
    unfold fieldProblems at hproblems
    rw [if_neg (by simp [hvisible]), hread, hbare] at hproblems
    have hwrong : valueMatchesFieldType field (DescriptorFieldValue.member : DescriptorFieldValue num) =
        false := by
      unfold valueMatchesFieldType
      split <;> simp_all
    simp [isFilled, isJudged, hwrong] at hproblems
  · cases hvalue : (bareBag ops form values).get field.key with
    | none =>
        rw [hvalue] at hanswer
        cases hanswer
    | some value =>
        rw [hvalue] at hanswer hread
        have hmade := (keptEntry_eq_some_iff field (field.key, value)).mpr ⟨hkey, rfl,
          (keptValue_eq_some_iff field value).mpr ⟨hvisible, hread, hanswer⟩⟩
        rw [(kept_of_stable h.stable hfield).1, keptEntry_of_dropped hdropped] at hmade
        cases hmade

/-- The create door and the input gate agree on a valid bag exactly when freezing it keeps
the visibility that matters. -/
theorem doorsAgree_iff (ops : NumberOps num) (form : DescriptorForm num)
    (filled : DescriptorFieldValues num)
    (hvalid : validateDescriptorFields ops form.fields
      (withDescriptorFieldDefaults ops form.fields filled) = []) :
    DoorsAgree ops form.fields (sanitizeDescriptorFields ops form.fields
        (withDescriptorFieldDefaults ops form.fields filled)) <->
      VisibilityKept ops form (withDescriptorFieldDefaults ops form.fields filled) := by
  generalize withDescriptorFieldDefaults ops form.fields filled = values at *
  constructor
  · intro h field hfield
    constructor
    · exact shown_of_stable h.stable hfield
    · intro hdropped hshown
      have hanswer := bare_not_answer h hfield hdropped hshown
      refine ⟨?_, hanswer⟩
      by_contra hrequired
      apply List.filter_eq_nil_iff.mp h.filled field hfield
      rw [get_sanitize_dropped hfield hdropped, (visible_sanitize_iff field).mpr hshown,
        not_filled_of_not_answer hanswer]
      simpa using hrequired
  · intro hkept
    have hunfilled := unfilled_sanitize hvalid hkept
    constructor
    · exact hunfilled
    · intro input mode issue hfields hcustom hmem
      apply not_requiredFieldMissing _ mode hmem
      rw [hfields, hcustom]
      exact hunfilled
    · apply (validate_eq_nil_iff _ _).mpr
      constructor
      · intro key hkey
        rw [sanitize_eq] at hkey
        rcases List.mem_map.mp hkey with ⟨entry, hentry, rfl⟩
        rcases List.mem_filterMap.mp hentry with ⟨field, hfield, hmade⟩
        rw [← ((keptEntry_eq_some_iff field entry).mp hmade).2.1]
        exact List.mem_map_of_mem hfield
      · intro field hfield
        exact fieldProblems_sanitize hvalid hkept hfield
    · exact sanitize_again hkept

end Doors

/-!
## A chain of conditions
-/

def wholeNumbers : NumberOps Int where
  parseFinite := String.toInt?
  isInteger := fun _ => true
  lt := fun m n => m < n
  text := toString
  ofNat := fun n => n

/-- A picker, a toggle shown for one choice, and a required text shown while the
toggle is off. -/
def chainedForm : DescriptorForm Int where
  fields :=
    [ { key := "kind", label := "Kind", type := some DescriptorFieldType.select,
        required := true, options := [⟨"cli", "CLI"⟩, ⟨"http", "HTTP"⟩], default := none,
        defaultValues := [], showWhen := none, maxLength := none, min := none, max := none,
        integer := false },
      { key := "secured", label := "Secured", type := some DescriptorFieldType.checkbox,
        required := false, options := [], default := none, defaultValues := [],
        showWhen := some ⟨"kind", some (ConditionScalar.text "http"), none⟩,
        maxLength := none, min := none, max := none, integer := false },
      { key := "reason", label := "Reason", type := none, required := true, options := [],
        default := none, defaultValues := [],
        showWhen := some ⟨"secured", some (ConditionScalar.flag false), none⟩,
        maxLength := none, min := none, max := none, integer := false } ]
  keys_nodup := by decide

/-- Answers given before the kind was changed: the toggle's is stale. -/
def staleAnswers : DescriptorFieldValues Int where
  own := [("kind", DescriptorFieldValue.text "cli"), ("secured", DescriptorFieldValue.flag true)]

theorem doorsAgree_iff_chainedForm :
    DoorsAgree wholeNumbers chainedForm.fields
        (sanitizeDescriptorFields wholeNumbers chainedForm.fields
          (withDescriptorFieldDefaults wholeNumbers chainedForm.fields staleAnswers)) <->
      VisibilityKept wholeNumbers chainedForm
        (withDescriptorFieldDefaults wholeNumbers chainedForm.fields staleAnswers) :=
  doorsAgree_iff wholeNumbers chainedForm staleAnswers (by decide +kernel)

/-- An optional text under a name that every object has. -/
def namesakeForm : DescriptorForm Int where
  fields :=
    [ { key := "toString", label := "To string", type := none, required := false,
        options := [], default := none, defaultValues := [], showWhen := none,
        maxLength := none, min := none, max := none, integer := false } ]
  keys_nodup := by decide

def blankAnswer : DescriptorFieldValues Int where
  own := [("toString", DescriptorFieldValue.text "")]

/-- Dropping the stale toggle shows a required field that nobody was asked for, and
dropping the blank text leaves a function in its place. -/
theorem not_doorsAgree_staleAnswers :
    (validateDescriptorFields wholeNumbers chainedForm.fields
        (withDescriptorFieldDefaults wholeNumbers chainedForm.fields staleAnswers) = [] ∧
      ¬ DoorsAgree wholeNumbers chainedForm.fields
        (sanitizeDescriptorFields wholeNumbers chainedForm.fields
          (withDescriptorFieldDefaults wholeNumbers chainedForm.fields staleAnswers))) ∧
    validateDescriptorFields wholeNumbers namesakeForm.fields
        (withDescriptorFieldDefaults wholeNumbers namesakeForm.fields blankAnswer) = [] ∧
      ¬ DoorsAgree wholeNumbers namesakeForm.fields
        (sanitizeDescriptorFields wholeNumbers namesakeForm.fields
          (withDescriptorFieldDefaults wholeNumbers namesakeForm.fields blankAnswer)) := by
  refine ⟨⟨?_, ?_⟩, ?_, ?_⟩
  · decide +kernel
  · intro h
    exact absurd h.filled (by decide +kernel)
  · decide +kernel
  · intro h
    exact absurd h.valid (by decide +kernel)

end Forms
end CatFactory
