import CatFactory.Forms.Sections

/-!
# Fields visible together

A condition asks for one thing of the value under its key: that it is a scalar,
or that it is a list with some entry.  Conditions that agree two by two are
satisfied by one bag.  The check on pairs takes a condition with both predicates
for one that a list could satisfy, which it never is.
-/

namespace CatFactory
namespace Forms

section Coexisting

variable {num : Type} [DecidableEq num]

/-!
## What a condition asks for
-/

/-- What is asked of the value under a key. -/
inductive Demand (num : Type) where
  | scalar (value : ConditionScalar num)
  | entry (value : String)

/-- The key that a field's visibility depends on, and what is asked there: `equals` goes before
`includes`. -/
def demandOf (field : SectionedField num) : Option (String × Demand num) :=
  match field.showWhen with
  | none => none
  | some condition =>
      match condition.equals, condition.includes with
      | some scalar, _ => some (condition.key, .scalar scalar)
      | none, some entry => some (condition.key, .entry entry)
      | none, none => none

def Demand.Met (demand : Demand num) (value : Option (DescriptorFieldValue num)) : Prop :=
  match demand with
  | .scalar wanted => matchesScalar value wanted = true
  | .entry text => exists entries, value = some (.list entries) ∧ text ∈ entries

theorem visible_iff (field : SectionedField num) (values : DescriptorFieldValues num) :
    isDescriptorFieldVisible field.toDescriptorField values = true <->
      forall key demand, demandOf field = some (key, demand) -> demand.Met (values.get key) := by
  rw [isDescriptorFieldVisible, demandOf]
  cases field.showWhen with
  | none => simp
  | some condition =>
      simp only [matchesDescriptorCondition]
      cases condition.equals with
      | some scalar =>
          constructor
          · intro h key demand heq
            cases heq
            exact h
          · intro h
            exact h condition.key (.scalar scalar) rfl
      | none =>
          cases condition.includes with
          | none => simp
          | some entry =>
              constructor
              · intro h key demand heq
                cases heq
                simp only at h
                split at h
                · rename_i entries hget
                  exact ⟨entries, hget, of_decide_eq_true h⟩
                · cases h
              · intro h
                rcases h condition.key (.entry entry) rfl with ⟨entries, hget, hmem⟩
                simp only [hget]
                exact decide_eq_true hmem

/-!
## Agreement
-/

def Demand.Agrees : Demand num -> Demand num -> Prop
  | .scalar s, .scalar t => s = t
  | .entry _, .entry _ => True
  | _, _ => False

def scalarValue : ConditionScalar num -> DescriptorFieldValue num
  | .text value => .text value
  | .flag value => .flag value
  | .number value => .number value

theorem matchesScalar_scalarValue (scalar : ConditionScalar num) :
    matchesScalar (some (scalarValue scalar)) scalar = true := by
  cases scalar with
  | text value => exact decide_eq_true rfl
  | flag value => exact decide_eq_true rfl
  | number value => exact decide_eq_true rfl

theorem eq_scalarValue_of_matches {value : DescriptorFieldValue num}
    {scalar : ConditionScalar num} (h : matchesScalar (some value) scalar = true) :
    value = scalarValue scalar := by
  cases scalar with
  | text t =>
      cases value with
      | text s => exact congrArg _ (of_decide_eq_true h)
      | _ => cases h
  | flag b =>
      cases value with
      | flag a => exact congrArg _ (of_decide_eq_true h)
      | _ => cases h
  | number n =>
      cases value with
      | number m => exact congrArg _ (of_decide_eq_true h)
      | _ => cases h

omit [DecidableEq num] in
theorem scalarValue_injective {s t : ConditionScalar num} (h : scalarValue s = scalarValue t) :
    s = t := by
  cases s <;> cases t <;> cases h <;> rfl

theorem agrees_of_met {first second : Demand num} {value : Option (DescriptorFieldValue num)}
    (hfirst : first.Met value) (hsecond : second.Met value) : first.Agrees second := by
  cases first with
  | scalar s =>
      cases second with
      | scalar t =>
          cases value with
          | none =>
              have hs : s = .flag false := of_decide_eq_true hfirst
              have ht : t = .flag false := of_decide_eq_true hsecond
              exact hs.trans ht.symm
          | some value =>
              have hs := eq_scalarValue_of_matches hfirst
              have ht := eq_scalarValue_of_matches hsecond
              exact scalarValue_injective (hs.symm.trans ht)
      | entry _ =>
          rcases hsecond with ⟨entries, heq, _⟩
          rw [heq] at hfirst
          cases s <;> cases eq_scalarValue_of_matches hfirst
  | entry _ =>
      cases second with
      | scalar t =>
          rcases hfirst with ⟨entries, heq, _⟩
          rw [heq] at hsecond
          cases t <;> cases eq_scalarValue_of_matches hsecond
      | entry _ => trivial

def Demand.entryText : Demand num -> Option String
  | .scalar _ => none
  | .entry value => some value

/-- A value that meets demands which agree. -/
def valueFor : List (Demand num) -> DescriptorFieldValue num
  | .scalar scalar :: _ => scalarValue scalar
  | demands => .list (demands.filterMap Demand.entryText)

theorem met_valueFor {demands : List (Demand num)}
    (h : forall first, first ∈ demands -> forall second, second ∈ demands -> first.Agrees second)
    {demand : Demand num} (hmem : demand ∈ demands) : demand.Met (some (valueFor demands)) := by
  cases demands with
  | nil => cases hmem
  | cons head demands =>
      have hhead := h head List.mem_cons_self demand hmem
      cases head with
      | scalar s =>
          cases demand with
          | scalar t =>
              have heq : s = t := hhead
              rw [← heq]
              exact matchesScalar_scalarValue s
          | entry _ => cases hhead
      | entry first =>
          cases demand with
          | scalar _ => cases hhead
          | entry text => exact ⟨_, rfl, List.mem_filterMap.mpr ⟨.entry text, hmem, rfl⟩⟩

/-- What is asked under one key. -/
def askedUnder (key : String) (asked : List (String × Demand num)) : List (Demand num) :=
  asked.filterMap fun entry => if entry.1 = key then some entry.2 else none

omit [DecidableEq num] in
theorem mem_askedUnder {key : String} {asked : List (String × Demand num)} {demand : Demand num} :
    demand ∈ askedUnder key asked <-> (key, demand) ∈ asked := by
  rw [askedUnder, List.mem_filterMap]
  constructor
  · intro h
    rcases h with ⟨⟨key', demand'⟩, hmem, heq⟩
    simp only at heq
    split at heq
    · rename_i hkey
      cases heq
      rw [← hkey]
      exact hmem
    · cases heq
  · intro h
    exact ⟨(key, demand), h, if_pos rfl⟩

/-- A bag with a value under every key that is asked about. -/
def bagFor (asked : List (String × Demand num)) : DescriptorFieldValues num :=
  { own := asked.map fun entry => (entry.1, valueFor (askedUnder entry.1 asked)) }

omit [DecidableEq num] in
theorem get_bagFor {asked : List (String × Demand num)} {key : String} {demand : Demand num}
    (h : (key, demand) ∈ asked) :
    (bagFor asked).get key = some (valueFor (askedUnder key asked)) := by
  simp only [DescriptorFieldValues.get, bagFor]
  rw [List.find?_map, Option.map_map]
  have hfound : (asked.find? fun entry => decide (entry.1 = key)).isSome = true :=
    List.find?_isSome.mpr ⟨_, h, decide_eq_true rfl⟩
  rcases Option.isSome_iff_exists.mp hfound with ⟨entry, hentry⟩
  have hkey : entry.1 = key := by
    simpa using List.find?_some hentry
  change (Option.map _ (asked.find? fun entry => decide (entry.1 = key))).or _ = _
  rw [hentry, Option.map_some, ← hkey]
  rfl

/-- Two fields ask for nothing that one value could not be. -/
def Agree (a b : SectionedField num) : Prop :=
  match demandOf a, demandOf b with
  | some (key, first), some (key', second) => key = key' -> first.Agrees second
  | _, _ => True

omit [DecidableEq num] in
theorem agree_iff_forall (a b : SectionedField num) :
    Agree a b <-> forall key first second, demandOf a = some (key, first) ->
      demandOf b = some (key, second) -> first.Agrees second := by
  rw [Agree]
  cases demandOf a with
  | none => simp
  | some first =>
      cases demandOf b with
      | none => simp
      | some second =>
          constructor
          · intro h key d d' hd hd'
            cases hd
            cases hd'
            exact h rfl
          · intro h hkey
            apply h first.1 first.2 second.2 rfl
            rw [hkey]

/-- Fields are visible under one bag exactly where they agree two by two. -/
theorem visible_together_iff (group : List (SectionedField num)) :
    (exists values : DescriptorFieldValues num, forall field, field ∈ group ->
        isDescriptorFieldVisible field.toDescriptorField values = true) <->
      forall a, a ∈ group -> forall b, b ∈ group -> Agree a b := by
  constructor
  · intro h a ha b hb
    rcases h with ⟨values, hvisible⟩
    rw [agree_iff_forall]
    intro key first second hfirst hsecond
    exact agrees_of_met ((visible_iff a values).mp (hvisible a ha) key first hfirst)
      ((visible_iff b values).mp (hvisible b hb) key second hsecond)
  · intro h
    refine ⟨bagFor (group.filterMap demandOf), ?_⟩
    intro field hfield
    rw [visible_iff]
    intro key demand hdemand
    have hasked : (key, demand) ∈ group.filterMap demandOf :=
      List.mem_filterMap.mpr ⟨field, hfield, hdemand⟩
    rw [get_bagFor hasked]
    apply met_valueFor _ (mem_askedUnder.mpr hasked)
    intro first hfirst second hsecond
    rcases List.mem_filterMap.mp (mem_askedUnder.mp hfirst) with ⟨a, ha, hafirst⟩
    rcases List.mem_filterMap.mp (mem_askedUnder.mp hsecond) with ⟨b, hb, hbsecond⟩
    exact (agree_iff_forall a b).mp (h a ha b hb) key first second hafirst hbsecond

/-!
## The check on pairs
-/

/-- On one key, a condition with both predicates and one with `includes` only. -/
def mixedPair (a b : SectionedField num) : Bool :=
  match a.showWhen, b.showWhen with
  | some x, some y =>
      x.key = y.key && x.includes.isSome && y.includes.isSome &&
        (x.equals.isSome != y.equals.isSome)
  | _, _ => false

theorem agree_iff (a b : SectionedField num) :
    Agree a b <-> canCoexist a b = true ∧ mixedPair a b = false := by
  rw [Agree, canCoexist, mixedPair, demandOf, demandOf]
  cases a.showWhen with
  | none => simp
  | some x =>
      cases b.showWhen with
      | none => simp
      | some y =>
          rcases x with ⟨key, equals, includes⟩
          rcases y with ⟨key', equals', includes'⟩
          by_cases hkey : key = key'
          · cases equals <;> cases includes <;> cases equals' <;> cases includes' <;>
              simp [hkey, descriptorConditionHasPredicate, Demand.Agrees]
          · cases equals <;> cases includes <;> cases equals' <;> cases includes' <;>
              simp [hkey, descriptorConditionHasPredicate, Demand.Agrees]

end Coexisting

end Forms
end CatFactory
