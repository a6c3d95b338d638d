import CatFactory.Spend.LlmRollup
import Mathlib.Algebra.Order.BigOperators.Group.List
import Mathlib.Tactic.Linarith

/-!
# Token usage by class

A usage reports its total input and, where its producer can see it, how that
total splits into fresh, cache-read and cache-written tokens.  Usages are summed
part by part, a part without a split counting as fresh, and the classes of a sum
are what its total is priced by.
-/

namespace CatFactory
namespace Spend

/-- The cache shares a producer reports. -/
structure CacheShares where
  cacheReadTokens : Rat
  cacheWriteTokens : Rat
deriving DecidableEq

structure AgentTokenUsage where
  inputTokens : Rat
  outputTokens : Rat
  inputClasses : Option InputTokenClassCounts
deriving DecidableEq

def partitionInputTokens (inputTokens : Rat) (cache : CacheShares) : InputTokenClassCounts :=
  let total := max 0 inputTokens
  let cacheWriteTokens := min (max 0 cache.cacheWriteTokens) total
  let cacheReadTokens := min (max 0 cache.cacheReadTokens) (total - cacheWriteTokens)
  { promptTokens := total - cacheReadTokens - cacheWriteTokens
    cacheReadTokens := cacheReadTokens
    cacheWriteTokens := cacheWriteTokens }

def noShares : CacheShares :=
  { cacheReadTokens := 0
    cacheWriteTokens := 0 }

/-- A part's own split, or its whole input as fresh. -/
def classesOfPart (usage : AgentTokenUsage) : InputTokenClassCounts :=
  usage.inputClasses.getD (partitionInputTokens usage.inputTokens noShares)

def addClasses (a b : InputTokenClassCounts) : InputTokenClassCounts :=
  { promptTokens := a.promptTokens + b.promptTokens
    cacheReadTokens := a.cacheReadTokens + b.cacheReadTokens
    cacheWriteTokens := a.cacheWriteTokens + b.cacheWriteTokens }

def sumAgentTokenUsage : Option AgentTokenUsage -> Option AgentTokenUsage -> Option AgentTokenUsage
  | none, b => b
  | some a, none => some a
  | some a, some b =>
      some
        { inputTokens := a.inputTokens + b.inputTokens
          outputTokens := a.outputTokens + b.outputTokens
          inputClasses :=
            if a.inputClasses.isSome ∨ b.inputClasses.isSome then
              some (addClasses (classesOfPart a) (classesOfPart b))
            else none }

/-- The shares of a job's calls; without calls there is no split. -/
def agentUsageFromHarnessCalls (inputTokens outputTokens : Rat)
    (calls : Option (List CacheShares)) : AgentTokenUsage :=
  { inputTokens := inputTokens
    outputTokens := outputTokens
    inputClasses :=
      match calls with
      | none => none
      | some [] => none
      | some (call :: calls) =>
          some (partitionInputTokens inputTokens
            ((call :: calls).foldl
              (fun shares call =>
                { cacheReadTokens := shares.cacheReadTokens + call.cacheReadTokens
                  cacheWriteTokens := shares.cacheWriteTokens + call.cacheWriteTokens })
              noShares)) }

/-- The price of a usage by its classes, an unsplit input as fresh. -/
def costOfUsage (rates : LlmTokenRates) (usage : AgentTokenUsage) : Rat :=
  costOfTokenClasses rates
    { (usage.inputClasses.getD
        { promptTokens := usage.inputTokens
          cacheReadTokens := 0
          cacheWriteTokens := 0 }) with
      completionTokens := usage.outputTokens }

/-- Usages summed in some order and bracketing; an absent part reported nothing. -/
inductive UsageSum where
  | part (usage : Option AgentTokenUsage)
  | sum (left right : UsageSum)

namespace UsageSum

def eval : UsageSum -> Option AgentTokenUsage
  | part usage => usage
  | sum left right => sumAgentTokenUsage left.eval right.eval

/-- The parts that reported a usage. -/
def parts : UsageSum -> List AgentTokenUsage
  | part usage => usage.toList
  | sum left right => left.parts ++ right.parts

end UsageSum

/-!
## The classes of a part
-/

def InputTokenClassCounts.total (classes : InputTokenClassCounts) : Rat :=
  classes.promptTokens + classes.cacheReadTokens + classes.cacheWriteTokens

structure InputTokenClassCounts.NonNegative (classes : InputTokenClassCounts) : Prop where
  prompt : 0 ≤ classes.promptTokens
  cacheRead : 0 ≤ classes.cacheReadTokens
  cacheWrite : 0 ≤ classes.cacheWriteTokens

/-- A partition is non-negative and sums to the total it was made of. -/
theorem partitionInputTokens_spec (inputTokens : Rat) (cache : CacheShares) :
    (partitionInputTokens inputTokens cache).NonNegative ∧
      (partitionInputTokens inputTokens cache).total = max 0 inputTokens := by
  have htotal : 0 ≤ max 0 inputTokens := le_max_left 0 inputTokens
  have hwrite : min (max 0 cache.cacheWriteTokens) (max 0 inputTokens) ≤ max 0 inputTokens :=
    min_le_right _ _
  have hwrite0 : 0 ≤ min (max 0 cache.cacheWriteTokens) (max 0 inputTokens) :=
    le_min (le_max_left _ _) htotal
  unfold partitionInputTokens InputTokenClassCounts.total
  simp only
  generalize min (max 0 cache.cacheWriteTokens) (max 0 inputTokens) = write at hwrite hwrite0 ⊢
  generalize max 0 inputTokens = total at htotal hwrite ⊢
  have hread : min (max 0 cache.cacheReadTokens) (total - write) ≤ total - write :=
    min_le_right _ _
  have hread0 : 0 ≤ min (max 0 cache.cacheReadTokens) (total - write) :=
    le_min (le_max_left _ _) (by linarith)
  generalize min (max 0 cache.cacheReadTokens) (total - write) = read at hread hread0 ⊢
  constructor
  · constructor
    · show 0 ≤ total - read - write
      linarith
    · exact hread0
    · exact hwrite0
  · ring

theorem partition_noShares {inputTokens : Rat} (h : 0 ≤ inputTokens) :
    partitionInputTokens inputTokens noShares = ⟨inputTokens, 0, 0⟩ := by
  simp [partitionInputTokens, noShares, h]

/-!
## A list of parts, summed at once
-/

def sumClasses (parts : List AgentTokenUsage) : InputTokenClassCounts :=
  { promptTokens := (parts.map fun part => (classesOfPart part).promptTokens).sum
    cacheReadTokens := (parts.map fun part => (classesOfPart part).cacheReadTokens).sum
    cacheWriteTokens := (parts.map fun part => (classesOfPart part).cacheWriteTokens).sum }

def totalUsage (parts : List AgentTokenUsage) : AgentTokenUsage :=
  { inputTokens := (parts.map AgentTokenUsage.inputTokens).sum
    outputTokens := (parts.map AgentTokenUsage.outputTokens).sum
    inputClasses :=
      if parts.any fun part => part.inputClasses.isSome then some (sumClasses parts) else none }

section Totals

variable {xs ys : List AgentTokenUsage}

theorem sumClasses_append : sumClasses (xs ++ ys) = addClasses (sumClasses xs) (sumClasses ys) := by
  simp [sumClasses, addClasses]

/-- Without a split anywhere the classes are the inputs as fresh. -/
theorem sumClasses_of_unsplit (hcounts : forall part, part ∈ xs -> 0 ≤ part.inputTokens)
    (hunsplit : forall part, part ∈ xs -> part.inputClasses = none) :
    sumClasses xs = ⟨(xs.map AgentTokenUsage.inputTokens).sum, 0, 0⟩ := by
  induction xs with
  | nil => rfl
  | cons part rest ih =>
      have hrest := ih (fun part hpart => hcounts part (List.mem_cons_of_mem _ hpart))
        (fun part hpart => hunsplit part (List.mem_cons_of_mem _ hpart))
      have hpart : classesOfPart part = ⟨part.inputTokens, 0, 0⟩ := by
        rw [classesOfPart, hunsplit part List.mem_cons_self]
        exact partition_noShares (hcounts part List.mem_cons_self)
      simp only [sumClasses, InputTokenClassCounts.mk.injEq] at hrest ⊢
      rcases hrest with ⟨hprompt, hread, hwrite⟩
      simp [hpart, hprompt, hread, hwrite]

theorem sum_inputTokens_nonneg (hcounts : forall part, part ∈ xs -> 0 ≤ part.inputTokens) :
    0 ≤ (xs.map AgentTokenUsage.inputTokens).sum := by
  apply List.sum_nonneg
  intro count hcount
  rcases List.mem_map.mp hcount with ⟨part, hpart, heq⟩
  rw [← heq]
  exact hcounts part hpart

/-- A sum of parts, taken as a part, has the summed classes. -/
theorem classesOfPart_totalUsage (hcounts : forall part, part ∈ xs -> 0 ≤ part.inputTokens) :
    classesOfPart (totalUsage xs) = sumClasses xs := by
  unfold classesOfPart totalUsage
  cases hany : xs.any fun part => part.inputClasses.isSome with
  | true => simp
  | false =>
      have hunsplit : forall part, part ∈ xs -> part.inputClasses = none := by
        intro part hpart
        have hnot := List.any_eq_false.mp hany part hpart
        simpa using hnot
      simp only [Bool.false_eq_true, if_false, Option.getD_none]
      rw [sumClasses_of_unsplit hcounts hunsplit,
        partition_noShares (sum_inputTokens_nonneg hcounts)]

theorem totalUsage_singleton (usage : AgentTokenUsage) : totalUsage [usage] = usage := by
  cases usage with
  | mk inputTokens outputTokens inputClasses =>
      cases inputClasses with
      | none => simp [totalUsage]
      | some classes => simp [totalUsage, sumClasses, classesOfPart]

theorem sum_totalUsage (hxs : forall part, part ∈ xs -> 0 ≤ part.inputTokens)
    (hys : forall part, part ∈ ys -> 0 ≤ part.inputTokens) :
    sumAgentTokenUsage (some (totalUsage xs)) (some (totalUsage ys)) =
      some (totalUsage (xs ++ ys)) := by
  have hpresent : forall zs : List AgentTokenUsage, (totalUsage zs).inputClasses.isSome =
      zs.any fun part => part.inputClasses.isSome := by
    intro zs
    unfold totalUsage
    cases zs.any fun part => part.inputClasses.isSome <;> simp
  rw [sumAgentTokenUsage, classesOfPart_totalUsage hxs, classesOfPart_totalUsage hys, hpresent,
    hpresent, ← sumClasses_append]
  simp [totalUsage, List.any_append]

theorem totalUsage_perm (h : xs.Perm ys) : totalUsage xs = totalUsage ys := by
  have hany : (xs.any fun part => part.inputClasses.isSome) =
      ys.any fun part => part.inputClasses.isSome := h.any_eq
  unfold totalUsage sumClasses
  simp only [hany, (h.map _).sum_eq]

end Totals

/-- Any order and bracketing evaluates to the parts summed at once. -/
theorem eval_eq (usages : UsageSum)
    (hcounts : forall part, part ∈ usages.parts -> 0 ≤ part.inputTokens) :
    usages.eval = if usages.parts = [] then none else some (totalUsage usages.parts) := by
  induction usages with
  | part usage =>
      cases usage with
      | none => rfl
      | some usage => simp [UsageSum.eval, UsageSum.parts, totalUsage_singleton]
  | sum left right ihleft ihright =>
      have hleft : forall part, part ∈ left.parts -> 0 ≤ part.inputTokens :=
        fun part hpart => hcounts part (List.mem_append_left _ hpart)
      have hright : forall part, part ∈ right.parts -> 0 ≤ part.inputTokens :=
        fun part hpart => hcounts part (List.mem_append_right _ hpart)
      rw [UsageSum.eval, UsageSum.parts, ihleft hleft, ihright hright]
      by_cases hl : left.parts = []
      · simp [hl, sumAgentTokenUsage]
      · by_cases hr : right.parts = []
        · simp [hl, hr, sumAgentTokenUsage]
        · simp [hl, hr, sum_totalUsage hleft hright]

/-!
## What producers report
-/

/-- A usage a producer builds: unsplit, from a job's calls, or partitioned by hand. -/
inductive Reported : AgentTokenUsage -> Prop where
  | unsplit (inputTokens outputTokens : Rat) (h : 0 ≤ inputTokens) :
      Reported ⟨inputTokens, outputTokens, none⟩
  | harness (inputTokens outputTokens : Rat) (calls : Option (List CacheShares)) :
      Reported (agentUsageFromHarnessCalls inputTokens outputTokens calls)
  | partitioned (inputTokens outputTokens : Rat) (cache : CacheShares) :
      Reported ⟨inputTokens, outputTokens, some (partitionInputTokens inputTokens cache)⟩

/-- A reported split is the partition of the part's own total. -/
theorem Reported.split {part : AgentTokenUsage} (h : Reported part)
    {classes : InputTokenClassCounts} (hclasses : part.inputClasses = some classes) :
    exists cache, classes = partitionInputTokens part.inputTokens cache := by
  cases h with
  | unsplit inputTokens outputTokens h => cases hclasses
  | harness inputTokens outputTokens calls =>
      cases calls with
      | none => cases hclasses
      | some calls =>
          cases calls with
          | nil => cases hclasses
          | cons call calls => exact ⟨_, (Option.some.inj hclasses).symm⟩
  | partitioned inputTokens outputTokens cache =>
      exact ⟨cache, (Option.some.inj hclasses).symm⟩

theorem classesOfPart_spec {part : AgentTokenUsage} (h : Reported part)
    (hcount : 0 ≤ part.inputTokens) :
    (classesOfPart part).NonNegative ∧ (classesOfPart part).total = part.inputTokens := by
  have hpartition : exists cache,
      classesOfPart part = partitionInputTokens part.inputTokens cache := by
    unfold classesOfPart
    cases hclasses : part.inputClasses with
    | none => exact ⟨noShares, rfl⟩
    | some classes => exact h.split hclasses
  rcases hpartition with ⟨cache, heq⟩
  have hspec := partitionInputTokens_spec part.inputTokens cache
  rw [max_eq_right hcount] at hspec
  rw [heq]
  exact hspec

/-- A part's price is the price of its classes. -/
theorem costOfUsage_eq (rates : LlmTokenRates) {part : AgentTokenUsage}
    (hcount : 0 ≤ part.inputTokens) :
    costOfUsage rates part = costOfTokenClasses rates
      { classesOfPart part with completionTokens := part.outputTokens } := by
  unfold costOfUsage classesOfPart
  cases part.inputClasses with
  | none => rw [partition_noShares hcount]
  | some classes => rfl

section Sums

variable {parts : List AgentTokenUsage}

theorem sumClasses_spec (hreported : forall part, part ∈ parts -> Reported part)
    (hcounts : forall part, part ∈ parts -> 0 ≤ part.inputTokens) :
    (sumClasses parts).NonNegative ∧
      (sumClasses parts).total = (parts.map AgentTokenUsage.inputTokens).sum := by
  induction parts with
  | nil =>
      constructor
      · exact ⟨le_refl 0, le_refl 0, le_refl 0⟩
      · simp [sumClasses, InputTokenClassCounts.total]
  | cons part rest ih =>
      rcases classesOfPart_spec (hreported part List.mem_cons_self)
        (hcounts part List.mem_cons_self) with ⟨hpart, hpartTotal⟩
      rcases ih (fun part hpart => hreported part (List.mem_cons_of_mem _ hpart))
        (fun part hpart => hcounts part (List.mem_cons_of_mem _ hpart)) with ⟨hrest, hrestTotal⟩
      have hcons : sumClasses (part :: rest) =
          addClasses (classesOfPart part) (sumClasses rest) := by
        simp [sumClasses, addClasses]
      rw [hcons]
      constructor
      · exact ⟨add_nonneg hpart.prompt hrest.prompt, add_nonneg hpart.cacheRead hrest.cacheRead,
          add_nonneg hpart.cacheWrite hrest.cacheWrite⟩
      · rw [List.map_cons, List.sum_cons, ← hpartTotal, ← hrestTotal]
        simp only [addClasses, InputTokenClassCounts.total]
        ring

/-- Pricing the sum is summing the prices. -/
theorem costOfUsage_totalUsage (rates : LlmTokenRates)
    (hcounts : forall part, part ∈ parts -> 0 ≤ part.inputTokens) :
    costOfUsage rates (totalUsage parts) = (parts.map (costOfUsage rates)).sum := by
  rw [costOfUsage_eq rates (sum_inputTokens_nonneg hcounts), classesOfPart_totalUsage hcounts]
  induction parts with
  | nil => simp [costOfTokenClasses, sumClasses, totalUsage]
  | cons part rest ih =>
      have hrest := ih fun part hpart => hcounts part (List.mem_cons_of_mem _ hpart)
      rw [List.map_cons, List.sum_cons, costOfUsage_eq rates (hcounts part List.mem_cons_self),
        ← hrest]
      simp only [costOfTokenClasses, sumClasses, totalUsage, List.map_cons, List.sum_cons]
      ring

end Sums

/--
However parts with counts for totals are ordered and bracketed, their sum adds
their totals, has a split exactly when a part had one, and that split is
non-negative, sums to the total input and prices as the parts do.
-/
theorem sumAgentTokenUsage_law (usages : UsageSum)
    (hreported : forall part, part ∈ usages.parts -> Reported part)
    (hcounts : forall part, part ∈ usages.parts -> 0 ≤ part.inputTokens) :
    (usages.eval = none <-> usages.parts = []) ∧
    (forall total, usages.eval = some total ->
      total.inputTokens = (usages.parts.map AgentTokenUsage.inputTokens).sum ∧
      total.outputTokens = (usages.parts.map AgentTokenUsage.outputTokens).sum ∧
      (total.inputClasses.isSome = true <->
        exists part, part ∈ usages.parts ∧ part.inputClasses.isSome = true) ∧
      (forall classes, total.inputClasses = some classes ->
        classes.NonNegative ∧ classes.total = total.inputTokens) ∧
      forall rates, costOfUsage rates total = (usages.parts.map (costOfUsage rates)).sum) ∧
    (forall other : UsageSum, other.parts.Perm usages.parts -> other.eval = usages.eval) := by
  have heval := eval_eq usages hcounts
  constructor
  · rw [heval]
    by_cases hparts : usages.parts = []
    · simp [hparts]
    · simp [hparts]
  constructor
  · intro total htotal
    rw [heval] at htotal
    by_cases hparts : usages.parts = []
    · rw [if_pos hparts] at htotal
      cases htotal
    · rw [if_neg hparts] at htotal
      rw [← Option.some.inj htotal]
      constructor
      · rfl
      constructor
      · rfl
      constructor
      · unfold totalUsage
        cases hany : usages.parts.any fun part => part.inputClasses.isSome with
        | true => simpa using List.any_eq_true.mp hany
        | false => simpa using List.any_eq_false.mp hany
      constructor
      · intro classes hclasses
        unfold totalUsage at hclasses
        cases hany : usages.parts.any fun part => part.inputClasses.isSome with
        | true =>
            simp only [hany, if_true] at hclasses
            rw [← Option.some.inj hclasses]
            exact sumClasses_spec hreported hcounts
        | false =>
            simp only [hany, Bool.false_eq_true, if_false] at hclasses
            cases hclasses
      · intro rates
        exact costOfUsage_totalUsage rates hcounts
  · intro other hperm
    have hother := eval_eq other fun part hpart => hcounts part (hperm.mem_iff.mp hpart)
    rw [hother, heval, totalUsage_perm hperm]
    by_cases hparts : usages.parts = []
    · have hnone : other.parts = [] := List.perm_nil.mp (hparts ▸ hperm)
      rw [if_pos hparts, if_pos hnone]
    · have hsome : other.parts ≠ [] := fun hnil => hparts (List.nil_perm.mp (hnil ▸ hperm))
      rw [if_neg hparts, if_neg hsome]

/-- One part read from its calls, one unsplit and one absent. -/
def mixedUsage : UsageSum :=
  UsageSum.sum (UsageSum.part (some (agentUsageFromHarnessCalls 10 2 (some [⟨4, 3⟩]))))
    (UsageSum.sum (UsageSum.part none) (UsageSum.part (some ⟨5, 1, none⟩)))

theorem sumAgentTokenUsage_law_mixed :
    (exists total, mixedUsage.eval = some total ∧ total.inputTokens = 10 + 5 ∧
      total.outputTokens = 2 + 1 ∧ total.inputClasses.isSome = true ∧
      (forall classes, total.inputClasses = some classes ->
        classes.NonNegative ∧ classes.total = total.inputTokens) ∧
      forall rates, costOfUsage rates total =
        (mixedUsage.parts.map (costOfUsage rates)).sum) ∧
      forall other : UsageSum, other.parts.Perm mixedUsage.parts -> other.eval = mixedUsage.eval := by
  have hparts : mixedUsage.parts =
      [agentUsageFromHarnessCalls 10 2 (some [⟨4, 3⟩]), ⟨5, 1, none⟩] := rfl
  have hlaw := sumAgentTokenUsage_law mixedUsage
    (by
      intro part hpart
      rw [hparts] at hpart
      rcases List.mem_cons.mp hpart with heq | hpart
      · rw [heq]
        exact Reported.harness 10 2 _
      · rw [List.mem_singleton.mp hpart]
        exact Reported.unsplit 5 1 (by norm_num))
    (by
      intro part hpart
      rw [hparts] at hpart
      rcases List.mem_cons.mp hpart with heq | hpart
      · rw [heq]
        show (0 : Rat) ≤ 10
        norm_num
      · rw [List.mem_singleton.mp hpart]
        norm_num)
  rcases hlaw with ⟨hnone, hsome, horder⟩
  refine ⟨?_, horder⟩
  cases htotal : mixedUsage.eval with
  | none => exact absurd (hnone.mp htotal) (by rw [hparts]; exact List.cons_ne_nil _ _)
  | some total =>
      rcases hsome total htotal with ⟨hinput, houtput, hsplit, hclasses, hcost⟩
      rw [hparts] at hinput houtput hsplit
      refine ⟨total, rfl, ?_, ?_, ?_, hclasses, hcost⟩
      · rw [hinput]
        norm_num [agentUsageFromHarnessCalls]
      · rw [houtput]
        norm_num [agentUsageFromHarnessCalls]
      · exact hsplit.mpr ⟨_, List.mem_cons_self, rfl⟩

/-- A total below zero is not what its clamped classes sum to. -/
theorem not_sumAgentTokenUsage_law :
    ¬ forall usages : UsageSum, (forall part, part ∈ usages.parts -> Reported part) ->
      forall total, usages.eval = some total ->
        forall classes, total.inputClasses = some classes ->
          classes.total = total.inputTokens := by
  intro h
  have hone := h (UsageSum.part (some (agentUsageFromHarnessCalls (-5) 0 (some [noShares]))))
    (by
      intro part hpart
      rw [List.mem_singleton.mp hpart]
      exact Reported.harness (-5) 0 _)
    _ rfl _ rfl
  have htotal := (partitionInputTokens_spec (-5) noShares).right
  have hshares : ([noShares].foldl
      (fun shares call => CacheShares.mk (shares.cacheReadTokens + call.cacheReadTokens)
        (shares.cacheWriteTokens + call.cacheWriteTokens)) noShares) = noShares := by
    simp [noShares]
  rw [hshares, htotal] at hone
  norm_num [agentUsageFromHarnessCalls] at hone

end Spend
end CatFactory
