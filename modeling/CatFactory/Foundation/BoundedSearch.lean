import Mathlib.Logic.Function.Iterate
import Mathlib.Data.Finset.Card
import Mathlib.Data.Finset.Range
import Mathlib.Data.Finset.Image

/-!
# Bounded searches

A loop that steps from a start until a test holds, at most a given number of
times.  Where the test holds within the bound, the loop ends at the first place
it does.
-/

namespace CatFactory
namespace Foundation

/-- Step until the test holds, and where the bound runs out stay there. -/
def stepUntil {place : Type} (hit : place -> Bool) (next : place -> place) :
    Nat -> place -> place
  | 0, a => a
  | bound + 1, a => if hit a then a else stepUntil hit next bound (next a)

/-- The loop ends at the first hit. -/
theorem stepUntil_first {place : Type} {hit : place -> Bool} {next : place -> place}
    {bound : Nat} {a : place} (h : exists k, k < bound ∧ hit (next^[k] a) = true) :
    exists k, k < bound ∧ stepUntil hit next bound a = next^[k] a ∧ hit (next^[k] a) = true ∧
      forall j, j < k -> hit (next^[j] a) = false := by
  induction bound generalizing a with
  | zero =>
      rcases h with ⟨k, hk, _⟩
      exact absurd hk (Nat.not_lt_zero k)
  | succ bound ih =>
      cases ha : hit a with
      | true =>
          refine ⟨0, Nat.succ_pos bound, if_pos ha, ha, ?_⟩
          intro j hj
          exact absurd hj (Nat.not_lt_zero j)
      | false =>
          have hlater : exists k, k < bound ∧ hit (next^[k] (next a)) = true := by
            rcases h with ⟨k, hk, hhit⟩
            cases k with
            | zero => exact absurd (ha.symm.trans hhit) Bool.false_ne_true
            | succ k => exact ⟨k, Nat.lt_of_succ_lt_succ hk, hhit⟩
          rcases ih hlater with ⟨k, hk, hresult, hhit, hfirst⟩
          refine ⟨k + 1, Nat.succ_lt_succ hk, ?_, hhit, ?_⟩
          · rw [stepUntil, if_neg (ne_true_of_eq_false ha)]
            exact hresult
          · intro j hj
            cases j with
            | zero => exact ha
            | succ j => exact hfirst j (Nat.lt_of_succ_lt_succ hj)

/-- Among more windows of one width than there are marks, one window has no mark. -/
theorem exists_unmarked_window {width count : Nat} (hwidth : 0 < width) (marks : Finset Int)
    (hcount : marks.card < count) (start : Int) :
    exists window : Nat, window < count ∧
      forall mark, mark ∈ marks -> ¬ (start + window * width ≤ mark ∧
        mark < start + (window + 1) * width) := by
  by_contra hmarked
  have hcovered : Finset.range count ⊆
      marks.image (fun mark => ((mark - start) / (width : Int)).toNat) := by
    intro window hwindow
    by_contra hmissing
    apply hmarked
    refine ⟨window, Finset.mem_range.mp hwindow, ?_⟩
    intro mark hmark hinside
    apply hmissing
    apply Finset.mem_image.mpr
    refine ⟨mark, hmark, ?_⟩
    have hquotient : (mark - start) / (width : Int) = window := by
      have hpositive : (0 : Int) < width := Int.natCast_pos.mpr hwidth
      apply Int.le_antisymm
      · apply Int.lt_add_one_iff.mp
        apply (Int.ediv_lt_iff_lt_mul hpositive).mpr
        exact Int.sub_left_lt_of_lt_add hinside.right
      · apply (Int.le_ediv_iff_mul_le hpositive).mpr
        exact Int.le_sub_left_of_add_le hinside.left
    rw [hquotient]
    exact Int.toNat_natCast window
  have hcards := (Finset.card_le_card hcovered).trans Finset.card_image_le
  rw [Finset.card_range] at hcards
  exact absurd hcount (Nat.not_lt.mpr hcards)

end Foundation
end CatFactory
