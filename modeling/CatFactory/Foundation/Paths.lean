import Mathlib.Data.List.Basic
import Mathlib.Data.List.TakeWhile

/-!
# Paths

A path is a word in which a separator marks off the segments.  A root stands
over itself and over the words that go on from it with a separator, and the
first segment of a word is what stands before its first separator.
-/

namespace CatFactory
namespace Foundation

section Paths

variable {char : Type} [DecidableEq char] {sep : char}

def under (sep : char) (root path : List char) : Bool :=
  path = root || (root ++ [sep]).isPrefixOf path

theorem under_iff {root path : List char} :
    under sep root path = true <-> path = root ∨ exists rest, path = root ++ sep :: rest := by
  unfold under
  rw [Bool.or_eq_true, decide_eq_true_iff, List.isPrefixOf_iff_prefix]
  apply or_congr Iff.rfl
  constructor
  · rintro ⟨rest, hrest⟩
    exact ⟨rest, by rw [← hrest, List.append_assoc, List.singleton_append]⟩
  · rintro ⟨rest, hrest⟩
    exact ⟨rest, by rw [hrest, List.append_assoc, List.singleton_append]⟩

theorem under_refl (path : List char) : under sep path path = true :=
  under_iff.mpr (Or.inl rfl)

/-- The segment before the first separator, none when there is no separator. -/
def firstSegment (sep : char) (path : List char) : Option (List char) :=
  if sep ∈ path then some (path.takeWhile (· ≠ sep)) else none

theorem firstSegment_eq_some_iff {path child : List char} :
    firstSegment sep path = some child <->
      sep ∉ child ∧ exists rest, path = child ++ sep :: rest := by
  unfold firstSegment
  constructor
  · intro h
    split at h
    · rename_i hmem
      cases h
      constructor
      · intro hin
        simpa using List.mem_takeWhile_imp hin
      · have hdrop : path.dropWhile (· ≠ sep) ≠ [] := by
          intro hnil
          rw [List.dropWhile_eq_nil_iff] at hnil
          simpa using hnil sep hmem
        rcases List.exists_cons_of_ne_nil hdrop with ⟨c, rest, hcons⟩
        have hc : c = sep := by
          have hhead := List.head_dropWhile_not (· ≠ sep) hdrop
          simp only [hcons, List.head_cons] at hhead
          simpa using hhead
        have hsplit := @List.takeWhile_append_dropWhile char (· ≠ sep) path
        rw [hcons, hc] at hsplit
        exact ⟨rest, hsplit.symm⟩
    · cases h
  · rintro ⟨hchild, rest, rfl⟩
    have hmem : sep ∈ child ++ sep :: rest := by simp
    rw [if_pos hmem, List.takeWhile_append_of_pos]
    · simp
    · intro c hc
      simpa using fun h : c = sep => hchild (h ▸ hc)

end Paths

end Foundation
end CatFactory
