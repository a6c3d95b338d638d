import Mathlib.Data.List.Basic

/-!
# Framing a stream

A separator cuts a text into terminated records and an unterminated rest.  The
two are followed along a stream that arrives piece by piece.
-/

namespace CatFactory
namespace Foundation

section Framing

variable {unit : Type} [BEq unit] [LawfulBEq unit] {sep : unit}

/-- The records of a text that its separator ends. -/
def terminated (sep : unit) (text : List unit) : List (List unit) :=
  (text.splitOn sep).dropLast

/-- What follows the last separator of a text. -/
def unterminated (sep : unit) (text : List unit) : List unit :=
  (text.splitOn sep).getLastD []

omit [LawfulBEq unit] in
theorem terminated_append_unterminated (sep : unit) (text : List unit) :
    terminated sep text ++ [unterminated sep text] = text.splitOn sep := by
  have hne := List.splitOn_ne_nil sep text
  rw [terminated, unterminated, List.getLastD_eq_getLast?, List.getLast?_eq_getLast_of_ne_nil hne]
  exact List.dropLast_append_getLast hne

theorem terminated_of_not_mem {text : List unit} (h : sep ∉ text) : terminated sep text = [] := by
  rw [terminated, List.splitOn_eq_singleton h]
  rfl

theorem unterminated_of_not_mem {text : List unit} (h : sep ∉ text) :
    unterminated sep text = text := by
  rw [unterminated, List.splitOn_eq_singleton h]
  rfl

/-- A separator ends the record that was open before it. -/
theorem terminated_append_sep (text rest : List unit) :
    terminated sep (text ++ sep :: rest) =
      terminated sep text ++ unterminated sep text :: terminated sep rest := by
  have hsplit := List.splitOn_append_cons_self (a := sep) text rest
  rw [← terminated_append_unterminated sep text,
    ← terminated_append_unterminated sep rest] at hsplit
  rw [terminated, hsplit, ← List.append_assoc, List.dropLast_concat]
  simp

theorem unterminated_append_sep (text rest : List unit) :
    unterminated sep (text ++ sep :: rest) = unterminated sep rest := by
  have hsplit := List.splitOn_append_cons_self (a := sep) text rest
  rw [← terminated_append_unterminated sep rest, ← List.append_assoc] at hsplit
  rw [unterminated, hsplit]
  simp

/-- A text without a separator adds to the open record alone. -/
theorem framed_append_of_not_mem (text : List unit) {rest : List unit} (h : sep ∉ rest) :
    terminated sep (text ++ rest) = terminated sep text ∧
      unterminated sep (text ++ rest) = unterminated sep text ++ rest := by
  induction hlength : text.length using Nat.strongRecOn generalizing text with
  | ind length ih =>
      by_cases hmem : sep ∈ text
      · rcases List.append_of_mem hmem with ⟨first, later, htext⟩
        have hshorter : later.length < length := by
          rw [← hlength, htext]
          simp
          omega
        have hlater := ih later.length hshorter later rfl
        rw [htext, List.append_assoc, List.cons_append]
        rw [terminated_append_sep, terminated_append_sep, unterminated_append_sep,
          unterminated_append_sep, hlater.left, hlater.right]
        exact ⟨rfl, rfl⟩
      · have hboth : sep ∉ text ++ rest := by
          simp [hmem, h]
        rw [terminated_of_not_mem hboth, terminated_of_not_mem hmem,
          unterminated_of_not_mem hboth, unterminated_of_not_mem hmem]
        exact ⟨rfl, rfl⟩

end Framing

end Foundation
end CatFactory
