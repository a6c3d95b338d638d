import CatFactory.Foundation.RegexLanguage

/-!
# Preferred matches, part by part

Where each part of a pattern prefers the text that stands for it, the pattern
prefers the whole.
-/

namespace CatFactory
namespace Foundation

variable {unit : Type}

section Parts

variable {first second r : Regex unit} {read rest : List unit}

theorem matchHere_seq_of {x y : Match unit} (hx : first.matchHere read rest = some x)
    (hy : second.matchHere (x.text.reverse ++ read) x.rest = some y) :
    (Regex.seq first second).matchHere read rest = some (x.before y) := by
  rw [Regex.matchHere] at hx
  rw [Regex.matchHere, Regex.run]
  cases hrun : first.run read rest with
  | nil =>
      rw [hrun] at hx
      cases hx
  | cons m ms =>
      rw [hrun] at hx
      cases hx
      rw [List.flatMap_cons, List.head?_append, List.head?_map]
      change (Option.map _ (second.matchHere (x.text.reverse ++ read) x.rest)).or _ = _
      rw [hy]
      rfl

theorem matchHere_lit [DecidableEq unit] (text read rest : List unit) :
    (Regex.lit text).matchHere read (text ++ rest) = some ⟨text, rest, []⟩ := by
  induction text generalizing read with
  | nil => rfl
  | cons u text ih =>
      have hone : (Regex.one (· = u)).matchHere read (u :: (text ++ rest)) =
          some ⟨[u], text ++ rest, []⟩ := by
        simp [Regex.matchHere, Regex.run]
      exact matchHere_seq_of hone (ih _)

theorem matchHere_lit_none [DecidableEq unit] {u : unit} {text : List unit}
    (h : rest.head? ≠ some u) : (Regex.lit (u :: text)).matchHere read rest = none := by
  apply matchHere_seq_none
  cases rest with
  | nil => rfl
  | cons v rest =>
      have hne : v ≠ u := by
        intro heq
        apply h
        rw [heq]
        rfl
      simp [Regex.matchHere, Regex.run, hne]

/-- A greedy run takes a text of its class up to a unit that is not of the class. -/
theorem matchHere_many {accepts : unit -> Bool} {least : Nat} {text : List unit}
    (htext : forall u, u ∈ text -> accepts u = true) (hleast : least ≤ text.length)
    (hnext : rest.head?.any accepts = false) :
    (Regex.many accepts least none).matchHere read (text ++ rest) = some ⟨text, rest, []⟩ := by
  have htake : rest.takeWhile accepts = [] := by
    cases rest with
    | nil => rfl
    | cons u rest =>
        rw [List.takeWhile_cons_of_neg]
        simpa using hnext
  have hlength : runLength accepts none (text ++ rest) = text.length := by
    rw [runLength, List.takeWhile_append_of_pos htext, htake, List.append_nil]
  rw [Regex.matchHere, Regex.run, hlength, List.range_succ, List.reverse_append,
    List.reverse_singleton, List.singleton_append, List.filter_cons,
    if_pos (decide_eq_true hleast), List.map_cons, taking_append]
  rfl

theorem matchHere_group {index : Nat} {m : Match unit} (h : r.matchHere read rest = some m) :
    (Regex.group index r).matchHere read rest =
      some { m with groups := (index, m.text) :: m.groups } := by
  rw [Regex.matchHere] at h
  rw [Regex.matchHere, Regex.run, List.head?_map, h]
  rfl

theorem matchHere_optional {m : Match unit} (h : r.matchHere read rest = some m) :
    (Regex.optional r).matchHere read rest = some m := by
  rw [Regex.matchHere] at h
  rw [Regex.optional, Regex.matchHere, Regex.run, List.head?_append, h]
  rfl

theorem matchHere_optional_none (h : r.matchHere read rest = none) :
    (Regex.optional r).matchHere read rest = some ⟨[], rest, []⟩ := by
  rw [Regex.matchHere] at h
  rw [Regex.optional, Regex.matchHere, Regex.run, List.head?_append, h]
  rfl

end Parts

/-!
## Anchored patterns
-/

section Anchored

variable {r : Regex unit} {text : List unit}

theorem find_start {m : Match unit} (h : r.matchHere [] text = some m) :
    (Regex.seq Regex.start r).find [] text = some ([], ⟨m.text, m.rest, m.groups⟩) := by
  have hhere : (Regex.seq Regex.start r).matchHere [] text = some ⟨m.text, m.rest, m.groups⟩ :=
    @matchHere_seq_of _ _ _ [] text ⟨[], text, []⟩ m rfl h
  cases text with
  | nil =>
      rw [Regex.find, hhere]
      rfl
  | cons u text => rw [Regex.find, hhere]

/-- An anchored pattern is only looked for at the start. -/
theorem find_start_none (h : r.matchHere [] text = none) :
    (Regex.seq Regex.start r).find [] text = none := by
  apply find_of_unmatched
  intro front back hsplit
  cases front with
  | nil =>
      rw [List.nil_append] at hsplit
      rw [matchHere_eq_none_iff, hsplit] at h
      rw [Regex.run, Regex.start, Regex.run]
      show (([(⟨[], back, []⟩ : Match unit)]).flatMap fun m =>
        (r.run (m.text.reverse ++ []) m.rest).map m.before) = []
      rw [List.flatMap_singleton]
      show (r.run [] back).map _ = []
      rw [h]
      rfl
  | cons u front =>
      rw [Regex.run, Regex.start, Regex.run]
      have hread : (u :: front).reverse.head?.isNone = false := by
        cases hrev : (u :: front).reverse with
        | nil => exact absurd hrev (by simp)
        | cons v rest => rfl
      rw [hread]
      rfl

end Anchored

end Foundation
end CatFactory
