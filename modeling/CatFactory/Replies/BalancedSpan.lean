import CatFactory.Foundation.JsonRoundTrip
import CatFactory.Replies.LlmOutput

/-!
# The span of a written value

The scanner counts one kind of bracket and skips string literals.  Over the text of
a JSON value it comes back to the depth it had, so the span that starts at a
written object or array is exactly that text.
-/

namespace CatFactory
namespace Replies

open Foundation

variable {opening : Nat} {num : Type}

/-!
## Steps of the scan
-/

def IsOpening (opening : Nat) : Prop :=
  opening = Json.leftBracket ∨ opening = Json.leftBrace

/-- A unit outside strings that the scan does not look at. -/
structure Uncounted (opening u : Nat) : Prop where
  noQuote : u ≠ Json.quote
  noOpening : u ≠ opening
  noClosing : u ≠ closing opening

section Steps

variable {opening depth u : Nat} {rest : List Nat}

theorem balancedFrom_uncounted (h : Uncounted opening u) :
    balancedFrom opening depth false false (u :: rest) =
      (balancedFrom opening depth false false rest).map (u :: ·) := by
  rw [balancedFrom, if_neg h.noQuote, if_neg h.noOpening, if_neg h.noClosing]

theorem balancedFrom_quote (opening depth : Nat) (rest : List Nat) :
    balancedFrom opening depth false false (Json.quote :: rest) =
      (balancedFrom opening depth true false rest).map (Json.quote :: ·) := by
  rw [balancedFrom, if_pos rfl]

theorem opening_ne_quote (h : IsOpening opening) : opening ≠ Json.quote := by
  cases h with
  | inl h => rw [h]; decide
  | inr h => rw [h]; decide

theorem closing_ne (h : IsOpening opening) :
    closing opening ≠ Json.quote ∧ closing opening ≠ opening := by
  cases h with
  | inl h => rw [h]; decide
  | inr h => rw [h]; decide

theorem balancedFrom_opening (h : IsOpening opening) :
    balancedFrom opening depth false false (opening :: rest) =
      (balancedFrom opening (depth + 1) false false rest).map (opening :: ·) := by
  rw [balancedFrom, if_neg (opening_ne_quote h), if_pos rfl]

theorem balancedFrom_closing (h : IsOpening opening) :
    balancedFrom opening (depth + 1) false false (closing opening :: rest) =
      if depth = 0 then some [closing opening]
      else (balancedFrom opening depth false false rest).map (closing opening :: ·) := by
  rw [balancedFrom, if_neg (closing_ne h).1, if_neg (closing_ne h).2, if_pos rfl,
    Nat.add_sub_cancel]

/-- A unit of a string literal that neither ends nor escapes. -/
theorem balancedFrom_inside (hquote : u ≠ Json.quote) (hescape : u ≠ Json.escape) :
    balancedFrom opening depth true false (u :: rest) =
      (balancedFrom opening depth true false rest).map (u :: ·) := by
  rw [balancedFrom, decide_eq_true hquote, decide_eq_false hescape]

theorem balancedFrom_escape (opening depth letter : Nat) (rest : List Nat) :
    balancedFrom opening depth true false (Json.escape :: letter :: rest) =
      (balancedFrom opening depth true false rest).map ([Json.escape, letter] ++ ·) := by
  rw [balancedFrom, decide_eq_true (by decide : Json.escape ≠ Json.quote), decide_eq_true rfl,
    balancedFrom, Option.map_map]
  rfl

end Steps

/-!
## String literals
-/

theorem hexDigit_plain {d : Nat} (h : d < 16) :
    Json.hexDigit d ≠ Json.quote ∧ Json.hexDigit d ≠ Json.escape := by
  have hall : forall d : Fin 16,
      Json.hexDigit d ≠ Json.quote ∧ Json.hexDigit d ≠ Json.escape := by decide
  exact hall ⟨d, h⟩

theorem balancedFrom_unicode (opening depth : Nat) {u : Nat} (hu : u < 0x10000)
    (rest : List Nat) :
    balancedFrom opening depth true false (Json.unicodeEscape u ++ rest) =
      (balancedFrom opening depth true false rest).map (Json.unicodeEscape u ++ ·) := by
  have hdigit : forall d, d < 16 -> forall rest,
      balancedFrom opening depth true false (Json.hexDigit d :: rest) =
        (balancedFrom opening depth true false rest).map (Json.hexDigit d :: ·) :=
    fun d hd rest => balancedFrom_inside (hexDigit_plain hd).1 (hexDigit_plain hd).2
  have hmod : forall n, n % 16 < 16 := fun n => Nat.mod_lt n (by decide)
  have hhigh : u / 0x1000 < 16 := Nat.div_lt_of_lt_mul hu
  show balancedFrom opening depth true false (Json.escape :: unitOf 'u' ::
    Json.hexDigit (u / 0x1000) :: Json.hexDigit (u / 0x100 % 16) ::
    Json.hexDigit (u / 0x10 % 16) :: Json.hexDigit (u % 16) :: rest) = _
  rw [balancedFrom_escape, hdigit _ hhigh, hdigit _ (hmod _), hdigit _ (hmod _),
    hdigit _ (hmod _), Option.map_map, Option.map_map, Option.map_map, Option.map_map]
  rfl

theorem balancedFrom_quoteUnit (opening depth u : Nat) (rest : List Nat) :
    balancedFrom opening depth true false (Json.quoteUnit u ++ rest) =
      (balancedFrom opening depth true false rest).map (Json.quoteUnit u ++ ·) := by
  rw [Json.quoteUnit]
  cases hshort : Json.shortEscapes.lookup u with
  | some letter => exact balancedFrom_escape opening depth letter rest
  | none =>
      simp only
      split
      · next hescaped =>
          apply balancedFrom_unicode
          simp only [Json.isHighSurrogate, Json.isLowSurrogate, Bool.or_eq_true,
            Bool.and_eq_true, decide_eq_true_eq] at hescaped
          omega
      · apply balancedFrom_inside
        · rintro rfl
          cases hshort
        · rintro rfl
          cases hshort

theorem balancedFrom_surrogate (opening depth : Nat) {u : Nat}
    (h : Json.isLowSurrogate u = true ∨ Json.isHighSurrogate u = true) (rest : List Nat) :
    balancedFrom opening depth true false (u :: rest) =
      (balancedFrom opening depth true false rest).map (u :: ·) := by
  simp only [Json.isLowSurrogate, Json.isHighSurrogate, Bool.and_eq_true, decide_eq_true_eq] at h
  apply balancedFrom_inside
  · simp only [Json.quote]
    omega
  · simp only [Json.escape]
    omega

theorem balancedFrom_quoteFrom (opening depth : Nat) {paired : Bool} {text : List Nat}
    (hpaired : paired = true -> text.head?.any Json.isLowSurrogate = true) (rest : List Nat) :
    balancedFrom opening depth true false (Json.quoteFrom paired text ++ rest) =
      (balancedFrom opening depth true false rest).map (Json.quoteFrom paired text ++ ·) := by
  induction text generalizing paired with
  | nil => cases paired <;> exact Option.map_id'.symm
  | cons u text ih =>
      have hfalse : false = true -> text.head?.any Json.isLowSurrogate = true := by
        intro h
        cases h
      cases paired with
      | true =>
          rw [Json.quoteFrom, List.cons_append, balancedFrom_surrogate _ _ (Or.inl (hpaired rfl)),
            ih hfalse, Option.map_map]
          rfl
      | false =>
          rw [Json.quoteFrom]
          split
          · next hpair =>
              rw [Bool.and_eq_true] at hpair
              rw [List.cons_append, balancedFrom_surrogate _ _ (Or.inr hpair.1),
                ih (fun _ => hpair.2), Option.map_map]
              rfl
          · rw [List.append_assoc, balancedFrom_quoteUnit, ih hfalse, Option.map_map]
            congr 1
            funext span
            simp only [Function.comp_apply, List.append_assoc]

/-!
## Values
-/

/-- The scan passes over the text and is back at its depth. -/
def Passes (opening : Nat) (text : List Nat) : Prop :=
  forall depth rest, 0 < depth ->
    balancedFrom opening depth false false (text ++ rest) =
      (balancedFrom opening depth false false rest).map (text ++ ·)

theorem passes_nil (opening : Nat) : Passes opening [] := by
  intro depth rest _
  exact Option.map_id'.symm

theorem Passes.append {text tail : List Nat} (h : Passes opening text)
    (htail : Passes opening tail) : Passes opening (text ++ tail) := by
  intro depth rest hdepth
  rw [List.append_assoc, h depth _ hdepth, htail depth rest hdepth, Option.map_map]
  congr 1
  funext span
  simp only [Function.comp_apply, List.append_assoc]

theorem Passes.cons {opening u : Nat} {tail : List Nat} (h : Uncounted opening u)
    (htail : Passes opening tail) : Passes opening (u :: tail) := by
  intro depth rest hdepth
  rw [List.cons_append, balancedFrom_uncounted h, htail depth rest hdepth, Option.map_map]
  rfl

theorem passes_quoted (opening : Nat) (text : List Nat) : Passes opening (Json.quoted text) := by
  intro depth rest _
  show balancedFrom opening depth false false
    (Json.quote :: (Json.quoteFrom false text ++ [Json.quote] ++ rest)) = _
  rw [balancedFrom_quote, List.append_assoc,
    balancedFrom_quoteFrom opening depth (fun hfalse => by cases hfalse)]
  show ((balancedFrom opening depth true false (Json.quote :: rest)).map _).map _ = _
  rw [balancedFrom, decide_eq_false (by decide), decide_eq_false (by decide), Option.map_map,
    Option.map_map]
  congr 1
  funext span
  simp only [Function.comp_apply, Json.quoted, List.cons_append, List.append_assoc,
    List.nil_append]

theorem uncounted_lexeme {opening u : Nat} (h : IsOpening opening)
    (hu : Json.isLexemeUnit u = true) : Uncounted opening u := by
  constructor
  · rintro rfl
    exact absurd hu (by decide)
  · rintro rfl
    cases h with
    | inl h => rw [h] at hu; exact absurd hu (by decide)
    | inr h => rw [h] at hu; exact absurd hu (by decide)
  · rintro rfl
    cases h with
    | inl h => rw [h] at hu; exact absurd hu (by decide)
    | inr h => rw [h] at hu; exact absurd hu (by decide)

theorem passes_word (h : IsOpening opening) {word : List Nat}
    (hword : forall u, u ∈ word -> Json.isLexemeUnit u = true) : Passes opening word := by
  induction word with
  | nil => exact passes_nil opening
  | cons u word ih =>
      exact Passes.cons (uncounted_lexeme h (hword u List.mem_cons_self))
        (ih fun v hv => hword v (List.mem_cons_of_mem u hv))

/-- A bracketed text passes for either kind of bracket. -/
theorem Passes.bracketed {opening bracket : Nat} (h : IsOpening opening)
    (hbracket : IsOpening bracket) {text : List Nat} (htext : Passes opening text) :
    Passes opening (bracket :: (text ++ [closing bracket])) := by
  by_cases hsame : bracket = opening
  · rw [hsame]
    intro depth rest hdepth
    rcases Nat.exists_eq_succ_of_ne_zero (Nat.ne_of_gt hdepth) with ⟨k, rfl⟩
    rw [List.cons_append, balancedFrom_opening h, List.append_assoc,
      htext _ _ (Nat.succ_pos _), List.singleton_append, balancedFrom_closing h,
      if_neg (Nat.succ_ne_zero k), Option.map_map, Option.map_map]
    congr 1
    funext span
    simp only [Function.comp_apply, List.cons_append, List.append_assoc, List.nil_append]
  · have hother : Uncounted opening bracket ∧ Uncounted opening (closing bracket) := by
      cases h with
      | inl h =>
          cases hbracket with
          | inl hb => exact absurd (hb.trans h.symm) hsame
          | inr hb =>
              rw [h, hb]
              exact ⟨⟨by decide, by decide, by decide⟩, ⟨by decide, by decide, by decide⟩⟩
      | inr h =>
          cases hbracket with
          | inl hb =>
              rw [h, hb]
              exact ⟨⟨by decide, by decide, by decide⟩, ⟨by decide, by decide, by decide⟩⟩
          | inr hb => exact absurd (hb.trans h.symm) hsame
    exact Passes.cons hother.1 (htext.append (Passes.cons hother.2 (passes_nil opening)))

theorem uncounted_mark {opening u : Nat} (h : IsOpening opening)
    (hu : u = Json.comma ∨ u = Json.colon) : Uncounted opening u := by
  cases h with
  | inl h =>
      rw [h]
      cases hu with
      | inl hu => rw [hu]; exact ⟨by decide, by decide, by decide⟩
      | inr hu => rw [hu]; exact ⟨by decide, by decide, by decide⟩
  | inr h =>
      rw [h]
      cases hu with
      | inl hu => rw [hu]; exact ⟨by decide, by decide, by decide⟩
      | inr hu => rw [hu]; exact ⟨by decide, by decide, by decide⟩

mutual

theorem passes_stringify (h : IsOpening opening) (numbers : Json.NumberFormat num) (x : Json num) :
    Passes opening (Json.stringify numbers x) := by
  have hname : forall name : String, (stringUnits name).all Json.isLexemeUnit = true ->
      Passes opening (stringUnits name) :=
    fun name hall => passes_word h (List.all_eq_true.mp hall)
  cases x with
  | null => exact hname "null" (by decide +kernel)
  | bool value =>
      cases value with
      | true => exact hname "true" (by decide +kernel)
      | false => exact hname "false" (by decide +kernel)
  | number n => exact passes_word h (Json.isLexemeUnit_of_number (numbers.lexeme n)).2
  | string text => exact passes_quoted opening text
  | array items => exact Passes.bracketed h (Or.inl rfl) (passes_items h numbers items)
  | object fields => exact Passes.bracketed h (Or.inr rfl) (passes_fields h numbers fields)

theorem passes_items (h : IsOpening opening) (numbers : Json.NumberFormat num)
    (items : List (Json num)) : Passes opening (Json.stringifyItems numbers items) := by
  cases items with
  | nil => exact passes_nil opening
  | cons item items =>
      apply (passes_stringify h numbers item).append
      split
      · exact passes_nil opening
      · exact Passes.cons (uncounted_mark h (Or.inl rfl)) (passes_items h numbers items)

theorem passes_fields (h : IsOpening opening) (numbers : Json.NumberFormat num)
    (fields : List (List Nat × Json num)) :
    Passes opening (Json.stringifyFields numbers fields) := by
  cases fields with
  | nil => exact passes_nil opening
  | cons field fields =>
      rcases field with ⟨key, value⟩
      apply (passes_quoted opening key).append
      apply Passes.cons (uncounted_mark h (Or.inr rfl))
      apply (passes_stringify h numbers value).append
      split
      · exact passes_nil opening
      · exact Passes.cons (uncounted_mark h (Or.inl rfl)) (passes_fields h numbers fields)

end

/-- An object or an array. -/
def IsContainer : Json num -> Prop
  | .array _ => True
  | .object _ => True
  | _ => False

/-- A written container is bracketed, and its brackets balance. -/
theorem stringify_container (numbers : Json.NumberFormat num) {x : Json num}
    (hx : IsContainer x) :
    exists opening inner, IsOpening opening ∧ Passes opening inner ∧
      Json.stringify numbers x = opening :: (inner ++ [closing opening]) := by
  cases x with
  | array items =>
      exact ⟨_, _, Or.inl rfl, passes_items (Or.inl rfl) numbers items, rfl⟩
  | object fields =>
      exact ⟨_, _, Or.inr rfl, passes_fields (Or.inr rfl) numbers fields, rfl⟩
  | null => cases hx
  | bool value => cases hx
  | number n => cases hx
  | string text => cases hx

theorem balancedFrom_container (h : IsOpening opening) {inner : List Nat}
    (hinner : Passes opening inner) (rest : List Nat) :
    balancedFrom opening 0 false false (opening :: (inner ++ [closing opening]) ++ rest) =
      some (opening :: (inner ++ [closing opening])) := by
  rw [List.cons_append, balancedFrom_opening h, List.append_assoc, hinner _ _ (Nat.succ_pos 0),
    List.singleton_append, balancedFrom_closing h, if_pos rfl]
  rfl

end Replies
end CatFactory
