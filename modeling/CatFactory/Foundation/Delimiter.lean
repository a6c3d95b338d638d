import Mathlib.Data.List.Basic
import Mathlib.Data.List.Infix

/-!
# Delimited regions of a text

The search for the first occurrence of a word, and regions of a text between
an opening and a closing word.  The words are tags: each begins with a symbol
and ends with a symbol that it holds nowhere else, so no tag can begin inside
another one.
-/

namespace CatFactory
namespace Foundation

section Delimiter

variable {alpha : Type}

/-!
## The first occurrence
-/

/-- A text splits in one way only at the first of a mark. -/
theorem append_mark_cancel {mark : alpha} {before before' after after' : List alpha}
    (hb : mark ∉ before) (hb' : mark ∉ before')
    (h : before ++ mark :: after = before' ++ mark :: after') :
    before = before' ∧ after = after' := by
  induction before generalizing before' with
  | nil =>
      cases before' with
      | nil => exact ⟨rfl, (List.cons.inj h).right⟩
      | cons c rest =>
          have hmark := (List.cons.inj h).left
          exact absurd (hmark ▸ List.mem_cons_self) hb'
  | cons c rest ih =>
      cases before' with
      | nil =>
          have hmark := (List.cons.inj h).left
          exact absurd (hmark ▸ List.mem_cons_self) hb
      | cons c' rest' =>
          have hparts := List.cons.inj h
          have hrest := ih (fun hin => hb (List.mem_cons_of_mem c hin))
            (fun hin => hb' (List.mem_cons_of_mem c' hin)) hparts.right
          rw [hparts.left, hrest.left]
          exact ⟨rfl, hrest.right⟩

section Search

variable [DecidableEq alpha]

def indexOf (word : List alpha) : List alpha -> Option Nat
  | [] => if word = [] then some 0 else none
  | c :: rest =>
      if word <+: c :: rest then some 0
      else (indexOf word rest).map Nat.succ

/-- The characters from one index up to another. -/
def slice (text : List alpha) (start stop : Nat) : List alpha :=
  (text.drop start).take (stop - start)

theorem indexOf_eq_none {word text : List alpha} :
    indexOf word text = none <-> ¬ word <:+: text := by
  induction text with
  | nil => simp [indexOf]
  | cons c rest ih =>
      unfold indexOf
      rw [List.infix_cons_iff]
      split
      · simp [*]
      · simp [*]

theorem indexOf_isSome {word text : List alpha} (h : word <:+: text) :
    exists n, indexOf word text = some n := by
  cases hn : indexOf word text with
  | none => exact absurd h (indexOf_eq_none.mp hn)
  | some n => exact ⟨n, rfl⟩

/-- What stands in front of the first occurrence holds no occurrence. -/
theorem eq_append_of_indexOf {word text : List alpha} {n : Nat} (hne : word ≠ [])
    (h : indexOf word text = some n) :
    exists before after, text = before ++ word ++ after ∧ before.length = n ∧
      ¬ word <:+: before := by
  induction text generalizing n with
  | nil => simp [indexOf, hne] at h
  | cons c rest ih =>
      unfold indexOf at h
      split at h
      · rename_i hinit
        rcases hinit with ⟨after, hafter⟩
        exact ⟨[], after, by simpa using hafter.symm, by simpa using h, by simpa using hne⟩
      · rename_i hinit
        rcases Option.map_eq_some_iff.mp h with ⟨k, hk, rfl⟩
        rcases ih hk with ⟨before, after, htext, hlength, hbefore⟩
        exists c :: before, after
        constructor
        · simp [htext]
        constructor
        · simp [hlength]
        · intro hinfix
          cases List.infix_cons_iff.mp hinfix with
          | inl hhead =>
              apply hinit
              rw [htext, List.append_assoc, ← List.cons_append]
              exact hhead.trans (List.prefix_append _ _)
          | inr htail => exact hbefore htail

end Search

/-!
## Words that do not straddle a joint
-/

/-- No occurrence of the word lies across the joint of the two texts. -/
def Apart (word left right : List alpha) : Prop :=
  forall u v, u ≠ [] -> v ≠ [] -> word = u ++ v -> u <:+ left -> v <+: right -> False

theorem infix_append_iff_of_apart {word left right : List alpha}
    (h : Apart word left right) :
    word <:+: left ++ right <-> word <:+: left ∨ word <:+: right := by
  rw [List.infix_append_iff_ne_nil]
  constructor
  · rintro (hleft | hright | ⟨u, v, hu, hv, hword, hsuffix, hinit⟩)
    · exact Or.inl hleft
    · exact Or.inr hright
    · exact absurd (h u v hu hv hword hsuffix hinit) id
  · rintro (hleft | hright)
    · exact Or.inl hleft
    · exact Or.inr (Or.inl hright)

theorem Apart.mono {word left right left' right' : List alpha} (h : Apart word left right)
    (hleft : left' <:+ left) (hright : right' <+: right) : Apart word left' right' :=
  fun u v hu hv hword hsuffix hinit =>
    h u v hu hv hword (hsuffix.trans hleft) (hinit.trans hright)

/-- The right text begins with a symbol that the word can only begin with. -/
theorem apart_of_head {word left right : List alpha} {c : alpha}
    (hc : c ∉ word.tail) : Apart word left (c :: right) := by
  intro u v hu hv hword _ hinit
  apply hc
  cases u with
  | nil => exact absurd rfl hu
  | cons a u =>
      cases v with
      | nil => exact absurd rfl hv
      | cons b v =>
          have hb : b = c := (List.cons_prefix_cons.mp hinit).1
          simp [hword, hb]

/-- The left text ends with a symbol that the word can only end with. -/
theorem apart_of_last {word left right : List alpha} {c : alpha}
    (hc : c ∉ word.dropLast) : Apart word (left ++ [c]) right := by
  intro u v hu hv hword hsuffix _
  apply hc
  have hlast : c ∈ u := by
    rcases hsuffix with ⟨w, hw⟩
    have hu' := List.dropLast_concat_getLast hu
    rw [← hu', ← List.append_assoc] at hw
    have := (List.append_inj' hw rfl).2
    simp only [List.cons.injEq, and_true] at this
    rw [← this]
    exact List.getLast_mem hu
  rw [hword, List.dropLast_append_of_ne_nil hv]
  exact List.mem_append.mpr (Or.inl hlast)

/-!
## Tags
-/

/-- A word that has one symbol at its beginning only and one at its end only. -/
structure IsTag (first last : alpha) (word : List alpha) : Prop where
  shape : exists inner, word = first :: (inner ++ [last])
  first_not_mem_tail : first ∉ word.tail
  last_not_mem_dropLast : last ∉ word.dropLast

section Tags

variable {first last : alpha}

theorem IsTag.ne_nil {word : List alpha} (h : IsTag first last word) : word ≠ [] := by
  rcases h.shape with ⟨inner, rfl⟩
  simp

/-- A text in front of a tag keeps its occurrences of a tag apart from it. -/
theorem IsTag.apart_left {word tag left right : List alpha}
    (hword : IsTag first last word) (htag : IsTag first last tag) :
    Apart word left (tag ++ right) := by
  rcases htag.shape with ⟨inner, rfl⟩
  exact apart_of_head hword.first_not_mem_tail

theorem IsTag.apart_right {word tag left right : List alpha}
    (hword : IsTag first last word) (htag : IsTag first last tag) :
    Apart word (left ++ tag) right := by
  rcases htag.shape with ⟨inner, rfl⟩
  have hleft : left ++ first :: (inner ++ [last]) = (left ++ first :: inner) ++ [last] := by
    simp
  rw [hleft]
  exact apart_of_last hword.last_not_mem_dropLast

/-- A tag lies within a tag only as the whole of it. -/
theorem IsTag.infix_eq {word tag : List alpha} (hword : IsTag first last word)
    (htag : IsTag first last tag) (h : word <:+: tag) : word = tag := by
  rcases h with ⟨u, v, huv⟩
  rcases hword.shape with ⟨inner, rfl⟩
  have hu : u = [] := by
    cases u with
    | nil => rfl
    | cons a u =>
        apply absurd _ htag.first_not_mem_tail
        simp [← huv]
  have hv : v = [] := by
    rcases List.eq_nil_or_concat v with hv | ⟨w, a, rfl⟩
    · exact hv
    · apply absurd _ htag.last_not_mem_dropLast
      rw [← huv, List.concat_eq_append, ← List.append_assoc, List.dropLast_concat]
      simp
  simpa [hu, hv] using huv

theorem indexOf_append [DecidableEq alpha] {word before after : List alpha} (hword : IsTag first last word)
    (hbefore : ¬ word <:+: before) :
    indexOf word (before ++ word ++ after) = some before.length := by
  induction before with
  | nil =>
      rcases hword.shape with ⟨inner, rfl⟩
      simp [indexOf]
  | cons c before ih =>
      have htail : ¬ word <:+: before :=
        fun h => hbefore (List.infix_cons_iff.mpr (Or.inr h))
      have hapart : Apart word (c :: before) (word ++ after) := hword.apart_left hword
      have hhead : ¬ word <+: c :: (before ++ word ++ after) := by
        rintro ⟨w, hw⟩
        rw [List.append_assoc, ← List.cons_append] at hw
        rcases List.append_eq_append_iff.mp hw with ⟨u, hu, _⟩ | ⟨u, hu, hrest⟩
        · exact hbefore (List.IsPrefix.isInfix ⟨u, hu.symm⟩)
        · cases u with
          | nil =>
              apply hbefore
              simp [hu]
          | cons b u =>
              exact hapart (c :: before) (b :: u) (by simp) (by simp) hu
                List.suffix_rfl ⟨w, hrest.symm⟩
      simp only [List.cons_append, indexOf, hhead, if_false, ih htail]
      simp

/-- The text up to the first occurrence of a tag is determined. -/
theorem IsTag.first_unique {word before after before' after' : List alpha}
    (hword : IsTag first last word) (hbefore : ¬ word <:+: before)
    (hbefore' : ¬ word <:+: before')
    (h : before ++ word ++ after = before' ++ word ++ after') :
    before = before' ∧ after = after' := by
  classical
  have hindex : indexOf word (before ++ word ++ after) = some before.length :=
    indexOf_append hword hbefore
  rw [h, indexOf_append hword hbefore'] at hindex
  have hlength : before.length = before'.length := (Option.some.inj hindex).symm
  have houter := List.append_inj h (by simp [hlength])
  exact ⟨(List.append_inj houter.1 hlength).1, houter.2⟩

/-- A text that holds a tag has a first occurrence of it. -/
theorem IsTag.exists_first {word text : List alpha} (hword : IsTag first last word)
    (h : word <:+: text) :
    exists before after, text = before ++ word ++ after ∧ ¬ word <:+: before := by
  classical
  rcases indexOf_isSome h with ⟨n, hn⟩
  rcases eq_append_of_indexOf hword.ne_nil hn with ⟨before, after, htext, _, hbefore⟩
  exact ⟨before, after, htext, hbefore⟩

/-- A tag that the left text does not hold is found in the right text. -/
theorem IsTag.first_of_append {word left right before after : List alpha}
    (hword : IsTag first last word) (hapart : Apart word left right)
    (hleft : ¬ word <:+: left) (hbefore : ¬ word <:+: before)
    (h : left ++ right = before ++ word ++ after) :
    exists front, before = left ++ front ∧ right = front ++ word ++ after ∧
      ¬ word <:+: front := by
  have hright : word <:+: right := by
    have hinfix : word <:+: left ++ right := ⟨before, after, h.symm⟩
    cases (infix_append_iff_of_apart hapart).mp hinfix with
    | inl hinfixLeft => exact absurd hinfixLeft hleft
    | inr hinfixRight => exact hinfixRight
  rcases hword.exists_first hright with ⟨front, rest, rfl, hfront⟩
  have hinit : front <+: front ++ word ++ rest := ⟨word ++ rest, by simp⟩
  have hplain : ¬ word <:+: left ++ front := by
    rw [infix_append_iff_of_apart (hapart.mono List.suffix_rfl hinit)]
    simp [hleft, hfront]
  have heq : (left ++ front) ++ word ++ rest = before ++ word ++ after := by
    rw [← h]
    simp
  rcases hword.first_unique hplain hbefore heq with ⟨hbeforeEq, hrest⟩
  exact ⟨front, hbeforeEq.symm, by rw [hrest], hfront⟩

end Tags

/-!
## Regions

A text encloses a region when its first opening word stands in front of its
first closing word.
-/

structure Encloses (opening closing text before inner after : List alpha) : Prop where
  text_eq : text = before ++ opening ++ inner ++ closing ++ after
  opening_before : ¬ opening <:+: before
  closing_before : ¬ closing <:+: before ++ opening ++ inner

section Regions

variable {first last : alpha} {opening closing : List alpha}

/-- A tag that occurs behind the beginning of another one occurs behind all of it. -/
theorem IsTag.append_of_later {before before' after after' : List alpha}
    (hopening : IsTag first last opening) (hclosing : IsTag first last closing)
    (h : before ++ opening ++ after = before' ++ closing ++ after')
    (hlt : before.length < before'.length) :
    exists inner, before' = before ++ opening ++ inner ∧
      after = inner ++ closing ++ after' := by
  simp only [List.append_assoc] at h
  rcases List.append_eq_append_iff.mp h with ⟨u, rfl, hu⟩ | ⟨u, rfl, _⟩
  · rcases List.append_eq_append_iff.mp hu with ⟨w, rfl, hw⟩ | ⟨v, hv, hrest⟩
    · exact ⟨w, by simp, by simpa using hw⟩
    · cases u with
      | nil => simp at hlt
      | cons a u =>
          cases v with
          | nil => exact ⟨[], by simpa using hv.symm, by simpa using hrest.symm⟩
          | cons b v =>
              rcases hclosing.shape with ⟨inner, rfl⟩
              have hb : first = b := by
                simp only [List.cons_append, List.cons.injEq] at hrest
                exact hrest.1
              apply absurd _ hopening.first_not_mem_tail
              simp [hv, hb]
  · exact absurd hlt (by simp)

theorem encloses_of_indexOf [DecidableEq alpha] (hopening : IsTag first last opening)
    (hclosing : IsTag first last closing) {text : List alpha} {start stop : Nat}
    (hstart : indexOf opening text = some start) (hstop : indexOf closing text = some stop)
    (hlt : start < stop) :
    Encloses opening closing text (text.take start)
      (slice text (start + opening.length) stop) (text.drop (stop + closing.length)) := by
  rcases eq_append_of_indexOf hopening.ne_nil hstart with ⟨before, _, hopen, rfl, hbefore⟩
  rcases eq_append_of_indexOf hclosing.ne_nil hstop with ⟨front, after, hclose, rfl, hfront⟩
  rcases hopening.append_of_later hclosing (hopen.symm.trans hclose) hlt with
    ⟨inner, rfl, _⟩
  have htake : text.take before.length = before := by
    rw [hopen]
    simp
  have hslice : slice text (before.length + opening.length)
      (before ++ opening ++ inner).length = inner := by
    have hlength : before.length + opening.length = (before ++ opening).length := by simp
    have hinner : (before ++ opening ++ inner).length - (before ++ opening).length =
        inner.length := by
      rw [@List.length_append _ (before ++ opening), Nat.add_sub_cancel_left]
    rw [slice, hlength, hinner, hclose]
    simp only [List.append_assoc]
    rw [← List.append_assoc before, List.drop_left, List.take_left]
  have hdrop : text.drop ((before ++ opening ++ inner).length + closing.length) = after := by
    rw [hclose, ← List.length_append, List.drop_left]
  rw [htake, hslice, hdrop]
  exact ⟨hclose, hbefore, hfront⟩

theorem Encloses.indexOf_opening [DecidableEq alpha] (hopening : IsTag first last opening)
    {text before inner after : List alpha}
    (h : Encloses opening closing text before inner after) :
    indexOf opening text = some before.length := by
  rw [h.text_eq, List.append_assoc, List.append_assoc]
  exact indexOf_append hopening h.opening_before

theorem Encloses.indexOf_closing [DecidableEq alpha] (hclosing : IsTag first last closing)
    {text before inner after : List alpha}
    (h : Encloses opening closing text before inner after) :
    indexOf closing text = some (before ++ opening ++ inner).length := by
  rw [h.text_eq]
  exact indexOf_append hclosing h.closing_before

theorem encloses_unique (hopening : IsTag first last opening)
    (hclosing : IsTag first last closing)
    {text before inner after before' inner' after' : List alpha}
    (h : Encloses opening closing text before inner after)
    (h' : Encloses opening closing text before' inner' after') :
    before = before' ∧ inner = inner' ∧ after = after' := by
  have hfirst : before ++ opening ++ (inner ++ closing ++ after) =
      before' ++ opening ++ (inner' ++ closing ++ after') := by
    have heq := h.text_eq.symm.trans h'.text_eq
    simpa using heq
  have hbefore := hopening.first_unique h.opening_before h'.opening_before hfirst
  have hstop := hclosing.first_unique h.closing_before h'.closing_before
    (h.text_eq.symm.trans h'.text_eq)
  constructor
  · exact hbefore.1
  constructor
  · have hinner := hstop.1
    rw [hbefore.1] at hinner
    simpa using hinner
  · exact hstop.2

/-- A region that is closed within the left text does not depend on the right one. -/
theorem encloses_append_of_closing_left (hclosing : IsTag first last closing)
    {left right : List alpha} (hleft : closing <:+: left) (before inner after : List alpha) :
    Encloses opening closing (left ++ right) before inner after <->
      exists rest, Encloses opening closing left before inner rest ∧ after = rest ++ right := by
  constructor
  · intro h
    rcases hclosing.exists_first hleft with ⟨front, rest, hrest, hfront⟩
    have heq : front ++ closing ++ (rest ++ right) =
        (before ++ opening ++ inner) ++ closing ++ after := by
      rw [← h.text_eq, hrest]
      simp
    rcases hclosing.first_unique hfront h.closing_before heq with ⟨hbefore, hafter⟩
    exact ⟨rest, ⟨by rw [hrest, hbefore], h.opening_before, h.closing_before⟩, hafter.symm⟩
  · rintro ⟨rest, h, rfl⟩
    exact ⟨by rw [h.text_eq]; simp, h.opening_before, h.closing_before⟩

/-- A left text without either word only moves the region. -/
theorem encloses_append_of_plain_left (hopening : IsTag first last opening)
    {left right : List alpha} (hopenApart : Apart opening left right)
    (hcloseApart : Apart closing left right) (hopenLeft : ¬ opening <:+: left)
    (hcloseLeft : ¬ closing <:+: left) (before inner after : List alpha) :
    Encloses opening closing (left ++ right) before inner after <->
      exists front, Encloses opening closing right front inner after ∧
        before = left ++ front := by
  constructor
  · intro h
    have heq : left ++ right = before ++ opening ++ (inner ++ closing ++ after) := by
      rw [h.text_eq]
      simp
    rcases hopening.first_of_append hopenApart hopenLeft h.opening_before heq with
      ⟨front, rfl, hright, hfront⟩
    exists front
    constructor
    · constructor
      · rw [hright]
        simp
      · exact hfront
      · intro hinfix
        apply h.closing_before
        rw [List.append_assoc, List.append_assoc, ← List.append_assoc front]
        exact List.infix_append_of_infix_right hinfix
    · rfl
  · rintro ⟨front, h, rfl⟩
    have hinit : front <+: right :=
      ⟨opening ++ inner ++ closing ++ after, by rw [h.text_eq]; simp⟩
    have hprefixInner : front ++ opening ++ inner <+: right :=
      ⟨closing ++ after, by rw [h.text_eq]; simp⟩
    constructor
    · rw [h.text_eq]
      simp
    · rw [infix_append_iff_of_apart (hopenApart.mono List.suffix_rfl hinit)]
      simp [hopenLeft, h.opening_before]
    · rw [List.append_assoc, List.append_assoc, ← List.append_assoc front,
        infix_append_iff_of_apart (hcloseApart.mono List.suffix_rfl hprefixInner)]
      simp only [hcloseLeft, h.closing_before, or_self, not_false_eq_true]

/-- A region that the left text opens is closed by the right text. -/
theorem encloses_append_of_opening_left (hopening : IsTag first last opening)
    (hclosing : IsTag first last closing) {front rest right : List alpha}
    (hcloseApart : Apart closing (front ++ opening ++ rest) right)
    (hfront : ¬ opening <:+: front) (hcloseLeft : ¬ closing <:+: front ++ opening ++ rest)
    (before inner after : List alpha) :
    Encloses opening closing (front ++ opening ++ rest ++ right) before inner after <->
      before = front ∧ exists more, right = more ++ closing ++ after ∧
        ¬ closing <:+: more ∧ inner = rest ++ more := by
  constructor
  · intro h
    have heq : front ++ opening ++ (rest ++ right) =
        before ++ opening ++ (inner ++ closing ++ after) := by
      have := h.text_eq
      simpa using this
    have hbefore := (hopening.first_unique hfront h.opening_before heq).1
    rcases hclosing.first_of_append hcloseApart hcloseLeft h.closing_before h.text_eq with
      ⟨more, hinner, hright, hmore⟩
    constructor
    · exact hbefore.symm
    · exists more
      constructor
      · exact hright
      constructor
      · exact hmore
      · rw [hbefore] at hinner
        simpa using hinner
  · rintro ⟨rfl, more, hright, hmore, rfl⟩
    have hinit : more <+: right := ⟨closing ++ after, by rw [hright]; simp⟩
    constructor
    · rw [hright]
      simp
    · exact hfront
    · rw [← List.append_assoc,
        infix_append_iff_of_apart (hcloseApart.mono List.suffix_rfl hinit)]
      simp only [hcloseLeft, hmore, or_self, not_false_eq_true]

end Regions

end Delimiter

end Foundation
end CatFactory
