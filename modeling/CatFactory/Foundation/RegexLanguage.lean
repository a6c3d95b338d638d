import CatFactory.Foundation.RegexSearch

/-!
# The texts of a pattern

What a pattern without conditions on its surroundings matches is a set of texts, the
same wherever such a text stands.
-/

namespace CatFactory
namespace Foundation

variable {unit : Type}

/-- The texts a pattern can match, its conditions on the surroundings left aside. -/
def Regex.Accepts : Regex unit -> List unit -> Prop
  | .empty, text => text = []
  | .one accepts, text => exists c, text = [c] ∧ accepts c = true
  | .many accepts least most, text =>
      (forall u, u ∈ text -> accepts u = true) ∧ least ≤ text.length ∧
        forall n, most = some n -> text.length ≤ n
  | .few accepts, text => forall u, u ∈ text -> accepts u = true
  | .seq first second, text =>
      exists x y, text = x ++ y ∧ first.Accepts x ∧ second.Accepts y
  | .after first second, text =>
      exists x y, text = x ++ y ∧ first.Accepts x ∧ (second x).Accepts y
  | .alt first second, text => first.Accepts text ∨ second.Accepts text
  | .group _ inner, text => inner.Accepts text
  | .edge _, text => text = []
  | .behind _, text => text = []
  | .ahead _, text => text = []

/-- The pattern asks nothing of what is around it. -/
def Regex.Local : Regex unit -> Prop
  | .seq first second => first.Local ∧ second.Local
  | .after first second => first.Local ∧ forall text, (second text).Local
  | .alt first second => first.Local ∧ second.Local
  | .group _ inner => inner.Local
  | .edge _ => False
  | .behind _ => False
  | .ahead _ => False
  | _ => True

theorem taking_text {accepts : unit -> Bool} {most : Option Nat} {rest : List unit} {k : Nat}
    (hk : k ≤ runLength accepts most rest) :
    (Match.taking rest k).text.length = k ∧ (forall n, most = some n -> k ≤ n) ∧
      forall u, u ∈ (Match.taking rest k).text -> accepts u = true := by
  have hrun : k ≤ (rest.takeWhile accepts).length := by
    cases most with
    | none => exact hk
    | some most => exact Nat.le_trans hk (Nat.min_le_right _ _)
  have hlength := (List.takeWhile_prefix accepts (l := rest)).length_le
  refine ⟨?_, ?_, ?_⟩
  · show (rest.take k).length = k
    rw [List.length_take, Nat.min_eq_left (Nat.le_trans hrun hlength)]
  · rintro n rfl
    exact Nat.le_trans hk (Nat.min_le_left _ _)
  · intro u hu
    have hstarts : rest.take k <+: rest.takeWhile accepts :=
      List.prefix_of_prefix_length_le (List.take_prefix k rest) (List.takeWhile_prefix accepts)
        (Nat.le_trans (List.length_take_le k rest) hrun)
    exact List.mem_takeWhile_imp (hstarts.subset hu)

theorem accepts_of_run {r : Regex unit} {read rest : List unit} {m : Match unit}
    (h : m ∈ r.run read rest) : r.Accepts m.text := by
  have hempty : forall {rest : List unit} {m : Match unit},
      m ∈ [(⟨[], rest, []⟩ : Match unit)] -> m.text = [] := by
    intro rest m hm
    rw [List.mem_singleton.mp hm]
  induction r generalizing read rest m with
  | empty => exact hempty h
  | one accepts =>
      cases rest with
      | nil => cases h
      | cons c rest =>
          simp only [Regex.run] at h
          split at h
          · next hc =>
              rw [List.mem_singleton.mp h]
              exact ⟨c, rfl, hc⟩
          · cases h
  | many accepts least most =>
      rw [Regex.run, List.mem_map] at h
      rcases h with ⟨k, hk, rfl⟩
      rw [List.mem_filter, List.mem_reverse, List.mem_range, decide_eq_true_eq] at hk
      have htaking := taking_text (Nat.le_of_lt_succ hk.1)
      refine ⟨htaking.2.2, ?_, ?_⟩
      · rw [htaking.1]
        exact hk.2
      · intro n hn
        rw [htaking.1]
        exact htaking.2.1 n hn
  | few accepts =>
      rw [Regex.run, List.mem_map] at h
      rcases h with ⟨k, hk, rfl⟩
      rw [List.mem_range] at hk
      exact (taking_text (Nat.le_of_lt_succ hk)).2.2
  | seq first second ihFirst ihSecond =>
      rcases mem_run_seq.mp h with ⟨x, hx, y, hy, rfl⟩
      exact ⟨x.text, y.text, rfl, ihFirst hx, ihSecond hy⟩
  | after first second ihFirst ihSecond =>
      rcases mem_run_after.mp h with ⟨x, hx, y, hy, rfl⟩
      exact ⟨x.text, y.text, rfl, ihFirst hx, ihSecond x.text hy⟩
  | alt first second ihFirst ihSecond =>
      cases mem_run_alt.mp h with
      | inl h => exact Or.inl (ihFirst h)
      | inr h => exact Or.inr (ihSecond h)
  | group index inner ih =>
      rw [Regex.run, List.mem_map] at h
      rcases h with ⟨x, hx, rfl⟩
      have hinner : inner.Accepts x.text := ih hx
      exact hinner
  | edge holds =>
      simp only [Regex.run] at h
      split at h
      · exact hempty h
      · cases h
  | behind inner ih =>
      simp only [Regex.run] at h
      split at h
      · exact hempty h
      · cases h
  | ahead inner ih =>
      simp only [Regex.run] at h
      split at h
      · cases h
      · exact hempty h

theorem taking_append (text rest : List unit) :
    Match.taking (text ++ rest) text.length = ⟨text, rest, []⟩ := by
  rw [Match.taking, List.take_left, List.drop_left]

theorem length_le_runLength {accepts : unit -> Bool} {most : Option Nat} {text : List unit}
    (htext : forall u, u ∈ text -> accepts u = true)
    (hmost : forall n, most = some n -> text.length ≤ n) (rest : List unit) :
    text.length ≤ runLength accepts most (text ++ rest) := by
  have hrun : text.length ≤ ((text ++ rest).takeWhile accepts).length := by
    rw [List.takeWhile_append_of_pos htext, List.length_append]
    exact Nat.le_add_right _ _
  cases most with
  | none => exact hrun
  | some n => exact Nat.le_min.mpr ⟨hmost n rfl, hrun⟩

/-- A text of a local pattern is matched wherever it stands. -/
theorem run_of_accepts {r : Regex unit} (hlocal : r.Local) {text : List unit}
    (h : r.Accepts text) (read rest : List unit) :
    exists m, m ∈ r.run read (text ++ rest) ∧ m.text = text ∧ m.rest = rest := by
  induction r generalizing text read rest with
  | empty =>
      have hnil : text = [] := h
      rw [hnil]
      exact ⟨⟨[], rest, []⟩, List.mem_singleton.mpr rfl, rfl, rfl⟩
  | one accepts =>
      rcases h with ⟨c, rfl, hc⟩
      refine ⟨⟨[c], rest, []⟩, ?_, rfl, rfl⟩
      simp only [List.cons_append, List.nil_append, Regex.run, if_pos hc]
      exact List.mem_singleton.mpr rfl
  | many accepts least most =>
      rcases h with ⟨hunits, hleast, hmost⟩
      refine ⟨⟨text, rest, []⟩, ?_, rfl, rfl⟩
      rw [Regex.run, ← taking_append text rest]
      apply List.mem_map_of_mem
      rw [List.mem_filter, List.mem_reverse, List.mem_range, decide_eq_true_eq]
      exact ⟨Nat.lt_succ_of_le (length_le_runLength hunits hmost rest), hleast⟩
  | few accepts =>
      refine ⟨⟨text, rest, []⟩, ?_, rfl, rfl⟩
      rw [Regex.run, ← taking_append text rest]
      apply List.mem_map_of_mem
      rw [List.mem_range]
      exact Nat.lt_succ_of_le (length_le_runLength h (fun n hn => by cases hn) rest)
  | seq first second ihFirst ihSecond =>
      rcases h with ⟨x, y, rfl, hx, hy⟩
      rcases ihFirst hlocal.1 hx read (y ++ rest) with ⟨m, hm, htext, hrest⟩
      rcases ihSecond hlocal.2 hy (m.text.reverse ++ read) rest with ⟨n, hn, htext', hrest'⟩
      rw [List.append_assoc]
      refine ⟨m.before n, mem_run_seq.mpr ⟨m, hm, n, ?_, rfl⟩, ?_, hrest'⟩
      · rw [hrest]
        exact hn
      · rw [Match.before, htext, htext']
  | after first second ihFirst ihSecond =>
      rcases h with ⟨x, y, rfl, hx, hy⟩
      rcases ihFirst hlocal.1 hx read (y ++ rest) with ⟨m, hm, htext, hrest⟩
      rcases ihSecond x (hlocal.2 x) hy (m.text.reverse ++ read) rest with ⟨n, hn, htext', hrest'⟩
      rw [List.append_assoc]
      refine ⟨m.before n, mem_run_after.mpr ⟨m, hm, n, ?_, rfl⟩, ?_, hrest'⟩
      · rw [hrest, htext]
        rwa [htext] at hn
      · rw [Match.before, htext, htext']
  | alt first second ihFirst ihSecond =>
      cases h with
      | inl h =>
          rcases ihFirst hlocal.1 h read rest with ⟨m, hm, hboth⟩
          exact ⟨m, mem_run_alt.mpr (Or.inl hm), hboth⟩
      | inr h =>
          rcases ihSecond hlocal.2 h read rest with ⟨m, hm, hboth⟩
          exact ⟨m, mem_run_alt.mpr (Or.inr hm), hboth⟩
  | group index inner ih =>
      rcases ih hlocal h read rest with ⟨m, hm, htext, hrest⟩
      refine ⟨{ m with groups := (index, m.text) :: m.groups }, ?_, htext, hrest⟩
      rw [Regex.run, List.mem_map]
      exact ⟨m, hm, rfl⟩
  | edge holds => cases hlocal
  | behind inner => cases hlocal
  | ahead inner => cases hlocal

theorem accepts_lit [DecidableEq unit] {units text : List unit} :
    (Regex.lit units).Accepts text <-> text = units := by
  induction units generalizing text with
  | nil => exact Iff.rfl
  | cons c units ih =>
      constructor
      · rintro ⟨x, y, rfl, ⟨d, rfl, hd⟩, hy⟩
        rw [of_decide_eq_true hd, ih.mp hy]
        rfl
      · rintro rfl
        exact ⟨[c], units, rfl, ⟨c, rfl, decide_eq_true rfl⟩, ih.mpr rfl⟩

theorem local_lit [DecidableEq unit] (units : List unit) : (Regex.lit units).Local := by
  induction units with
  | nil => trivial
  | cons c units ih => exact ⟨trivial, ih⟩

/-- Every unit a match takes is one of `good`. -/
def Regex.Within (good : unit -> Prop) : Regex unit -> Prop
  | .one accepts => forall u, accepts u = true -> good u
  | .many accepts _ _ => forall u, accepts u = true -> good u
  | .few accepts => forall u, accepts u = true -> good u
  | .seq first second => first.Within good ∧ second.Within good
  | .after first second => first.Within good ∧ forall text, (second text).Within good
  | .alt first second => first.Within good ∧ second.Within good
  | .group _ inner => inner.Within good
  | _ => True

theorem accepts_within {r : Regex unit} {good : unit -> Prop} (hr : r.Within good)
    {text : List unit} (h : r.Accepts text) : forall u, u ∈ text -> good u := by
  have hempty : forall {text : List unit}, text = [] -> forall u, u ∈ text -> good u := by
    rintro text rfl u hu
    cases hu
  induction r generalizing text with
  | empty => exact hempty h
  | one accepts =>
      rcases h with ⟨c, rfl, hc⟩
      intro u hu
      rw [List.mem_singleton.mp hu]
      exact hr c hc
  | many accepts least most =>
      intro u hu
      exact hr u (h.1 u hu)
  | few accepts =>
      intro u hu
      exact hr u (h u hu)
  | seq first second ihFirst ihSecond =>
      rcases h with ⟨x, y, rfl, hx, hy⟩
      intro u hu
      cases List.mem_append.mp hu with
      | inl hu => exact ihFirst hr.1 hx u hu
      | inr hu => exact ihSecond hr.2 hy u hu
  | after first second ihFirst ihSecond =>
      rcases h with ⟨x, y, rfl, hx, hy⟩
      intro u hu
      cases List.mem_append.mp hu with
      | inl hu => exact ihFirst hr.1 hx u hu
      | inr hu => exact ihSecond x (hr.2 x) hy u hu
  | alt first second ihFirst ihSecond =>
      cases h with
      | inl h => exact ihFirst hr.1 h
      | inr h => exact ihSecond hr.2 h
  | group index inner ih =>
      have hinner : inner.Accepts text := h
      exact ih hr hinner
  | edge holds => exact hempty h
  | behind inner => exact hempty h
  | ahead inner => exact hempty h

theorem within_lit [DecidableEq unit] {good : unit -> Prop} {units : List unit}
    (h : forall u, u ∈ units -> good u) : (Regex.lit units).Within good := by
  induction units with
  | nil => trivial
  | cons c units ih =>
      constructor
      · intro u hu
        rw [of_decide_eq_true hu]
        exact h c List.mem_cons_self
      · exact ih fun u hu => h u (List.mem_cons_of_mem c hu)

theorem mem_run_behind {inner : Regex unit} {read rest : List unit} {m : Match unit} :
    m ∈ (Regex.behind inner).run read rest <-> m = ⟨[], rest, []⟩ ∧
      exists seen before, read = seen.reverse ++ before ∧
        exists x, x ∈ inner.run before (seen ++ rest) ∧ x.text = seen := by
  have hany : ((List.range (read.length + 1)).any fun k =>
      (inner.run (read.drop k) ((read.take k).reverse ++ rest)).any fun m =>
        m.text.length = k) = true <->
      exists seen before, read = seen.reverse ++ before ∧
        exists x, x ∈ inner.run before (seen ++ rest) ∧ x.text = seen := by
    rw [List.any_eq_true]
    constructor
    · rintro ⟨k, hk, hinner⟩
      rw [List.mem_range] at hk
      rcases List.any_eq_true.mp hinner with ⟨x, hx, hlength⟩
      refine ⟨(read.take k).reverse, read.drop k, ?_, x, hx, ?_⟩
      · rw [List.reverse_reverse, List.take_append_drop]
      · have hsplit := run_text hx
        have htake : (read.take k).reverse.length = x.text.length := by
          rw [List.length_reverse, List.length_take, of_decide_eq_true hlength]
          exact Nat.min_eq_left (Nat.le_of_lt_succ hk)
        exact (List.append_inj_left hsplit htake).symm
    · rintro ⟨seen, before, rfl, x, hx, rfl⟩
      refine ⟨x.text.length, ?_, List.any_eq_true.mpr ⟨x, ?_, decide_eq_true rfl⟩⟩
      · rw [List.mem_range, List.length_append, List.length_reverse]
        exact Nat.lt_succ_of_le (Nat.le_add_right _ _)
      · have hlength : x.text.length = x.text.reverse.length := List.length_reverse.symm
        rw [hlength, List.drop_left, List.take_left, List.reverse_reverse]
        exact hx
  rw [Regex.run, ← hany]
  split
  · next h => rw [List.mem_singleton, h, eq_self, and_true]
  · next h =>
      constructor
      · intro hm
        cases hm
      · intro hm
        exact absurd hm.2 h

/-!
## The preferred match
-/

theorem head?_flatMap_some {a b : Type} {xs : List a} {f : a -> List b} {z : b}
    (h : (xs.flatMap f).head? = some z) : exists x, x ∈ xs ∧ (f x).head? = some z := by
  induction xs with
  | nil => cases h
  | cons x xs ih =>
      rw [List.flatMap_cons, List.head?_append] at h
      cases hx : (f x).head? with
      | some y =>
          rw [hx, Option.some_or] at h
          exact ⟨x, List.mem_cons_self, hx.trans h⟩
      | none =>
          rw [hx, Option.none_or] at h
          rcases ih h with ⟨x', hx', hz⟩
          exact ⟨x', List.mem_cons_of_mem x hx', hz⟩

/-- The second part of a preferred match is preferred where the first part ends. -/
theorem matchHere_seq_some {first second : Regex unit} {read rest : List unit} {m : Match unit}
    (h : (Regex.seq first second).matchHere read rest = some m) :
    exists x, x ∈ first.run read rest ∧
      exists y, second.matchHere (x.text.reverse ++ read) x.rest = some y ∧ x.before y = m := by
  rw [Regex.matchHere, Regex.run] at h
  rcases head?_flatMap_some h with ⟨x, hx, hy⟩
  rw [List.head?_map, Option.map_eq_some_iff] at hy
  rcases hy with ⟨y, hy, hm⟩
  exact ⟨x, hx, y, hy, hm⟩

/-- What holds of every preferred match of the last part holds of the whole. -/
theorem matchHere_all_last (holds : List unit -> Prop) {last : Regex unit}
    (hlast : forall read rest m, last.matchHere read rest = some m -> holds m.rest)
    {parts : List (Regex unit)} {read rest : List unit} {m : Match unit}
    (h : (Regex.all (parts ++ [last])).matchHere read rest = some m) : holds m.rest := by
  induction parts generalizing read rest m with
  | nil =>
      have hhead : (last.run read rest).head?.map (·.rest) = some m.rest := by
        have hrest := congrArg (Option.map (·.rest)) h
        rw [List.nil_append, Regex.all, Regex.all, Regex.matchHere, Regex.run] at hrest
        simpa [Regex.run, ← List.map_eq_flatMap, Match.before, Function.comp_def] using hrest
      rcases Option.map_eq_some_iff.mp hhead with ⟨x, hx, hm⟩
      rw [← hm]
      exact hlast read rest x hx
  | cons part parts ih =>
      rcases matchHere_seq_some h with ⟨x, _, y, hy, rfl⟩
      show holds y.rest
      exact ih hy

theorem matchHere_group_some {index : Nat} {inner : Regex unit} {read rest : List unit}
    {m : Match unit} (h : (Regex.group index inner).matchHere read rest = some m) :
    exists x, inner.matchHere read rest = some x ∧ x.text = m.text ∧ x.rest = m.rest := by
  rw [Regex.matchHere, Regex.run, List.head?_map, Option.map_eq_some_iff] at h
  rcases h with ⟨x, hx, rfl⟩
  exact ⟨x, hx, rfl, rfl⟩

theorem drop_takeWhile (accepts : unit -> Bool) (text : List unit) :
    text.drop (text.takeWhile accepts).length = text.dropWhile accepts := by
  induction text with
  | nil => rfl
  | cons u text ih =>
      cases hu : accepts u with
      | true =>
          rw [List.takeWhile_cons_of_pos hu, List.dropWhile_cons_of_pos hu]
          exact ih
      | false =>
          have hnot : ¬ accepts u = true := Bool.eq_false_iff.mp hu
          rw [List.takeWhile_cons_of_neg hnot, List.dropWhile_cons_of_neg hnot]
          rfl

/-- An unbounded run goes as far as its class does. -/
theorem matchHere_many_next {accepts : unit -> Bool} {least : Nat} {read rest : List unit}
    {m : Match unit} (h : (Regex.many accepts least none).matchHere read rest = some m) :
    m.rest.head?.any accepts = false := by
  rw [Regex.matchHere, Regex.run, List.head?_map, Option.map_eq_some_iff] at h
  rcases h with ⟨k, hk, rfl⟩
  have hmem := List.mem_of_mem_head? hk
  rw [List.mem_filter, List.mem_reverse, List.mem_range, decide_eq_true_eq] at hmem
  have hle : least ≤ (rest.takeWhile accepts).length :=
    Nat.le_trans hmem.2 (Nat.le_of_lt_succ hmem.1)
  have hfull : k = (rest.takeWhile accepts).length := by
    rw [runLength, List.range_succ, List.reverse_append, List.reverse_singleton,
      List.singleton_append, List.filter_cons, if_pos (decide_eq_true hle)] at hk
    exact (Option.some.inj hk).symm
  have hdrop : rest.drop k = rest.dropWhile accepts := by
    rw [hfull]
    exact drop_takeWhile accepts rest
  show (rest.drop k).head?.any accepts = false
  rw [hdrop]
  cases hhead : (rest.dropWhile accepts).head? with
  | none => rfl
  | some u =>
      have hnot := List.head?_dropWhile_not accepts rest
      rw [hhead] at hnot
      simpa using hnot

/-!
## Patterns that match nowhere
-/

/-- The pattern matches from no position of the text. -/
def Regex.Unmatched (r : Regex unit) (text : List unit) : Prop :=
  forall front back, text = front ++ back -> r.run front.reverse back = []

theorem find_of_unmatched {r : Regex unit} {text : List unit} (h : r.Unmatched text) :
    r.find [] text = none := by
  rw [find_eq_none_iff]
  intro front back hsplit
  rw [List.append_nil, matchHere_eq_none_iff]
  exact h front back hsplit

theorem replaceAll_of_unmatched {r : Regex unit} (hr : Consumes r)
    {f : Match unit -> List unit} {text : List unit} (h : r.Unmatched text) :
    r.replaceAll f text = text :=
  replaceFrom_none hr (find_of_unmatched h)

end Foundation
end CatFactory
