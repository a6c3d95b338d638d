import CatFactory.Foundation.Regex

/-!
# Search and replacement laws

What the leftmost match of a pattern is, and how replacing every match goes from
one match to the next.
-/

namespace CatFactory
namespace Foundation

variable {unit : Type}

section Search

variable {r : Regex unit} {read rest : List unit}

theorem matchHere_mem {m : Match unit} (h : r.matchHere read rest = some m) :
    m ∈ r.run read rest :=
  List.mem_of_mem_head? h

theorem matchHere_eq_none_iff : r.matchHere read rest = none <-> r.run read rest = [] :=
  List.head?_eq_none_iff

/-- The leftmost match, in its place in the text. -/
structure Leftmost (r : Regex unit) (read rest skipped : List unit) (m : Match unit) : Prop where
  text : rest = skipped ++ (m.text ++ m.rest)
  here : r.matchHere (skipped.reverse ++ read) (m.text ++ m.rest) = some m
  first : forall front back, rest = front ++ back -> front.length < skipped.length ->
    r.matchHere (front.reverse ++ read) back = none

theorem leftmost_of_find {skipped : List unit} {m : Match unit}
    (h : r.find read rest = some (skipped, m)) : Leftmost r read rest skipped m := by
  induction rest generalizing read skipped with
  | nil =>
      rw [Regex.find, Option.map_eq_some_iff] at h
      rcases h with ⟨found, hfound, heq⟩
      cases heq
      have htext := run_text (matchHere_mem hfound)
      refine ⟨htext, ?_, ?_⟩
      · rw [← htext]
        exact hfound
      · intro front back _ hlt
        cases hlt
  | cons c rest ih =>
      rw [Regex.find] at h
      cases hhere : r.matchHere read (c :: rest) with
      | some found =>
          rw [hhere] at h
          cases h
          have htext := run_text (matchHere_mem hhere)
          refine ⟨htext, ?_, ?_⟩
          · rw [← htext]
            exact hhere
          · intro front back _ hlt
            cases hlt
      | none =>
          rw [hhere] at h
          simp only [Option.map_eq_some_iff] at h
          rcases h with ⟨found, hfound, heq⟩
          cases heq
          have hleft := ih hfound
          refine ⟨?_, ?_, ?_⟩
          · rw [List.cons_append, ← hleft.text]
          · rw [List.reverse_cons, List.append_assoc]
            exact hleft.here
          · intro front back hsplit hlt
            cases front with
            | nil =>
                rw [List.nil_append] at hsplit
                rw [← hsplit]
                exact hhere
            | cons d front =>
                rw [List.cons_append, List.cons.injEq] at hsplit
                rcases hsplit with ⟨rfl, hsplit⟩
                rw [List.reverse_cons, List.append_assoc]
                exact hleft.first front back hsplit (Nat.lt_of_succ_lt_succ hlt)

theorem find_eq_none_iff : r.find read rest = none <->
    forall front back, rest = front ++ back -> r.matchHere (front.reverse ++ read) back = none := by
  induction rest generalizing read with
  | nil =>
      rw [Regex.find, Option.map_eq_none_iff]
      constructor
      · intro h front back hsplit
        have hnil := List.append_eq_nil_iff.mp hsplit.symm
        rw [hnil.1, hnil.2]
        exact h
      · intro h
        exact h [] [] rfl
  | cons c rest ih =>
      rw [Regex.find]
      constructor
      · intro h front back hsplit
        cases hhere : r.matchHere read (c :: rest) with
        | some found =>
            rw [hhere] at h
            cases h
        | none =>
            rw [hhere] at h
            have hrest := ih.mp (Option.map_eq_none_iff.mp h)
            cases front with
            | nil =>
                rw [List.nil_append] at hsplit
                rw [← hsplit]
                exact hhere
            | cons d front =>
                rw [List.cons_append, List.cons.injEq] at hsplit
                rcases hsplit with ⟨rfl, hsplit⟩
                rw [List.reverse_cons, List.append_assoc]
                exact hrest front back hsplit
      · intro h
        have hhere : r.matchHere read (c :: rest) = none := h [] (c :: rest) rfl
        rw [hhere]
        apply Option.map_eq_none_iff.mpr
        apply ih.mpr
        intro front back hsplit
        have hlater := h (c :: front) back (by rw [hsplit, List.cons_append])
        rwa [List.reverse_cons, List.append_assoc] at hlater

/-- A leftmost match is what `exec` finds. -/
theorem find_of_leftmost {skipped : List unit} {m : Match unit}
    (h : Leftmost r read rest skipped m) : r.find read rest = some (skipped, m) := by
  cases hfound : r.find read rest with
  | none =>
      have hnone := find_eq_none_iff.mp hfound skipped _ h.text
      rw [h.here] at hnone
      cases hnone
  | some found =>
      rcases found with ⟨skipped', m'⟩
      have h' := leftmost_of_find hfound
      have hlength : skipped'.length = skipped.length := by
        rcases Nat.lt_trichotomy skipped'.length skipped.length with hlt | heq | hgt
        · have hnone := h.first skipped' _ h'.text hlt
          rw [h'.here] at hnone
          cases hnone
        · exact heq
        · have hnone := h'.first skipped _ h.text hgt
          rw [h.here] at hnone
          cases hnone
      have hsame := List.append_inj (h'.text.symm.trans h.text) hlength
      have hhere := h'.here
      rw [hsame.1, hsame.2, h.here] at hhere
      cases hhere
      rw [hsame.1]

end Search

/-!
## The first match of a sequence
-/

section Sequence

/-- Where the first part matches in one way only, the sequence matches as the
second part does after it. -/
theorem matchHere_seq {first second : Regex unit} {read rest : List unit} {x : Match unit}
    (hx : first.matchHere read rest = some x)
    (honly : forall y, y ∈ first.run read rest -> y = x) :
    (Regex.seq first second).matchHere read rest =
      (second.matchHere (x.text.reverse ++ read) x.rest).map x.before := by
  have hall : forall ms : List (Match unit), ms ≠ [] -> (forall y, y ∈ ms -> y = x) ->
      (ms.flatMap fun m =>
        (second.run (m.text.reverse ++ read) m.rest).map m.before).head? =
      (second.matchHere (x.text.reverse ++ read) x.rest).map x.before := by
    intro ms hne hms
    induction ms with
    | nil => exact absurd rfl hne
    | cons y ms ih =>
        rw [hms y List.mem_cons_self, List.flatMap_cons, List.head?_append, List.head?_map]
        cases hsecond : (second.run (x.text.reverse ++ read) x.rest).head? with
        | some z =>
            rw [Regex.matchHere, hsecond]
            rfl
        | none =>
            rw [Option.map_none, Option.none_or]
            cases ms with
            | nil =>
                rw [Regex.matchHere, hsecond]
                rfl
            | cons z ms =>
                exact ih (List.cons_ne_nil z ms) fun w hw => hms w (List.mem_cons_of_mem y hw)
  have hne : first.run read rest ≠ [] := by
    intro hnil
    rw [Regex.matchHere, hnil] at hx
    cases hx
  exact hall _ hne honly

theorem matchHere_seq_none {first second : Regex unit} {read rest : List unit}
    (h : first.matchHere read rest = none) :
    (Regex.seq first second).matchHere read rest = none := by
  rw [matchHere_eq_none_iff] at h ⊢
  rw [Regex.run, h]
  rfl

theorem run_few_seq (r : Regex unit) (read rest : List unit) :
    (Regex.seq (Regex.few fun _ => true) r).run read rest =
      (List.range (rest.length + 1)).flatMap fun k =>
        (r.run ((rest.take k).reverse ++ read) (rest.drop k)).map (Match.taking rest k).before := by
  have hlength : runLength (fun _ => true) none rest = rest.length := by
    rw [runLength, List.takeWhile_eq_self_iff.mpr (fun _ _ => rfl)]
  rw [Regex.run, Regex.run, hlength, List.flatMap_map]
  rfl

/-- As few units as the second part allows: the sequence matches where the second
part is first found. -/
theorem matchHere_few_seq (r : Regex unit) (read rest : List unit) :
    (Regex.seq (Regex.few fun _ => true) r).matchHere read rest =
      (r.find read rest).map fun found =>
        ⟨found.1 ++ found.2.text, found.2.rest, found.2.groups⟩ := by
  rw [Regex.matchHere, run_few_seq]
  induction rest generalizing read with
  | nil =>
      rw [Regex.find, Option.map_map, List.length_nil, Nat.zero_add, List.range_one,
        List.flatMap_singleton, List.head?_map]
      rfl
  | cons c rest ih =>
      rw [List.length_cons, List.range_succ_eq_map, List.flatMap_cons, List.head?_append,
        List.head?_map, Regex.find]
      cases hhere : r.matchHere read (c :: rest) with
      | some m =>
          have hhead : (r.run (((c :: rest).take 0).reverse ++ read) ((c :: rest).drop 0)).head? =
              some m := hhere
          rw [hhead]
          rfl
      | none =>
          have hhead : (r.run (((c :: rest).take 0).reverse ++ read) ((c :: rest).drop 0)).head? =
              none := hhere
          rw [hhead, Option.map_none, Option.none_or, List.flatMap_map]
          have hshift : ((List.range (rest.length + 1)).flatMap fun k =>
              (r.run (((c :: rest).take (k + 1)).reverse ++ read) ((c :: rest).drop (k + 1))).map
                (Match.taking (c :: rest) (k + 1)).before) =
              ((List.range (rest.length + 1)).flatMap fun k =>
                (r.run ((rest.take k).reverse ++ c :: read) (rest.drop k)).map
                  (Match.taking rest k).before).map fun m => { m with text := c :: m.text } := by
            rw [List.map_flatMap]
            congr 1
            funext k
            rw [List.map_map, List.take_succ_cons, List.reverse_cons, List.append_assoc]
            rfl
          show (List.flatMap (fun k =>
              (r.run (((c :: rest).take (k + 1)).reverse ++ read) ((c :: rest).drop (k + 1))).map
                (Match.taking (c :: rest) (k + 1)).before) (List.range (rest.length + 1))).head? = _
          rw [hshift, List.head?_map, ih, Option.map_map, Option.map_map]
          rfl

end Sequence

/-!
## What a match captures
-/

section Captures

variable {r : Regex unit} {m : Match unit}

/-- What a group captured is a part of the match. -/
theorem run_groups_infix {read rest : List unit} (h : m ∈ r.run read rest) :
    forall g, g ∈ m.groups -> g.2 <:+: m.text := by
  have hnone : forall {rest : List unit} {m : Match unit},
      m ∈ [(⟨[], rest, []⟩ : Match unit)] -> forall g, g ∈ m.groups -> g.2 <:+: m.text := by
    intro rest m hm g hg
    rw [List.mem_singleton.mp hm] at hg
    cases hg
  have hbefore : forall {x y : Match unit}, (forall g, g ∈ x.groups -> g.2 <:+: x.text) ->
      (forall g, g ∈ y.groups -> g.2 <:+: y.text) ->
      forall g, g ∈ (x.before y).groups -> g.2 <:+: (x.before y).text := by
    intro x y hx hy g hg
    cases List.mem_append.mp hg with
    | inl hg => exact (hx g hg).trans (List.prefix_append x.text y.text).isInfix
    | inr hg => exact (hy g hg).trans (List.suffix_append x.text y.text).isInfix
  induction r generalizing read rest m with
  | empty => exact hnone h
  | one accepts =>
      cases rest with
      | nil => cases h
      | cons c rest =>
          simp only [Regex.run] at h
          split at h
          · rw [List.mem_singleton.mp h]
            intro g hg
            cases hg
          · cases h
  | many accepts least most =>
      rw [Regex.run, List.mem_map] at h
      rcases h with ⟨k, _, rfl⟩
      intro g hg
      cases hg
  | few accepts =>
      rw [Regex.run, List.mem_map] at h
      rcases h with ⟨k, _, rfl⟩
      intro g hg
      cases hg
  | seq first second ihFirst ihSecond =>
      rcases mem_run_seq.mp h with ⟨x, hx, y, hy, rfl⟩
      exact hbefore (ihFirst hx) (ihSecond hy)
  | after first second ihFirst ihSecond =>
      rcases mem_run_after.mp h with ⟨x, hx, y, hy, rfl⟩
      exact hbefore (ihFirst hx) (ihSecond x.text hy)
  | alt first second ihFirst ihSecond =>
      cases mem_run_alt.mp h with
      | inl h => exact ihFirst h
      | inr h => exact ihSecond h
  | group index inner ih =>
      rw [Regex.run, List.mem_map] at h
      rcases h with ⟨x, hx, rfl⟩
      have hinner : forall g, g ∈ x.groups -> g.2 <:+: x.text := ih hx
      intro g hg
      cases hg with
      | head => exact List.infix_rfl
      | tail _ hg => exact hinner g hg
  | edge holds =>
      simp only [Regex.run] at h
      split at h
      · exact hnone h
      · cases h
  | behind inner ih =>
      simp only [Regex.run] at h
      split at h
      · exact hnone h
      · cases h
  | ahead inner ih =>
      simp only [Regex.run] at h
      split at h
      · cases h
      · exact hnone h

theorem captured_within {read rest : List unit} (h : m ∈ r.run read rest) (index : Nat) :
    m.captured index <:+: m.text := by
  rw [Match.captured]
  cases hfound : m.groups.find? fun g => g.1 = index with
  | none => exact List.nil_infix
  | some g => exact run_groups_infix h g (List.mem_of_find?_eq_some hfound)

/-- Every match of the text is one from some position on. -/
theorem mem_matchesFrom {skip : Nat} {read rest : List unit}
    (h : m ∈ r.matchesFrom skip read rest) :
    exists front back, rest = front ++ back ∧ m ∈ r.run (front.reverse ++ read) back := by
  induction rest generalizing skip read with
  | nil =>
      have hhere : r.matchHere read [] = some m := by
        cases skip <;> exact Option.mem_toList.mp h
      exact ⟨[], [], rfl, matchHere_mem hhere⟩
  | cons c rest ih =>
      have hlater : forall {skip : Nat}, m ∈ r.matchesFrom skip (c :: read) rest ->
          exists front back, c :: rest = front ++ back ∧
            m ∈ r.run (front.reverse ++ read) back := by
        intro skip hmem
        rcases ih hmem with ⟨front, back, rfl, hrun⟩
        refine ⟨c :: front, back, rfl, ?_⟩
        rwa [List.reverse_cons, List.append_assoc]
      cases skip with
      | succ skip => exact hlater h
      | zero =>
          rw [Regex.matchesFrom] at h
          cases hhere : r.matchHere read (c :: rest) with
          | none =>
              rw [hhere] at h
              exact hlater h
          | some found =>
              rw [hhere] at h
              cases h with
              | head => exact ⟨[], c :: rest, rfl, matchHere_mem hhere⟩
              | tail _ h => exact hlater h

theorem matchesFrom_within {skip : Nat} {read rest : List unit}
    (h : m ∈ r.matchesFrom skip read rest) (index : Nat) : m.captured index <:+: rest := by
  rcases mem_matchesFrom h with ⟨front, back, rfl, hrun⟩
  have hback : m.text <:+: back := by
    rw [run_text hrun]
    exact (List.prefix_append _ _).isInfix
  exact ((captured_within hrun index).trans hback).trans (List.suffix_append front back).isInfix

end Captures

/-!
## From match to match
-/

section Replacement

variable {r : Regex unit} {f : Match unit -> List unit}

theorem replaceFrom_skip {k : Nat} {read rest : List unit} (hk : k ≤ rest.length) :
    r.replaceFrom f k read rest =
      r.replaceFrom f 0 ((rest.take k).reverse ++ read) (rest.drop k) := by
  induction rest generalizing k read with
  | nil =>
      cases k with
      | zero => rfl
      | succ k => cases hk
  | cons c rest ih =>
      cases k with
      | zero => rfl
      | succ k =>
          rw [Regex.replaceFrom, ih (Nat.le_of_succ_le_succ hk), List.take_succ_cons,
            List.reverse_cons, List.append_assoc]
          rfl

/-- Every match is non-empty. -/
def Consumes (r : Regex unit) : Prop :=
  forall read rest m, m ∈ r.run read rest -> m.text ≠ []

/-- What follows a match that consumes is shorter than what was searched. -/
theorem rest_lt_of_find {r : Regex unit} (h : Consumes r)
    {read rest skipped : List unit} {m : Match unit}
    (hfound : r.find read rest = some (skipped, m)) : m.rest.length < rest.length := by
  have hleft := leftmost_of_find hfound
  have hpos := List.length_pos_iff.mpr (h _ _ m (matchHere_mem hleft.here))
  rw [hleft.text, List.length_append, List.length_append]
  omega

/-- The pattern has a part that reads at least one unit in every match. -/
def Regex.eats : Regex unit -> Bool
  | .one _ => true
  | .many _ least _ => 1 ≤ least
  | .seq first second => first.eats || second.eats
  | .after first _ => first.eats
  | .alt first second => first.eats && second.eats
  | .group _ inner => inner.eats
  | _ => false

theorem consumes_of_eats (h : r.eats = true) : Consumes r := by
  intro read rest m hm hnil
  induction r generalizing read rest m with
  | one accepts =>
      cases rest with
      | nil => cases hm
      | cons c rest =>
          simp only [Regex.run] at hm
          split at hm
          · rw [List.mem_singleton.mp hm] at hnil
            cases hnil
          · cases hm
  | many accepts least most =>
      rw [Regex.run, List.mem_map] at hm
      rcases hm with ⟨k, hk, rfl⟩
      rw [List.mem_filter, List.mem_reverse, List.mem_range, decide_eq_true_eq] at hk
      have hpos : 0 < k := Nat.lt_of_lt_of_le (of_decide_eq_true h) hk.2
      have hrun : 0 < runLength accepts most rest :=
        Nat.lt_of_lt_of_le hpos (Nat.le_of_lt_succ hk.1)
      cases List.take_eq_nil_iff.mp hnil with
      | inl hzero => exact absurd hzero (Nat.ne_of_gt hpos)
      | inr hempty =>
          rw [hempty] at hrun
          cases most with
          | none => cases hrun
          | some most => exact absurd hrun (Nat.not_lt.mpr (Nat.min_le_right most 0))
  | seq first second ihFirst ihSecond =>
      rcases mem_run_seq.mp hm with ⟨x, hx, y, hy, rfl⟩
      have hparts := List.append_eq_nil_iff.mp hnil
      rw [Regex.eats, Bool.or_eq_true] at h
      cases h with
      | inl h => exact ihFirst h _ _ x hx hparts.1
      | inr h => exact ihSecond h _ _ y hy hparts.2
  | after first second ihFirst _ =>
      rcases mem_run_after.mp hm with ⟨x, hx, y, _, rfl⟩
      exact ihFirst h _ _ x hx (List.append_eq_nil_iff.mp hnil).1
  | alt first second ihFirst ihSecond =>
      rw [Regex.eats, Bool.and_eq_true] at h
      cases mem_run_alt.mp hm with
      | inl hm => exact ihFirst h.1 _ _ m hm hnil
      | inr hm => exact ihSecond h.2 _ _ m hm hnil
  | group index inner ih =>
      rw [Regex.run, List.mem_map] at hm
      rcases hm with ⟨x, hx, rfl⟩
      exact ih h _ _ x hx hnil
  | empty => cases h
  | few accepts => cases h
  | edge holds => cases h
  | behind inner => cases h
  | ahead inner => cases h

theorem Consumes.matchHere_nil (h : Consumes r) (read : List unit) :
    r.matchHere read [] = none := by
  cases hhere : r.matchHere read [] with
  | none => rfl
  | some m =>
      have htext := run_text (matchHere_mem hhere)
      exact absurd (List.append_eq_nil_iff.mp htext.symm).1 (h _ _ m (matchHere_mem hhere))

theorem replaceFrom_none (h : Consumes r) {read rest : List unit}
    (hnone : r.find read rest = none) : r.replaceFrom f 0 read rest = rest := by
  induction rest generalizing read with
  | nil =>
      rw [Regex.replaceFrom, h.matchHere_nil]
  | cons c rest ih =>
      have hhere := find_eq_none_iff.mp hnone [] (c :: rest) rfl
      rw [List.reverse_nil, List.nil_append] at hhere
      rw [Regex.find, hhere] at hnone
      rw [Regex.replaceFrom, hhere]
      rw [ih (Option.map_eq_none_iff.mp hnone)]

theorem replaceFrom_some (h : Consumes r) {read rest skipped : List unit} {m : Match unit}
    (hfound : r.find read rest = some (skipped, m)) :
    r.replaceFrom f 0 read rest =
      skipped ++ (f m ++ r.replaceFrom f 0 (m.text.reverse ++ (skipped.reverse ++ read)) m.rest) := by
  induction rest generalizing read skipped with
  | nil =>
      rw [Regex.find, h.matchHere_nil] at hfound
      cases hfound
  | cons c rest ih =>
      rw [Regex.find] at hfound
      cases hhere : r.matchHere read (c :: rest) with
      | some found =>
          rw [hhere] at hfound
          cases hfound
          have hmem := matchHere_mem hhere
          have htext := run_text hmem
          cases hm : m.text with
          | nil => exact absurd hm (h _ _ m hmem)
          | cons d text =>
              rw [hm, List.cons_append, List.cons.injEq] at htext
              rcases htext with ⟨rfl, htext⟩
              have hlength : text.length ≤ rest.length := by
                rw [htext, List.length_append]
                exact Nat.le_add_right _ _
              rw [Regex.replaceFrom, hhere]
              simp only [hm, List.isEmpty_cons, Bool.false_eq_true, if_false, List.length_cons,
                Nat.add_sub_cancel]
              rw [replaceFrom_skip hlength, htext, List.take_left, List.drop_left]
              simp
      | none =>
          rw [hhere] at hfound
          simp only [Option.map_eq_some_iff] at hfound
          rcases hfound with ⟨found, hfound, heq⟩
          cases heq
          rw [Regex.replaceFrom, hhere]
          simp only [ih hfound, List.cons_append, List.reverse_cons, List.append_assoc,
            List.nil_append]

/-- Where every match is replaced by its own text, nothing changes. -/
theorem replaceFrom_same (h : Consumes r) {read rest : List unit}
    (hf : forall front back m, rest = front ++ back ->
      r.matchHere (front.reverse ++ read) back = some m -> f m = m.text) :
    r.replaceFrom f 0 read rest = rest := by
  induction hlength : rest.length using Nat.strongRecOn generalizing read rest with
  | ind n ih =>
      cases hfound : r.find read rest with
      | none => exact replaceFrom_none h hfound
      | some found =>
          rcases found with ⟨skipped, m⟩
          have hleft := leftmost_of_find hfound
          have hshorter : m.rest.length < n := hlength ▸ rest_lt_of_find h hfound
          have hlater : forall front back m', m.rest = front ++ back ->
              r.matchHere (front.reverse ++ (m.text.reverse ++ (skipped.reverse ++ read))) back =
                some m' -> f m' = m'.text := by
            intro front back m' hsplit hhere
            apply hf (skipped ++ (m.text ++ front)) back m'
            · rw [hleft.text, hsplit]
              simp only [List.append_assoc]
            · rw [List.reverse_append, List.reverse_append, List.append_assoc, List.append_assoc]
              exact hhere
          rw [replaceFrom_some h hfound, hf skipped _ m hleft.text hleft.here,
            ih _ hshorter hlater rfl]
          exact hleft.text.symm

/-- A pattern that matches wherever a unit of `bad` stands leaves none of them. -/
theorem replaceFrom_free (h : Consumes r) {bad : unit -> Prop}
    (hmatches : forall read u rest, bad u -> r.matchHere read (u :: rest) ≠ none)
    (hf : forall m u, u ∈ f m -> ¬ bad u) (read rest : List unit) {u : unit}
    (hu : u ∈ r.replaceFrom f 0 read rest) : ¬ bad u := by
  induction hlength : rest.length using Nat.strongRecOn generalizing read rest with
  | ind n ih =>
      intro hbad
      cases hfound : r.find read rest with
      | none =>
          rw [replaceFrom_none h hfound] at hu
          rcases List.append_of_mem hu with ⟨front, back, rfl⟩
          exact hmatches _ u back hbad (find_eq_none_iff.mp hfound front _ rfl)
      | some found =>
          rcases found with ⟨skipped, m⟩
          have hleft := leftmost_of_find hfound
          rw [replaceFrom_some h hfound, List.mem_append, List.mem_append] at hu
          rcases hu with hskipped | hreplaced | hrest
          · rcases List.append_of_mem hskipped with ⟨front, back, rfl⟩
            have hearlier := hleft.first front (u :: back ++ (m.text ++ m.rest))
              (by rw [hleft.text, List.append_assoc]) (by simp)
            exact hmatches _ u _ hbad hearlier
          · exact hf m u hreplaced hbad
          · have hshorter : m.rest.length < n := hlength ▸ rest_lt_of_find h hfound
            exact ih _ hshorter _ _ hrest rfl hbad

end Replacement

end Foundation
end CatFactory
