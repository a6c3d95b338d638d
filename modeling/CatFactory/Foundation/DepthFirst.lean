import Mathlib.Data.List.Basic
import Mathlib.Data.List.Infix
import Mathlib.Data.List.Nodup
import Mathlib.Data.List.Induction

/-!
# A depth-first walk with a depth bound

The walk follows the links of a value in order, down to a bound, and does not
enter a shared value twice.  It takes the first walks of the graph in the order
of their positions.  Since a shared value may be entered first at the bound, it
does not always visit all that is near enough; it does exactly where what is met
late has no link of its own to add.
-/

namespace CatFactory
namespace Foundation

namespace DepthFirst

variable {value : Type} [DecidableEq value]

section Definitions

variable (links : value -> List value) (absent shared : value -> Bool)

/-- Visit a value and what is below it, `left` levels in all. -/
def visit : Nat -> value -> List value -> List value
  | 0, _, out => out
  | left + 1, v, out =>
      if absent v = true ∨ shared v = true ∧ v ∈ out then out
      else (links v).foldl (fun out link => visit left link out) (out ++ [v])

/-- So many links lead from one value to another. -/
inductive Reaches : Nat -> value -> value -> Prop where
  | here {v : value} (present : absent v = false) : Reaches 0 v v
  | link {n : Nat} {v next u : value} (present : absent v = false) (mem : next ∈ links v)
      (rest : Reaches n next u) : Reaches (n + 1) v u

/-- Every walk of fewer than `left` links with the positions it takes, a walk before those that
prolong it and these in the order of the links. -/
def walksFrom : Nat -> List Nat -> value -> List (List Nat × value)
  | 0, _, _ => []
  | left + 1, path, v =>
      if absent v = true then []
      else (path, v) :: (links v).zipIdx.flatMap fun link =>
        walksFrom left (path ++ [link.2]) link.1

/-- A walk is kept where its beginning was, and no kept walk ends in the same shared value. -/
def keepFirst (kept : List (List Nat × value)) (walk : List Nat × value) :
    List (List Nat × value) :=
  if (walk.1 = [] ∨ walk.1.dropLast ∈ kept.map Prod.fst) ∧
      ¬ (shared walk.2 = true ∧ walk.2 ∈ kept.map Prod.snd) then kept ++ [walk]
  else kept

/-- The walks of at most `bound` links by which values are first met. -/
def firstWalks (bound : Nat) (root : value) : List (List Nat × value) :=
  (walksFrom links absent (bound + 1) [] root).foldl (keepFirst shared) []

end Definitions

variable {links : value -> List value} {absent shared : value -> Bool}

/-!
## Links
-/

omit [DecidableEq value] in
theorem Reaches.snoc {n : Nat} {v u next : value} (h : Reaches links absent n v u)
    (hmem : next ∈ links u) (hpresent : absent next = false) :
    Reaches links absent (n + 1) v next := by
  induction h with
  | here present => exact .link present hmem (.here hpresent)
  | link present mem rest ih => exact .link present mem (ih hmem)

omit [DecidableEq value] in
theorem Reaches.last {n : Nat} {v u : value} (h : Reaches links absent (n + 1) v u) :
    exists before, Reaches links absent n v before ∧ u ∈ links before ∧ absent u = false := by
  induction n generalizing v with
  | zero =>
      cases h with
      | link present mem rest =>
          cases rest with
          | here present' => exact ⟨v, .here present, mem, present'⟩
  | succ n ih =>
      cases h with
      | link present mem rest =>
          rcases ih rest with ⟨before, hbefore, hlink, hpresent⟩
          exact ⟨before, .link present mem hbefore, hlink, hpresent⟩

omit [DecidableEq value] in
/-- What a list holds with all its links is all that is reached from it. -/
theorem Reaches.mem_of_closed {closed : List value}
    (hlinks : forall v, v ∈ closed -> forall link, link ∈ links v -> absent link = false ->
      link ∈ closed)
    {n : Nat} {v u : value} (hv : v ∈ closed) (h : Reaches links absent n v u) : u ∈ closed := by
  induction n generalizing u with
  | zero =>
      cases h with
      | here present => exact hv
  | succ n ih =>
      rcases h.last with ⟨before, hbefore, hlink, hpresent⟩
      exact hlinks before (ih hbefore) u hlink hpresent

/-!
## Walks that are kept
-/

/-- No kept walk begins so. -/
def Clear (kept : List (List Nat × value)) (path : List Nat) : Prop :=
  forall walk, walk ∈ kept -> ¬ path <+: walk.1

omit [DecidableEq value] in
theorem path_of_mem_walksFrom {left : Nat} {path : List Nat} {v : value}
    {walk : List Nat × value} (h : walk ∈ walksFrom links absent left path v) :
    path <+: walk.1 := by
  induction left generalizing path v with
  | zero => cases h
  | succ left ih =>
      rw [walksFrom] at h
      split at h
      · cases h
      · rcases List.mem_cons.mp h with heq | hbelow
        · rw [heq]
        · rcases List.mem_flatMap.mp hbelow with ⟨link, _, hwalk⟩
          exact (List.prefix_append path [link.2]).trans (ih hwalk)

/-- Below a walk that is not kept nothing is. -/
theorem foldl_keepFirst_blocked {kept walks : List (List Nat × value)} {path : List Nat}
    (hclear : Clear kept path)
    (hbelow : forall walk, walk ∈ walks -> exists place, path ++ [place] <+: walk.1) :
    walks.foldl (keepFirst shared) kept = kept := by
  induction walks with
  | nil => rfl
  | cons walk walks ih =>
      have hskip : keepFirst shared kept walk = kept := by
        rcases hbelow walk List.mem_cons_self with ⟨place, rest, hwalk⟩
        rw [keepFirst, if_neg]
        intro h
        rcases h.left with hempty | hparent
        · rw [hempty] at hwalk
          simp at hwalk
        · rcases List.mem_map.mp hparent with ⟨parent, hmem, hpath⟩
          apply hclear parent hmem
          rw [hpath, ← hwalk, List.append_assoc, List.dropLast_append_of_ne_nil (by simp)]
          exact List.prefix_append path _
      rw [List.foldl_cons, hskip]
      exact ih fun other hother => hbelow other (List.mem_cons_of_mem _ hother)

/-- What the walks from a value add to those that were kept. -/
structure Grown (links : value -> List value) (absent shared : value -> Bool) (left : Nat)
    (path : List Nat) (v : value) (kept new : List (List Nat × value)) : Prop where
  result : (walksFrom links absent left path v).foldl (keepFirst shared) kept = kept ++ new
  visits : visit links absent shared left v (kept.map Prod.snd) = (kept ++ new).map Prod.snd
  below : forall walk, walk ∈ new -> path <+: walk.1
  reaches : forall walk, walk ∈ new -> exists n, walk.1.length = path.length + n ∧ n < left ∧
    Reaches links absent n v walk.2
  parent : forall walk, walk ∈ new -> walk = (path, v) ∨
    exists u, (walk.1.dropLast, u) ∈ new ∧ walk.2 ∈ links u
  /-- The links of a walk short of the last level are met. -/
  closed : forall walk, walk ∈ new -> walk.1.length + 1 < path.length + left ->
    forall link, link ∈ links walk.2 -> absent link = false ->
      link ∈ (kept ++ new).map Prod.snd
  met : 0 < left -> absent v = false -> v ∈ (kept ++ new).map Prod.snd

/-- What the walks through some links of one value add, from a place on. -/
structure GrownBy (links : value -> List value) (absent shared : value -> Bool) (left : Nat)
    (path : List Nat) (nexts : List value) (place : Nat) (kept new : List (List Nat × value)) :
    Prop where
  result : ((nexts.zipIdx place).flatMap fun link =>
    walksFrom links absent left (path ++ [link.2]) link.1).foldl (keepFirst shared) kept =
      kept ++ new
  visits : nexts.foldl (fun out link => visit links absent shared left link out)
    (kept.map Prod.snd) = (kept ++ new).map Prod.snd
  below : forall walk, walk ∈ new -> exists other, place ≤ other ∧ path ++ [other] <+: walk.1
  reaches : forall walk, walk ∈ new -> exists link n, link ∈ nexts ∧
    walk.1.length = path.length + 1 + n ∧ n < left ∧ Reaches links absent n link walk.2
  parent : forall walk, walk ∈ new -> walk.1.dropLast = path ∧ walk.2 ∈ nexts ∨
    exists u, (walk.1.dropLast, u) ∈ new ∧ walk.2 ∈ links u
  closed : forall walk, walk ∈ new -> walk.1.length + 1 < path.length + 1 + left ->
    forall link, link ∈ links walk.2 -> absent link = false ->
      link ∈ (kept ++ new).map Prod.snd
  met : 0 < left -> forall link, link ∈ nexts -> absent link = false ->
    link ∈ (kept ++ new).map Prod.snd

theorem exists_grownBy {left : Nat}
    (hone : forall (path : List Nat) (v : value) (kept : List (List Nat × value)),
      Clear kept path -> (path = [] ∨ path.dropLast ∈ kept.map Prod.fst) ->
      exists new, Grown links absent shared left path v kept new)
    (path : List Nat) (nexts : List value) (place : Nat) (kept : List (List Nat × value))
    (hclear : forall other, place ≤ other -> Clear kept (path ++ [other]))
    (hpath : path ∈ kept.map Prod.fst) :
    exists new, GrownBy links absent shared left path nexts place kept new := by
  induction nexts generalizing place kept with
  | nil =>
      refine ⟨[], ?_⟩
      constructor
      · rw [List.append_nil]
        rfl
      · rw [List.append_nil]
        rfl
      · intro walk h
        cases h
      · intro walk h
        cases h
      · intro walk h
        cases h
      · intro walk h
        cases h
      · intro _ link h
        cases h
  | cons next nexts ih =>
      rcases hone (path ++ [place]) next kept (hclear place (Nat.le_refl place))
        (Or.inr (by rw [List.dropLast_concat]; exact hpath)) with ⟨first, hfirst⟩
      have hclear' : forall other, place + 1 ≤ other -> Clear (kept ++ first) (path ++ [other]) := by
        intro other hother walk hwalk
        rcases List.mem_append.mp hwalk with hold | hnew
        · exact hclear other (Nat.le_of_succ_le hother) walk hold
        · intro hstarts
          have hboth := List.prefix_of_prefix_length_le hstarts (hfirst.below walk hnew) (by simp)
          have heq := List.append_cancel_left (hboth.eq_of_length (by simp))
          have hplace := List.cons.inj heq
          rw [hplace.left] at hother
          exact absurd hother (Nat.not_succ_le_self place)
      have hpath' : path ∈ (kept ++ first).map Prod.fst := by
        rw [List.map_append]
        exact List.mem_append_left _ hpath
      rcases ih (place + 1) (kept ++ first) hclear' hpath' with ⟨later, hlater⟩
      have hmore : forall u, u ∈ (kept ++ first).map Prod.snd ->
          u ∈ (kept ++ first ++ later).map Prod.snd := by
        intro u hu
        rw [List.map_append]
        exact List.mem_append_left _ hu
      refine ⟨first ++ later, ?_⟩
      constructor
      · rw [List.zipIdx_cons, List.flatMap_cons, List.foldl_append, hfirst.result, hlater.result,
          List.append_assoc]
      · rw [List.foldl_cons, hfirst.visits, hlater.visits, List.append_assoc]
      · intro walk hwalk
        rcases List.mem_append.mp hwalk with h | h
        · exact ⟨place, Nat.le_refl place, hfirst.below walk h⟩
        · rcases hlater.below walk h with ⟨other, hother, hstarts⟩
          exact ⟨other, Nat.le_of_succ_le hother, hstarts⟩
      · intro walk hwalk
        rcases List.mem_append.mp hwalk with h | h
        · rcases hfirst.reaches walk h with ⟨n, hlength, hn, hreaches⟩
          refine ⟨next, n, List.mem_cons_self, ?_, hn, hreaches⟩
          rw [hlength, List.length_append, List.length_singleton]
        · rcases hlater.reaches walk h with ⟨link, n, hlink, hrest⟩
          exact ⟨link, n, List.mem_cons_of_mem _ hlink, hrest⟩
      · intro walk hwalk
        rcases List.mem_append.mp hwalk with h | h
        · rcases hfirst.parent walk h with heq | ⟨u, hu, hlink⟩
          · rw [heq, List.dropLast_concat]
            exact Or.inl ⟨rfl, List.mem_cons_self⟩
          · exact Or.inr ⟨u, List.mem_append_left _ hu, hlink⟩
        · rcases hlater.parent walk h with ⟨hdrop, hnext⟩ | ⟨u, hu, hlink⟩
          · exact Or.inl ⟨hdrop, List.mem_cons_of_mem _ hnext⟩
          · exact Or.inr ⟨u, List.mem_append_right _ hu, hlink⟩
      · intro walk hwalk hlength link hlink hpresent
        rw [← List.append_assoc]
        rcases List.mem_append.mp hwalk with h | h
        · apply hmore
          apply hfirst.closed walk h _ link hlink hpresent
          rw [List.length_append, List.length_singleton]
          exact hlength
        · exact hlater.closed walk h hlength link hlink hpresent
      · intro hleft link hlink hpresent
        rw [← List.append_assoc]
        rcases List.mem_cons.mp hlink with heq | hrest
        · rw [heq] at hpresent ⊢
          exact hmore next (hfirst.met hleft hpresent)
        · exact hlater.met hleft link hrest hpresent

theorem grown_nothing {left : Nat} {path : List Nat} {v : value}
    {kept : List (List Nat × value)}
    (hresult : (walksFrom links absent left path v).foldl (keepFirst shared) kept = kept)
    (hvisits : visit links absent shared left v (kept.map Prod.snd) = kept.map Prod.snd)
    (hmet : 0 < left -> absent v = false -> v ∈ kept.map Prod.snd) :
    Grown links absent shared left path v kept [] := by
  constructor
  · rw [List.append_nil]
    exact hresult
  · rw [List.append_nil]
    exact hvisits
  · intro walk h
    cases h
  · intro walk h
    cases h
  · intro walk h
    cases h
  · intro walk h
    cases h
  · rw [List.append_nil]
    exact hmet

theorem exists_grown (left : Nat) (path : List Nat) (v : value) (kept : List (List Nat × value))
    (hclear : Clear kept path) (hparent : path = [] ∨ path.dropLast ∈ kept.map Prod.fst) :
    exists new, Grown links absent shared left path v kept new := by
  induction left generalizing path v kept with
  | zero =>
      refine ⟨[], grown_nothing rfl rfl ?_⟩
      intro h
      cases h
  | succ left ih =>
      cases habsent : absent v with
      | true =>
          refine ⟨[], grown_nothing ?_ ?_ ?_⟩
          · rw [walksFrom, if_pos habsent]
            rfl
          · rw [visit, if_pos (Or.inl habsent)]
          · intro _ hpresent
            rw [habsent] at hpresent
            cases hpresent
      | false =>
          have hnot : ¬ absent v = true := by
            rw [habsent]
            exact Bool.false_ne_true
          by_cases hseen : shared v = true ∧ v ∈ kept.map Prod.snd
          · have hskip : keepFirst shared kept (path, v) = kept := by
              rw [keepFirst, if_neg]
              intro h
              exact h.right hseen
            refine ⟨[], grown_nothing ?_ ?_ fun _ _ => hseen.right⟩
            · rw [walksFrom, if_neg hnot, List.foldl_cons, hskip]
              apply foldl_keepFirst_blocked hclear
              intro walk hwalk
              rcases List.mem_flatMap.mp hwalk with ⟨link, _, hbelow⟩
              exact ⟨link.2, path_of_mem_walksFrom hbelow⟩
            · rw [visit, if_pos (Or.inr hseen)]
          · have hkeep : keepFirst shared kept (path, v) = kept ++ [(path, v)] := by
              rw [keepFirst, if_pos ⟨hparent, hseen⟩]
            have hclear' : forall other, 0 ≤ other ->
                Clear (kept ++ [(path, v)]) (path ++ [other]) := by
              intro other _ walk hwalk hstarts
              rcases List.mem_append.mp hwalk with hold | hnew
              · exact hclear walk hold ((List.prefix_append path [other]).trans hstarts)
              · rw [List.mem_singleton.mp hnew] at hstarts
                have hlength := hstarts.length_le
                rw [List.length_append, List.length_singleton] at hlength
                exact absurd hlength (Nat.not_succ_le_self path.length)
            have hpath : path ∈ (kept ++ [(path, v)]).map Prod.fst := by
              rw [List.map_append]
              exact List.mem_append_right _ (List.mem_singleton.mpr rfl)
            rcases exists_grownBy ih path (links v) 0 (kept ++ [(path, v)]) hclear' hpath with
              ⟨later, hlater⟩
            have hsplit : kept ++ [(path, v)] ++ later = kept ++ (path, v) :: later := by
              rw [List.append_assoc]
              rfl
            have hmap : (kept ++ [(path, v)]).map Prod.snd = kept.map Prod.snd ++ [v] := by
              rw [List.map_append]
              rfl
            refine ⟨(path, v) :: later, ?_⟩
            constructor
            · rw [walksFrom, if_neg hnot, List.foldl_cons, hkeep, hlater.result, hsplit]
            · have hopen : ¬ (absent v = true ∨ shared v = true ∧ v ∈ kept.map Prod.snd) := by
                intro h
                cases h with
                | inl h => exact hnot h
                | inr h => exact hseen h
              rw [visit, if_neg hopen, ← hmap, hlater.visits, hsplit]
            · intro walk hwalk
              rcases List.mem_cons.mp hwalk with heq | h
              · rw [heq]
              · rcases hlater.below walk h with ⟨other, _, hstarts⟩
                exact (List.prefix_append path [other]).trans hstarts
            · intro walk hwalk
              rcases List.mem_cons.mp hwalk with heq | h
              · rw [heq]
                exact ⟨0, rfl, Nat.succ_pos left, .here habsent⟩
              · rcases hlater.reaches walk h with ⟨link, n, hlink, hlength, hn, hreaches⟩
                refine ⟨n + 1, ?_, Nat.succ_lt_succ hn, .link habsent hlink hreaches⟩
                rw [hlength, Nat.add_assoc, Nat.add_comm 1 n]
            · intro walk hwalk
              rcases List.mem_cons.mp hwalk with heq | h
              · exact Or.inl heq
              · rcases hlater.parent walk h with ⟨hdrop, hnext⟩ | ⟨u, hu, hlink⟩
                · refine Or.inr ⟨v, ?_, hnext⟩
                  rw [hdrop]
                  exact List.mem_cons_self
                · exact Or.inr ⟨u, List.mem_cons_of_mem _ hu, hlink⟩
            · intro walk hwalk hlength link hlink hpresent
              rw [← hsplit]
              rcases List.mem_cons.mp hwalk with heq | h
              · rw [heq] at hlength hlink
                have hleft : 0 < left := by
                  change path.length + 1 < path.length + (left + 1) at hlength
                  exact Nat.lt_of_succ_lt_succ (Nat.lt_of_add_lt_add_left hlength)
                exact hlater.met hleft link hlink hpresent
              · apply hlater.closed walk h _ link hlink hpresent
                rw [Nat.add_assoc, Nat.add_comm 1 left]
                exact hlength
            · intro _ _
              rw [List.map_append]
              exact List.mem_append_right _ List.mem_cons_self

/-!
## What is visited
-/

theorem grown_firstWalks (bound : Nat) (root : value) :
    Grown links absent shared (bound + 1) [] root []
      (firstWalks links absent shared bound root) := by
  have hclear : Clear ([] : List (List Nat × value)) [] := by
    intro walk hwalk
    cases hwalk
  rcases @exists_grown value _ links absent shared (bound + 1) [] root [] hclear (Or.inl rfl) with
    ⟨new, hnew⟩
  have heq : firstWalks links absent shared bound root = new := hnew.result
  rw [heq]
  exact hnew

/-- The walk visits the ends of the first walks. -/
theorem visit_eq_firstWalks (bound : Nat) (root : value) :
    visit links absent shared (bound + 1) root [] =
      (firstWalks links absent shared bound root).map Prod.snd :=
  (grown_firstWalks bound root).visits

/-- A shared value is visited once. -/
theorem nodup_shared_visit (bound : Nat) (root : value) :
    ((visit links absent shared (bound + 1) root []).filter shared).Nodup := by
  have hfold : forall (walks kept : List (List Nat × value)),
      ((kept.map Prod.snd).filter shared).Nodup ->
      (((walks.foldl (keepFirst shared) kept).map Prod.snd).filter shared).Nodup := by
    intro walks
    induction walks with
    | nil =>
        intro kept h
        exact h
    | cons walk walks ih =>
        intro kept h
        apply ih
        rw [keepFirst]
        split
        · rename_i hkeep
          rw [List.map_append, List.filter_append, List.map_singleton]
          cases hshared : shared walk.2 with
          | false =>
              rw [List.filter_cons_of_neg (by rw [hshared]; exact Bool.false_ne_true),
                List.filter_nil, List.append_nil]
              exact h
          | true =>
              rw [List.filter_cons_of_pos hshared, List.filter_nil, ← List.concat_eq_append]
              apply List.Nodup.concat _ h
              intro hmem
              exact hkeep.right ⟨hshared, (List.mem_filter.mp hmem).left⟩
        · exact h
  rw [visit_eq_firstWalks]
  exact hfold _ [] List.nodup_nil

/-- First met above the bound. -/
def Early (links : value -> List value) (absent shared : value -> Bool) (bound : Nat)
    (root u : value) : Prop :=
  exists path, (path, u) ∈ firstWalks links absent shared bound root ∧ path.length < bound

/-- At most so many links away. -/
def Near (links : value -> List value) (absent : value -> Bool) (bound : Nat)
    (root u : value) : Prop :=
  exists n, n ≤ bound ∧ Reaches links absent n root u

/-- What is above the bound but not met there adds no link: each of its links is the root, or the
link of a value that is met above the bound. -/
def Timely (links : value -> List value) (absent shared : value -> Bool) (bound : Nat)
    (root : value) : Prop :=
  forall u link, (exists n, n < bound ∧ Reaches links absent n root u) ->
    ¬ Early links absent shared bound root u -> link ∈ links u -> absent link = false ->
    link = root ∨ exists u', Early links absent shared bound root u' ∧ link ∈ links u'

theorem near_of_visit {bound : Nat} {root v : value}
    (h : v ∈ visit links absent shared (bound + 1) root []) : Near links absent bound root v := by
  rw [visit_eq_firstWalks] at h
  rcases List.mem_map.mp h with ⟨walk, hwalk, heq⟩
  rcases (grown_firstWalks bound root).reaches walk hwalk with ⟨n, _, hn, hreaches⟩
  rw [heq] at hreaches
  exact ⟨n, Nat.le_of_lt_succ hn, hreaches⟩

/-- A link of a value that is met above the bound is visited. -/
theorem visit_of_early {bound : Nat} {root u link : value}
    (hearly : Early links absent shared bound root u) (hlink : link ∈ links u)
    (hpresent : absent link = false) : link ∈ visit links absent shared (bound + 1) root [] := by
  rcases hearly with ⟨path, hpath, hlength⟩
  rw [visit_eq_firstWalks]
  apply (grown_firstWalks bound root).closed (path, u) hpath _ link hlink hpresent
  rw [List.length_nil, Nat.zero_add]
  exact Nat.succ_lt_succ hlength

/-- What is visited is the root or a link of a value that is met above the bound. -/
theorem root_or_early_of_visit {bound : Nat} {root v : value}
    (h : v ∈ visit links absent shared (bound + 1) root []) :
    v = root ∨ exists u, Early links absent shared bound root u ∧ v ∈ links u := by
  have hgrown := @grown_firstWalks value _ links absent shared bound root
  rw [visit_eq_firstWalks] at h
  rcases List.mem_map.mp h with ⟨⟨path, w⟩, hwalk, heq⟩
  change w = v at heq
  rw [heq] at hwalk
  rcases hgrown.reaches _ hwalk with ⟨n, hlength, hn, hreaches⟩
  change path.length = 0 + n at hlength
  rw [Nat.zero_add] at hlength
  cases n with
  | zero =>
      cases hreaches with
      | here _ => exact Or.inl rfl
  | succ n =>
      rcases hgrown.parent _ hwalk with hroot | ⟨before, hbefore, hnext⟩
      · have hnil : path = [] := congrArg Prod.fst hroot
        rw [hnil] at hlength
        cases hlength
      · refine Or.inr ⟨before, ⟨path.dropLast, hbefore, ?_⟩, hnext⟩
        rw [List.length_dropLast, hlength]
        exact Nat.lt_of_succ_lt_succ hn

/-- The walk visits all that is near exactly where nothing with links of its own is met late. -/
theorem visit_near_iff (bound : Nat) (root : value) :
    (forall v, v ∈ visit links absent shared (bound + 1) root [] <->
        Near links absent bound root v) <->
      Timely links absent shared bound root := by
  constructor
  · intro h u link hu _ hlink hpresent
    rcases hu with ⟨n, hn, hreaches⟩
    exact root_or_early_of_visit ((h link).mpr ⟨n + 1, hn, hreaches.snoc hlink hpresent⟩)
  · intro h v
    constructor
    · exact near_of_visit
    · intro hnear
      rcases hnear with ⟨n, hn, hreaches⟩
      have hroot : absent root = false -> root ∈ visit links absent shared (bound + 1) root [] := by
        rw [visit_eq_firstWalks]
        exact (grown_firstWalks bound root).met (Nat.succ_pos bound)
      cases n with
      | zero =>
          cases hreaches with
          | here present => exact hroot present
      | succ n =>
          rcases hreaches.last with ⟨before, hbefore, hlink, hpresent⟩
          by_cases hearly : Early links absent shared bound root before
          · exact visit_of_early hearly hlink hpresent
          · rcases h before v ⟨n, hn, hbefore⟩ hearly hlink hpresent with heq | ⟨u, hu, hnext⟩
            · rw [heq] at hpresent ⊢
              exact hroot hpresent
            · exact visit_of_early hu hnext hpresent

end DepthFirst

end Foundation
end CatFactory
