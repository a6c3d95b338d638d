import Mathlib.Data.List.Basic
import Mathlib.Data.List.Nodup
import Mathlib.Data.Set.Finite.List
import Mathlib.Logic.Relation
import Mathlib.Order.WellFoundedSet

/-!
# Searching a graph

A graph is given by the list of the nodes next to each node.  A search keeps a
pile of nodes to look at and a list of those it has seen; a closure goes over a
list of links until a whole pass adds nothing.  Both are exact, and both stop
within a bound that is read off the graph.
-/

namespace CatFactory
namespace Foundation
namespace Graph

open Relation

variable {node : Type}

/-- One link of the graph. -/
def Link (next : node -> List node) (n m : node) : Prop :=
  m ∈ next n

/-- What a set that keeps the links has of the beginning, it has of all that is reached. -/
theorem reach_of_closed {edge : node -> node -> Prop} {P : node -> Prop}
    (hclosed : forall n m, P n -> edge n m -> P m) {n m : node} (hn : P n)
    (h : ReflTransGen edge n m) : P m := by
  induction h with
  | refl => exact hn
  | tail _ hedge ih => exact hclosed _ _ ih hedge

section Search

variable [DecidableEq node]

/-!
## A search with a pile
-/

/-- Look for the goal; `none` when the steps run out. -/
def search (next : node -> List node) (goal : node) :
    Nat -> List node -> List node -> Option Bool
  | 0, _, _ => none
  | _ + 1, [], _ => some false
  | fuel + 1, n :: pile, seen =>
      if n = goal then some true
      else if n ∈ seen then search next goal fuel pile seen
      else search next goal fuel ((next n).reverse ++ pile) (n :: seen)

/-- How many links lead out of the listed nodes that are not seen yet. -/
def unseenLinks (next : node -> List node) : List node -> List node -> Nat
  | [], _ => 0
  | n :: nodes, seen =>
      (if n ∈ seen then 0 else (next n).length) + unseenLinks next nodes seen

theorem unseenLinks_cons_le (next : node -> List node) (nodes seen : List node) (m : node) :
    unseenLinks next nodes (m :: seen) ≤ unseenLinks next nodes seen := by
  induction nodes with
  | nil => exact Nat.le_refl 0
  | cons n nodes ih =>
      unfold unseenLinks
      apply Nat.add_le_add _ ih
      by_cases hn : n ∈ seen
      · rw [if_pos hn, if_pos (List.mem_cons_of_mem m hn)]
      · rw [if_neg hn]
        split
        · exact Nat.zero_le _
        · exact Nat.le_refl _

theorem unseenLinks_visit (next : node -> List node) {nodes seen : List node} {m : node}
    (hm : m ∈ nodes) (hseen : m ∉ seen) :
    (next m).length + unseenLinks next nodes (m :: seen) ≤ unseenLinks next nodes seen := by
  induction nodes with
  | nil => cases hm
  | cons n nodes ih =>
      unfold unseenLinks
      rcases List.mem_cons.mp hm with heq | hmem
      · rw [← heq, if_neg hseen, if_pos List.mem_cons_self, Nat.zero_add]
        exact Nat.add_le_add_left (unseenLinks_cons_le next nodes seen m) _
      · have hrest := ih hmem
        have hone : (if n ∈ m :: seen then 0 else (next n).length) ≤
            if n ∈ seen then 0 else (next n).length := by
          by_cases hn : n ∈ seen
          · rw [if_pos hn, if_pos (List.mem_cons_of_mem m hn)]
          · rw [if_neg hn]
            split
            · exact Nat.zero_le _
            · exact Nat.le_refl _
        omega

/-- The steps that a search takes are bounded by the links it can still follow. -/
theorem search_isSome {next : node -> List node} (goal : node) {nodes : List node}
    (hout : forall n, n ∉ nodes -> next n = []) (fuel : Nat) (pile seen : List node)
    (h : pile.length + unseenLinks next nodes seen < fuel) :
    (search next goal fuel pile seen).isSome = true := by
  induction fuel generalizing pile seen with
  | zero => cases h
  | succ fuel ih =>
      cases pile with
      | nil => rfl
      | cons n pile =>
          unfold search
          rw [List.length_cons] at h
          split
          · rfl
          · split
            · apply ih
              omega
            · rename_i hseen
              apply ih
              rw [List.length_append, List.length_reverse]
              by_cases hn : n ∈ nodes
              · have hvisit := unseenLinks_visit next hn hseen
                omega
              · have hempty := hout n hn
                have hless := unseenLinks_cons_le next nodes seen n
                rw [hempty, List.length_nil]
                omega

/-- What holds of a search under way: what was seen is not the goal, and its links are kept. -/
structure Searching (next : node -> List node) (start goal : node) (pile seen : List node) :
    Prop where
  reached : forall n, n ∈ pile -> ReflTransGen (Link next) start n
  started : start ∈ seen ∨ start ∈ pile
  missed : goal ∉ seen
  closed : forall n, n ∈ seen -> forall m, m ∈ next n -> m ∈ seen ∨ m ∈ pile

omit [DecidableEq node] in
theorem Searching.skip {next : node -> List node} {start goal n : node} {pile seen : List node}
    (h : Searching next start goal (n :: pile) seen) (hn : n ∈ seen) :
    Searching next start goal pile seen where
  reached := fun m hm => h.reached m (List.mem_cons_of_mem n hm)
  started := by
    rcases h.started with hseen | hpile
    · exact Or.inl hseen
    · rcases List.mem_cons.mp hpile with heq | hrest
      · exact Or.inl (heq ▸ hn)
      · exact Or.inr hrest
  missed := h.missed
  closed := by
    intro m hm k hk
    rcases h.closed m hm k hk with hseen | hpile
    · exact Or.inl hseen
    · rcases List.mem_cons.mp hpile with heq | hrest
      · exact Or.inl (heq ▸ hn)
      · exact Or.inr hrest

omit [DecidableEq node] in
theorem Searching.visit {next : node -> List node} {start goal n : node} {pile seen : List node}
    (h : Searching next start goal (n :: pile) seen) (hgoal : n ≠ goal) :
    Searching next start goal ((next n).reverse ++ pile) (n :: seen) where
  reached := by
    intro m hm
    rcases List.mem_append.mp hm with hnew | hold
    · exact (h.reached n List.mem_cons_self).tail (List.mem_reverse.mp hnew)
    · exact h.reached m (List.mem_cons_of_mem n hold)
  started := by
    rcases h.started with hseen | hpile
    · exact Or.inl (List.mem_cons_of_mem n hseen)
    · rcases List.mem_cons.mp hpile with heq | hrest
      · exact Or.inl (heq ▸ List.mem_cons_self)
      · exact Or.inr (List.mem_append_right _ hrest)
  missed := by
    intro hmem
    rcases List.mem_cons.mp hmem with heq | hseen
    · exact hgoal heq.symm
    · exact h.missed hseen
  closed := by
    intro m hm k hk
    rcases List.mem_cons.mp hm with heq | hseen
    · exact Or.inr (List.mem_append_left _ (List.mem_reverse.mpr (heq ▸ hk)))
    · rcases h.closed m hseen k hk with hold | hpile
      · exact Or.inl (List.mem_cons_of_mem n hold)
      · rcases List.mem_cons.mp hpile with heq | hrest
        · exact Or.inl (heq ▸ List.mem_cons_self)
        · exact Or.inr (List.mem_append_right _ hrest)

theorem search_sound {next : node -> List node} {start goal : node} (fuel : Nat)
    (pile seen : List node) (h : Searching next start goal pile seen) {found : Bool}
    (hs : search next goal fuel pile seen = some found) :
    found = true ↔ ReflTransGen (Link next) start goal := by
  induction fuel generalizing pile seen with
  | zero => cases hs
  | succ fuel ih =>
      cases pile with
      | nil =>
          cases hs
          constructor
          · intro hfalse
            cases hfalse
          · intro hreach
            have hstart : start ∈ seen := by
              rcases h.started with hseen | hnone
              · exact hseen
              · cases hnone
            have hkeep : forall n m, n ∈ seen -> Link next n m -> m ∈ seen := by
              intro n m hn hm
              rcases h.closed n hn m hm with hseen | hnone
              · exact hseen
              · cases hnone
            exact absurd (reach_of_closed hkeep hstart hreach) h.missed
      | cons n pile =>
          unfold search at hs
          split at hs
          · rename_i hgoal
            cases hs
            exact ⟨fun _ => hgoal ▸ h.reached n List.mem_cons_self, fun _ => rfl⟩
          · rename_i hgoal
            split at hs
            · rename_i hseen
              exact ih pile seen (h.skip hseen) hs
            · exact ih _ _ (h.visit hgoal) hs

/-- Steps enough for a search from one node. -/
def searchBound (next : node -> List node) (nodes : List node) : Nat :=
  unseenLinks next nodes [] + 2

/-- A search from one node finds the goal exactly when the node reaches it. -/
theorem search_exact (next : node -> List node) (nodes : List node)
    (hout : forall n, n ∉ nodes -> next n = []) (start goal : node) :
    exists found, search next goal (searchBound next nodes) [start] [] = some found ∧
      (found = true ↔ ReflTransGen (Link next) start goal) := by
  have hsome := search_isSome goal hout (searchBound next nodes) [start] [] (by
    rw [List.length_singleton]
    unfold searchBound
    omega)
  rcases Option.isSome_iff_exists.mp hsome with ⟨found, hfound⟩
  refine ⟨found, hfound, search_sound _ _ _ ?_ hfound⟩
  exact
    { reached := by
        intro n hn
        rw [List.mem_singleton.mp hn]
      started := Or.inr (List.mem_singleton.mpr rfl)
      missed := List.not_mem_nil
      closed := fun _ hn => by cases hn }

/-!
## Closing a set under links

The links are listed as pairs of an upper node and a lower one.
-/

/-- Go over the links once. -/
def sweep : List (node × node) -> List node -> List node
  | [], found => found
  | (upper, lower) :: links, found =>
      if upper ∈ found ∧ lower ∉ found then sweep links (found ++ [lower])
      else sweep links found

/-- Go over the links until a pass adds nothing; `none` when the passes run out. -/
def close (links : List (node × node)) : Nat -> List node -> Option (List node)
  | 0, _ => none
  | fuel + 1, found =>
      if (sweep links found).length = found.length then some found
      else close links fuel (sweep links found)

/-- There is a link from the one to the other. -/
def Listed (links : List (node × node)) (upper lower : node) : Prop :=
  (upper, lower) ∈ links

theorem sweep_extends (links : List (node × node)) (found : List node) :
    exists added, sweep links found = found ++ added ∧
      forall n, n ∈ added -> n ∈ links.map Prod.snd := by
  induction links generalizing found with
  | nil => exact ⟨[], (List.append_nil found).symm, fun _ h => by cases h⟩
  | cons link links ih =>
      rcases link with ⟨upper, lower⟩
      unfold sweep
      split
      · rcases ih (found ++ [lower]) with ⟨added, hadded, hfrom⟩
        refine ⟨lower :: added, ?_, ?_⟩
        · rw [hadded, List.append_assoc]
          rfl
        · intro n hn
          rcases List.mem_cons.mp hn with heq | hrest
          · rw [heq]
            exact List.mem_cons_self
          · exact List.mem_cons_of_mem _ (hfrom n hrest)
      · rcases ih found with ⟨added, hadded, hfrom⟩
        exact ⟨added, hadded, fun n hn => List.mem_cons_of_mem _ (hfrom n hn)⟩

theorem mem_sweep_of_mem {links : List (node × node)} {found : List node} {n : node}
    (h : n ∈ found) : n ∈ sweep links found := by
  rcases sweep_extends links found with ⟨added, hadded, _⟩
  rw [hadded]
  exact List.mem_append_left added h

theorem nodup_sweep {links : List (node × node)} {found : List node} (h : found.Nodup) :
    (sweep links found).Nodup := by
  induction links generalizing found with
  | nil => exact h
  | cons link links ih =>
      rcases link with ⟨upper, lower⟩
      unfold sweep
      split
      · rename_i hadd
        apply ih
        rw [← List.concat_eq_append]
        exact h.concat hadd.right
      · exact ih h

theorem reached_sweep {links all : List (node × node)} {found : List node} {root : node}
    (hsub : forall link, link ∈ links -> link ∈ all)
    (h : forall n, n ∈ found -> ReflTransGen (Listed all) root n) :
    forall n, n ∈ sweep links found -> ReflTransGen (Listed all) root n := by
  induction links generalizing found with
  | nil => exact h
  | cons link links ih =>
      rcases link with ⟨upper, lower⟩
      have hrest := fun link hlink => hsub link (List.mem_cons_of_mem _ hlink)
      unfold sweep
      split
      · rename_i hadd
        apply ih hrest
        intro n hn
        rcases List.mem_append.mp hn with hold | hnew
        · exact h n hold
        · rw [List.mem_singleton.mp hnew]
          exact (h upper hadd.left).tail (hsub (upper, lower) List.mem_cons_self)
      · exact ih hrest h

/-- A pass that adds nothing leaves no link open. -/
theorem closed_of_sweep {links : List (node × node)} {found : List node}
    (h : (sweep links found).length = found.length) {upper lower : node}
    (hlink : (upper, lower) ∈ links) (hupper : upper ∈ found) : lower ∈ found := by
  induction links with
  | nil => cases hlink
  | cons link links ih =>
      rcases link with ⟨above, below⟩
      unfold sweep at h
      split at h
      · rcases sweep_extends links (found ++ [below]) with ⟨added, hadded, _⟩
        rw [hadded, List.length_append, List.length_append, List.length_singleton] at h
        omega
      · rename_i hno
        rcases List.mem_cons.mp hlink with heq | hrest
        · cases heq
          by_contra hmissing
          exact hno ⟨hupper, hmissing⟩
        · exact ih h hrest

theorem close_isSome {links : List (node × node)} {found : List node} (pool : List node)
    (fuel : Nat) (hnodup : found.Nodup) (hpool : forall n, n ∈ found -> n ∈ pool)
    (hlinks : forall n, n ∈ links.map Prod.snd -> n ∈ pool)
    (hfuel : pool.length < found.length + fuel) :
    (close links fuel found).isSome = true := by
  induction fuel generalizing found with
  | zero =>
      have hle := (hnodup.subperm (fun n hn => hpool n hn)).length_le
      omega
  | succ fuel ih =>
      unfold close
      split
      · rfl
      · rename_i hgrew
        rcases sweep_extends links found with ⟨added, hadded, hfrom⟩
        have hlength : (sweep links found).length = found.length + added.length := by
          rw [hadded, List.length_append]
        apply ih (nodup_sweep hnodup)
        · intro n hn
          rw [hadded] at hn
          rcases List.mem_append.mp hn with hold | hnew
          · exact hpool n hold
          · exact hlinks n (hfrom n hnew)
        · omega

/-- The closure holds exactly what the links lead to. -/
theorem close_sound {links : List (node × node)} {root : node} (fuel : Nat)
    {found closed : List node} (hroot : root ∈ found)
    (hreached : forall n, n ∈ found -> ReflTransGen (Listed links) root n)
    (h : close links fuel found = some closed) (n : node) :
    n ∈ closed ↔ ReflTransGen (Listed links) root n := by
  induction fuel generalizing found with
  | zero => cases h
  | succ fuel ih =>
      unfold close at h
      split at h
      · rename_i hdone
        rw [← Option.some.inj h]
        constructor
        · exact hreached n
        · have hkeep : forall upper lower, upper ∈ found -> Listed links upper lower ->
              lower ∈ found :=
            fun _ _ hupper hlink => closed_of_sweep hdone hlink hupper
          exact reach_of_closed hkeep hroot
      · exact ih (mem_sweep_of_mem hroot) (reached_sweep (fun _ hlink => hlink) hreached) h

/-- Passes enough to close one node. -/
def closeBound (links : List (node × node)) : Nat :=
  links.length + 1

theorem close_exact (links : List (node × node)) (root : node) :
    exists closed, close links (closeBound links) [root] = some closed ∧
      forall n, n ∈ closed ↔ ReflTransGen (Listed links) root n := by
  have hsome := close_isSome (root :: links.map Prod.snd) (closeBound links)
    (List.nodup_singleton root)
    (fun n hn => by
      rw [List.mem_singleton.mp hn]
      exact List.mem_cons_self)
    (fun n hn => List.mem_cons_of_mem root hn) (by
      rw [List.length_cons, List.length_map, List.length_singleton]
      unfold closeBound
      omega)
  rcases Option.isSome_iff_exists.mp hsome with ⟨closed, hclosed⟩
  refine ⟨closed, hclosed, close_sound _ (List.mem_singleton.mpr rfl) ?_ hclosed⟩
  intro n hn
  rw [List.mem_singleton.mp hn]

end Search

/-!
## Cycles
-/

/-- No node is reached from itself. -/
def Acyclic (edge : node -> node -> Prop) : Prop :=
  forall n, ¬ TransGen edge n n

theorem Acyclic.mono {edge edge' : node -> node -> Prop} (h : Acyclic edge)
    (hsub : forall n m, edge' n m -> edge n m) : Acyclic edge' := by
  intro n hcycle
  exact h n (TransGen.mono hsub n n hcycle)

/-- A walk with one more edge at hand either goes without it or splits around it. -/
theorem transGen_insert {edge : node -> node -> Prop} {a b n m : node}
    (h : TransGen (fun x y => edge x y ∨ x = a ∧ y = b) n m) :
    TransGen edge n m ∨ ReflTransGen edge n a ∧ ReflTransGen edge b m := by
  induction h with
  | single hlast =>
      rcases hlast with hold | ⟨ha, hb⟩
      · exact Or.inl (TransGen.single hold)
      · rw [ha, hb]
        exact Or.inr ⟨ReflTransGen.refl, ReflTransGen.refl⟩
  | tail _ hlast ih =>
      rcases hlast with hold | ⟨ha, hb⟩
      · rcases ih with hwalk | ⟨hbefore, hafter⟩
        · exact Or.inl (hwalk.tail hold)
        · exact Or.inr ⟨hbefore, hafter.tail hold⟩
      · rcases ih with hwalk | ⟨hbefore, hafter⟩
        · rw [hb]
          exact Or.inr ⟨ha ▸ hwalk.to_reflTransGen, ReflTransGen.refl⟩
        · rw [hb]
          exact Or.inr ⟨hbefore, ReflTransGen.refl⟩

/-- An edge closes no cycle unless its end already led to its beginning. -/
theorem Acyclic.insert {edge : node -> node -> Prop} {a b : node} (h : Acyclic edge)
    (hback : ¬ ReflTransGen edge b a) :
    Acyclic (fun x y => edge x y ∨ x = a ∧ y = b) := by
  intro n hcycle
  rcases transGen_insert hcycle with hwalk | ⟨hbefore, hafter⟩
  · exact h n hwalk
  · exact hback (hafter.trans hbefore)

/-- A walk either keeps to some of the edges or takes one of the others. -/
theorem transGen_leaves {edge kept : node -> node -> Prop} {n m : node}
    (h : TransGen edge n m) :
    TransGen kept n m ∨ exists a b, ReflTransGen edge n a ∧ edge a b ∧ ¬ kept a b ∧
      ReflTransGen edge b m := by
  induction h with
  | @single m hedge =>
      by_cases hkept : kept n m
      · exact Or.inl (TransGen.single hkept)
      · exact Or.inr ⟨n, m, ReflTransGen.refl, hedge, hkept, ReflTransGen.refl⟩
  | @tail k m hwalk hedge ih =>
      rcases ih with hkeeps | ⟨a, b, hbefore, hother, hno, hafter⟩
      · by_cases hkept : kept k m
        · exact Or.inl (hkeeps.tail hkept)
        · exact Or.inr ⟨k, m, hwalk.to_reflTransGen, hedge, hkept, ReflTransGen.refl⟩
      · exact Or.inr ⟨a, b, hbefore, hother, hno, hafter.tail hedge⟩

/-- If some of the edges are without a cycle, each cycle takes one of the others. -/
theorem Acyclic.cycle_leaves {edge kept : node -> node -> Prop} (h : Acyclic kept) {n : node}
    (hcycle : TransGen edge n n) : exists a b, ReflTransGen edge n a ∧ edge a b ∧ ¬ kept a b ∧
      ReflTransGen edge b n :=
  (transGen_leaves hcycle).resolve_left (h n)

/-- Of finitely many nodes without a cycle, one has no edge to any of them. -/
theorem Acyclic.exists_last {edge : node -> node -> Prop} (h : Acyclic edge)
    {nodes : List node} (hne : nodes ≠ []) :
    exists n, n ∈ nodes ∧ forall m, m ∈ nodes -> ¬ edge n m := by
  have horder : IsStrictOrder node (fun m n => TransGen edge n m) :=
    { irrefl := h
      trans := fun _ _ _ hab hbc => hbc.trans hab }
  have hwf : {n | n ∈ nodes}.WellFoundedOn (fun m n => TransGen edge n m) :=
    (List.finite_toSet nodes).wellFoundedOn
  rcases List.exists_mem_of_ne_nil nodes hne with ⟨start, hstart⟩
  rcases WellFounded.has_min hwf Set.univ ⟨⟨start, hstart⟩, trivial⟩ with ⟨last, _, hlast⟩
  refine ⟨last.val, last.property, ?_⟩
  intro m hm hedge
  exact hlast ⟨m, hm⟩ trivial (TransGen.single hedge)

end Graph
end Foundation
end CatFactory
