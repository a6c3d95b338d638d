import Mathlib.Data.List.Basic

/-!
# Depth-first cycle detection

A finite graph is given by the successors of each node.  The visit keeps the
path it is on and the nodes it has finished, newest first, and fails with the
first node it meets again on its own path.  Its success is the same as the
existence of a rank that decreases along every edge.
-/

namespace CatFactory
namespace Foundation

variable {node : Type} [DecidableEq node]

/-- Visit one node: the finished nodes afterwards, or a node on a cycle. -/
def visit (deps : node -> List node) :
    Nat -> List node -> List node -> node -> Except node (List node)
  | 0, _, _, n => .error n
  | fuel + 1, visiting, done, n =>
      if n ∈ done then .ok done
      else if n ∈ visiting then .error n
      else
        match (deps n).foldlM (visit deps fuel (n :: visiting)) done with
        | .error m => .error m
        | .ok finished => .ok (n :: finished)

/-- Visit every root in order, sharing the finished nodes. -/
def visitAll (deps : node -> List node) (fuel : Nat) (roots : List node) :
    Except node (List node) :=
  roots.foldlM (visit deps fuel []) []

/-- A rank that decreases along every edge out of the listed nodes. -/
def RanksOn (deps : node -> List node) (nodes : List node)
    (rank : node -> Nat) : Prop :=
  forall n, n ∈ nodes -> forall d, d ∈ deps n -> rank d < rank n

omit [DecidableEq node] in
/-- Some listed node has no successor in the list. -/
theorem RanksOn.exists_ready {deps : node -> List node} {nodes : List node}
    {rank : node -> Nat} (h : RanksOn deps nodes rank) (hne : nodes ≠ []) :
    exists n, n ∈ nodes ∧ forall d, d ∈ deps n -> d ∉ nodes := by
  rcases List.exists_mem_of_ne_nil nodes hne with ⟨start, hstart⟩
  -- descend from any node; the rank bounds the descent
  induction hk : rank start using Nat.strongRecOn generalizing start with
  | ind k ih =>
      by_cases hready : forall d, d ∈ deps start -> d ∉ nodes
      · exact ⟨start, hstart, hready⟩
      · push Not at hready
        rcases hready with ⟨d, hd, hmem⟩
        exact ih (rank d) (hk ▸ h start hstart d hd) d hmem rfl

omit [DecidableEq node] in
theorem exists_rank_bound (rank : node -> Nat) (nodes : List node) :
    exists bound, forall n, n ∈ nodes -> rank n ≤ bound := by
  induction nodes with
  | nil => exact ⟨0, by simp⟩
  | cons m rest ih =>
      rcases ih with ⟨bound, hbound⟩
      refine ⟨max (rank m) bound, ?_⟩
      intro n hn
      rcases List.mem_cons.mp hn with rfl | hn
      · exact Nat.le_max_left _ _
      · exact Nat.le_trans (hbound n hn) (Nat.le_max_right _ _)

/-!
# Finishing order

Every finished node finished after all of its successors.
-/

def FinishOrder (deps : node -> List node) : List node -> Prop
  | [] => True
  | n :: rest => (forall d, d ∈ deps n -> d ∈ rest) ∧ n ∉ rest ∧
      FinishOrder deps rest

/-- The position of a node in the finishing order, counted from the first. -/
def finishRank : List node -> node -> Nat
  | [], _ => 0
  | m :: rest, n => if m = n then rest.length + 1 else finishRank rest n

theorem finishRank_le_length (done : List node) (n : node) :
    finishRank done n ≤ done.length := by
  induction done with
  | nil => exact Nat.le_refl 0
  | cons m rest ih =>
      unfold finishRank
      split
      · simp
      · exact Nat.le_succ_of_le ih

theorem finishOrder_ranks {deps : node -> List node} {done : List node}
    (h : FinishOrder deps done) : RanksOn deps done (finishRank done) := by
  induction done with
  | nil =>
      intro n hn
      cases hn
  | cons m rest ih =>
      rcases h with ⟨hdeps, hfresh, hrest⟩
      -- an edge out of any node, old or new, ends in the finished rest
      have hkeep : forall x, x ∈ rest ->
          finishRank (m :: rest) x = finishRank rest x := by
        intro x hx
        have hne : m ≠ x := fun heq => hfresh (heq ▸ hx)
        simp [finishRank, hne]
      intro n hn d hd
      rcases List.mem_cons.mp hn with heq | hmem
      · subst heq
        rw [hkeep d (hdeps d hd)]
        have hle := finishRank_le_length rest d
        simp only [finishRank, if_true]
        exact Nat.lt_succ_of_le hle
      · have hin : d ∈ rest := by
          clear ih hkeep hdeps hfresh hn
          induction rest with
          | nil => cases hmem
          | cons k tail ihTail =>
              rcases hrest with ⟨hk, _, htail⟩
              rcases List.mem_cons.mp hmem with heq | hmem'
              · subst heq
                exact List.mem_cons_of_mem _ (hk d hd)
              · exact List.mem_cons_of_mem _ (ihTail htail hmem')
        rw [hkeep n hmem, hkeep d hin]
        exact ih hrest n hmem d hd

/-- What a successful visit leaves behind. -/
structure Visited (deps : node -> List node) (done finished : List node) :
    Prop where
  kept : forall x, x ∈ done -> x ∈ finished
  order : FinishOrder deps done -> FinishOrder deps finished

omit [DecidableEq node] in
theorem Visited.trans {deps : node -> List node} {a b c : List node}
    (hab : Visited deps a b) (hbc : Visited deps b c) : Visited deps a c :=
  ⟨fun x hx => hbc.kept x (hab.kept x hx), fun h => hbc.order (hab.order h)⟩

omit [DecidableEq node] in
theorem foldlM_visited {deps : node -> List node}
    {go : List node -> node -> Except node (List node)} {path : List node}
    (hgo : forall done n finished, (forall x, x ∈ path -> x ∉ done) ->
      go done n = .ok finished ->
      Visited deps done finished ∧ n ∈ finished ∧
        (forall x, x ∈ path -> x ∉ finished)) :
    forall (ns : List node) (done finished : List node),
      (forall x, x ∈ path -> x ∉ done) ->
      ns.foldlM go done = .ok finished ->
      Visited deps done finished ∧ (forall n, n ∈ ns -> n ∈ finished) ∧
        (forall x, x ∈ path -> x ∉ finished) := by
  intro ns
  induction ns with
  | nil =>
      intro done finished hpath h
      cases h
      exact ⟨⟨fun _ hx => hx, fun h => h⟩, by simp, hpath⟩
  | cons n rest ih =>
      intro done finished hpath h
      rw [List.foldlM_cons] at h
      cases hn : go done n with
      | error m =>
          rw [hn] at h
          cases h
      | ok mid =>
          rw [hn] at h
          rcases hgo done n mid hpath hn with ⟨hvisit, hmem, hpath'⟩
          rcases ih mid finished hpath' h with ⟨hvisit', hall, hpath''⟩
          refine ⟨hvisit.trans hvisit', ?_, hpath''⟩
          intro x hx
          rcases List.mem_cons.mp hx with heq | hx'
          · subst heq
            exact hvisit'.kept _ hmem
          · exact hall x hx'

theorem visit_visited {deps : node -> List node} (fuel : Nat) :
    forall (visiting done : List node) (n : node) (finished : List node),
      (forall x, x ∈ visiting -> x ∉ done) ->
      visit deps fuel visiting done n = .ok finished ->
      Visited deps done finished ∧ n ∈ finished ∧
        (forall x, x ∈ visiting -> x ∉ finished) := by
  induction fuel with
  | zero =>
      intro visiting done n finished _ h
      cases h
  | succ fuel ih =>
      intro visiting done n finished hpath h
      unfold visit at h
      by_cases hdone : n ∈ done
      · rw [if_pos hdone] at h
        cases h
        exact ⟨⟨fun _ hx => hx, fun h => h⟩, hdone, hpath⟩
      · rw [if_neg hdone] at h
        by_cases hvisiting : n ∈ visiting
        · rw [if_pos hvisiting] at h
          cases h
        · rw [if_neg hvisiting] at h
          cases hfold : (deps n).foldlM (visit deps fuel (n :: visiting)) done with
          | error m =>
              rw [hfold] at h
              cases h
          | ok below =>
              rw [hfold] at h
              cases h
              have hpath' : forall x, x ∈ n :: visiting -> x ∉ done := by
                intro x hx
                rcases List.mem_cons.mp hx with heq | hx'
                · exact heq ▸ hdone
                · exact hpath x hx'
              rcases foldlM_visited (fun d m f hp hm => ih (n :: visiting) d m f hp hm)
                  (deps n) done below hpath' hfold with ⟨hvisit, hall, hfree⟩
              have hn : n ∉ below := hfree n List.mem_cons_self
              refine ⟨⟨?_, ?_⟩, List.mem_cons_self, ?_⟩
              · intro x hx
                exact List.mem_cons_of_mem _ (hvisit.kept x hx)
              · intro horder
                exact ⟨hall, hn, hvisit.order horder⟩
              · intro x hx hmem
                rcases List.mem_cons.mp hmem with heq | hmem'
                · exact hvisiting (heq ▸ hx)
                · exact hfree x (List.mem_cons_of_mem _ hx) hmem'

/-- A visit that ends without meeting a cycle ranks every root. -/
theorem visitAll_sound {deps : node -> List node} {fuel : Nat}
    {roots finished : List node}
    (h : visitAll deps fuel roots = .ok finished) :
    exists rank : node -> Nat, RanksOn deps roots rank := by
  have hfold : Visited deps [] finished ∧ (forall n, n ∈ roots -> n ∈ finished) ∧
      (forall x, x ∈ ([] : List node) -> x ∉ finished) :=
    foldlM_visited (fun d m f hp hm => visit_visited fuel [] d m f hp hm)
      roots [] finished (by simp) h
  rcases hfold with ⟨hvisit, hall, _⟩
  have horder : FinishOrder deps finished := hvisit.order trivial
  refine ⟨finishRank finished, ?_⟩
  intro n hn d hd
  exact finishOrder_ranks horder n (hall n hn) d hd

/-!
# Enough fuel

Along a path of the visit the rank decreases, so the path meets every node
that has successors at most once.
-/

omit [DecidableEq node] in
theorem foldlM_isOk {go : List node -> node -> Except node (List node)}
    (ns : List node)
    (hgo : forall n, n ∈ ns -> forall done, (go done n).isOk) :
    forall done, (ns.foldlM go done).isOk := by
  induction ns with
  | nil =>
      intro done
      rfl
  | cons n rest ih =>
      intro done
      rw [List.foldlM_cons]
      have hn := hgo n List.mem_cons_self done
      cases hgon : go done n with
      | error m =>
          rw [hgon] at hn
          cases hn
      | ok mid =>
          exact ih (fun m hm => hgo m (List.mem_cons_of_mem _ hm)) mid

theorem visit_isOk {deps : node -> List node} {keys : List node}
    {rank : node -> Nat}
    (hkeys : forall n, deps n ≠ [] -> n ∈ keys)
    (hrank : forall n, forall d, d ∈ deps n -> rank d < rank n)
    (fuel : Nat) :
    forall (visiting : List node) (n : node),
      (keys.filter (fun k => rank k < rank n)).length + 1 < fuel ∨
        (deps n = [] ∧ 0 < fuel) ->
      (forall v, v ∈ visiting -> rank n < rank v) ->
      forall done, (visit deps fuel visiting done n).isOk := by
  induction fuel with
  | zero =>
      intro visiting n hfuel
      omega
  | succ fuel ih =>
      intro visiting n hfuel hpath done
      unfold visit
      split
      · rfl
      · split
        · rename_i hmem
          exact absurd (hpath n hmem) (Nat.lt_irrefl _)
        · have hfold : ((deps n).foldlM (visit deps fuel (n :: visiting)) done).isOk := by
            apply foldlM_isOk
            intro d hd done'
            have hdn : rank d < rank n := hrank n d hd
            have hne : deps n ≠ [] := List.ne_nil_of_mem hd
            have hfuel' :
                (keys.filter (fun k => rank k < rank n)).length + 1 < fuel + 1 :=
              hfuel.resolve_right (fun h => hne h.left)
            apply ih
            · by_cases hleaf : deps d = []
              · exact Or.inr ⟨hleaf, by omega⟩
              · apply Or.inl
                -- `d` itself is counted below `n` and not below `d`
                have hsub : (keys.filter (fun k => rank k < rank d)).length <
                    (keys.filter (fun k => rank k < rank n)).length := by
                  have himp : keys.filter (fun k => rank k < rank d) =
                      (keys.filter (fun k => rank k < rank n)).filter
                        (fun k => rank k < rank d) := by
                    rw [List.filter_filter]
                    apply List.filter_congr
                    intro k _
                    by_cases hk : rank k < rank d
                    · simp [hk, Nat.lt_trans hk hdn]
                    · simp [hk]
                  rw [himp]
                  apply List.length_filter_lt_length_iff_exists.mpr
                  refine ⟨d, ?_, by simp⟩
                  simp [hkeys d hleaf, hdn]
                omega
            · intro v hv
              rcases List.mem_cons.mp hv with heq | hv'
              · exact heq ▸ hdn
              · exact Nat.lt_trans hdn (hpath v hv')
          cases hres : (deps n).foldlM (visit deps fuel (n :: visiting)) done with
          | error m =>
              rw [hres] at hfold
              cases hfold
          | ok finished => rfl

/-- A ranked graph is visited to the end: two more than the number of nodes
with successors is fuel enough. -/
theorem visitAll_complete {deps : node -> List node} {keys : List node}
    {rank : node -> Nat}
    (hkeys : forall n, deps n ≠ [] -> n ∈ keys)
    (hrank : forall n, forall d, d ∈ deps n -> rank d < rank n)
    (roots : List node) :
    (visitAll deps (keys.length + 2) roots).isOk := by
  apply foldlM_isOk
  intro n _ done
  apply visit_isOk hkeys hrank
  · apply Or.inl
    have hle := List.length_filter_le (fun k => decide (rank k < rank n)) keys
    omega
  · simp

end Foundation
end CatFactory
