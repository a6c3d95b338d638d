import CatFactory.Board.Turns

/-!
# The tree of a board

A task stands in a module or a frame, a module in a frame, and a frame in
nothing, in whatever order the calls take their turns.  So a climb comes to an
end after three blocks, and the two climbs of the code agree.
-/

namespace CatFactory
namespace Board

open Foundation
open Execution (BlockLevel)

/-- How many blocks can be above one of the level. -/
def heightOf : BlockLevel -> Nat
  | .frame => 0
  | .module => 1
  | .initiative => 1
  | .task => 2
  | .epic => 2

theorem heightOf_canReparent {level upper : BlockLevel} (h : canReparent level upper = true) :
    heightOf upper < heightOf level := by
  cases level with
  | frame => cases h
  | module | initiative =>
      rw [of_decide_eq_true h]
      exact Nat.zero_lt_one
  | task | epic =>
      rcases of_decide_eq_true h with hframe | hmodule
      · rw [hframe]
        exact Nat.zero_lt_two
      · rw [hmodule]
        exact Nat.one_lt_two

theorem heightOf_pos {level : BlockLevel} (h : level ≠ .frame) : 0 < heightOf level := by
  cases level with
  | frame => exact absurd rfl h
  | module | initiative => exact Nat.zero_lt_one
  | task | epic => exact Nat.zero_lt_two

theorem serviceOf_nobody (blocks : List Block) {fuel : Nat} (h : 0 < fuel) :
    serviceOf blocks fuel none = some none := by
  cases fuel with
  | zero => cases h
  | succ fuel => rfl

theorem parent_some {b : Block} {p : String} (h : b.parent = some p) : b.parentId = some p := by
  unfold Block.parent at h
  exact (Option.filter_eq_some_iff.mp h).left

/-- The block above one of the rows, when it is a row too, is above it in level. -/
theorem parent_row {h : Home} (hs : Sound h) {b upper : Block} {p : String}
    (hb : b ∈ h.rows) (hp : b.parent = some p) (hu : lookup Block.id h.rows p = some upper) :
    upper ∈ h.rows ∧ canReparent b.level upper.level = true := by
  rcases lookup_some hu with ⟨hmem, hid⟩
  rcases (hs.rows b hb).placed p (parent_some hp) with ⟨level, hlevel, hmay⟩
  have hlogged : h.LevelOf p upper.level := by
    rw [← hid]
    exact (hs.rows upper hmem).level
  rw [hlevel.unique hs hlogged] at hmay
  exact ⟨hmem, hmay⟩

/-- A frame stands in nothing. -/
theorem frame_alone {h : Home} (hs : Sound h) {b : Block} (hb : b ∈ h.rows)
    (hframe : b.level = .frame) : b.parentId = none := by
  cases hp : b.parentId with
  | none => rfl
  | some p =>
      rcases (hs.rows b hb).placed p hp with ⟨level, _, hmay⟩
      rw [hframe] at hmay
      cases hmay

/--
The two climbs agree from any row, as soon as each has hops for the levels above
it: the one stops at a frame or past the last row, the other at a frame or at a
row that names no parent.
-/
theorem climbs_agree {h : Home} (hs : Sound h) {b : Block} (hb : b ∈ h.rows)
    {fuel hops : Nat} (hfuel : heightOf b.level < fuel) (hhops : heightOf b.level < hops) :
    exists service, serviceOf h.rows fuel (some b) = some service ∧
      service = (climb (lookup Block.id h.rows) hops (some b)).filter
        fun f => f.level = .frame := by
  induction fuel generalizing b hops with
  | zero => cases hfuel
  | succ fuel ih =>
      cases hops with
      | zero => cases hhops
      | succ hops =>
          unfold serviceOf climb
          by_cases hframe : b.level = .frame
          · rw [if_pos hframe, if_pos hframe]
            refine ⟨some b, rfl, ?_⟩
            rw [Option.filter_some, if_pos (decide_eq_true hframe)]
          · rw [if_neg hframe, if_neg hframe]
            have hroom := Nat.lt_of_lt_of_le (heightOf_pos hframe) (Nat.le_of_lt_succ hfuel)
            cases hp : b.parent with
            | none =>
                refine ⟨none, ?_, ?_⟩
                · exact serviceOf_nobody h.rows hroom
                · dsimp only
                  rw [Option.filter_some, if_neg (by simpa using hframe)]
            | some p =>
                show exists service, serviceOf h.rows fuel (byId h.rows p) = some service ∧
                  service = (climb (lookup Block.id h.rows) hops
                    (lookup Block.id h.rows p)).filter fun f => f.level = .frame
                rw [byId_eq_lookup hs.unique]
                cases hu : lookup Block.id h.rows p with
                | none =>
                    refine ⟨none, ?_, ?_⟩
                    · exact serviceOf_nobody h.rows hroom
                    · cases hops with
                      | zero | succ => rfl
                | some upper =>
                    rcases parent_row hs hb hp hu with ⟨hmem, hmay⟩
                    have hless := heightOf_canReparent hmay
                    exact ih hmem (by omega) (by omega)

/--
In every run, a block never stands inside one that its level may not stand in,
the climb to its service ends after at most three blocks, and the bounded climb
of the engine finds the same service.
-/
theorem service_settled {abroad : String -> Option BlockLevel} {trace : List Action} {h : Home}
    (hrun : Run Home.step (Home.start abroad) trace h) {b : Block} (hb : b ∈ h.rows) :
    (forall p upper, b.parentId = some p -> upper ∈ h.rows -> upper.id = p ->
      canReparent b.level upper.level = true) ∧
    exists service, (forall fuel, 3 ≤ fuel ->
      serviceOf h.rows fuel (some b) = some service) ∧
      service = (resolveServiceFrameBlock (lookup Block.id h.rows) b.id none).filter
        fun f => f.level = .frame := by
  have hs := sound_run hrun
  constructor
  · intro p upper hp hupper hid
    rcases (hs.rows b hb).placed p hp with ⟨level, hlevel, hmay⟩
    have hlogged : h.LevelOf p upper.level := by
      rw [← hid]
      exact (hs.rows upper hupper).level
    rw [hlevel.unique hs hlogged] at hmay
    exact hmay
  · have hheight : heightOf b.level < 3 := by
      cases b.level with
      | frame | module | initiative | task | epic => simp [heightOf]
    have hstart : (none : Option Block).or (lookup Block.id h.rows b.id) = some b := by
      rw [Option.none_or]
      exact lookup_of_mem hs.unique hb
    unfold resolveServiceFrameBlock
    rw [hstart]
    refine ⟨_, ?_, rfl⟩
    intro fuel hfuel
    rcases climbs_agree hs hb (Nat.lt_of_lt_of_le hheight hfuel)
      (Nat.lt_of_lt_of_le hheight (by decide : 3 ≤ 8)) with ⟨service, hservice, heq⟩
    rw [hservice, heq]

/-- A service with a module, and a task that is moved into the module. -/
def movedTask : List Action :=
  [.ask (.addFrame "billing" .service), .advance 0 false "blk1",
   .ask (.addModules "blk1" ["invoices"]), .advance 1 false "mod1", .advance 1 false "mod1",
   .ask (.addTask "blk1" { title := "totals" }), .advance 2 false "task1",
   .advance 2 false "task1", .advance 2 false "task1",
   .ask (.reparent "task1" "mod1"), .advance 3 false "x", .advance 3 false "x",
   .advance 3 false "x", .advance 3 false "x"]

def nowhere : String -> Option BlockLevel :=
  fun _ => none

def taskOfInvoices : Block :=
  { id := "task1", title := "totals", type := .service, level := .task, parentId := some "mod1"
    taskType := some "feature", moduleName := some "invoices" }

theorem service_settled_moved :
    exists service, (forall fuel, 3 ≤ fuel ->
      serviceOf (endOf Home.step (Home.start nowhere) movedTask).rows fuel
        (some taskOfInvoices) = some service) ∧
      service = (resolveServiceFrameBlock
        (lookup Block.id (endOf Home.step (Home.start nowhere) movedTask).rows) "task1"
        none).filter fun f => f.level = .frame :=
  (@service_settled nowhere movedTask (endOf Home.step (Home.start nowhere) movedTask)
    (run_endOf (by decide +kernel)) taskOfInvoices (by decide +kernel)).right

end Board
end CatFactory
