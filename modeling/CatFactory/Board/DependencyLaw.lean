import CatFactory.Board.Dependencies

/-!
# Work never waits for itself

What the interleaved calls leave of the graph is without a cycle, so a board
with unfinished tasks always has one that waits for nothing unfinished on the
board.  The gate before a start and the start after a merge judge it alike.
-/

namespace CatFactory
namespace Board

open Foundation
open Execution (BlockLevel)

/--
In every run, whatever the order of the turns and whichever calls have died, each
cycle of the dependency graph passes through an edge whose second judgement is
still to come, or one that was found to close a cycle and is still to be taken
back, or one that nobody judges: put back by a write, or brought from another home.
-/
theorem cycle_passes_unsettled {abroad : String -> Option BlockLevel} {trace : List Action}
    {h : Home} (hrun : Run Home.step (Home.start abroad) trace h) {id : String}
    (hcycle : Relation.TransGen (Waits h.rows) id id) :
    exists target source, Relation.ReflTransGen (Waits h.rows) id target ∧
      Waits h.rows target source ∧ Relation.ReflTransGen (Waits h.rows) source id ∧
      (h.Unchecked target source ∨ h.Condemned target source ∨
        (target, source) ∈ h.unjudged) := by
  rcases (acyclic_run hrun).cycle_leaves hcycle with
    ⟨target, source, hbefore, hwaits, hunsettled, hafter⟩
  refine ⟨target, source, hbefore, hwaits, hafter, ?_⟩
  by_contra hneither
  push Not at hneither
  refine hunsettled ⟨hwaits, ?_, hneither.right.right⟩
  intro hwritten
  rcases written_iff.mp hwritten with hdue | hcyclic
  · exact hneither.left hdue
  · exact hneither.right.left hcyclic

/-- A service with two tasks. -/
def addedTasks : List Action :=
  [.ask (.addFrame "billing" .service), .advance 0 false "blk1",
   .ask (.addTask "blk1" { title := "a" }), .advance 1 false "a", .advance 1 false "a",
   .advance 1 false "a",
   .ask (.addTask "blk1" { title := "b" }), .advance 2 false "b", .advance 2 false "b",
   .advance 2 false "b"]

/-- Two tasks are made to wait for each other at the same time. -/
def crossedWrites : List Action :=
  addedTasks ++
  [.ask (.writeDependency "a" "b" .add), .ask (.writeDependency "b" "a" .add),
   .advance 3 false "x", .advance 4 false "x", .advance 3 false "x", .advance 4 false "x",
   .advance 3 false "x", .advance 4 false "x", .advance 3 false "x", .advance 4 false "x"]

def afterCrossedWrites : Home :=
  endOf Home.step (Home.start fun _ => none) crossedWrites

theorem waits_of_hasEdge {rows : List Block} {target source : String}
    (h : hasEdge rows (target, source) = true) : Waits rows target source :=
  hasEdge_iff.mp h

theorem cycle_passes_crossed :
    exists target source, Relation.ReflTransGen (Waits afterCrossedWrites.rows) "a" target ∧
      Waits afterCrossedWrites.rows target source ∧
      Relation.ReflTransGen (Waits afterCrossedWrites.rows) source "a" ∧
      (afterCrossedWrites.Unchecked target source ∨
        afterCrossedWrites.Condemned target source ∨
          (target, source) ∈ afterCrossedWrites.unjudged) :=
  @cycle_passes_unsettled (fun _ => none) crossedWrites afterCrossedWrites
    (run_endOf (by decide +kernel)) "a"
    ((Relation.TransGen.single (waits_of_hasEdge (by decide +kernel) :
      Waits afterCrossedWrites.rows "a" "b")).tail
        (waits_of_hasEdge (by decide +kernel) : Waits afterCrossedWrites.rows "b" "a"))

/-- Both calls then find the cycle, and both take their edge back. -/
example :
    ((endOf Home.step (Home.start fun _ => none) (crossedWrites ++
      [.advance 3 false "x", .advance 4 false "x", .advance 3 false "x",
       .advance 4 false "x"])).rows.map fun b => b.dependsOn) = [[], [], []] := by
  decide +kernel

/--
A call that has read `a` before its edge to `b` was dropped writes that edge again:
by then `b` waits for `a`, nobody judges the edge a second time, and no call is left.
-/
def staleWrite : List Action :=
  addedTasks ++
  [.ask (.addTask "blk1" { title := "c" }), .advance 3 false "c", .advance 3 false "c",
   .advance 3 false "c",
   .ask (.writeDependency "a" "b" .add), .advance 4 false "x", .advance 4 false "x",
   .advance 4 false "x", .advance 4 false "x", .advance 4 false "x",
   .ask (.writeDependency "a" "c" .add), .advance 5 false "x",
   .ask (.writeDependency "a" "b" .remove), .advance 6 false "x", .advance 6 false "x",
   .ask (.writeDependency "b" "a" .add), .advance 7 false "x", .advance 7 false "x",
   .advance 7 false "x", .advance 7 false "x", .advance 7 false "x",
   .advance 5 false "x", .advance 5 false "x", .advance 5 false "x", .advance 5 false "x"]

example :
    (endOf Home.step (Home.start fun _ => none) staleWrite).calls.all Call.over = true ∧
      (endOf Home.step (Home.start fun _ => none) staleWrite).unjudged = [("a", "b")] ∧
      ((endOf Home.step (Home.start fun _ => none) staleWrite).rows.map fun b =>
        b.dependsOn) = [[], ["b", "c"], ["a"], []] := by
  decide +kernel

/-- A task that comes from another home with its edges closes a cycle unjudged. -/
example :
    (endOf Home.step (Home.start fun id => if id = "far" then some .task else none)
      (addedTasks ++
      [.ask (.writeDependency "a" "far" .add), .advance 3 false "x", .advance 3 true "x",
       .advance 3 false "x", .advance 3 false "x", .advance 3 false "x",
       .arrive
        { id := "far", title := "b", type := .service, level := .task, parentId := some "blk1"
          dependsOn := ["a"] }])).unjudged = [("far", "a")] := by
  decide +kernel

/-! ## Some task can start -/

theorem byId_append {blocks more : List Block} {id : String}
    (h : id ∉ more.map Block.id) : byId (blocks ++ more) id = byId blocks id := by
  unfold byId
  rw [List.reverse_append, lookup_append]
  have hnone : lookup Block.id more.reverse id = none := by
    rw [lookup_eq_none_iff]
    intro b hb hid
    exact h (List.mem_map.mpr ⟨b, List.mem_reverse.mp hb, hid⟩)
  rw [hnone, Option.none_or]

/-- The blocks that are fetched are none of the rows. -/
theorem fetched_outside {find : String -> Option Block} {blocks : List Block}
    {depIds : List String} (hown : forall id b, find id = some b -> b.id = id) {id : String}
    (h : id ∈ blocks.map Block.id) :
    id ∉ ((depIds.eraseDups.filter fun id => id ∉ blocks.map Block.id).filterMap find).map
      Block.id := by
  intro hmem
  rcases List.mem_map.mp hmem with ⟨b, hb, hid⟩
  rcases List.mem_filterMap.mp hb with ⟨asked, hasked, hfind⟩
  have hmissing := of_decide_eq_true (List.mem_filter.mp hasked).right
  rw [← hown asked b hfind, hid] at hmissing
  exact hmissing h

/--
While no call has an edge to judge again or to take back, and none stands that
nobody judges, a board with unfinished tasks has one whose unmet blockers, if any,
are all homed on other boards.
-/
theorem some_task_startable {abroad : String -> Option BlockLevel} {trace : List Action}
    {h : Home} (hrun : Run Home.step (Home.start abroad) trace h)
    (hchecked : forall c, c ∈ h.calls -> c.written = none) (hkept : h.unjudged = [])
    {find : String -> Option Block} (hown : forall id b, find id = some b -> b.id = id)
    {b : Block} (hb : b ∈ h.rows) (hopen : Unfinished b) :
    exists task, task ∈ h.rows ∧ Unfinished task ∧
      forall blockers, assertDependenciesMet find h.rows task = .error blockers ->
        forall blocker, blocker ∈ blockers -> blocker.id ∉ h.rows.map Block.id := by
  have hs := sound_run hrun
  have hne : (h.rows.filter fun b => Unfinished b).map Block.id ≠ [] := by
    intro hempty
    have hmem : b ∈ h.rows.filter fun b => Unfinished b :=
      List.mem_filter.mpr ⟨hb, decide_eq_true hopen⟩
    rw [List.map_eq_nil_iff.mp hempty] at hmem
    cases hmem
  rcases (acyclic_run hrun).exists_last hne with ⟨id, hid, hlast⟩
  rcases List.mem_map.mp hid with ⟨task, htask, heq⟩
  rcases List.mem_filter.mp htask with ⟨hrow, hunfinished⟩
  refine ⟨task, hrow, of_decide_eq_true hunfinished, ?_⟩
  intro blockers herror blocker hblocker hhome
  unfold assertDependenciesMet at herror
  split at herror
  · cases herror
  · split at herror
    · cases herror
    · rw [← Except.error.inj herror] at hblocker
      have hsame : byId (augmentWithCrossWorkspaceDeps find h.rows task.dependsOn) task.id =
          some task := by
        unfold augmentWithCrossWorkspaceDeps
        rw [byId_append (fetched_outside hown (List.mem_map.mpr ⟨task, hrow, rfl⟩))]
        exact (byId_eq_some_iff hs.unique).mpr ⟨hrow, rfl⟩
      unfold unmetDependencies at hblocker
      rw [hsame] at hblocker
      rcases List.mem_filter.mp hblocker with ⟨hfound, hstatus⟩
      rcases List.mem_filterMap.mp hfound with ⟨dep, hdep, hdepFound⟩
      have hdepId := (byId_some hdepFound).right
      rw [hdepId] at hhome
      unfold augmentWithCrossWorkspaceDeps at hdepFound
      rw [byId_append (fetched_outside hown hhome)] at hdepFound
      have hblockerRow := (byId_some hdepFound).left
      -- the blocker is a task of this board that is not done, so it is not behind the last one
      have hlevel : blocker.level = .task := by
        have hlogged : h.LevelOf dep blocker.level := by
          rw [← hdepId]
          exact (hs.rows blocker hblockerRow).level
        exact hlogged.unique hs ((hs.rows task hrow).waits dep hdep).right
      have hblockerOpen : blocker ∈ h.rows.filter fun b => Unfinished b :=
        List.mem_filter.mpr
          ⟨hblockerRow, decide_eq_true ⟨hlevel, of_decide_eq_true hstatus⟩⟩
      apply hlast blocker.id (List.mem_map.mpr ⟨blocker, hblockerOpen, rfl⟩)
      rw [← heq, hdepId]
      refine ⟨⟨task, hrow, rfl, hdep⟩, ?_, ?_⟩
      · rintro ⟨c, hc, hedge⟩
        rw [hchecked c hc] at hedge
        cases hedge
      · rw [hkept]
        exact List.not_mem_nil

/-- What the other boards home here: one task. -/
def farLevel (id : String) : Option BlockLevel :=
  if id = "far" then some .task else none

def farTask : Block :=
  { id := "far", title := "schema", type := .service, level := .task }

def findFar (id : String) : Option Block :=
  if id = "far" then some farTask else none

theorem findFar_own (id : String) (b : Block) (h : findFar id = some b) : b.id = id := by
  unfold findFar at h
  split at h
  · rename_i hid
    rw [← Option.some.inj h, hid]
    rfl
  · cases h

/-- Two tasks wait for a third, which is merged, and one of them for a task elsewhere too. -/
def chainedTasks : List Action :=
  addedTasks ++
  [.ask (.addTask "blk1" { title := "c" }), .advance 3 false "c", .advance 3 false "c",
   .advance 3 false "c",
   .ask (.writeDependency "b" "a" .toggle), .advance 4 false "x", .advance 4 false "x",
   .advance 4 false "x", .advance 4 false "x", .advance 4 false "x",
   .ask (.writeDependency "c" "a" .add), .advance 5 false "x", .advance 5 false "x",
   .advance 5 false "x", .advance 5 false "x", .advance 5 false "x",
   .ask (.writeDependency "c" "far" .add), .advance 6 false "x", .advance 6 true "x",
   .advance 6 false "x", .advance 6 false "x", .advance 6 false "x",
   .edit "a" { status := some .done }]

def afterChainedTasks : Home :=
  endOf Home.step (Home.start farLevel) chainedTasks

def waitingTask (id : String) (dependsOn : List String) : Block :=
  { id := id, title := id, type := .service, level := .task, parentId := some "blk1"
    dependsOn := dependsOn, taskType := some "feature" }

theorem some_task_startable_chained :
    exists task, task ∈ afterChainedTasks.rows ∧ Unfinished task ∧
      forall blockers, assertDependenciesMet findFar afterChainedTasks.rows task = .error blockers ->
        forall blocker, blocker ∈ blockers ->
          blocker.id ∉ afterChainedTasks.rows.map Block.id :=
  @some_task_startable farLevel chainedTasks afterChainedTasks (run_endOf (by decide +kernel))
    (by decide +kernel) (by decide +kernel) findFar findFar_own
    (waitingTask "c" ["a", "far"]) (by decide +kernel) (by decide)

/-! ## The gate and the start after a merge -/

/-- A lookup in the list that was completed with blocks of other boards. -/
theorem byId_augment {find : String -> Option Block}
    (hown : forall id b, find id = some b -> b.id = id) (blocks : List Block)
    (depIds : List String) (id : String) :
    byId (augmentWithCrossWorkspaceDeps find blocks depIds) id =
      if id ∈ blocks.map Block.id then byId blocks id
      else if id ∈ depIds then find id else none := by
  unfold augmentWithCrossWorkspaceDeps
  split
  · rename_i hrow
    exact byId_append (fetched_outside hown hrow)
  · rename_i hrow
    have hnone : lookup Block.id blocks.reverse id = none := by
      rw [lookup_eq_none_iff]
      intro b hb hid
      exact hrow (List.mem_map.mpr ⟨b, List.mem_reverse.mp hb, hid⟩)
    unfold byId
    rw [List.reverse_append, lookup_append, hnone, Option.or_none]
    cases hfound : lookup Block.id ((depIds.eraseDups.filter fun id =>
        id ∉ blocks.map Block.id).filterMap find).reverse id with
    | some b =>
        rcases lookup_some hfound with ⟨hmem, hid⟩
        rcases List.mem_filterMap.mp (List.mem_reverse.mp hmem) with ⟨asked, hasked, hfind⟩
        have hdep := List.mem_eraseDups.mp (List.mem_filter.mp hasked).left
        have hsame : asked = id := (hown asked b hfind).symm.trans hid
        rw [← hsame, if_pos hdep, hfind]
    | none =>
        split
        · rename_i hdep
          cases hfind : find id with
          | none => rfl
          | some b =>
              exfalso
              have hmem : b ∈ (depIds.eraseDups.filter fun id =>
                  id ∉ blocks.map Block.id).filterMap find :=
                List.mem_filterMap.mpr ⟨id, List.mem_filter.mpr
                  ⟨List.mem_eraseDups.mpr hdep, decide_eq_true hrow⟩, hfind⟩
              exact lookup_eq_none_iff.mp hfound b (List.mem_reverse.mpr hmem) (hown id b hfind)
        · rfl

/-- What a task waits for is judged alike, whatever else the list was completed for. -/
theorem dependenciesMet_augment {find : String -> Option Block}
    (hown : forall id b, find id = some b -> b.id = id) {blocks : List Block}
    (hunique : (blocks.map Block.id).Nodup) {task : Block} (htask : task ∈ blocks)
    {depIds : List String} (hdeps : forall d, d ∈ task.dependsOn -> d ∈ depIds) :
    dependenciesMet (augmentWithCrossWorkspaceDeps find blocks depIds) task.id =
      dependenciesMet (augmentWithCrossWorkspaceDeps find blocks task.dependsOn) task.id := by
  have hself : byId blocks task.id = some task := (byId_eq_some_iff hunique).mpr ⟨htask, rfl⟩
  have hrow : task.id ∈ blocks.map Block.id := List.mem_map.mpr ⟨task, htask, rfl⟩
  unfold dependenciesMet
  rw [byId_augment hown, byId_augment hown, if_pos hrow, if_pos hrow, hself]
  dsimp only
  rw [Bool.eq_iff_iff, List.all_eq_true, List.all_eq_true]
  have hsame : forall d, d ∈ task.dependsOn ->
      byId (augmentWithCrossWorkspaceDeps find blocks depIds) d =
        byId (augmentWithCrossWorkspaceDeps find blocks task.dependsOn) d := by
    intro d hd
    rw [byId_augment hown, byId_augment hown, if_pos (hdeps d hd), if_pos hd]
  constructor
  · intro hall d hd
    rw [← hsame d hd]
    exact hall d hd
  · intro hall d hd
    rw [hsame d hd]
    exact hall d hd

/-- A task without blockers has none that is unmet. -/
theorem assertDependenciesMet_ok {find : String -> Option Block} {blocks : List Block}
    {task : Block} {dep : String} (hlevel : task.level = .task) (hdep : dep ∈ task.dependsOn) :
    assertDependenciesMet find blocks task = .ok () <->
      dependenciesMet (augmentWithCrossWorkspaceDeps find blocks task.dependsOn) task.id =
        true := by
  unfold assertDependenciesMet
  rw [if_neg]
  · split
    · rename_i hmet
      exact ⟨fun _ => hmet, fun _ => rfl⟩
    · rename_i hunmet
      constructor
      · intro hok
        cases hok
      · exact fun hmet => absurd hmet hunmet
  · rintro (hno | hempty)
    · exact hno hlevel
    · rw [hempty] at hdep
      cases hdep

/--
In every run, a merge starts exactly the untouched tasks behind it for which the
gate before a start is open, though it reads the blockers of all of them at once.
-/
theorem merge_starts_what_gate_admits {abroad : String -> Option BlockLevel}
    {trace : List Action} {h : Home} (hrun : Run Home.step (Home.start abroad) trace h)
    {find : String -> Option Block} (hown : forall id b, find id = some b -> b.id = id)
    (startable : Block -> Bool) (mergedBlockId : String) (task : Block) :
    task ∈ autoStartDependents find startable h.rows mergedBlockId <->
      task ∈ h.rows ∧ task.level = .task ∧ mergedBlockId ∈ task.dependsOn ∧
        (task.status = .planned ∨ task.status = .ready) ∧ startable task = true ∧
          assertDependenciesMet find h.rows task = .ok () := by
  have hs := sound_run hrun
  unfold autoStartDependents
  dsimp only
  rw [List.mem_filter, List.mem_filter, decide_eq_true_eq, decide_eq_true_eq]
  constructor
  · rintro ⟨⟨hrow, hlevel, hwaits⟩, hmet, hstatus, hstartable⟩
    refine ⟨hrow, hlevel, hwaits, hstatus, hstartable, ?_⟩
    rw [assertDependenciesMet_ok hlevel hwaits, ← hmet]
    apply Eq.symm
    apply dependenciesMet_augment hown hs.unique hrow
    intro d hd
    exact List.mem_flatMap.mpr
      ⟨task, List.mem_filter.mpr ⟨hrow, decide_eq_true ⟨hlevel, hwaits⟩⟩, hd⟩
  · rintro ⟨hrow, hlevel, hwaits, hstatus, hstartable, hopen⟩
    refine ⟨⟨hrow, hlevel, hwaits⟩, ?_, hstatus, hstartable⟩
    rw [← (assertDependenciesMet_ok hlevel hwaits).mp hopen]
    apply dependenciesMet_augment hown hs.unique hrow
    intro d hd
    exact List.mem_flatMap.mpr
      ⟨task, List.mem_filter.mpr ⟨hrow, decide_eq_true ⟨hlevel, hwaits⟩⟩, hd⟩

/-- What the theorem says of one task behind the merged one. -/
def StartsAsAdmitted (task : Block) : Prop :=
  task ∈ autoStartDependents findFar (fun _ => true) afterChainedTasks.rows "a" <->
    task ∈ afterChainedTasks.rows ∧ task.level = .task ∧ "a" ∈ task.dependsOn ∧
      (task.status = .planned ∨ task.status = .ready) ∧ true = true ∧
        assertDependenciesMet findFar afterChainedTasks.rows task = .ok ()

/-- The one starts; the other goes on waiting for the task elsewhere. -/
theorem merge_starts_chained :
    (StartsAsAdmitted (waitingTask "b" ["a"]) ∧ StartsAsAdmitted (waitingTask "c" ["a", "far"])) ∧
      autoStartDependents findFar (fun _ => true) afterChainedTasks.rows "a" =
        [waitingTask "b" ["a"]] :=
  have hstarts := @merge_starts_what_gate_admits farLevel chainedTasks afterChainedTasks
    (run_endOf (by decide +kernel)) findFar findFar_own (fun _ => true) "a"
  ⟨⟨hstarts (waitingTask "b" ["a"]), hstarts (waitingTask "c" ["a", "far"])⟩, by decide +kernel⟩

end Board
end CatFactory
