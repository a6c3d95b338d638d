import CatFactory.Board.Containment

/-!
# A delete and what it leaves

A delete takes a block with all that stands in it, and then goes over the blocks
it had listed and takes off them what they said of the removed ones.
-/

namespace CatFactory
namespace Board

open Foundation
open Execution (BlockLevel)

/-- The block names the id: as blocker, parent, epic, initiative or service. -/
def Refers (b : Block) (id : String) : Prop :=
  id ∈ b.dependsOn ∨ b.parent = some id ∨ (b.epicId.filter fun e => e ≠ "") = some id ∨
    (b.initiativeId.filter fun i => i ≠ "") = some id ∨
    id ∈ b.serviceConnections.map ServiceConnection.serviceBlockId ∨ id ∈ b.involvedServiceIds

/-- The block without what it says of the ids; where it stands, and the rest, stays. -/
def Block.without (b : Block) (ids : List String) : Block :=
  { b with
    dependsOn := b.dependsOn.filter fun d => d ∉ ids
    epicId := b.epicId.filter fun e => ¬ (e ≠ "" ∧ e ∈ ids)
    initiativeId := b.initiativeId.filter fun i => ¬ (i ≠ "" ∧ i ∈ ids)
    serviceConnections := b.serviceConnections.filter fun c => c.serviceBlockId ∉ ids
    involvedServiceIds := b.involvedServiceIds.filter fun sid => sid ∉ ids }

/-- What a delete makes of the rows: those outside the block stay, in their order. -/
structure Removed (rows : List Block) (rootId : String) (rows' : List Block) : Prop where
  kept : exists removed : List String,
    (forall id, id ∈ removed <-> Relation.ReflTransGen (Inside rows) rootId id) ∧
      rows' = (rows.filter fun b => b.id ∉ removed).map fun b => b.without removed
  clean : forall b, b ∈ rows' -> forall id, Refers b id ->
    ¬ Relation.ReflTransGen (Inside rows) rootId id

/-! ## One row -/

section OneRow

variable {b : Block} {removed : List String}

theorem filter_of_length {α : Type} {p : α -> Bool} {xs : List α}
    (h : (xs.filter p).length = xs.length) : xs.filter p = xs :=
  List.filter_sublist.eq_of_length h

theorem dangling_list {α : Type} (p : α -> Bool) (xs : List α) :
    (if (xs.filter p).length ≠ xs.length then some (xs.filter p) else none).getD xs =
      xs.filter p := by
  split
  · rfl
  · rename_i h
    exact (filter_of_length (not_not.mp h)).symm

theorem dangling_link (link : Option String) :
    (if (link.any fun id => id ≠ "" ∧ id ∈ removed) = true then some (none : Option String)
      else none).getD link = link.filter fun e => ¬ (e ≠ "" ∧ e ∈ removed) := by
  cases link with
  | none => rfl
  | some e =>
      rw [Option.any_some, Option.filter_some]
      by_cases hgone : e ≠ "" ∧ e ∈ removed
      · rw [if_pos (decide_eq_true hgone), if_neg (by simpa using hgone),
          Option.getD_some]
      · rw [if_neg (fun h => hgone (of_decide_eq_true h)), if_pos (decide_eq_true hgone),
          Option.getD_none]

/-- The update of a survivor takes off it what it said of the removed blocks. -/
theorem danglingPatch_apply : (danglingPatch b removed).apply b = b.without removed := by
  unfold BlockPatch.apply danglingPatch Block.without
  simp only [dangling_list, dangling_link, Option.getD_none]

theorem without_link {link : Option String} {id : String}
    (h : (link.filter fun e => ¬ (e ≠ "" ∧ e ∈ removed)).filter (fun e => e ≠ "") = some id) :
    id ∉ removed := by
  rcases Option.filter_eq_some_iff.mp h with ⟨hlink, hne⟩
  have hkept := of_decide_eq_true (Option.filter_eq_some_iff.mp hlink).right
  exact fun hmem => hkept ⟨of_decide_eq_true hne, hmem⟩

/-- A block without some ids refers to none of them, unless it stands in one. -/
theorem without_refers (hparent : forall p, b.parent = some p -> p ∉ removed) {id : String}
    (h : Refers (b.without removed) id) : id ∉ removed := by
  rcases h with hdep | hup | hepic | hinitiative | hconnection | hinvolved
  · exact of_decide_eq_true (List.mem_filter.mp hdep).right
  · exact hparent id hup
  · exact without_link hepic
  · exact without_link hinitiative
  · rcases List.mem_map.mp hconnection with ⟨c, hc, hid⟩
    rw [← hid]
    exact of_decide_eq_true (List.mem_filter.mp hc).right
  · exact of_decide_eq_true (List.mem_filter.mp hinvolved).right

end OneRow

/-! ## All rows -/

/-- A survivor's row is written from the list that the delete had read. -/
def pruneRow (removed : List String) (rows : List Block) (b : Block) : List Block :=
  if b.id ∈ removed then rows else update rows b.id (danglingPatch b removed)

/-- A row as it is once the listed survivors have been gone over. -/
def prunedRow (ids removed : List String) (r : Block) : Block :=
  if r.id ∈ ids ∧ r.id ∉ removed then (danglingPatch r removed).apply r else r

theorem prunedRow_cons {ids removed : List String} {b r : Block} (hfresh : b.id ∉ ids)
    (hcurrent : r.id = b.id -> r = b) (hkept : b.id ∉ removed) :
    prunedRow ids removed (if r.id = b.id then (danglingPatch b removed).apply r else r) =
      prunedRow (b.id :: ids) removed r := by
  unfold prunedRow
  by_cases hid : r.id = b.id
  · rw [if_pos hid, hcurrent hid, if_neg (fun h => hfresh h.left),
      if_pos ⟨List.mem_cons_self, hkept⟩]
  · rw [if_neg hid]
    simp only [List.mem_cons, hid, false_or]

theorem prunedRow_gone {ids removed : List String} {b r : Block} (hgone : b.id ∈ removed) :
    prunedRow ids removed r = prunedRow (b.id :: ids) removed r := by
  unfold prunedRow
  by_cases hid : r.id = b.id
  · rw [if_neg (fun h => h.right (hid ▸ hgone)), if_neg (fun h => h.right (hid ▸ hgone))]
  · simp only [List.mem_cons, hid, false_or]

/-- A row after one pruning is the row before, but for that of the survivor. -/
theorem mem_pruneRow {removed : List String} {rows : List Block} {b r : Block}
    (hr : r ∈ pruneRow removed rows b) :
    exists old, old ∈ rows ∧ r.id = old.id ∧ (old.id ≠ b.id -> r = old) := by
  unfold pruneRow at hr
  split at hr
  · exact ⟨r, hr, rfl, fun _ => rfl⟩
  · rcases mem_update.mp hr with ⟨old, hold, heq⟩
    refine ⟨old, hold, ?_, ?_⟩
    · rw [heq]
      split
      · rfl
      · rfl
    · intro hne
      rw [heq, if_neg hne]

/-- As long as the rows are what the list says, all of them end pruned. -/
theorem foldl_pruneRow {removed : List String} {survivors rows : List Block}
    (hunique : (survivors.map Block.id).Nodup)
    (hcurrent : forall b, b ∈ survivors -> forall r, r ∈ rows -> r.id = b.id -> r = b) :
    survivors.foldl (pruneRow removed) rows =
      rows.map (prunedRow (survivors.map Block.id) removed) := by
  induction survivors generalizing rows with
  | nil =>
      have hsame : rows.map (prunedRow [] removed) = rows.map id := by
        apply List.map_congr_left
        intro r _
        exact if_neg (fun h => by cases h.left)
      rw [List.foldl_nil, List.map_nil, hsame, List.map_id]
  | cons b survivors ih =>
      rw [List.map_cons, List.nodup_cons] at hunique
      rw [List.foldl_cons, ih hunique.right]
      · unfold pruneRow
        split
        · rename_i hgone
          exact List.map_congr_left (fun r _ => prunedRow_gone hgone)
        · rename_i hkept
          unfold update
          rw [List.map_map]
          apply List.map_congr_left
          intro r hr
          exact prunedRow_cons hunique.left (hcurrent b List.mem_cons_self r hr) hkept
      · intro c hc r hr hid
        rcases mem_pruneRow hr with ⟨old, hold, hrid, hsame⟩
        have hother : old.id ≠ b.id := by
          intro heq
          apply hunique.left
          rw [← heq, ← hrid, hid]
          exact List.mem_map.mpr ⟨c, hc, rfl⟩
        rw [hsame hother]
        exact hcurrent c (List.mem_cons_of_mem b hc) old hold (hrid ▸ hid)

/-- The rows after the delete of all that stands in a block. -/
theorem removed_rows {rows : List Block} (hunique : (rows.map Block.id).Nodup)
    (rootId : String) :
    Removed rows rootId (rows.foldl (pruneRow (descendantIds rows rootId))
      (deleteMany rows (descendantIds rows rootId))) := by
  have hcurrent : forall b, b ∈ rows -> forall r,
      r ∈ deleteMany rows (descendantIds rows rootId) -> r.id = b.id -> r = b :=
    fun b hb r hr hid => eq_of_key hunique (mem_deleteMany.mp hr).left hb hid
  have hall : rows.foldl (pruneRow (descendantIds rows rootId))
      (deleteMany rows (descendantIds rows rootId)) =
        (rows.filter fun b => b.id ∉ descendantIds rows rootId).map fun b =>
          b.without (descendantIds rows rootId) := by
    rw [foldl_pruneRow hunique hcurrent]
    apply List.map_congr_left
    intro r hr
    rcases mem_deleteMany.mp hr with ⟨hrow, hkept⟩
    rw [← danglingPatch_apply]
    exact if_pos ⟨List.mem_map.mpr ⟨r, hrow, rfl⟩, hkept⟩
  rw [hall]
  refine ⟨⟨descendantIds rows rootId, fun _ => mem_descendantIds, rfl⟩, ?_⟩
  intro b hb id hrefers
  rcases List.mem_map.mp hb with ⟨r, hr, heq⟩
  rcases mem_deleteMany.mp hr with ⟨hrow, hkept⟩
  rw [← heq] at hrefers
  rw [← mem_descendantIds]
  apply without_refers ?_ hrefers
  -- what stands in a removed block is removed
  intro p hp hgone
  apply hkept
  rw [mem_descendantIds] at hgone ⊢
  exact hgone.tail ⟨r, hrow, rfl, hp⟩

/-! ## A delete that nobody interrupts -/

section Alone

variable {k : Nat} {fresh : String}

/-- The turns of one call, one after the other. -/
def OnlyTurns (k : Nat) (fresh : String) (turns : List Action) : Prop :=
  forall a, a ∈ turns -> a = .advance k false fresh

theorem step_turn {h : Home} {call next : Call} {write : Write}
    (hfresh : h.unused fresh = true) (hcall : h.calls[k]? = some call)
    (hturn : call.turn h false fresh = some (next, write)) :
    h.step (.advance k false fresh) = some (h.commit k next write) := by
  simp only [Home.step, hfresh, hcall, hturn, if_true]

theorem commit_calls {h : Home} {call : Call} (next : Call) (write : Write)
    (hcall : h.calls[k]? = some call) : (h.commit k next write).calls[k]? = some next := by
  show (h.calls.set k next)[k]? = some next
  rw [List.getElem?_set_self (List.getElem?_eq_some_iff.mp hcall).1]

theorem commit_unused {h : Home} (next : Call) {write : Write} (hissues : write.issues = [])
    (hfresh : h.unused fresh = true) : (h.commit k next write).unused fresh = true := by
  have hissued : (h.commit k next write).issued = h.issued := by
    show h.issued ++ write.issues = h.issued
    rw [hissues, List.append_nil]
  unfold Home.unused
  rw [hissued]
  exact hfresh

/-- The run that begins with one turn. -/
theorem run_cons {h mid h' : Home} {a : Action} {turns : List Action}
    (hfirst : h.step a = some mid) (hrest : Run Home.step mid turns h') :
    Run Home.step h (a :: turns) h' :=
  (RunWhere.snoc RunWhere.nil trivial hfirst : Run Home.step h [a] mid).append hrest

theorem onlyTurns_cons {turns : List Action} (h : OnlyTurns k fresh turns) :
    OnlyTurns k fresh (.advance k false fresh :: turns) := by
  intro a ha
  rcases List.mem_cons.mp ha with heq | hrest
  · exact heq
  · exact h a hrest

theorem prune_alone {removed : List String} {blocks : List Block} {h : Home}
    (hfresh : h.unused fresh = true)
    (hcall : h.calls[k]? = some (.pruneEdges blocks removed)) :
    exists turns h', Run Home.step h turns h' ∧ OnlyTurns k fresh turns ∧
      h'.calls[k]? = some .finished ∧ h'.rows = blocks.foldl (pruneRow removed) h.rows := by
  induction blocks generalizing h with
  | nil =>
      refine ⟨[.advance k false fresh], h.commit k .finished .nothing, ?_, ?_, ?_, rfl⟩
      · exact run_cons (step_turn hfresh hcall rfl) RunWhere.nil
      · exact onlyTurns_cons (fun _ ha => by cases ha)
      · exact commit_calls _ _ hcall
  | cons b blocks ih =>
      have hturn : exists write : Write, write.issues = [] ∧
          write.apply h.rows = pruneRow removed h.rows b ∧
            (Call.pruneEdges (b :: blocks) removed).turn h false fresh =
              some (.pruneEdges blocks removed, write) := by
        by_cases hgone : b.id ∈ removed
        · refine ⟨.nothing, rfl, ?_, ?_⟩
          · unfold pruneRow
            rw [if_pos hgone]
            rfl
          · simp only [Call.turn, if_pos hgone, Call.goOn]
        · refine ⟨.update b.id (danglingPatch b removed), rfl, ?_, ?_⟩
          · unfold pruneRow
            rw [if_neg hgone]
            rfl
          · simp only [Call.turn, if_neg hgone]
      rcases hturn with ⟨write, hissues, hrows, hturn⟩
      rcases ih (commit_unused _ hissues hfresh) (commit_calls _ write hcall) with
        ⟨turns, h', hrun, honly, hfinished, hrest⟩
      refine ⟨.advance k false fresh :: turns, h',
        run_cons (step_turn hfresh hcall hturn) hrun, onlyTurns_cons honly, hfinished, ?_⟩
      rw [hrest, List.foldl_cons, ← hrows]
      rfl

/-- The tasks that hold a delete back are the unfinished ones inside. -/
theorem unfinishedTasksUnder_nil {blocks : List Block} {id : String} :
    (unfinishedTasksUnder blocks id).length = 0 <->
      forall b, b ∈ blocks -> Relation.ReflTransGen (Inside blocks) id b.id -> ¬ Unfinished b := by
  unfold unfinishedTasksUnder Unfinished
  rw [List.length_eq_zero_iff, List.filter_eq_nil_iff]
  constructor
  · intro hnone b hb hinside hopen
    apply hnone b hb
    exact decide_eq_true ⟨mem_descendantIds.mpr hinside, hopen.left, hopen.right⟩
  · intro hnone b hb hopen
    have hall := of_decide_eq_true hopen
    exact hnone b hb (mem_descendantIds.mp hall.left) hall.right

/-- A row that is a frame with unfinished tasks inside. -/
def HeldBack (rows : List Block) (id : String) : Prop :=
  (exists target, target ∈ rows ∧ target.id = id ∧ target.level = .frame) ∧
    exists task, task ∈ rows ∧ Relation.ReflTransGen (Inside rows) id task.id ∧ Unfinished task

theorem unfinishedWork_iff {h : Home} (hs : Sound h) (id : String) :
    (exists error, unfinishedWork h.rows id = some error) <-> HeldBack h.rows id := by
  unfold unfinishedWork HeldBack
  constructor
  · rintro ⟨error, herror⟩
    split at herror
    · cases herror
    · rename_i target htarget
      split at herror
      · cases herror
      · rename_i hframe
        push Not at hframe
        split at herror
        · cases herror
        · rename_i hsome
          refine ⟨⟨target, (lookup_some htarget).left, (lookup_some htarget).right,
            hframe.left⟩, ?_⟩
          by_contra hnone
          push Not at hnone
          exact hsome (unfinishedTasksUnder_nil.mpr hnone)
  · rintro ⟨⟨target, hrow, hid, hframe⟩, task, htask, hinside, hopen⟩
    have hfound : lookup Block.id h.rows id = some target := hid ▸ lookup_of_mem hs.unique hrow
    rw [hfound]
    dsimp only
    rw [if_neg, if_neg]
    · exact ⟨_, rfl⟩
    · intro hnone
      exact unfinishedTasksUnder_nil.mp hnone task htask hinside hopen
    · rintro (hno | hparent)
      · exact hno hframe
      · exact hparent (frame_alone hs hrow hframe)

/-- A finished service with an epic; what another service has waits for it and is in the epic. -/
def boardToClear : List Action :=
  [.ask (.addFrame "billing" .service), .advance 0 false "blk1",
   .ask (.addFrame "mail" .service), .advance 1 false "blk2",
   .ask (.addTask "blk1" { title := "totals" }), .advance 2 false "a", .advance 2 false "a",
   .advance 2 false "a",
   .ask (.addTask "blk2" { title := "letters" }), .advance 3 false "b", .advance 3 false "b",
   .advance 3 false "b",
   .ask (.addEpic "invoices" (some "blk1")), .advance 4 false "e", .advance 4 false "e",
   .ask (.assignToEpic "b" (some "e")), .advance 5 false "x", .advance 5 false "x",
   .advance 5 false "x",
   .ask (.writeDependency "b" "a" .add), .advance 6 false "x", .advance 6 false "x",
   .advance 6 false "x", .advance 6 false "x", .advance 6 false "x",
   .edit "a" { status := some .done }, .ask (.removeBlock "blk1")]

def boardBeforeClear : Home :=
  endOf Home.step (Home.start nowhere) boardToClear

end Alone

end Board
end CatFactory
