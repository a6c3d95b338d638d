import CatFactory.Board.Sound

/-!
# Every turn keeps the board sound

Whatever else is under way, a turn writes a row only where its level may stand,
and only with edges to tasks.
-/

namespace CatFactory
namespace Board

open Foundation
open Execution (BlockLevel)

variable {h : Home} {b : Block}

/-! ## Writes -/

theorem mem_update {rows : List Block} {id : String} {patch : BlockPatch} :
    b ∈ update rows id patch <->
      exists old, old ∈ rows ∧ b = if old.id = id then patch.apply old else old := by
  unfold update
  rw [List.mem_map]
  constructor
  · rintro ⟨old, hold, heq⟩
    exact ⟨old, hold, heq.symm⟩
  · rintro ⟨old, hold, heq⟩
    exact ⟨old, hold, heq.symm⟩

theorem update_ids (rows : List Block) (id : String) (patch : BlockPatch) :
    (update rows id patch).map Block.id = rows.map Block.id := by
  unfold update
  rw [List.map_map]
  apply List.map_congr_left
  intro b _
  show (if b.id = id then patch.apply b else b).id = b.id
  split
  · rfl
  · rfl

theorem mem_deleteMany {rows : List Block} {ids : List String} :
    b ∈ deleteMany rows ids <-> b ∈ rows ∧ b.id ∉ ids := by
  unfold deleteMany
  rw [List.mem_filter, decide_eq_true_eq]

/-! ## What a turn leads to -/

section Turns

variable {h : Home} {mounted : Bool} {fresh : String}

theorem quiet_turn {outcome : Call × Write} {next : Call} {write : Write}
    (hq : Quiet h outcome) (ht : some outcome = some (next, write)) :
    CallSound h next ∧ WriteSound h write := by
  cases ht
  refine ⟨hq.call, ?_⟩
  rw [show write = .nothing from hq.write]
  trivial

theorem placed_movePatch {block parent : Block} (hm : Movable h block parent)
    (destFrame : Option Block) (hs : Sound h) :
    WriteSound h (.update block.id (movePatch block parent destFrame)) := by
  intro level hlevel
  have hsame : level = block.level := hlevel.unique hs hm.sound.level
  constructor
  · intro parentId hparent p hp
    cases hparent
    cases hp
    exact ⟨parent.level, hm.holder.level, hsame ▸ hm.may⟩
  · intro next hnext
    cases hnext

/-- A whole list of edges is written onto a row that a call has read. -/
theorem writeSound_edges {target : Block} {edges : List String} (hs : Sound h)
    (ht : h.LevelOf target.id target.level)
    (hedges : forall s, s ∈ edges -> target.level = .task ∧ h.LevelOf s .task)
    {patch : BlockPatch} (hparent : patch.parentId = none)
    (hdeps : forall next, patch.dependsOn = some next -> next = edges) :
    WriteSound h (.update target.id patch) := by
  intro level hlevel
  have hsame : level = target.level := hlevel.unique hs ht
  constructor
  · intro parentId hp
    rw [hparent] at hp
    cases hp
  · intro next hnext s hmem
    rw [hdeps next hnext] at hmem
    rw [hsame]
    exact hedges s hmem

theorem dangling_dependsOn {removed next : List String}
    (h : (danglingPatch b removed).dependsOn = some next) :
    next = b.dependsOn.filter fun d => d ∉ removed := by
  unfold danglingPatch at h
  dsimp only at h
  split at h
  · exact (Option.some.inj h).symm
  · cases h

theorem asked_sound {request : Request} {next : Call} {write : Write} (hs : Sound h)
    (hfresh : h.unused fresh = true)
    (ht : (Call.asked request).turn h mounted fresh = some (next, write)) :
    CallSound h next ∧ WriteSound h write := by
  cases request with
  | addFrame title type =>
      cases ht
      refine ⟨trivial, hfresh, ?_, rfl⟩
      intro p hp
      cases hp
  | addTask containerId input => exact quiet_turn (quiet_addTask hs containerId input) ht
  | addModules serviceId names => exact quiet_turn (quiet_addModules hs serviceId names) ht
  | addEpic title parentId => exact quiet_turn (quiet_addEpic hs title parentId) ht
  | assignToEpic taskId epicId => exact quiet_turn (quiet_assignToEpic taskId epicId) ht
  | reparent id parentId => exact quiet_turn (quiet_reparent hs id parentId) ht
  | assertRemovable id =>
      simp only [Call.turn] at ht
      split at ht
      · cases ht
        exact ⟨trivial, trivial⟩
      · cases ht
        exact ⟨hs.rows, trivial⟩
  | removeBlock id => exact quiet_turn (quiet_removeListed hs.rows) ht
  | writeDependency targetId sourceId mode =>
      exact quiet_turn (quiet_writeDependency hs targetId sourceId mode) ht

theorem turn_sound {call next : Call} {write : Write} (hs : Sound h)
    (hfresh : h.unused fresh = true) (hc : CallSound h call)
    (ht : call.turn h mounted fresh = some (next, write)) :
    CallSound h next ∧ WriteSound h write := by
  cases call with
  | asked request => exact asked_sound hs hfresh ht
  | listForTask container input =>
      simp only [Call.turn] at ht
      split at ht
      · cases ht
      · split at ht
        · cases ht
          refine ⟨⟨?_, rfl⟩, trivial⟩
          intro p hp
          cases hp
          exact ⟨container.level, hc.left.level, hc.right⟩
        · cases ht
          exact ⟨trivial, trivial⟩
  | insertRow draft =>
      cases ht
      exact ⟨trivial, hfresh, hc.left, hc.right⟩
  | insertModules service names =>
      cases names with
      | nil =>
          cases ht
          exact ⟨trivial, trivial⟩
      | cons name names =>
          cases ht
          refine ⟨hc, hfresh, ?_, rfl⟩
          intro p hp
          cases hp
          refine ⟨.frame, ?_, rfl⟩
          rw [← hc.right]
          exact hc.left.level
  | resolveEpic taskId epicId => exact quiet_turn (quiet_resolveEpic taskId epicId) ht
  | writeEpic taskId epicId =>
      cases ht
      refine ⟨trivial, ?_⟩
      intro level _
      constructor
      · intro parentId hparent
        cases hparent
      · intro next hnext
        cases hnext
  | resolveParent block parentId => exact quiet_turn (quiet_resolveParent hs hc parentId) ht
  | listForMove block parent =>
      simp only [Call.turn] at ht
      split at ht
      · cases ht
      · split at ht
        · cases ht
          exact ⟨trivial, trivial⟩
        · cases ht
          exact ⟨hc, trivial⟩
  | writeMove block parent destFrame =>
      cases ht
      exact ⟨trivial, placed_movePatch hc destFrame hs⟩
  | removeListed id preloaded => exact quiet_turn (quiet_removeListed hc) ht
  | deleteRows blocks doomed =>
      cases ht
      exact ⟨hc, trivial⟩
  | pruneEdges survivors removed =>
      cases survivors with
      | nil =>
          cases ht
          exact ⟨trivial, trivial⟩
      | cons b survivors =>
          have hrest : forall b, b ∈ survivors -> BlockSound h b :=
            fun other hother => hc other (List.mem_cons_of_mem b hother)
          have hb := hc b List.mem_cons_self
          simp only [Call.turn] at ht
          split at ht
          · cases ht
            exact ⟨hrest, trivial⟩
          · cases ht
            refine ⟨hrest, writeSound_edges hs hb.level ?_ rfl
              (fun next hnext => dangling_dependsOn hnext)⟩
            exact fun s hmem => hb.waits s (List.mem_of_mem_filter hmem)
  | leave block =>
      cases ht
      exact ⟨hs.rows, trivial⟩
  | resolveSource target sourceId => exact quiet_turn (quiet_resolveSource hs hc) ht
  | checkCycle target sourceId =>
      simp only [Call.turn] at ht
      split at ht
      · cases ht
        exact ⟨trivial, trivial⟩
      · cases ht
        exact ⟨hc, trivial⟩
  | writeEdge target sourceId =>
      cases ht
      have hjoins : Joins h target sourceId := hc
      refine ⟨hjoins, writeSound_edges hs hjoins.sound.level ?_ rfl
        (fun next hnext => (Option.some.inj hnext).symm)⟩
      intro s hmem
      rcases List.mem_append.mp hmem with hold | hnew
      · exact hjoins.sound.waits s hold
      · rw [List.mem_singleton.mp hnew]
        exact ⟨hjoins.task, hjoins.source⟩
  | recheckCycle target sourceId =>
      simp only [Call.turn] at ht
      split at ht
      · cases ht
        exact ⟨hc, trivial⟩
      · cases ht
        exact ⟨trivial, trivial⟩
  | rollBack target sourceId =>
      cases ht
      have hjoins : Joins h target sourceId := hc
      exact ⟨trivial, writeSound_edges hs hjoins.sound.level hjoins.sound.waits rfl
        (fun next hnext => (Option.some.inj hnext).symm)⟩
  | dropEdge target sourceId =>
      cases ht
      have hsound : BlockSound h target := hc
      refine ⟨trivial, writeSound_edges hs hsound.level ?_ rfl
        (fun next hnext => (Option.some.inj hnext).symm)⟩
      exact fun s hmem => hsound.waits s (List.mem_of_mem_filter hmem)
  | elsewhere | finished | refused | cutOff => cases ht

end Turns

/-! ## Steps -/

theorem unused_spec {id : String} (hu : h.unused id = true) :
    id ≠ "" ∧ h.abroad id = none ∧ id ∉ h.issued.map Prod.fst := by
  unfold Home.unused at hu
  have hall := of_decide_eq_true hu
  exact ⟨hall.left, Option.isNone_iff_eq_none.mp hall.right.left, hall.right.right⟩

theorem plain_spec {patch : BlockPatch} (hp : patch.plain = true) :
    patch.parentId = none ∧ patch.dependsOn = none := by
  have hboth := of_decide_eq_true hp
  exact ⟨Option.isNone_iff_eq_none.mp hboth.left, Option.isNone_iff_eq_none.mp hboth.right⟩

theorem blockSound_apply {patch : BlockPatch} (hb : BlockSound h b)
    (hparent : forall parentId, patch.parentId = some parentId -> h.Placed b.level parentId)
    (hdeps : forall next, patch.dependsOn = some next -> forall s, s ∈ next ->
      b.level = .task ∧ h.LevelOf s .task) : BlockSound h (patch.apply b) where
  level := hb.level
  placed := by
    show h.Placed b.level (patch.parentId.getD b.parentId)
    cases hp : patch.parentId with
    | none => exact hb.placed
    | some parentId => exact hparent parentId hp
  waits := by
    show forall s, s ∈ patch.dependsOn.getD b.dependsOn -> b.level = .task ∧ h.LevelOf s .task
    cases hd : patch.dependsOn with
    | none => exact hb.waits
    | some next => exact hdeps next hd

theorem sound_update {id : String} {patch : BlockPatch} (hs : Sound h)
    (hw : WriteSound h (.update id patch)) : forall b, b ∈ update h.rows id patch ->
      BlockSound h b := by
  intro b hb
  rcases mem_update.mp hb with ⟨old, hold, heq⟩
  have hsound := hs.rows old hold
  rw [heq]
  split
  · rename_i hid
    have hfacts := hw old.level (hid ▸ hsound.level)
    exact blockSound_apply hsound hfacts.left hfacts.right
  · exact hsound

theorem grown_commit (h : Home) (k : Nat) (call : Call) (write : Write) :
    Grown h (h.commit k call write) where
  abroad := rfl
  issued := fun _ hentry => List.mem_append_left _ hentry

theorem sound_rows {k : Nat} {call : Call} {write : Write} (hs : Sound h)
    (hw : WriteSound h write) : forall b, b ∈ write.apply h.rows ->
      BlockSound (h.commit k call write) b := by
  have hgrown := grown_commit h k call write
  intro b hb
  cases write with
  | nothing => exact (hs.rows b hb).grown hgrown
  | insert block =>
      rcases List.mem_append.mp hb with hold | hnew
      · exact (hs.rows b hold).grown hgrown
      · rw [List.mem_singleton.mp hnew]
        exact
          { level := Or.inl (List.mem_append_right _ (List.mem_singleton.mpr rfl))
            placed := hw.right.left.grown hgrown
            waits := by
              intro s hmem
              rw [hw.right.right] at hmem
              cases hmem }
  | update id patch => exact (sound_update hs hw b hb).grown hgrown
  | deleteMany ids => exact (hs.rows b (mem_deleteMany.mp hb).left).grown hgrown

theorem nodup_rows {write : Write} (hs : Sound h) (hw : WriteSound h write) :
    ((write.apply h.rows).map Block.id).Nodup := by
  cases write with
  | nothing => exact hs.unique
  | insert block =>
      show ((h.rows ++ [block]).map Block.id).Nodup
      rw [List.map_append]
      apply hs.unique.append (List.nodup_singleton block.id)
      intro id hid hnew
      rw [List.mem_singleton.mp hnew] at hid
      rcases List.mem_map.mp hid with ⟨old, hold, heq⟩
      have hlevel := (hs.rows old hold).level
      rw [heq] at hlevel
      rcases hlevel with hissued | habroad
      · exact (unused_spec hw.left).right.right (List.mem_map.mpr ⟨_, hissued, rfl⟩)
      · rw [(unused_spec hw.left).right.left] at habroad
        cases habroad
  | update id patch =>
      show ((update h.rows id patch).map Block.id).Nodup
      rw [update_ids]
      exact hs.unique
  | deleteMany ids => exact hs.unique.sublist (List.filter_sublist.map Block.id)

theorem sound_commit {k : Nat} {call : Call} {write : Write} (hs : Sound h)
    (hc : CallSound h call) (hw : WriteSound h write) : Sound (h.commit k call write) where
  unique := nodup_rows hs hw
  oneLevel := by
    show ((h.issued ++ write.issues).map Prod.fst).Nodup
    cases write with
    | insert block =>
        rw [List.map_append]
        apply hs.oneLevel.append (List.nodup_singleton block.id)
        intro id hid hnew
        rw [List.mem_singleton.mp hnew] at hid
        exact (unused_spec hw.left).right.right hid
    | nothing | update | deleteMany =>
        rw [show Write.issues _ = [] from rfl, List.append_nil]
        exact hs.oneLevel
  homed := by
    intro id hid
    rcases List.mem_map.mp hid with ⟨entry, hentry, heq⟩
    rcases List.mem_append.mp hentry with hold | hnew
    · exact hs.homed id (List.mem_map.mpr ⟨entry, hold, heq⟩)
    · cases write with
      | insert block =>
          rw [List.mem_singleton.mp hnew] at heq
          rw [← show block.id = id from heq]
          exact ⟨(unused_spec hw.left).right.left, (unused_spec hw.left).left⟩
      | nothing | update | deleteMany => cases hnew
  rows := sound_rows hs hw
  calls := by
    intro c hmem
    have hgrown := grown_commit h k call write
    rcases List.mem_or_eq_of_mem_set hmem with hold | hnew
    · exact (hs.calls c hold).grown hgrown
    · rw [hnew]
      exact hc.grown hgrown

theorem mayArrive_spec (hb : h.mayArrive b = true) :
    b.id ∉ h.rows.map Block.id ∧ BlockSound h b := by
  unfold Home.mayArrive at hb
  rcases of_decide_eq_true hb with ⟨habsent, hlevel, hparent, hdeps⟩
  refine ⟨habsent, levelOf_some hlevel, ?_, ?_⟩
  · intro p hp
    rw [hp, Option.all_some] at hparent
    rcases (Option.any_eq_true _ _).mp hparent with ⟨upper, hupper, hmay⟩
    exact ⟨upper, levelOf_some hupper, hmay⟩
  · intro s hs
    rcases of_decide_eq_true (List.all_eq_true.mp hdeps s hs) with ⟨htask, hsource⟩
    exact ⟨htask, levelOf_some hsource⟩

theorem sound_arrive (hs : Sound h) (hb : h.mayArrive b = true)
    (unjudged : List (String × String)) :
    Sound { h with rows := h.rows ++ [b], unjudged := unjudged } := by
  rcases mayArrive_spec hb with ⟨habsent, hsound⟩
  have hgrown : Grown h { h with rows := h.rows ++ [b], unjudged := unjudged } :=
    ⟨rfl, fun _ hentry => hentry⟩
  refine ⟨?_, hs.oneLevel, hs.homed, ?_, fun c hc => (hs.calls c hc).grown hgrown⟩
  · show ((h.rows ++ [b]).map Block.id).Nodup
    rw [List.map_append]
    apply hs.unique.append (List.nodup_singleton b.id)
    intro id hid hnew
    rw [List.mem_singleton.mp hnew] at hid
    exact habsent hid
  · intro c hc
    rcases List.mem_append.mp hc with hold | hnew
    · exact (hs.rows c hold).grown hgrown
    · rw [List.mem_singleton.mp hnew]
      exact hsound.grown hgrown

/-- What one step leaves, with the guards that it passed. -/
inductive Steps (h : Home) : Home -> Prop where
  | ask (request : Request) : Steps h { h with calls := h.calls ++ [.asked request] }
  | advance {k : Nat} {mounted : Bool} {fresh : String} {call next : Call} {write : Write}
      (hfresh : h.unused fresh = true) (hcall : h.calls[k]? = some call)
      (hturn : call.turn h mounted fresh = some (next, write)) :
      Steps h (h.commit k next write)
  | cutOff {k : Nat} {call : Call} (hcall : h.calls[k]? = some call) :
      Steps h { h with calls := h.calls.set k (.cutOff call.edge) }
  | edit {id : String} {patch : BlockPatch} (hplain : patch.plain = true) :
      Steps h { h with rows := update h.rows id patch }
  | arrive {block : Block} (harrives : h.mayArrive block = true) :
      Steps h { h with
        rows := h.rows ++ [block]
        unjudged := h.unjudged ++ block.dependsOn.map fun s => (block.id, s) }

theorem step_cases {h h' : Home} {a : Action} (hstep : h.step a = some h') : Steps h h' := by
  cases a with
  | ask request =>
      cases hstep
      exact .ask request
  | advance k mounted fresh =>
      simp only [Home.step] at hstep
      split at hstep
      · rename_i hfresh
        split at hstep
        · cases hstep
        · rename_i call hcall
          split at hstep
          · cases hstep
          · rename_i next write hturn
            cases hstep
            exact .advance hfresh hcall hturn
      · cases hstep
  | cutOff k =>
      simp only [Home.step] at hstep
      split at hstep
      · cases hstep
      · rename_i call hcall
        split at hstep
        · cases hstep
        · cases hstep
          exact .cutOff hcall
  | edit id patch =>
      simp only [Home.step] at hstep
      split at hstep
      · rename_i hplain
        cases hstep
        exact .edit hplain
      · cases hstep
  | arrive block =>
      simp only [Home.step] at hstep
      split at hstep
      · rename_i harrives
        cases hstep
        exact .arrive harrives
      · cases hstep

theorem sound_calls {calls : List Call} (hs : Sound h)
    (hcalls : forall c, c ∈ calls -> c ∈ h.calls ∨ CallSound h c) :
    Sound { h with calls := calls } where
  unique := hs.unique
  oneLevel := hs.oneLevel
  homed := hs.homed
  rows := fun b hb => (hs.rows b hb).grown ⟨rfl, fun _ hentry => hentry⟩
  calls := fun c hmem =>
    ((hcalls c hmem).elim (hs.calls c) id).grown ⟨rfl, fun _ hentry => hentry⟩

theorem sound_edit {id : String} {patch : BlockPatch} (hs : Sound h)
    (hplain : patch.plain = true) : Sound { h with rows := update h.rows id patch } := by
  have hnone := plain_spec hplain
  have hwrite : WriteSound h (.update id patch) := by
    intro level _
    constructor
    · intro parentId hparent
      rw [hnone.left] at hparent
      cases hparent
    · intro next hnext
      rw [hnone.right] at hnext
      cases hnext
  exact
    { unique := by
        show ((update h.rows id patch).map Block.id).Nodup
        rw [update_ids]
        exact hs.unique
      oneLevel := hs.oneLevel
      homed := hs.homed
      rows := fun b hb =>
        (sound_update hs hwrite b hb).grown ⟨rfl, fun _ hentry => hentry⟩
      calls := fun c hc => (hs.calls c hc).grown ⟨rfl, fun _ hentry => hentry⟩ }

/-- Every step keeps the board sound. -/
theorem sound_step {h h' : Home} {a : Action} (hs : Sound h) (hstep : h.step a = some h') :
    Sound h' := by
  cases step_cases hstep with
  | ask request =>
      apply sound_calls hs
      intro c hmem
      rcases List.mem_append.mp hmem with hold | hnew
      · exact Or.inl hold
      · rw [List.mem_singleton.mp hnew]
        exact Or.inr trivial
  | advance hfresh hcall hturn =>
      rcases turn_sound hs hfresh (hs.calls _ (List.mem_of_getElem? hcall)) hturn with
        ⟨hnext, hwrite⟩
      exact sound_commit hs hnext hwrite
  | cutOff hcall =>
      apply sound_calls hs
      intro c hmem
      rcases List.mem_or_eq_of_mem_set hmem with hold | hnew
      · exact Or.inl hold
      · rw [hnew]
        exact Or.inr trivial
  | edit hplain => exact sound_edit hs hplain
  | arrive harrives => exact sound_arrive hs harrives _

theorem sound_start (abroad : String -> Option BlockLevel) : Sound (Home.start abroad) where
  unique := List.nodup_nil
  oneLevel := List.nodup_nil
  homed := fun _ hid => by cases hid
  rows := fun _ hb => by cases hb
  calls := fun _ hc => by cases hc

theorem sound_run {abroad : String -> Option BlockLevel} {trace : List Action}
    (hrun : Run Home.step (Home.start abroad) trace h) : Sound h :=
  RunWhere.invariant (sound_start abroad) (fun _ _ _ hs _ hstep => sound_step hs hstep) hrun

end Board
end CatFactory
