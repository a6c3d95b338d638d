import CatFactory.Board.Turns

/-!
# No cycle is left behind

A call that adds an edge judges the graph before its write and once more after
it, and takes the edge back when a cycle has come about meanwhile.  A write puts
a whole list on the row, so one that was read before an edge was taken off puts
that edge back, and nobody judges it then; nor does anybody judge the edges of a
row that comes from another home.  Every cycle of a board passes through such an
edge, or through one that its call has still to judge again or to take back.
-/

namespace CatFactory
namespace Board

open Foundation
open Execution (BlockLevel)

variable {h : Home}

/-- The row of the first block names the second. -/
def Waits (rows : List Block) (target source : String) : Prop :=
  exists b, b ∈ rows ∧ b.id = target ∧ source ∈ b.dependsOn

/-- A call has written the edge and has not judged it again. -/
def Home.Unchecked (h : Home) (target source : String) : Prop :=
  exists call, call ∈ h.calls ∧ call.edge = some (.due, target, source)

/-- A call has found a cycle behind its edge and has not taken it back. -/
def Home.Condemned (h : Home) (target source : String) : Prop :=
  exists call, call ∈ h.calls ∧ call.edge = some (.cyclic, target, source)

def Home.Written (h : Home) (target source : String) : Prop :=
  exists call, call ∈ h.calls ∧ call.written = some (target, source)

/-- An edge that no call will look at any more. -/
def Home.Settled (h : Home) (target source : String) : Prop :=
  Waits h.rows target source ∧ ¬ h.Written target source ∧ (target, source) ∉ h.unjudged

theorem written_iff {target source : String} :
    h.Written target source <-> h.Unchecked target source ∨ h.Condemned target source := by
  constructor
  · rintro ⟨call, hcall, hedge⟩
    rcases Option.map_eq_some_iff.mp hedge with ⟨⟨judgement, edge⟩, hstands, hsame⟩
    rw [show edge = (target, source) from hsame] at hstands
    cases judgement with
    | due => exact Or.inl ⟨call, hcall, hstands⟩
    | cyclic => exact Or.inr ⟨call, hcall, hstands⟩
  · rintro (⟨call, hcall, hedge⟩ | ⟨call, hcall, hedge⟩)
    · exact ⟨call, hcall, Option.map_eq_some_iff.mpr ⟨_, hedge, rfl⟩⟩
    · exact ⟨call, hcall, Option.map_eq_some_iff.mpr ⟨_, hedge, rfl⟩⟩

theorem hasEdge_iff {rows : List Block} {target source : String} :
    hasEdge rows (target, source) = true <-> Waits rows target source := by
  unfold hasEdge Waits
  rw [List.any_eq_true]
  constructor
  · rintro ⟨b, hb, hboth⟩
    exact ⟨b, hb, of_decide_eq_true hboth⟩
  · rintro ⟨b, hb, hboth⟩
    exact ⟨b, hb, decide_eq_true hboth⟩

theorem waits_link (hs : Sound h) {target source : String} (hw : Waits h.rows target source) :
    Graph.Link (dependsOnOf h.rows) target source := by
  rcases hw with ⟨b, hb, hid, hmem⟩
  have hfound : byId h.rows target = some b := (byId_eq_some_iff hs.unique).mpr ⟨hb, hid⟩
  unfold Graph.Link dependsOnOf
  rw [hfound]
  exact hmem

/-! ## What a write does to the edges -/

/-- An edge after a write was there before, or is the writer's own, or has been put back. -/
theorem waits_apply (hs : Sound h) {write : Write} (hw : WriteSound h write)
    (own : Option (String × String)) {target source : String}
    (he : Waits (write.apply h.rows) target source) :
    Waits h.rows target source ∨ own = some (target, source) ∨
      (target, source) ∈ write.revives h.rows own := by
  rcases he with ⟨b, hb, hid, hmem⟩
  cases write with
  | nothing => exact Or.inl ⟨b, hb, hid, hmem⟩
  | insert block =>
      rcases List.mem_append.mp hb with hold | hnew
      · exact Or.inl ⟨b, hold, hid, hmem⟩
      · rw [List.mem_singleton.mp hnew, hw.right.right] at hmem
        cases hmem
  | deleteMany ids => exact Or.inl ⟨b, (mem_deleteMany.mp hb).left, hid, hmem⟩
  | update id patch =>
      rcases mem_update.mp hb with ⟨old, hold, heq⟩
      by_cases hrow : old.id = id
      · rw [if_pos hrow] at heq
        rw [heq] at hid hmem
        have hfound : lookup Block.id h.rows id = some old :=
          hrow ▸ lookup_of_mem hs.unique hold
        have htarget : id = target := hrow.symm.trans hid
        cases hdeps : patch.dependsOn with
        | none =>
            left
            refine ⟨old, hold, hid, ?_⟩
            rw [show (patch.apply old).dependsOn = patch.dependsOn.getD old.dependsOn from rfl,
              hdeps] at hmem
            exact hmem
        | some next =>
            rw [show (patch.apply old).dependsOn = patch.dependsOn.getD old.dependsOn from rfl,
              hdeps] at hmem
            by_cases hkept : source ∈ old.dependsOn
            · exact Or.inl ⟨old, hold, hid, hkept⟩
            · right
              by_cases hown : own = some (target, source)
              · exact Or.inl hown
              · right
                simp only [Write.revives, hfound, hdeps]
                rw [List.mem_filter]
                constructor
                · rw [List.mem_map]
                  exact ⟨source, List.mem_filter.mpr ⟨hmem, decide_eq_true hkept⟩,
                    by rw [htarget]⟩
                · exact decide_eq_true (fun heq => hown heq.symm)
      · rw [if_neg hrow] at heq
        rw [heq] at hid hmem
        exact Or.inl ⟨old, hold, hid, hmem⟩

/-- A call judges the same edge again, or takes one on while it has none. -/
def KeepsEdge (call next : Call) : Prop :=
  call.written = none ∨ next.written = call.written

theorem set_written {calls : List Call} {k : Nat} {call next : Call}
    (hcall : calls[k]? = some call) (hkeep : KeepsEdge call next) {edge : String × String}
    (h : exists c, c ∈ calls ∧ c.written = some edge) :
    exists c, c ∈ calls.set k next ∧ c.written = some edge := by
  have hk : k < calls.length := (List.getElem?_eq_some_iff.mp hcall).1
  rcases h with ⟨c, hc, hedge⟩
  rcases List.mem_iff_getElem?.mp hc with ⟨j, hj⟩
  by_cases heq : k = j
  · rw [← heq, hcall] at hj
    have hsame : call = c := Option.some.inj hj
    refine ⟨next, List.mem_set hk next, ?_⟩
    rcases hkeep with hnone | hnext
    · rw [hsame, hedge] at hnone
      cases hnone
    · rw [hnext, hsame]
      exact hedge
  · refine ⟨c, ?_, hedge⟩
    apply List.mem_iff_getElem?.mpr
    exact ⟨j, by rw [List.getElem?_set_ne heq]; exact hj⟩

/-- No edge settles by a turn of a call that goes on judging its own. -/
theorem settled_commit (hs : Sound h) {k : Nat} {call next : Call} {write : Write}
    (hcall : h.calls[k]? = some call) (hkeep : KeepsEdge call next) (hw : WriteSound h write)
    {target source : String}
    (he : (h.commit k next write).Settled target source) : h.Settled target source := by
  rcases he with ⟨hwaits, hchecked, hkept⟩
  have hrevived : (target, source) ∉ h.unjudged ++ write.revives h.rows next.written := by
    intro hmem
    exact hkept (List.mem_filter.mpr ⟨hmem, hasEdge_iff.mpr hwaits⟩)
  have hown : next.written ≠ some (target, source) := by
    intro hedge
    have hk : k < h.calls.length := (List.getElem?_eq_some_iff.mp hcall).1
    exact hchecked ⟨next, List.mem_set hk next, hedge⟩
  refine ⟨?_, ?_, fun hmem => hrevived (List.mem_append_left _ hmem)⟩
  · rcases waits_apply hs hw next.written hwaits with hold | hnew | hback
    · exact hold
    · exact absurd hnew hown
    · exact absurd (List.mem_append_right _ hback) hrevived
  · exact fun hopen => hchecked (set_written hcall hkeep hopen)

/-! ## The two turns that stop judging -/

/-- What a turn does about the edge that its call has still to judge. -/
theorem turn_edge {mounted : Bool} {fresh : String} {call next : Call} {write : Write}
    (ht : call.turn h mounted fresh = some (next, write)) :
    KeepsEdge call next ∨
      exists target sourceId,
        call = .recheckCycle target sourceId ∧ next = .finished ∧ write = .nothing ∧
            wouldCreateCycle h.rows target.id sourceId = false ∨
          call = .rollBack target sourceId ∧ next.written = none ∧
            write = .update target.id { dependsOn := some target.dependsOn } := by
  cases call with
  | recheckCycle target sourceId =>
      simp only [Call.turn] at ht
      split at ht
      · cases ht
        exact Or.inl (Or.inr rfl)
      · rename_i hno
        cases ht
        exact Or.inr ⟨target, sourceId, Or.inl ⟨rfl, rfl, rfl, Bool.eq_false_iff.mpr hno⟩⟩
  | rollBack target sourceId =>
      cases ht
      exact Or.inr ⟨target, sourceId, Or.inr ⟨rfl, rfl, rfl⟩⟩
  | cutOff edge => cases ht
  | asked | listForTask | insertRow | insertModules | resolveEpic | writeEpic | resolveParent
  | leave | listForMove | writeMove | removeListed | deleteRows | pruneEdges | resolveSource
  | checkCycle | writeEdge | dropEdge | elsewhere | finished | refused =>
      exact Or.inl (Or.inl rfl)

/-- An edge that settles is one that was, or the one that has just been judged. -/
theorem settled_judged {k : Nat} {target : Block} {sourceId : String}
    (hcall : h.calls[k]? = some (.recheckCycle target sourceId)) {t s : String}
    (he : (h.commit k .finished .nothing).Settled t s) :
    h.Settled t s ∨ t = target.id ∧ s = sourceId := by
  rcases he with ⟨hwaits, hchecked, hkept⟩
  by_cases hsame : t = target.id ∧ s = sourceId
  · exact Or.inr hsame
  · left
    refine ⟨hwaits, ?_, ?_⟩
    · rintro ⟨c, hc, hedge⟩
      apply hchecked
      rcases List.mem_iff_getElem?.mp hc with ⟨j, hj⟩
      refine ⟨c, List.mem_iff_getElem?.mpr ⟨j, ?_⟩, hedge⟩
      by_cases heq : k = j
      · exfalso
        rw [← heq, hcall] at hj
        rw [← Option.some.inj hj] at hedge
        cases hedge
        exact hsame ⟨rfl, rfl⟩
      · show (h.calls.set k _)[j]? = some c
        rw [List.getElem?_set_ne heq]
        exact hj
    · intro hmem
      exact hkept (List.mem_filter.mpr
        ⟨List.mem_append_left _ hmem, hasEdge_iff.mpr hwaits⟩)

/-- The roll-back takes the edge off the row. -/
theorem not_waits_rollBack {target : Block} {sourceId : String}
    (habsent : sourceId ∉ target.dependsOn) :
    ¬ Waits (update h.rows target.id { dependsOn := some target.dependsOn })
      target.id sourceId := by
  rintro ⟨b, hb, hid, hmem⟩
  rcases mem_update.mp hb with ⟨old, hold, heq⟩
  split at heq
  · rw [heq] at hmem
    exact habsent hmem
  · rename_i hrow
    rw [heq] at hid
    exact hrow hid

theorem settled_rollBack (hs : Sound h) {k : Nat} {next : Call} {target : Block}
    {sourceId : String} (hcall : h.calls[k]? = some (.rollBack target sourceId))
    (hnext : next.written = none)
    (hw : WriteSound h (.update target.id { dependsOn := some target.dependsOn }))
    (hc : Joins h target sourceId) {t s : String}
    (he : (h.commit k next (.update target.id
      { dependsOn := some target.dependsOn })).Settled t s) : h.Settled t s := by
  rcases he with ⟨hwaits, hchecked, hkept⟩
  have hrevived : (t, s) ∉ h.unjudged ++ (Write.update target.id
      { dependsOn := some target.dependsOn }).revives h.rows next.written := by
    intro hmem
    exact hkept (List.mem_filter.mpr ⟨hmem, hasEdge_iff.mpr hwaits⟩)
  refine ⟨?_, ?_, fun hmem => hrevived (List.mem_append_left _ hmem)⟩
  · rcases waits_apply hs hw next.written hwaits with hold | hnew | hback
    · exact hold
    · rw [hnext] at hnew
      cases hnew
    · exact absurd (List.mem_append_right _ hback) hrevived
  · rintro ⟨c, hc', hedge⟩
    rcases List.mem_iff_getElem?.mp hc' with ⟨j, hj⟩
    by_cases heq : k = j
    · rw [← heq, hcall] at hj
      rw [← Option.some.inj hj] at hedge
      cases hedge
      exact not_waits_rollBack hc.absent hwaits
    · apply hchecked
      refine ⟨c, List.mem_iff_getElem?.mpr ⟨j, ?_⟩, hedge⟩
      show (h.calls.set k _)[j]? = some c
      rw [List.getElem?_set_ne heq]
      exact hj

/-! ## Every step -/

theorem acyclic_advance (hs : Sound h) (ha : Graph.Acyclic h.Settled) {k : Nat} {mounted : Bool}
    {fresh : String} {call next : Call} {write : Write} (hfresh : h.unused fresh = true)
    (hcall : h.calls[k]? = some call) (ht : call.turn h mounted fresh = some (next, write)) :
    Graph.Acyclic (h.commit k next write).Settled := by
  have hc := hs.calls call (List.mem_of_getElem? hcall)
  have hw := (turn_sound hs hfresh hc ht).right
  rcases turn_edge ht with hkeep | ⟨target, sourceId, hjudged | hback⟩
  · exact ha.mono (fun _ _ he => settled_commit hs hcall hkeep hw he)
  · rcases hjudged with ⟨hsame, hnext, hwrite, hno⟩
    rw [hsame] at hcall hc
    rw [hnext, hwrite]
    have hjoins : Joins h target sourceId := hc
    have hreach : ¬ Relation.ReflTransGen h.Settled sourceId target.id := by
      intro hpath
      have hlinks : Relation.ReflTransGen (Graph.Link (dependsOnOf h.rows)) sourceId target.id :=
        Relation.ReflTransGen.mono (fun _ _ he => waits_link hs he.left) _ _ hpath
      rw [(wouldCreateCycle_iff hjoins.apart).mpr hlinks] at hno
      cases hno
    exact (ha.insert hreach).mono (fun _ _ he => settled_judged hcall he)
  · rcases hback with ⟨hsame, hnext, hwrite⟩
    rw [hsame] at hcall hc
    rw [hwrite] at hw ⊢
    exact ha.mono (fun _ _ he => settled_rollBack hs hcall hnext hw hc he)

/-- A write of other fields brings no edge. -/
theorem waits_of_plain {id target source : String} {patch : BlockPatch}
    (hplain : patch.plain = true) (hw : Waits (update h.rows id patch) target source) :
    Waits h.rows target source := by
  rcases hw with ⟨b, hb, hid, hmem⟩
  rcases mem_update.mp hb with ⟨old, hold, heq⟩
  refine ⟨old, hold, ?_⟩
  split at heq
  · rw [heq] at hid hmem
    refine ⟨hid, ?_⟩
    rw [show (patch.apply old).dependsOn = patch.dependsOn.getD old.dependsOn from rfl,
      (plain_spec hplain).right] at hmem
    exact hmem
  · rw [heq] at hid hmem
    exact ⟨hid, hmem⟩

theorem acyclic_step {h h' : Home} {a : Action} (hs : Sound h) (ha : Graph.Acyclic h.Settled)
    (hstep : h.step a = some h') : Graph.Acyclic h'.Settled := by
  cases step_cases hstep with
  | ask request =>
      apply ha.mono
      rintro target source ⟨hwaits, hchecked, hkept⟩
      refine ⟨hwaits, ?_, hkept⟩
      rintro ⟨c, hc, hedge⟩
      exact hchecked ⟨c, List.mem_append_left _ hc, hedge⟩
  | advance hfresh hcall hturn => exact acyclic_advance hs ha hfresh hcall hturn
  | @cutOff k call hcall =>
      apply ha.mono
      rintro target source ⟨hwaits, hchecked, hkept⟩
      have hkeep : KeepsEdge call (.cutOff call.edge) := Or.inr rfl
      exact ⟨hwaits, fun hopen => hchecked (set_written hcall hkeep hopen), hkept⟩
  | edit hplain =>
      apply ha.mono
      rintro target source ⟨hwaits, hchecked, hkept⟩
      exact ⟨waits_of_plain hplain hwaits, hchecked, hkept⟩
  | arrive harrives =>
      apply ha.mono
      rintro target source ⟨⟨b, hb, hid, hmem⟩, hchecked, hkept⟩
      refine ⟨?_, hchecked, fun hold => hkept (List.mem_append_left _ hold)⟩
      rcases List.mem_append.mp hb with hold | hnew
      · exact ⟨b, hold, hid, hmem⟩
      · exfalso
        apply hkept
        rw [List.mem_singleton.mp hnew] at hid hmem
        rw [← hid]
        exact List.mem_append_right _ (List.mem_map.mpr ⟨source, hmem, rfl⟩)

theorem acyclic_run {abroad : String -> Option BlockLevel} {trace : List Action}
    (hrun : Run Home.step (Home.start abroad) trace h) : Graph.Acyclic h.Settled := by
  have hboth : Sound h ∧ Graph.Acyclic h.Settled := by
    refine RunWhere.invariant (I := fun h => Sound h ∧ Graph.Acyclic h.Settled)
      ⟨sound_start abroad, ?_⟩ ?_ hrun
    · intro n hcycle
      rcases Relation.TransGen.head'_iff.mp hcycle with ⟨m, ⟨⟨b, hb, _⟩, _⟩, _⟩
      cases hb
    · exact fun _ _ _ hs _ hstep => ⟨sound_step hs.left hstep, acyclic_step hs.left hs.right hstep⟩
  exact hboth.right

end Board
end CatFactory
