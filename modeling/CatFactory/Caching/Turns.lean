import CatFactory.Caching.Network

/-!
# What one step can do

Time passes, the source commits, an instance takes a turn of its own, or the
directory takes a bump.  Every invariant is proved from this list.
-/

namespace CatFactory
namespace Caching

/-- A turn of instance `i`, with what it found when it was taken. -/
inductive Turn (n : Net) (i : Nat) (x : Instance) : Action -> Instance -> Prop where
  | get {c : String} {place : Place} {invocation : Option Nat} {reg : Registration}
      (hreg : x.tracker.registration c = some reg) :
      Turn n i x (.get i c place invocation) (x.beginRead n.clock c place invocation)
  | directoryReads {p : Nat} {probe : Probe} (hprobe : x.probes[p]? = some probe)
      (hstage : probe.stage = .sent) :
      Turn n i x (.directoryReads i p)
        { x with
          probes := x.probes.set p
            { probe with stage := .answered (fun c => n.directory c probe.group) n.clock } }
  | probeSucceeds {p : Nat} {probe : Probe} {fetched : String -> Nat} {readAt : Nat}
      (hprobe : x.probes[p]? = some probe) (hstage : probe.stage = .answered fetched readAt) :
      Turn n i x (.probeSucceeds i p) (x.probeSucceeds n.clock p probe fetched)
  | probeFails {p : Nat} {probe : Probe} (hprobe : x.probes[p]? = some probe)
      (hopen : probe.stage.isSettled = false) :
      Turn n i x (.probeFails i p) (x.probeFails p probe)
  | resume {r : Nat} {read : Read} {waited : List Nat} (hread : x.reads[r]? = some read)
      (hstage : read.stage = .waiting waited) (hall : waited.all x.settled = true) :
      Turn n i x (.resume i r) (x.lookUp n.clock r read)
  | loadReads {l : Nat} {load : Load} (hload : x.loads[l]? = some load)
      (hstage : load.stage = .running) :
      Turn n i x (.loadReads i l) (x.setLoad l load
        (.fetched { place := load.place, version := n.committed load.cache load.place }))
  | loadSettles {l : Nat} {load : Load} {row : Row} (hload : x.loads[l]? = some load)
      (hstage : load.stage = .fetched row) :
      Turn n i x (.loadSettles i l) (x.settleLoad l load row)
  | loadFails {l : Nat} {load : Load} (hload : x.loads[l]? = some load)
      (hstage : load.stage = .running) :
      Turn n i x (.loadFails i l) ((x.setLoad l load .failed).leaveInFlight load)
  | answer {r l : Nat} {read : Read} {load : Load} {own : Bool} {row : Row}
      (hread : x.reads[r]? = some read) (hstage : read.stage = .awaiting l own)
      (hload : x.loads[l]? = some load) (hsettled : load.stage = .settled row) :
      Turn n i x (.answer i r) (x.setRead r read (.answered row own))
  | answerFailed {r l : Nat} {read : Read} {load : Load} {own : Bool}
      (hread : x.reads[r]? = some read) (hstage : read.stage = .awaiting l own)
      (hload : x.loads[l]? = some load) (hfailed : load.stage = .failed) :
      Turn n i x (.answer i r) (x.setRead r read .failed)
  | invalidate {c : String} {scope : Scope} (hmay : x.mayInvalidate c scope = true) :
      Turn n i x (.invalidate i c scope)
        { x.dropWhere c scope.covers with
          bumps := x.bumps ++
            [{ cache := c, scope := scope, seen := n.directory c scope.directoryGroup
               committed := n.committed c, stage := .sent }] }
  | bumpReturns {b generation : Nat} {bump : Bump} (hbump : x.bumps[b]? = some bump)
      (hstage : bump.stage = .applied generation) :
      Turn n i x (.bumpReturns i b)
        { x.setBump b bump .done with
          tracker := x.tracker.noteBumped bump.cache bump.group generation }
  | bumpFails {b : Nat} {bump : Bump} (hbump : x.bumps[b]? = some bump) :
      Turn n i x (.bumpFails i b) (x.setBump b bump .done)
  | expire {c : String} {place : Place} :
      Turn n i x (.expire i c place) (x.setEntry c place none)

theorem turn_probeFails {n n' : Net} {i p : Nat}
    (hs : n.failProbe i p = some n') :
    exists y, Turn n i (n.instances i) (.probeFails i p) y ∧ n' = n.setInstance i y := by
  unfold Net.failProbe at hs
  cases hprobe : (n.instances i).probes[p]? with
  | none =>
      rw [hprobe] at hs
      cases hs
  | some probe =>
      rw [hprobe] at hs
      dsimp only at hs
      have hturn : probe.stage.isSettled = false -> exists y,
          Turn n i (n.instances i) (.probeFails i p) y ∧
            n.setInstance i ((n.instances i).probeFails p probe) = n.setInstance i y :=
        fun hopen => ⟨_, .probeFails hprobe hopen, rfl⟩
      cases hstage : probe.stage with
      | sent | answered =>
          rw [hstage] at hs hturn
          rw [← Option.some.inj hs]
          exact hturn rfl
      | settled =>
          rw [hstage] at hs
          cases hs

theorem turn_bumpFails {n n' : Net} {i b : Nat} (hs : n.failBump i b = some n') :
    exists y, Turn n i (n.instances i) (.bumpFails i b) y ∧ n' = n.setInstance i y := by
  unfold Net.failBump at hs
  split at hs
  · cases hs
  · rename_i bump hbump
    split at hs
    · rw [← Option.some.inj hs]
      exact ⟨_, .bumpFails hbump, rfl⟩
    · rw [← Option.some.inj hs]
      exact ⟨_, .bumpFails hbump, rfl⟩
    · cases hs

theorem turn_answer {n n' : Net} {i r : Nat} (hs : n.answerRead i r = some n') :
    exists y, Turn n i (n.instances i) (.answer i r) y ∧ n' = n.setInstance i y := by
  unfold Net.answerRead at hs
  split at hs
  · cases hs
  · rename_i read hread
    split at hs
    · rename_i l own hstage
      split at hs
      · cases hs
      · rename_i load hload
        split at hs
        · rename_i row hsettled
          rw [← Option.some.inj hs]
          exact ⟨_, .answer hread hstage hload hsettled, rfl⟩
        · rename_i hfailed
          rw [← Option.some.inj hs]
          exact ⟨_, .answerFailed hread hstage hload hfailed, rfl⟩
        · cases hs
        · cases hs
    · cases hs
    · cases hs
    · cases hs
    · cases hs

/-- The steps that are not turns: time, the source, and the directory. -/
inductive WorldStep (n : Net) : Action -> Net -> Prop where
  | tick {msecs : Nat} : WorldStep n (.tick msecs) { n with clock := n.clock + msecs }
  | commit {cache : String} {scope : Scope} :
      WorldStep n (.commit cache scope)
        { n with
          committed := Function.update n.committed cache
            (fun p => if scope.covers p then n.committed cache p + 1 else n.committed cache p) }
  | bump {i b : Nat} {bump : Bump} (hbump : (n.instances i).bumps[b]? = some bump)
      (hstage : bump.stage = .sent) :
      WorldStep n (.directoryBumps i b)
        ((n.land i bump).setInstance i ((n.instances i).setBump b bump
          (.applied (n.directory bump.cache bump.group + 1))))

/-- Every step is one of these. -/
theorem step_cases {n n' : Net} {a : Action} (hs : n.step a = some n') :
    WorldStep n a n' ∨
      exists i y, Turn n i (n.instances i) a y ∧ n' = n.setInstance i y := by
  cases a with
  | tick msecs =>
      rw [← Option.some.inj hs]
      exact Or.inl .tick
  | commit cache scope =>
      rw [← Option.some.inj hs]
      exact Or.inl .commit
  | get i cache place invocation =>
      simp only [Net.step] at hs
      split at hs
      · rename_i hreg
        rw [← Option.some.inj hs]
        rcases Option.isSome_iff_exists.mp hreg with ⟨reg, hreg⟩
        exact Or.inr ⟨i, _, .get hreg, rfl⟩
      · cases hs
  | directoryReads i p =>
      simp only [Net.step, Net.readDirectory] at hs
      split at hs
      · cases hs
      · rename_i probe hprobe
        split at hs
        · rename_i hstage
          rw [← Option.some.inj hs]
          exact Or.inr ⟨i, _, .directoryReads hprobe hstage, rfl⟩
        · cases hs
        · cases hs
  | probeSucceeds i p =>
      simp only [Net.step, Net.succeedProbe] at hs
      split at hs
      · cases hs
      · rename_i probe hprobe
        split at hs
        · cases hs
        · rename_i fetched readAt hstage
          rw [← Option.some.inj hs]
          exact Or.inr ⟨i, _, .probeSucceeds hprobe hstage, rfl⟩
        · cases hs
  | probeFails i p => exact Or.inr ⟨i, turn_probeFails hs⟩
  | resume i r =>
      simp only [Net.step, Net.resumeRead] at hs
      split at hs
      · cases hs
      · rename_i read hread
        split at hs
        · rename_i waited hstage
          split at hs
          · rename_i hall
            rw [← Option.some.inj hs]
            exact Or.inr ⟨i, _, .resume hread hstage hall, rfl⟩
          · cases hs
        · cases hs
        · cases hs
        · cases hs
        · cases hs
  | loadReads i l =>
      simp only [Net.step, Net.readSource] at hs
      split at hs
      · cases hs
      · rename_i load hload
        split at hs
        · rename_i hstage
          rw [← Option.some.inj hs]
          exact Or.inr ⟨i, _, .loadReads hload hstage, rfl⟩
        · cases hs
        · cases hs
        · cases hs
  | loadSettles i l =>
      simp only [Net.step, Net.finishLoad] at hs
      split at hs
      · cases hs
      · rename_i load hload
        split at hs
        · cases hs
        · rename_i row hstage
          rw [← Option.some.inj hs]
          exact Or.inr ⟨i, _, .loadSettles hload hstage, rfl⟩
        · cases hs
        · cases hs
  | loadFails i l =>
      simp only [Net.step, Net.failLoad] at hs
      split at hs
      · cases hs
      · rename_i load hload
        split at hs
        · rename_i hstage
          rw [← Option.some.inj hs]
          exact Or.inr ⟨i, _, .loadFails hload hstage, rfl⟩
        · cases hs
        · cases hs
        · cases hs
  | answer i r => exact Or.inr ⟨i, turn_answer hs⟩
  | invalidate i cache scope =>
      simp only [Net.step, Net.invalidate] at hs
      split at hs
      · rename_i hmay
        rw [← Option.some.inj hs]
        exact Or.inr ⟨i, _, .invalidate hmay, rfl⟩
      · cases hs
  | directoryBumps i b =>
      simp only [Net.step, Net.bumpDirectory] at hs
      split at hs
      · cases hs
      · rename_i bump hbump
        split at hs
        · rename_i hstage
          rw [← Option.some.inj hs]
          exact Or.inl (.bump hbump hstage)
        · cases hs
        · cases hs
  | bumpReturns i b =>
      simp only [Net.step, Net.returnBump] at hs
      split at hs
      · cases hs
      · rename_i bump hbump
        split at hs
        · cases hs
        · rename_i generation hstage
          rw [← Option.some.inj hs]
          exact Or.inr ⟨i, _, .bumpReturns hbump hstage, rfl⟩
        · cases hs
  | bumpFails i b => exact Or.inr ⟨i, turn_bumpFails hs⟩
  | expire i cache place =>
      rw [← Option.some.inj hs]
      exact Or.inr ⟨i, _, .expire, rfl⟩

end Caching
end CatFactory
