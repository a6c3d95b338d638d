import CatFactory.Caching.Tracker
import CatFactory.Foundation.Runs

/-!
# Instances around one generation directory

Every instance serves reads out of its own memory and shares nothing with the
others but the source of the rows and the directory of generations.  A step is
one turn of one instance, one access of the directory or one commit to the
source; whatever an instance awaits stands in its tables until a later step.

The memory tier is a map that may lose a row at any time.
-/

namespace CatFactory
namespace Caching

/-- A row of a cache. -/
structure Place where
  group : String
  key : String
deriving DecidableEq

/-- What a load resolves to: a row, as it was after so many commits to it. -/
structure Row where
  place : Place
  version : Nat
deriving DecidableEq

/-- The three invalidations of a handle. -/
inductive Scope where
  | all
  | group (group : String)
  | key (group key : String)
deriving DecidableEq

/-- The counter an invalidation bumps. -/
def Scope.directoryGroup : Scope -> String
  | .all => cacheEpochGroup
  | .group g => g
  | .key g _ => g

def Scope.covers : Scope -> Place -> Bool
  | .all, _ => true
  | .group g, p => decide (p.group = g)
  | .key g k, p => decide (p.group = g) && decide (p.key = k)

/-- Everything `a` covers is covered by `b`. -/
def Scope.within : Scope -> Scope -> Bool
  | _, .all => true
  | .group g, .group h => decide (g = h)
  | .key g _, .group h => decide (g = h)
  | .key g k, .key h l => decide (g = h) && decide (k = l)
  | .all, .group _ => false
  | .all, .key _ _ => false
  | .group _, .key _ _ => false

/-- The rows a moved counter takes away. -/
def spokenFor (group : String) (p : Place) : Bool :=
  if group = cacheEpochGroup then true else decide (p.group = group)

inductive ProbeStage where
  | sent
  | answered (fetched : String -> Nat) (readAt : Nat)
  | settled

def ProbeStage.isSettled : ProbeStage -> Bool
  | .sent => false
  | .answered _ _ => false
  | .settled => true

/-- One `runProbe`, with the read that started it. -/
structure Probe where
  state : Nat
  group : String
  invocation : Option Nat
  startedBy : Nat
  stage : ProbeStage

inductive LoadStage where
  | running
  | fetched (row : Row)
  | settled (row : Row)
  | failed
deriving DecidableEq

def LoadStage.isOpen : LoadStage -> Bool
  | .running => true
  | .fetched _ => true
  | .settled _ => false
  | .failed => false

/-- One `loadAndPublish`, with the read that started it. -/
structure Load where
  cache : String
  place : Place
  invocation : Option Nat
  startedBy : Nat
  fence : Nat
  stage : LoadStage
deriving DecidableEq

inductive ReadStage where
  | waiting (probes : List Nat)
  | awaiting (load : Nat) (own : Bool)
  | hit (row : Row) (servedAt : Nat)
  | answered (row : Row) (own : Bool)
  | failed
deriving DecidableEq

/-- One `get` of a coherent handle. -/
structure Read where
  cache : String
  place : Place
  invocation : Option Nat
  startedAt : Nat
  stage : ReadStage
deriving DecidableEq

inductive BumpStage where
  | sent
  | applied (generation : Nat)
  | done
deriving DecidableEq

/--
The bump that follows a local invalidation.  `seen` is the counter and
`committed` the source at the moment of the invalidation.
-/
structure Bump where
  cache : String
  scope : Scope
  seen : Nat
  committed : Place -> Nat
  stage : BumpStage

/-- A bump the directory has taken, and when. -/
structure Stamp where
  writer : Nat
  cache : String
  scope : Scope
  seen : Nat
  committed : Place -> Nat
  generation : Nat
  landedAt : Nat

def Bump.group (b : Bump) : String :=
  b.scope.directoryGroup

def Stamp.group (s : Stamp) : String :=
  s.scope.directoryGroup

structure Instance where
  tracker : Tracker
  entries : String -> Place -> Option Row
  invalidations : String -> Nat
  inFlight : String -> Nat -> String -> Option Nat
  probes : List Probe
  loads : List Load
  reads : List Read
  bumps : List Bump

structure Net where
  clock : Nat
  committed : String -> Place -> Nat
  directory : String -> String -> Nat
  stamps : List Stamp
  instances : Nat -> Instance

/-! ## Reads -/

/-- The key a load is partitioned by. -/
def composite (p : Place) : String :=
  p.group ++ "\x00" ++ p.key

/-- Note an invalidation of the cache and drop the rows it is about. -/
def Instance.dropWhere (cache : String) (drop : Place -> Bool) (x : Instance) : Instance :=
  { x with
    invalidations :=
      Function.update x.invalidations cache (x.invalidations cache + 1)
    entries :=
      Function.update x.entries cache
        (fun p => if drop p then none else x.entries cache p) }

def Instance.applyInvalidation (group cache : String) (x : Instance) : Instance :=
  x.dropWhere cache (spokenFor group)

/-- `runProbe` up to the directory. -/
def Instance.startProbe (invocation : Option Nat) (reader s : Nat) (group : String)
    (x : Instance) : Instance :=
  { x with
    probes := x.probes ++
      [{ state := s, group := group, invocation := invocation
         startedBy := reader, stage := .sent }]
    tracker := x.tracker.setState s
      { x.tracker.states s with
        inflight := some { invocation := invocation, promise := x.probes.length } } }

/-- Join the group's probe if this invocation started it, or start one. -/
def Instance.probe (invocation : Option Nat) (reader s : Nat) (group : String)
    (x : Instance) : Instance × Nat :=
  match (x.tracker.states s).inflight with
  | some inflight =>
      if invocation.isSome && decide (inflight.invocation = invocation) then
        (x, inflight.promise)
      else (x.startProbe invocation reader s group, x.probes.length)
  | none => (x.startProbe invocation reader s group, x.probes.length)

/-- Probe a state that has grown stale. -/
def Instance.refresh (now windowMsecs : Nat) (invocation : Option Nat) (reader s : Nat)
    (group : String) (x : Instance) : Instance × List Nat :=
  if isStale now (x.tracker.states s) windowMsecs then
    ((x.probe invocation reader s group).1, [(x.probe invocation reader s group).2])
  else (x, [])

/-- `ensureFresh`: the instance and the probes the read waits for. -/
def Instance.ensureFresh (now : Nat) (invocation : Option Nat) (reader : Nat)
    (cache group : String) (x : Instance) : Instance × List Nat :=
  match x.tracker.registration cache with
  | none => (x, [])
  | some r =>
      let touched := x.tracker.touchGroup group
      let first :=
        { x with tracker := touched.1 }.refresh now r.windowMsecs invocation reader touched.2 group
      if r.probesEpoch then
        let second :=
          first.1.refresh now r.windowMsecs invocation reader epochState cacheEpochGroup
        (second.1, first.2 ++ second.2)
      else first

def Instance.beginRead (now : Nat) (cache : String) (place : Place) (invocation : Option Nat)
    (x : Instance) : Instance :=
  let fresh := x.ensureFresh now invocation x.reads.length cache place.group
  { fresh.1 with
    reads := fresh.1.reads ++
      [{ cache := cache, place := place, invocation := invocation, startedAt := now
         stage := .waiting fresh.2 }] }

def Instance.settled (x : Instance) (p : Nat) : Bool :=
  match x.probes[p]? with
  | none => false
  | some probe => probe.stage.isSettled

def Instance.setRead (r : Nat) (read : Read) (stage : ReadStage) (x : Instance) : Instance :=
  { x with reads := x.reads.set r { read with stage := stage } }

/-- `loadAndPublish` up to the load itself. -/
def Instance.startLoad (r : Nat) (read : Read) (x : Instance) : Instance :=
  { x with
    loads := x.loads ++
      [{ cache := read.cache, place := read.place, invocation := read.invocation
         startedBy := r, fence := x.invalidations read.cache, stage := .running }]
    reads := x.reads.set r { read with stage := .awaiting x.loads.length true } }

def Instance.setInFlight (cache : String) (invocation : Nat) (key : String)
    (load : Option Nat) (x : Instance) : Instance :=
  { x with
    inFlight := Function.update x.inFlight cache
      (Function.update (x.inFlight cache) invocation
        (Function.update (x.inFlight cache invocation) key load)) }

/-- `InvocationScopedLoads.run`, entered on a miss. -/
def Instance.runLoad (r : Nat) (read : Read) (x : Instance) : Instance :=
  match read.invocation with
  | none => x.startLoad r read
  | some v =>
      match x.inFlight read.cache v (composite read.place) with
      | some l => x.setRead r read (.awaiting l false)
      | none =>
          (x.startLoad r read).setInFlight read.cache v (composite read.place)
            (some x.loads.length)

/-- The read once its probes are settled: a row in memory, or a load. -/
def Instance.lookUp (now r : Nat) (read : Read) (x : Instance) : Instance :=
  match x.entries read.cache read.place with
  | some row => x.setRead r read (.hit row now)
  | none => x.runLoad r read

/-! ## Probes -/

def Instance.mergeInto (s : Nat) (cache : String) (generation : Nat) (x : Instance) :
    Instance :=
  { x with tracker := x.tracker.merge s cache generation }

/-- What one fetched counter does to one cache. -/
def Instance.applyGeneration (s : Nat) (group cache : String) (generation : Nat)
    (x : Instance) : Instance :=
  if (x.tracker.states s).generations cache < generation then
    (x.applyInvalidation group cache).mergeInto s cache generation
  else x.mergeInto s cache generation

def Instance.applyFetched (s : Nat) (group : String) (fetched : String -> Nat) :
    List Registration -> Instance -> Instance
  | [], x => x
  | r :: rest, x =>
      Instance.applyFetched s group fetched rest
        (x.applyGeneration s group r.cacheName (fetched r.cacheName))

def Instance.invalidateAffected (group : String) : List Registration -> Instance -> Instance
  | [], x => x
  | r :: rest, x => Instance.invalidateAffected group rest (x.applyInvalidation group r.cacheName)

/-- The promise is settled: nobody joins it any more. -/
def Instance.settleProbe (p : Nat) (probe : Probe) (x : Instance) : Instance :=
  { x with
    probes := x.probes.set p { probe with stage := .settled }
    tracker :=
      if ((x.tracker.states probe.state).inflight.map fun i => i.promise) = some p then
        x.tracker.setState probe.state
          { x.tracker.states probe.state with inflight := none }
      else x.tracker }

def Instance.stampProbed (s now : Nat) (x : Instance) : Instance :=
  { x with
    tracker := x.tracker.setState s { x.tracker.states s with lastProbeAt := some now } }

def Instance.probeSucceeds (now p : Nat) (probe : Probe) (fetched : String -> Nat)
    (x : Instance) : Instance :=
  ((Instance.applyFetched probe.state probe.group fetched
      (x.tracker.affectedBy probe.group) x).stampProbed probe.state now).settleProbe p probe

def Instance.probeFails (p : Nat) (probe : Probe) (x : Instance) : Instance :=
  (Instance.invalidateAffected probe.group (x.tracker.affectedBy probe.group) x).settleProbe
    p probe

/-! ## Loads and writes -/

def Instance.leaveInFlight (load : Load) (x : Instance) : Instance :=
  match load.invocation with
  | none => x
  | some v => x.setInFlight load.cache v (composite load.place) none

def Instance.setLoad (l : Nat) (load : Load) (stage : LoadStage) (x : Instance) : Instance :=
  { x with loads := x.loads.set l { load with stage := stage } }

def Instance.setEntry (cache : String) (place : Place) (row : Option Row) (x : Instance) :
    Instance :=
  { x with
    entries := Function.update x.entries cache
      (Function.update (x.entries cache) place row) }

/-- Publish only when no invalidation landed while the load was running. -/
def Instance.publish (load : Load) (row : Row) (x : Instance) : Instance :=
  if x.invalidations load.cache = load.fence then
    x.setEntry load.cache load.place (some row)
  else x

def Instance.settleLoad (l : Nat) (load : Load) (row : Row) (x : Instance) : Instance :=
  ((x.publish load row).setLoad l load (.settled row)).leaveInFlight load

def Instance.setBump (b : Nat) (bump : Bump) (stage : BumpStage) (x : Instance) : Instance :=
  { x with bumps := x.bumps.set b { bump with stage := stage } }

/-- The handle refuses a cache-wide invalidation that no peer would hear of. -/
def Instance.mayInvalidate (cache : String) (scope : Scope) (x : Instance) : Bool :=
  match x.tracker.registration cache with
  | none => false
  | some r =>
      match scope with
      | .all => r.probesEpoch
      | .group _ => true
      | .key _ _ => true

/-! ## Steps -/

inductive Action where
  | tick (msecs : Nat)
  | commit (cache : String) (scope : Scope)
  | get (i : Nat) (cache : String) (place : Place) (invocation : Option Nat)
  | directoryReads (i p : Nat)
  | probeSucceeds (i p : Nat)
  | probeFails (i p : Nat)
  | resume (i r : Nat)
  | loadReads (i l : Nat)
  | loadSettles (i l : Nat)
  | loadFails (i l : Nat)
  | answer (i r : Nat)
  | invalidate (i : Nat) (cache : String) (scope : Scope)
  | directoryBumps (i b : Nat)
  | bumpReturns (i b : Nat)
  | bumpFails (i b : Nat)
  | expire (i : Nat) (cache : String) (place : Place)
deriving DecidableEq

def Net.setInstance (i : Nat) (x : Instance) (n : Net) : Net :=
  { n with instances := Function.update n.instances i x }

/-- The directory answers a probe: every counter of one group, at one moment. -/
def Net.readDirectory (i p : Nat) (n : Net) : Option Net :=
  match (n.instances i).probes[p]? with
  | none => none
  | some probe =>
      match probe.stage with
      | .sent =>
          some (n.setInstance i
            { n.instances i with
              probes := (n.instances i).probes.set p
                { probe with
                  stage := .answered (fun c => n.directory c probe.group) n.clock } })
      | .answered _ _ => none
      | .settled => none

def Net.succeedProbe (i p : Nat) (n : Net) : Option Net :=
  match (n.instances i).probes[p]? with
  | none => none
  | some probe =>
      match probe.stage with
      | .sent => none
      | .answered fetched _ =>
          some (n.setInstance i ((n.instances i).probeSucceeds n.clock p probe fetched))
      | .settled => none

def Net.failProbe (i p : Nat) (n : Net) : Option Net :=
  match (n.instances i).probes[p]? with
  | none => none
  | some probe =>
      match probe.stage with
      | .sent => some (n.setInstance i ((n.instances i).probeFails p probe))
      | .answered _ _ => some (n.setInstance i ((n.instances i).probeFails p probe))
      | .settled => none

def Net.resumeRead (i r : Nat) (n : Net) : Option Net :=
  match (n.instances i).reads[r]? with
  | none => none
  | some read =>
      match read.stage with
      | .waiting probes =>
          if probes.all (n.instances i).settled then
            some (n.setInstance i ((n.instances i).lookUp n.clock r read))
          else none
      | .awaiting _ _ => none
      | .hit _ _ => none
      | .answered _ _ => none
      | .failed => none

def Net.readSource (i l : Nat) (n : Net) : Option Net :=
  match (n.instances i).loads[l]? with
  | none => none
  | some load =>
      match load.stage with
      | .running =>
          some (n.setInstance i ((n.instances i).setLoad l load
            (.fetched { place := load.place, version := n.committed load.cache load.place })))
      | .fetched _ => none
      | .settled _ => none
      | .failed => none

def Net.finishLoad (i l : Nat) (n : Net) : Option Net :=
  match (n.instances i).loads[l]? with
  | none => none
  | some load =>
      match load.stage with
      | .running => none
      | .fetched row => some (n.setInstance i ((n.instances i).settleLoad l load row))
      | .settled _ => none
      | .failed => none

def Net.failLoad (i l : Nat) (n : Net) : Option Net :=
  match (n.instances i).loads[l]? with
  | none => none
  | some load =>
      match load.stage with
      | .running =>
          some (n.setInstance i
            (((n.instances i).setLoad l load .failed).leaveInFlight load))
      | .fetched _ => none
      | .settled _ => none
      | .failed => none

def Net.answerRead (i r : Nat) (n : Net) : Option Net :=
  match (n.instances i).reads[r]? with
  | none => none
  | some read =>
      match read.stage with
      | .awaiting l own =>
          match (n.instances i).loads[l]? with
          | none => none
          | some load =>
              match load.stage with
              | .settled row =>
                  some (n.setInstance i ((n.instances i).setRead r read (.answered row own)))
              | .failed => some (n.setInstance i ((n.instances i).setRead r read .failed))
              | .running => none
              | .fetched _ => none
      | .waiting _ => none
      | .hit _ _ => none
      | .answered _ _ => none
      | .failed => none

def Net.invalidate (i : Nat) (cache : String) (scope : Scope) (n : Net) : Option Net :=
  if (n.instances i).mayInvalidate cache scope then
    some (n.setInstance i
      { (n.instances i).dropWhere cache scope.covers with
        bumps := (n.instances i).bumps ++
          [{ cache := cache, scope := scope, seen := n.directory cache scope.directoryGroup
             committed := n.committed cache, stage := .sent }] })
  else none

/-- The directory takes a bump. -/
def Net.land (i : Nat) (bump : Bump) (n : Net) : Net :=
  { n with
    directory := Function.update n.directory bump.cache
      (Function.update (n.directory bump.cache) bump.group
        (n.directory bump.cache bump.group + 1))
    stamps := n.stamps ++
      [{ writer := i, cache := bump.cache, scope := bump.scope, seen := bump.seen
         committed := bump.committed
         generation := n.directory bump.cache bump.group + 1
         landedAt := n.clock }] }

def Net.bumpDirectory (i b : Nat) (n : Net) : Option Net :=
  match (n.instances i).bumps[b]? with
  | none => none
  | some bump =>
      match bump.stage with
      | .sent =>
          some ((n.land i bump).setInstance i ((n.instances i).setBump b bump
            (.applied (n.directory bump.cache bump.group + 1))))
      | .applied _ => none
      | .done => none

def Net.returnBump (i b : Nat) (n : Net) : Option Net :=
  match (n.instances i).bumps[b]? with
  | none => none
  | some bump =>
      match bump.stage with
      | .sent => none
      | .applied generation =>
          some (n.setInstance i
            { (n.instances i).setBump b bump .done with
              tracker :=
                (n.instances i).tracker.noteBumped bump.cache bump.group generation })
      | .done => none

/-- A bump whose request or whose answer is lost: the write stands. -/
def Net.failBump (i b : Nat) (n : Net) : Option Net :=
  match (n.instances i).bumps[b]? with
  | none => none
  | some bump =>
      match bump.stage with
      | .sent => some (n.setInstance i ((n.instances i).setBump b bump .done))
      | .applied _ => some (n.setInstance i ((n.instances i).setBump b bump .done))
      | .done => none

def Net.step (n : Net) : Action -> Option Net
  | .tick msecs => some { n with clock := n.clock + msecs }
  | .commit cache scope =>
      some { n with
        committed := Function.update n.committed cache
          (fun p => if scope.covers p then n.committed cache p + 1 else n.committed cache p) }
  | .get i cache place invocation =>
      if ((n.instances i).tracker.registration cache).isSome then
        some (n.setInstance i ((n.instances i).beginRead n.clock cache place invocation))
      else none
  | .directoryReads i p => n.readDirectory i p
  | .probeSucceeds i p => n.succeedProbe i p
  | .probeFails i p => n.failProbe i p
  | .resume i r => n.resumeRead i r
  | .loadReads i l => n.readSource i l
  | .loadSettles i l => n.finishLoad i l
  | .loadFails i l => n.failLoad i l
  | .answer i r => n.answerRead i r
  | .invalidate i cache scope => n.invalidate i cache scope
  | .directoryBumps i b => n.bumpDirectory i b
  | .bumpReturns i b => n.returnBump i b
  | .bumpFails i b => n.failBump i b
  | .expire i cache place =>
      some (n.setInstance i ((n.instances i).setEntry cache place none))

/-- An instance as it boots: the handles of its coherent caches are registered. -/
def Instance.boot (maxTrackedGroups : Nat) (caches : List Registration) : Instance :=
  { tracker := caches.foldl (fun t r => t.register r) (Tracker.create maxTrackedGroups)
    entries := fun _ _ => none
    invalidations := fun _ => 0
    inFlight := fun _ _ _ => none
    probes := []
    loads := []
    reads := []
    bumps := [] }

/-- The registrations of a bag of caches, a later one in the place of its namesake. -/
def registered (caches : List Registration) : List Registration :=
  caches.foldl (fun rs r => putRegistration r rs) []

/-- Registering caches leaves the states of a fresh tracker alone. -/
theorem boot_tracker (bound : Nat) (caches : List Registration) :
    (Instance.boot bound caches).tracker =
      { Tracker.create bound with registrations := registered caches } := by
  have hfold : forall t : Tracker,
      caches.foldl (fun t r => t.register r) t =
        { t with
          registrations := caches.foldl (fun rs r => putRegistration r rs) t.registrations } := by
    induction caches with
    | nil =>
        intro t
        rfl
    | cons r rest ih =>
        intro t
        exact ih (t.register r)
  exact hfold (Tracker.create bound)

/-- Nothing is cached and nothing was ever written. -/
def Net.start (maxTrackedGroups : Nat) (caches : List Registration) : Net :=
  { clock := 0
    committed := fun _ _ => 0
    directory := fun _ _ => 0
    stamps := []
    instances := fun _ => Instance.boot maxTrackedGroups caches }

/-- A cache whose rows are their groups' only rows. -/
def settingsCache : Registration :=
  { cacheName := "workspaceSettings", windowMsecs := 5, probesEpoch := false }

def home : Place := { group := "w1", key := "w1" }

end Caching
end CatFactory
