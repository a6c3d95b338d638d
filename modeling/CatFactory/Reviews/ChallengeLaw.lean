import CatFactory.Reviews.ChallengeQueue

/-!
# The queue and the findings agree

A finding's challenge is in flight exactly while one entry names it, an entry is
claimed exactly while its finding is under investigation, and at most three are
claimed, each under an epoch of its own.  Every operation of the queue keeps
this.
-/

namespace CatFactory
namespace Reviews

open Foundation

/-!
## The agreement
-/

/-- What an entry says about its finding. -/
def phase (job : PrReviewChallengeJob) : ChallengeStatus :=
  if isClaimed job then .investigating else .queued

/-- What a finding says about its entry: its challenge, while it is in flight. -/
def flightOf (finding : PrReviewFinding) : Option ChallengeStatus :=
  if isChallengeInFlight finding.challenge then
    finding.challenge.map PrReviewFindingChallenge.status
  else none

/-- The entry that names a finding. -/
def entryOf (jobs : List PrReviewChallengeJob) (findingId : String) :
    Option PrReviewChallengeJob :=
  lookup PrReviewChallengeJob.findingId jobs findingId

/-- `dispatched` investigators have been claimed in the run so far. -/
structure QueueOk (dispatched : Nat) (q : ReviewQueue) : Prop where
  minted : (q.review.findings.map PrReviewFinding.id).Nodup
  distinct : (q.challengeJobs.map PrReviewChallengeJob.findingId).Nodup
  named : forall job, job ∈ q.challengeJobs ->
    exists f, f ∈ q.review.findings ∧ f.id = job.findingId
  agrees : forall f, f ∈ q.review.findings ->
    flightOf f = (entryOf q.challengeJobs f.id).map phase
  slots : q.challengeJobs.countP isClaimed ≤ MAX_CONCURRENT_CHALLENGE_INVESTIGATIONS
  counted : forall job epoch, job ∈ q.challengeJobs -> job.epoch = some epoch ->
    epoch < dispatched
  epochs : forall job other epoch, job ∈ q.challengeJobs -> other ∈ q.challengeJobs ->
    job.epoch = some epoch -> other.epoch = some epoch -> job = other
  budget : forall job, job ∈ q.challengeJobs ->
    job.evictionRecoveries.getD 0 ≤ MAX_TRANSIENT_EVICTION_RECOVERIES

/-- Rewrite the findings with this id. -/
def updateFinding (findingId : String) (change : PrReviewFinding -> PrReviewFinding)
    (findings : List PrReviewFinding) : List PrReviewFinding :=
  findings.map fun f => if f.id = findingId then change f else f

theorem ids_updateFinding {findingId : String} {change : PrReviewFinding -> PrReviewFinding}
    (h : forall f, (change f).id = f.id) (findings : List PrReviewFinding) :
    (updateFinding findingId change findings).map PrReviewFinding.id =
      findings.map PrReviewFinding.id := by
  unfold updateFinding
  rw [List.map_map]
  apply List.map_congr_left
  intro f _
  simp only [Function.comp_apply]
  split
  · exact h f
  · rfl

/-- One entry is swapped for another, or for none, and its finding follows. -/
theorem QueueOk.update {dispatched dispatched' : Nat} {q q' : ReviewQueue}
    {job : PrReviewChallengeJob} {next : Option PrReviewChallengeJob}
    {change : PrReviewFinding -> PrReviewFinding} (hq : QueueOk dispatched q)
    (hjob : job ∈ q.challengeJobs)
    (hmem : forall z, z ∈ q'.challengeJobs <->
      next = some z ∨ z ∈ q.challengeJobs ∧ z ≠ job)
    (hdistinct : (q'.challengeJobs.map PrReviewChallengeJob.findingId).Nodup)
    (hnext : forall z, next = some z -> z.findingId = job.findingId ∧
      z.evictionRecoveries.getD 0 ≤ MAX_TRANSIENT_EVICTION_RECOVERIES)
    (hepoch : forall z epoch, next = some z -> z.epoch = some epoch -> epoch < dispatched' ∧
      forall other, other ∈ q.challengeJobs -> other.epoch = some epoch -> other = job)
    (hid : forall f, (change f).id = f.id)
    (hfindings : q'.review.findings = updateFinding job.findingId change q.review.findings)
    (hflight : forall f, f ∈ q.review.findings -> f.id = job.findingId ->
      flightOf (change f) = next.map phase)
    (hslots : q'.challengeJobs.countP isClaimed ≤ MAX_CONCURRENT_CHALLENGE_INVESTIGATIONS)
    (hdispatched : dispatched ≤ dispatched') : QueueOk dispatched' q' where
  minted := by
    rw [hfindings, ids_updateFinding hid]
    exact hq.minted
  distinct := hdistinct
  named := by
    intro z hz
    have hids : exists f, f ∈ q.review.findings ∧ f.id = z.findingId := by
      rcases (hmem z).mp hz with hnew | ⟨hold, _⟩
      · rw [(hnext z hnew).1]
        exact hq.named job hjob
      · exact hq.named z hold
    rcases hids with ⟨f, hf, hfid⟩
    refine ⟨if f.id = job.findingId then change f else f, ?_, ?_⟩
    · rw [hfindings]
      exact List.mem_map.mpr ⟨f, hf, rfl⟩
    · split
      · rw [hid, hfid]
      · exact hfid
  agrees := by
    intro f' hf'
    rw [hfindings] at hf'
    rcases List.mem_map.mp hf' with ⟨f, hf, rfl⟩
    split
    · rename_i hfid
      rw [hflight f hf hfid, hid, hfid]
      congr 1
      cases hnew : next with
      | none =>
          symm
          apply lookup_eq_none_iff.mpr
          intro z hz hkey
          rcases (hmem z).mp hz with h | ⟨hold, hne⟩
          · rw [hnew] at h
            cases h
          · exact hne (eq_of_key hq.distinct hold hjob hkey)
      | some z =>
          symm
          apply (lookup_eq_some_iff hdistinct).mpr
          exact ⟨(hmem z).mpr (Or.inl hnew), (hnext z hnew).1⟩
    · rename_i hfid
      rw [hq.agrees f hf]
      congr 1
      apply lookup_congr hq.distinct hdistinct
      intro z hz
      constructor
      · intro hold
        refine (hmem z).mpr (Or.inr ⟨hold, ?_⟩)
        intro hsame
        exact hfid (by rw [<- hz, hsame])
      · intro hnew
        rcases (hmem z).mp hnew with h | ⟨hold, _⟩
        · exact absurd ((hnext z h).1 ▸ hz) (fun h => hfid h.symm)
        · exact hold
  slots := hslots
  counted := by
    intro z epoch hz hze
    rcases (hmem z).mp hz with hnew | ⟨hold, _⟩
    · exact (hepoch z epoch hnew hze).1
    · exact Nat.lt_of_lt_of_le (hq.counted z epoch hold hze) hdispatched
  epochs := by
    intro z other epoch hz hother hze hoe
    rcases (hmem z).mp hz with hnew | ⟨hold, hne⟩
    · rcases (hmem other).mp hother with hnew' | ⟨hold', hne'⟩
      · rw [hnew] at hnew'
        exact Option.some.inj hnew'
      · exact absurd ((hepoch z epoch hnew hze).2 other hold' hoe) hne'
    · rcases (hmem other).mp hother with hnew' | ⟨hold', _⟩
      · exact absurd ((hepoch other epoch hnew' hoe).2 z hold hze) hne
      · exact hq.epochs z other epoch hold hold' hze hoe
  budget := by
    intro z hz
    rcases (hmem z).mp hz with hnew | ⟨hold, _⟩
    · exact (hnext z hnew).2
    · exact hq.budget z hold

/-!
## What one operation does
-/

/-- How an investigation ended. -/
inductive ChallengeOutcome where
  | verdict (output : Option PrReviewChallengeOutput)
  | failure (reason : String)
deriving DecidableEq

/-- The record of an outcome on its finding. -/
def settleFinding (question : Option String) (outcome : ChallengeOutcome)
    (f : PrReviewFinding) : PrReviewFinding :=
  match outcome with
  | .failure reason =>
      { f with
        challenge := some
          { status := .failed, question := question, justification := some reason } }
  | .verdict output =>
      match (output.getD {}).verdict.getD .upheld with
      | .retracted =>
          { f with
            challenge := some
              { status := .retracted
                question := question
                justification := trimmed (output.getD {}).justification } }
      | .upheld =>
          reviseFinding question (trimmed (output.getD {}).justification) (output.getD {}) f

theorem settleFinding_id (question : Option String) (outcome : ChallengeOutcome)
    (f : PrReviewFinding) : (settleFinding question outcome f).id = f.id := by
  unfold settleFinding
  split
  · rfl
  · split
    · rfl
    · rfl

/-- A revision upholds the finding, amended or as it was. -/
theorem reviseFinding_challenge (question justification : Option String)
    (output : PrReviewChallengeOutput) (f : PrReviewFinding) :
    exists status, (status = ChallengeStatus.amended ∨ status = ChallengeStatus.upheld) ∧
      (reviseFinding question justification output f).challenge = some
        { status := status, question := question, justification := justification } := by
  exact ⟨_, ite_eq_or_eq _ _ _, rfl⟩

theorem flightOf_settleFinding (question : Option String) (outcome : ChallengeOutcome)
    (f : PrReviewFinding) : flightOf (settleFinding question outcome f) = none := by
  unfold settleFinding
  split
  · rfl
  · split
    · rfl
    · rename_i output _ _
      rcases reviseFinding_challenge question (trimmed (output.getD {}).justification)
        (output.getD {}) f with ⟨status, rfl | rfl, hchallenge⟩
      · unfold flightOf
        rw [hchallenge]
        rfl
      · unfold flightOf
        rw [hchallenge]
        rfl

theorem applyChallengeVerdict_findings (review : PrReviewStepState) (findingId : String)
    (question : Option String) (output : Option PrReviewChallengeOutput) :
    (applyChallengeVerdict review findingId question output).findings =
        updateFinding findingId (settleFinding question (.verdict output)) review.findings ∧
      (applyChallengeVerdict review findingId question output).status = review.status := by
  cases hverdict : (output.getD {}).verdict.getD ChallengeVerdict.upheld with
  | upheld =>
      simp only [applyChallengeVerdict, updateFinding, settleFinding, hverdict]
      exact ⟨trivial, trivial⟩
  | retracted =>
      simp only [applyChallengeVerdict, setChallenge, updateFinding, settleFinding, hverdict]
      exact ⟨trivial, trivial⟩

/-- The same finding, its challenge at another status. -/
def withStatus (status : ChallengeStatus) (f : PrReviewFinding) : PrReviewFinding :=
  { f with challenge := f.challenge.map fun c => { c with status := status } }

/-- The finding with this id waits for, or is under, investigation. -/
theorem flightOf_isSome {f : PrReviewFinding} :
    (flightOf f).isSome = isChallengeInFlight f.challenge := by
  unfold flightOf isChallengeInFlight
  cases f.challenge with
  | none => rfl
  | some challenge =>
      simp only [Option.map_some]
      split
      · rename_i h
        rw [h]
        rfl
      · rename_i h
        simpa using h

/-- An operation on one entry: the other findings and the other entries stay, and the
finding of the entry is carried on or settled. -/
structure EntryMove (job : PrReviewChallengeJob) (next : Option PrReviewChallengeJob)
    (change : PrReviewFinding -> PrReviewFinding) (q q' : ReviewQueue) : Prop where
  findings : q'.review.findings = updateFinding job.findingId change q.review.findings
  jobs : forall z, z ∈ q'.challengeJobs <-> next = some z ∨ z ∈ q.challengeJobs ∧ z ≠ job
  status : q'.review.status = q.review.status

theorem removeJob_move {job : PrReviewChallengeJob} {change : PrReviewFinding -> PrReviewFinding}
    {q : ReviewQueue} {review : PrReviewStepState}
    (hfindings : review.findings = updateFinding job.findingId change q.review.findings)
    (hstatus : review.status = q.review.status) :
    EntryMove job none change q (removeJob job { q with review := review }) where
  findings := hfindings
  jobs := by
    intro z
    show z ∈ removeItem job q.challengeJobs <-> _
    rw [mem_removeItem]
    simp
  status := hstatus

theorem settleResult_move (job : PrReviewChallengeJob)
    (output : Option PrReviewChallengeOutput) (q : ReviewQueue) :
    EntryMove job none (settleFinding job.question (.verdict output)) q
      (settleResult job output q) :=
  removeJob_move (applyChallengeVerdict_findings _ _ _ _).1
    (applyChallengeVerdict_findings _ _ _ _).2

theorem settleFailure_move (job : PrReviewChallengeJob) (reason : String) (q : ReviewQueue) :
    EntryMove job none (settleFinding job.question (.failure reason)) q
      (settleFailure job reason q) := by
  apply removeJob_move
  · rfl
  · rfl

theorem updateJob_move {job job' : PrReviewChallengeJob}
    {change : PrReviewFinding -> PrReviewFinding} {q : ReviewQueue}
    {review : PrReviewStepState} (hjob : job ∈ q.challengeJobs)
    (hfindings : review.findings = updateFinding job.findingId change q.review.findings)
    (hstatus : review.status = q.review.status) :
    EntryMove job (some job') change q (updateJob job job' { q with review := review }) where
  findings := hfindings
  jobs := by
    intro z
    show z ∈ replaceItem job job' q.challengeJobs <-> _
    rw [mem_replaceItem hjob, Option.some.injEq, eq_comm]
  status := hstatus

theorem requeueEvicted_move {job : PrReviewChallengeJob}
    {evicted : Option ContainerEvictionKind} {q q' : ReviewQueue}
    (h : requeueEvicted job evicted q = some q') :
    EntryMove job (some (requeuedJob job)) (withStatus .queued) q q' ∧
      exists kind, evicted = some kind ∧
        job.evictionRecoveries.getD 0 < evictionBudget kind := by
  unfold requeueEvicted at h
  cases evicted with
  | none => cases h
  | some kind =>
      simp only at h
      split at h
      · cases h
      · rename_i hbudget
        cases h
        refine ⟨⟨rfl, ?_, rfl⟩, kind, rfl, Nat.lt_of_not_le hbudget⟩
        intro z
        rw [List.mem_cons, mem_removeItem, Option.some.injEq, eq_comm]

/-!
## Every operation keeps the agreement
-/

section Keeps

variable {dispatched : Nat} {q q' : ReviewQueue} {job : PrReviewChallengeJob}

/-- The finding of an entry carries a challenge. -/
theorem QueueOk.challenged (hq : QueueOk dispatched q) (hjob : job ∈ q.challengeJobs)
    {f : PrReviewFinding} (hf : f ∈ q.review.findings) (hid : f.id = job.findingId) :
    flightOf f = some (phase job) ∧ exists challenge, f.challenge = some challenge := by
  have hentry : entryOf q.challengeJobs f.id = some job :=
    (lookup_eq_some_iff hq.distinct).mpr ⟨hjob, hid.symm⟩
  have hflight := hq.agrees f hf
  rw [hentry] at hflight
  refine ⟨hflight, ?_⟩
  cases hchallenge : f.challenge with
  | none =>
      rw [flightOf, hchallenge] at hflight
      cases hflight
  | some challenge => exact ⟨challenge, rfl⟩

theorem QueueOk.jobs_nodup (hq : QueueOk dispatched q) : q.challengeJobs.Nodup :=
  List.Nodup.of_map _ hq.distinct

theorem flightOf_setStatus {f : PrReviewFinding} {challenge : PrReviewFindingChallenge}
    {status : ChallengeStatus} (h : f.challenge = some challenge)
    (hstatus : status = .queued ∨ status = .investigating) :
    flightOf (withStatus status f) = some status := by
  rcases hstatus with rfl | rfl
  · simp [flightOf, withStatus, h, isChallengeInFlight]
  · simp [flightOf, withStatus, h, isChallengeInFlight]

/-- An entry that leaves takes its challenge out of flight. -/
theorem QueueOk.removed {change : PrReviewFinding -> PrReviewFinding}
    (hq : QueueOk dispatched q) (hjob : job ∈ q.challengeJobs)
    (hmove : EntryMove job none change q q')
    (hjobs : q'.challengeJobs = removeItem job q.challengeJobs)
    (hid : forall f, (change f).id = f.id) (hflight : forall f, flightOf (change f) = none) :
    QueueOk dispatched q' := by
  refine hq.update hjob hmove.jobs ?_ ?_ ?_ hid hmove.findings ?_ ?_ (Nat.le_refl _)
  · rw [hjobs]
    exact nodup_removeItem hq.distinct
  · intro z hz
    cases hz
  · intro z epoch hz
    cases hz
  · intro f _ _
    exact hflight f
  · rw [hjobs]
    exact Nat.le_trans (countP_removeItem_le _ _) hq.slots

theorem QueueOk.settled {outcome : ChallengeOutcome} (hq : QueueOk dispatched q)
    (hjob : job ∈ q.challengeJobs)
    (hmove : EntryMove job none (settleFinding job.question outcome) q q')
    (hjobs : q'.challengeJobs = removeItem job q.challengeJobs) : QueueOk dispatched q' :=
  hq.removed hjob hmove hjobs (settleFinding_id _ _) (flightOf_settleFinding _ _)

theorem QueueOk.requeued {kind : ContainerEvictionKind} (hq : QueueOk dispatched q)
    (hjob : job ∈ q.challengeJobs) (h : requeueEvicted job (some kind) q = some q') :
    QueueOk dispatched q' := by
  rcases requeueEvicted_move h with ⟨hmove, kind', hkind, hbudget⟩
  cases hkind
  have hjobs : q'.challengeJobs = requeuedJob job :: removeItem job q.challengeJobs := by
    simp only [requeueEvicted] at h
    split at h
    · cases h
    · cases h
      rfl
  refine hq.update hjob hmove.jobs ?_ ?_ ?_ ?_ hmove.findings ?_ ?_ (Nat.le_refl _)
  · rw [hjobs, List.map_cons, List.nodup_cons]
    constructor
    · intro hmem
      rcases List.mem_map.mp hmem with ⟨z, hz, hkey⟩
      rcases mem_removeItem.mp hz with ⟨hold, hne⟩
      exact hne (eq_of_key hq.distinct hold hjob hkey)
    · exact nodup_removeItem hq.distinct
  · intro z hz
    cases hz
    refine ⟨rfl, ?_⟩
    show job.evictionRecoveries.getD 0 + 1 ≤ MAX_TRANSIENT_EVICTION_RECOVERIES
    cases kind with
    | crash =>
        have hcrash : job.evictionRecoveries.getD 0 < 1 := hbudget
        exact Nat.le_trans hcrash (by decide)
    | transient => exact hbudget
  · intro z epoch hz hze
    cases hz
    cases hze
  · intro f
    rfl
  · intro f hf hid
    rcases (hq.challenged hjob hf hid).2 with ⟨challenge, hchallenge⟩
    rw [flightOf_setStatus hchallenge (Or.inl rfl)]
    rfl
  · rw [hjobs, List.countP_cons]
    have hfree : isClaimed (requeuedJob job) = false := rfl
    rw [hfree]
    exact Nat.le_trans (countP_removeItem_le _ _) hq.slots

/-- A claim takes a free slot and a fresh epoch. -/
theorem QueueOk.claimed (hq : QueueOk dispatched q) (hjob : job ∈ q.challengeJobs)
    (hfree : isClaimed job = false)
    (hslot : (running q).length < MAX_CONCURRENT_CHALLENGE_INVESTIGATIONS) :
    QueueOk (dispatched + 1) (claimJob dispatched job q) := by
  have hmove : EntryMove job (some (claimedJob dispatched job)) (withStatus .investigating) q
      (claimJob dispatched job q) := updateJob_move hjob rfl rfl
  refine hq.update hjob hmove.jobs ?_ ?_ ?_ ?_ hmove.findings ?_ ?_ (Nat.le_succ _)
  · exact nodup_replaceItem hq.distinct rfl
  · intro z hz
    cases hz
    exact ⟨rfl, hq.budget job hjob⟩
  · intro z epoch hz hze
    cases hz
    cases hze
    refine ⟨Nat.lt_succ_self _, ?_⟩
    intro other hother hoe
    exact absurd (hq.counted other _ hother hoe) (Nat.lt_irrefl _)
  · intro f
    rfl
  · intro f hf hid
    rcases (hq.challenged hjob hf hid).2 with ⟨challenge, hchallenge⟩
    rw [flightOf_setStatus hchallenge (Or.inr rfl)]
    rfl
  · have hcount := @countP_replaceItem _ _ isClaimed job (claimedJob dispatched job)
      q.challengeJobs hq.jobs_nodup hjob
    have hnew : isClaimed (claimedJob dispatched job) = true := rfl
    have hrunning : (running q).length = q.challengeJobs.countP isClaimed :=
      List.countP_eq_length_filter.symm
    rw [hfree, hnew] at hcount
    show (replaceItem job (claimedJob dispatched job) q.challengeJobs).countP isClaimed ≤ _
    rw [hrunning] at hslot
    simp only [if_true, Bool.false_eq_true, if_false] at hcount
    omega

/-- The executor's answer is kept on the entry. -/
theorem QueueOk.started {jobId : String}
    {model subscriptionTokenId initiatedByUserId : Option String}
    (hq : QueueOk dispatched q) (hjob : job ∈ q.challengeJobs) :
    QueueOk dispatched
      (updateJob job (startedJob jobId model subscriptionTokenId initiatedByUserId job) q) := by
  have hsame : updateFinding job.findingId id q.review.findings = q.review.findings := by
    unfold updateFinding
    simp
  have hmove : EntryMove job
      (some (startedJob jobId model subscriptionTokenId initiatedByUserId job)) id q
      (updateJob job (startedJob jobId model subscriptionTokenId initiatedByUserId job) q) :=
    @updateJob_move _ _ _ _ q.review hjob hsame.symm rfl
  refine hq.update hjob hmove.jobs ?_ ?_ ?_ ?_ hmove.findings ?_ ?_ (Nat.le_refl _)
  · exact nodup_replaceItem hq.distinct rfl
  · intro z hz
    cases hz
    exact ⟨rfl, hq.budget job hjob⟩
  · intro z epoch hz hze
    cases hz
    exact ⟨hq.counted job epoch hjob hze,
      fun other hother hoe => hq.epochs other job epoch hother hjob hoe hze⟩
  · intro f
    rfl
  · intro f hf hid
    exact (hq.challenged hjob hf hid).1
  · have hcount := @countP_replaceItem _ _ isClaimed job
      (startedJob jobId model subscriptionTokenId initiatedByUserId job)
      q.challengeJobs hq.jobs_nodup hjob
    have hclaimed : isClaimed (startedJob jobId model subscriptionTokenId initiatedByUserId job) =
        isClaimed job := rfl
    rw [hclaimed] at hcount
    have hslots := hq.slots
    show (replaceItem job _ q.challengeJobs).countP isClaimed ≤ _
    omega

/-- A finding that is not in flight may be challenged. -/
theorem QueueOk.appended {findingId : String} {question : Option String}
    {review : PrReviewStepState} (hq : QueueOk dispatched q)
    (hknown : exists f, f ∈ q.review.findings ∧ f.id = findingId)
    (hidle : forall f, f ∈ q.review.findings -> f.id = findingId -> flightOf f = none)
    (hfindings : review.findings =
      setChallenge findingId { status := .queued, question := question } q.review.findings) :
    QueueOk dispatched
      { review := review
        challengeJobs :=
          q.challengeJobs ++ [{ findingId := findingId, question := question }] } := by
  have hfresh : forall job, job ∈ q.challengeJobs -> job.findingId ≠ findingId := by
    intro job hjob hkey
    rcases hknown with ⟨f, hf, hid⟩
    have hflight := (hq.challenged hjob hf (hid.trans hkey.symm)).1
    rw [hidle f hf hid] at hflight
    cases hflight
  have hids : review.findings.map PrReviewFinding.id =
      q.review.findings.map PrReviewFinding.id := by
    rw [hfindings]
    exact @ids_updateFinding findingId
      (fun f => { f with challenge := some { status := .queued, question := question } })
      (fun _ => rfl) q.review.findings
  constructor
  · rw [hids]
    exact hq.minted
  · rw [List.map_append, List.nodup_append]
    refine ⟨hq.distinct, List.nodup_singleton _, ?_⟩
    intro key hkey key' hkey'
    rcases List.mem_map.mp hkey with ⟨job, hjob, rfl⟩
    simp only [List.map_cons, List.map_nil, List.mem_singleton] at hkey'
    rw [hkey']
    exact hfresh job hjob
  · intro job hjob
    have hid : job.findingId ∈ q.review.findings.map PrReviewFinding.id := by
      rcases List.mem_append.mp hjob with hold | hnew
      · rcases hq.named job hold with ⟨f, hf, hfid⟩
        exact List.mem_map.mpr ⟨f, hf, hfid⟩
      · rw [List.mem_singleton.mp hnew]
        rcases hknown with ⟨f, hf, hfid⟩
        exact List.mem_map.mpr ⟨f, hf, hfid⟩
    rw [<- hids] at hid
    rcases List.mem_map.mp hid with ⟨f, hf, hfid⟩
    exact ⟨f, hf, hfid⟩
  · intro f' hf'
    rw [hfindings] at hf'
    rcases List.mem_map.mp hf' with ⟨f, hf, rfl⟩
    unfold entryOf lookup
    rw [List.find?_append]
    split
    · rename_i hid
      have hnone : q.challengeJobs.find? (fun job => job.findingId = f.id) = none := by
        rw [List.find?_eq_none]
        intro job hjob
        rw [hid]
        simpa using hfresh job hjob
      simp only [hnone, Option.none_or]
      simp [hid, flightOf, isChallengeInFlight, phase, isClaimed]
    · rename_i hid
      have hnew : List.find? (fun job : PrReviewChallengeJob => job.findingId = f.id)
          [{ findingId := findingId, question := question }] = none := by
        simpa [eq_comm] using hid
      rw [hnew, Option.or_none]
      exact hq.agrees f hf
  · rw [List.countP_append]
    exact hq.slots
  · intro job epoch hjob hepoch
    rcases List.mem_append.mp hjob with hold | hnew
    · exact hq.counted job epoch hold hepoch
    · rw [List.mem_singleton.mp hnew] at hepoch
      cases hepoch
  · intro job other epoch hjob hother hje hoe
    rcases List.mem_append.mp hjob with hold | hnew
    · rcases List.mem_append.mp hother with hold' | hnew'
      · exact hq.epochs job other epoch hold hold' hje hoe
      · rw [List.mem_singleton.mp hnew'] at hoe
        cases hoe
    · rw [List.mem_singleton.mp hnew] at hje
      cases hje
  · intro job hjob
    rcases List.mem_append.mp hjob with hold | hnew
    · exact hq.budget job hold
    · rw [List.mem_singleton.mp hnew]
      exact Nat.zero_le _

/-- An entry was settled, or its eviction was recovered. -/
inductive Settling (job : PrReviewChallengeJob) (update : Option JobUpdate)
    (q q' : ReviewQueue) : Prop where
  | settled {outcome : ChallengeOutcome}
      (move : EntryMove job none (settleFinding job.question outcome) q q') :
      Settling job update q q'
  | recovered {error : String} {kind : ContainerEvictionKind}
      (evicted : update = some (.failed error (some kind)))
      (within : job.evictionRecoveries.getD 0 < evictionBudget kind)
      (move : EntryMove job (some (requeuedJob job)) (withStatus .queued) q q') :
      Settling job update q q'

theorem settleUpdate_spec {update : Option JobUpdate} (hq : QueueOk dispatched q)
    (hjob : job ∈ q.challengeJobs) (h : settleUpdate job update q = some q') :
    QueueOk dispatched q' ∧ Settling job update q q' := by
  unfold settleUpdate at h
  split at h
  · cases h
  · cases h
  · rename_i error evicted
    cases hrequeued : requeueEvicted job evicted q with
    | none =>
        rw [hrequeued] at h
        cases h
        have hmove := settleFailure_move job error q
        exact ⟨hq.settled hjob hmove rfl, Settling.settled hmove⟩
    | some q1 =>
        rw [hrequeued] at h
        cases h
        rcases requeueEvicted_move hrequeued with ⟨hmove, kind, rfl, hbudget⟩
        exact ⟨hq.requeued hjob hrequeued, Settling.recovered rfl hbudget hmove⟩
  · rename_i output
    cases h
    have hmove := settleResult_move job output q
    exact ⟨hq.settled hjob hmove rfl, Settling.settled hmove⟩

/-- A start settles its entry or keeps it under the same epoch. -/
inductive Starting (job : PrReviewChallengeJob) (q q' : ReviewQueue) : Prop where
  | settled {outcome : ChallengeOutcome}
      (move : EntryMove job none (settleFinding job.question outcome) q q') :
      Starting job q q'
  | started {job' : PrReviewChallengeJob} (names : job'.findingId = job.findingId)
      (epoch : job'.epoch = job.epoch)
      (move : EntryMove job (some job') id q q') : Starting job q q'

theorem Starting.status (h : Starting job q q') : q'.review.status = q.review.status := by
  cases h with
  | settled move => exact move.status
  | started names epoch move => exact move.status

/-- A start leaves the other entries alone. -/
theorem Starting.others {other : PrReviewChallengeJob}
    (h : Starting job q q') (hother : other ∈ q.challengeJobs) (hne : other ≠ job) :
    other ∈ q'.challengeJobs := by
  cases h with
  | settled move => exact (move.jobs other).mpr (Or.inr ⟨hother, hne⟩)
  | started names epoch move => exact (move.jobs other).mpr (Or.inr ⟨hother, hne⟩)

theorem startJob_spec {outcome : StartOutcome} (hq : QueueOk dispatched q)
    (hjob : job ∈ q.challengeJobs) :
    QueueOk dispatched (startJob job outcome q) ∧
      Starting job q (startJob job outcome q) := by
  have hfound : (q.review.findings.any fun f => f.id = job.findingId) = true := by
    rcases hq.named job hjob with ⟨f, hf, hid⟩
    exact List.any_eq_true.mpr ⟨f, hf, by simpa using hid⟩
  unfold startJob
  rw [if_pos hfound]
  cases outcome with
  | job jobId model subscriptionTokenId initiatedByUserId =>
      have hsame : q.review.findings = updateFinding job.findingId id q.review.findings := by
        unfold updateFinding
        simp
      have hmove : EntryMove job
          (some (startedJob jobId model subscriptionTokenId initiatedByUserId job)) id q
          (updateJob job
            (startedJob jobId model subscriptionTokenId initiatedByUserId job) q) :=
        @updateJob_move _ _ _ _ q.review hjob hsame rfl
      refine ⟨hq.started hjob, Starting.started ?_ ?_ hmove⟩
      · rfl
      · rfl
  | result output =>
      have hmove := settleResult_move job output q
      exact ⟨hq.settled hjob hmove rfl, Starting.settled hmove⟩
  | throws reason =>
      have hmove := settleFailure_move job reason q
      exact ⟨hq.settled hjob hmove rfl, Starting.settled hmove⟩

/-!
## A poll
-/

/-- What a poll did to one finding: nothing, or what its entry's status said. -/
inductive Polled (pairs : List (PrReviewChallengeJob × Option JobUpdate))
    (f f' : PrReviewFinding) : Prop where
  | same (same : f' = f) : Polled pairs f f'
  | settled {job : PrReviewChallengeJob} {update : Option JobUpdate}
      {outcome : ChallengeOutcome} (polled : (job, update) ∈ pairs)
      (names : job.findingId = f.id)
      (record : f' = settleFinding job.question outcome f) : Polled pairs f f'
  | recovered {job : PrReviewChallengeJob} {update : Option JobUpdate}
      (polled : (job, update) ∈ pairs) (names : job.findingId = f.id)
      (record : f' = withStatus .queued f) : Polled pairs f f'

theorem Polled.weaken {pair : PrReviewChallengeJob × Option JobUpdate}
    {pairs : List (PrReviewChallengeJob × Option JobUpdate)} {f f' : PrReviewFinding}
    (h : Polled pairs f f') : Polled (pair :: pairs) f f' := by
  cases h with
  | same same => exact Polled.same same
  | settled polled names record =>
      exact Polled.settled (List.mem_cons_of_mem _ polled) names record
  | recovered polled names record =>
      exact Polled.recovered (List.mem_cons_of_mem _ polled) names record

/-- What a poll does to the queue. -/
structure PollMove (dispatched : Nat)
    (pairs : List (PrReviewChallengeJob × Option JobUpdate)) (q q' : ReviewQueue) : Prop where
  ok : QueueOk dispatched q'
  findings : forall f, f ∈ q.review.findings ->
    exists f', f' ∈ q'.review.findings ∧ f'.id = f.id ∧ Polled pairs f f'
  jobs : forall z, z ∈ q'.challengeJobs -> z ∈ q.challengeJobs ∨
    exists job error kind, (job, some (JobUpdate.failed error (some kind))) ∈ pairs ∧
      job.evictionRecoveries.getD 0 < evictionBudget kind ∧ z = requeuedJob job
  status : q'.review.status = q.review.status

theorem Settling.move {update : Option JobUpdate} (h : Settling job update q q') :
    exists next change, EntryMove job next change q q' := by
  cases h with
  | settled move => exact ⟨_, _, move⟩
  | recovered evicted within move => exact ⟨_, _, move⟩

/-- What a settling does to one finding. -/
theorem Settling.polled {update : Option JobUpdate}
    {pairs : List (PrReviewChallengeJob × Option JobUpdate)} (h : Settling job update q q')
    {f : PrReviewFinding} (hf : f ∈ q.review.findings) :
    exists f', f' ∈ q'.review.findings ∧ f'.id = f.id ∧
      (f.id ≠ job.findingId -> f' = f) ∧ Polled ((job, update) :: pairs) f f' := by
  cases h with
  | settled move =>
      refine ⟨_, by rw [move.findings]; exact List.mem_map_of_mem hf, ?_, ?_, ?_⟩
      · split
        · exact settleFinding_id _ _ f
        · rfl
      · intro hne
        rw [if_neg hne]
      · split
        · rename_i hid
          exact Polled.settled List.mem_cons_self hid.symm rfl
        · exact Polled.same rfl
  | recovered evicted within move =>
      refine ⟨_, by rw [move.findings]; exact List.mem_map_of_mem hf, ?_, ?_, ?_⟩
      · split
        · rfl
        · rfl
      · intro hne
        rw [if_neg hne]
      · split
        · rename_i hid
          exact Polled.recovered List.mem_cons_self hid.symm rfl
        · exact Polled.same rfl

/-- A settling adds no entry but the recovered one. -/
theorem Settling.jobs {update : Option JobUpdate} (h : Settling job update q q')
    (z : PrReviewChallengeJob) (hz : z ∈ q'.challengeJobs) : z ∈ q.challengeJobs ∨
      exists error kind, update = some (.failed error (some kind)) ∧
        job.evictionRecoveries.getD 0 < evictionBudget kind ∧ z = requeuedJob job := by
  cases h with
  | settled move =>
      rcases (move.jobs z).mp hz with h | ⟨hold, _⟩
      · cases h
      · exact Or.inl hold
  | recovered evicted within move =>
      rcases (move.jobs z).mp hz with h | ⟨hold, _⟩
      · exact Or.inr ⟨_, _, evicted, within, (Option.some.inj h).symm⟩
      · exact Or.inl hold

theorem settleAll_move {pairs : List (PrReviewChallengeJob × Option JobUpdate)}
    (hq : QueueOk dispatched q)
    (hpairs : forall pair, pair ∈ pairs -> pair.1 ∈ q.challengeJobs)
    (hdistinct : (pairs.map fun pair => pair.1.findingId).Nodup) :
    PollMove dispatched pairs q (settleAll pairs q).1 := by
  induction pairs generalizing q with
  | nil =>
      refine ⟨hq, ?_, fun z hz => Or.inl hz, rfl⟩
      intro f hf
      exact ⟨f, hf, rfl, Polled.same rfl⟩
  | cons pair rest ih =>
      rcases pair with ⟨job, update⟩
      rw [List.map_cons, List.nodup_cons] at hdistinct
      have hjob : job ∈ q.challengeJobs := hpairs _ List.mem_cons_self
      have hrest : forall pair, pair ∈ rest -> pair.1 ∈ q.challengeJobs := fun pair hpair =>
        hpairs pair (List.mem_cons_of_mem _ hpair)
      cases hupdate : settleUpdate job update q with
      | none =>
          have hmove := ih hq hrest hdistinct.2
          simp only [settleAll, hupdate]
          refine ⟨hmove.ok, ?_, ?_, hmove.status⟩
          · intro f hf
            rcases hmove.findings f hf with ⟨f', hf', hid, hpolled⟩
            exact ⟨f', hf', hid, hpolled.weaken⟩
          · intro z hz
            rcases hmove.jobs z hz with hold | ⟨job', error, kind, hpair, hrequeued⟩
            · exact Or.inl hold
            · exact Or.inr ⟨job', error, kind, List.mem_cons_of_mem _ hpair, hrequeued⟩
      | some q1 =>
          rcases settleUpdate_spec hq hjob hupdate with ⟨hq1, hsettling⟩
          rcases hsettling.move with ⟨next, change, hentry⟩
          have hrest1 : forall pair, pair ∈ rest -> pair.1 ∈ q1.challengeJobs := by
            intro pair hpair
            refine (hentry.jobs pair.1).mpr (Or.inr ⟨hrest pair hpair, ?_⟩)
            intro hsame
            exact hdistinct.1 (List.mem_map.mpr ⟨pair, hpair, by rw [hsame]⟩)
          have hmove := ih hq1 hrest1 hdistinct.2
          simp only [settleAll, hupdate]
          refine ⟨hmove.ok, ?_, ?_, hmove.status.trans hentry.status⟩
          · intro f hf
            rcases @Settling.polled _ _ _ _ rest hsettling f hf with
              ⟨f1, hf1, hid1, hother, hpolled1⟩
            rcases hmove.findings f1 hf1 with ⟨f', hf', hid, hpolled⟩
            refine ⟨f', hf', hid.trans hid1, ?_⟩
            by_cases hmine : f.id = job.findingId
            · -- the entries that are left name other findings
              have hsame : f' = f1 := by
                cases hpolled with
                | same same => exact same
                | settled polled names record =>
                    refine absurd (List.mem_map.mpr ⟨_, polled, ?_⟩) hdistinct.1
                    exact names.trans (hid1.trans hmine)
                | recovered polled names record =>
                    refine absurd (List.mem_map.mpr ⟨_, polled, ?_⟩) hdistinct.1
                    exact names.trans (hid1.trans hmine)
              rw [hsame]
              exact hpolled1
            · rw [hother hmine] at hpolled
              exact hpolled.weaken
          · intro z hz
            rcases hmove.jobs z hz with hold | ⟨job', error, kind, hpair, hrequeued⟩
            · rcases hsettling.jobs z hold with hbefore | ⟨error, kind, rfl, hrequeued⟩
              · exact Or.inl hbefore
              · exact Or.inr ⟨job, error, kind, List.mem_cons_self, hrequeued⟩
            · exact Or.inr ⟨job', error, kind, List.mem_cons_of_mem _ hpair, hrequeued⟩

end Keeps

end Reviews
end CatFactory
