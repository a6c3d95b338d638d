import CatFactory.Foundation.Runs
import CatFactory.Gates.ChallengeDriver
import CatFactory.Gates.CompanionRounds

/-!
# Challenges over whole runs

Whatever people and workers do, and wherever a worker dies or loses a race: the
stored queue agrees with the stored findings, and a challenge that was accepted
stays in flight until a verdict or a failure is recorded.
-/

namespace CatFactory
namespace Gates

open Execution (AgentState ExecutionStatus StepApprovalStatus)
open Foundation Reviews

variable {t : ChallengeSystem}

/-!
## A row that is in order
-/

/-- The review step is under the cursor, its queue agrees with its findings, and no
other step is under review. -/
structure RowOk (r : Nat) (row : RunRow) : Prop where
  cursor : row.run.currentStep = r
  review : exists step q, row.run.steps[r]? = some step ∧ queueOn row.run = some q ∧
    QueueOk row.dispatched q ∧
    (q.review.status = PrReviewStatus.challenging ∧ stepAwaitsDecision step = false ∨
      q.review.status = PrReviewStatus.awaitingSelection ∧ q.challengeJobs = [])
  only : forall j step, j ≠ r -> row.run.steps[j]? = some step ->
    isChallengingReview step = false ∧ isParkedReview step = false

theorem queueOn_some {run : Run} {q : ReviewQueue} (h : queueOn run = some q) :
    exists step, run.steps[run.currentStep]? = some step ∧
      step.prReview = some q.review ∧ step.challengeJobs = q.challengeJobs := by
  rcases Option.bind_eq_some_iff.mp h with ⟨step, hstep, hq⟩
  rcases Option.map_eq_some_iff.mp hq with ⟨review, hreview, rfl⟩
  exact ⟨step, hstep, hreview, rfl⟩

theorem queueOn_of_step {run : Run} {step : Step} {review : PrReviewStepState}
    (hstep : run.steps[run.currentStep]? = some step) (hreview : step.prReview = some review) :
    queueOn run = some { review := review, challengeJobs := step.challengeJobs } := by
  simp [queueOn, hstep, hreview]

theorem setQueue_step {q : ReviewQueue} {run : Run} {step : Step}
    (hstep : run.steps[run.currentStep]? = some step) :
    (setQueue q run).steps[run.currentStep]? = some (putQueue q step) := by
  simp [setQueue, hstep]

theorem queueOn_setQueue {q q' : ReviewQueue} {run : Run} (h : queueOn run = some q) :
    queueOn (setQueue q' run) = some q' := by
  rcases queueOn_some h with ⟨step, hstep, _⟩
  have hnew : (setQueue q' run).steps[(setQueue q' run).currentStep]? =
      some (putQueue q' step) := setQueue_step hstep
  exact queueOn_of_step hnew rfl

theorem modify_other {steps : List Step} {change : Step -> Step} {i j : Nat} (hne : j ≠ i) :
    (steps.modify i change)[j]? = steps[j]? := by
  have hne' : i ≠ j := fun h => hne h.symm
  simp [hne']

/-- A row with another queue in the same state of the review. -/
theorem RowOk.setQueue {r dispatched rev : Nat} {row : RunRow} {q q' : ReviewQueue}
    (hrow : RowOk r row) (hq : queueOn row.run = some q)
    (hq' : QueueOk dispatched q')
    (hstatus : q'.review.status = PrReviewStatus.challenging ∧
        q.review.status = PrReviewStatus.challenging ∨
      q'.review.status = PrReviewStatus.awaitingSelection ∧ q'.challengeJobs = []) :
    RowOk r { run := setQueue q' row.run, dispatched := dispatched, rev := rev } where
  cursor := hrow.cursor
  review := by
    rcases hrow.review with ⟨step, q0, hstep, hq0, _, hphase⟩
    rw [hq] at hq0
    cases hq0
    rw [<- hrow.cursor] at hstep ⊢
    refine ⟨putQueue q' step, q', setQueue_step hstep, queueOn_setQueue hq, hq', ?_⟩
    rcases hstatus with ⟨hnew, hold⟩ | hidle
    · left
      rcases hphase with ⟨_, hwaits⟩ | ⟨hparked, _⟩
      · exact ⟨hnew, hwaits⟩
      · rw [hold] at hparked
        cases hparked
    · exact Or.inr hidle
  only := by
    intro j step hj hstep
    have hne : j ≠ row.run.currentStep := by
      rw [hrow.cursor]
      exact hj
    exact hrow.only j step hj ((modify_other hne).symm.trans hstep)

/-!
## A challenge
-/

section Challenge

variable {r now : Nat} {findingId : String} {question : Option String} {row : RunRow}
variable {run' : Run}

/-- The queue with one challenge more. -/
def challenged (findingId : String) (question : Option String) (q : ReviewQueue) :
    ReviewQueue :=
  { review :=
      { q.review with
        status := PrReviewStatus.challenging
        resolution := none
        findings :=
          setChallenge findingId { status := .queued, question := question }
            q.review.findings }
    challengeJobs := q.challengeJobs ++ [{ findingId := findingId, question := question }] }

theorem queueChallenge_cases {review : PrReviewStepState} {step step' : Step}
    (h : queueChallenge findingId question review step = .ok step') :
    (exists f, f ∈ review.findings ∧ f.id = findingId ∧
      isChallengeInFlight f.challenge = false) ∧
      step' = putQueue (challenged findingId question
        { review := review, challengeJobs := step.challengeJobs }) step := by
  simp only [queueChallenge] at h
  cases hfind : review.findings.find? fun f => f.id = findingId with
  | none => simp [hfind] at h
  | some target =>
      simp only [hfind] at h
      split at h
      · cases h
      · split at h
        · cases h
        · rename_i hflight
          cases h
          refine ⟨⟨target, List.mem_of_find?_eq_some hfind, ?_, ?_⟩, rfl⟩
          · simpa using List.find?_some hfind
          · simpa using hflight

/-- Only the step of the review is found. -/
theorem RowOk.findIdx {p : Step -> Bool} {i : Nat} (hrow : RowOk r row)
    (hp : forall step, p step = true ->
      isChallengingReview step = true ∨ isParkedReview step = true)
    (h : row.run.steps.findIdx? p = some i) : i = r := by
  rcases List.findIdx?_eq_some_iff_getElem.mp h with ⟨hlt, hfound, _⟩
  by_cases hi : i = r
  · exact hi
  · have honly := hrow.only i row.run.steps[i] hi (List.getElem?_eq_getElem hlt)
    rcases hp _ hfound with hchallenging | hparked
    · rw [honly.1] at hchallenging
      cases hchallenging
    · rw [honly.2] at hparked
      cases hparked

theorem RowOk.parked_at {i : Nat} {step : Step} {approval : StepApproval}
    {review : PrReviewStepState} (hrow : RowOk r row)
    (h : findParkedReview row.run = some (i, step, approval, review)) : i = r := by
  have hat := (findParkedReview_spec h).1
  rcases findParkedReview_review h with ⟨hreview, hstatus, hkind, hwaits⟩
  by_cases hi : i = r
  · exact hi
  · have honly := (hrow.only i step hi hat).2
    simp [isParkedReview, hreview, hstatus, hkind, hwaits] at honly

/-- The review step is rewritten, at work on a queue that agrees. -/
theorem RowOk.rewritten {status : ExecutionStatus} {step step' : Step} {q' : ReviewQueue}
    {rev : Nat} (hrow : RowOk r row) (hstep : row.run.steps[r]? = some step)
    (hq' : QueueOk row.dispatched q')
    (hon : step'.prReview = some q'.review ∧ step'.challengeJobs = q'.challengeJobs)
    (hstatus : q'.review.status = PrReviewStatus.challenging)
    (hwaits : stepAwaitsDecision step' = false) :
    let run' := { row.run with steps := row.run.steps.set r step', status := status }
    queueOn run' = some q' ∧
      RowOk r { run := run', dispatched := row.dispatched, rev := rev } := by
  rcases List.getElem?_eq_some_iff.mp hstep with ⟨hlt, _⟩
  have hnew : (row.run.steps.set r step')[r]? = some step' := List.getElem?_set_self hlt
  have hqueue : queueOn
      { row.run with steps := row.run.steps.set r step', status := status } = some q' := by
    simp only [queueOn, hrow.cursor, hnew, Option.bind_some, hon.1, Option.map_some, hon.2]
  refine ⟨hqueue, hrow.cursor, ⟨step', q', hnew, hqueue, hq', Or.inl ⟨hstatus, hwaits⟩⟩, ?_⟩
  intro j other hj hother
  rw [List.getElem?_set_ne (fun h => hj h.symm)] at hother
  exact hrow.only j other hj hother

theorem queueOk_challenged {dispatched : Nat} {q : ReviewQueue} {question : Option String}
    (hq : QueueOk dispatched q)
    (hidle : exists f, f ∈ q.review.findings ∧ f.id = findingId ∧
      isChallengeInFlight f.challenge = false) :
    QueueOk dispatched (challenged findingId question q) := by
  rcases hidle with ⟨target, htarget, hid, hflight⟩
  apply hq.appended ⟨target, htarget, hid⟩
  · intro f hf hfid
    have hsame : f = target := eq_of_key hq.minted hf htarget (hfid.trans hid.symm)
    rw [hsame]
    cases hsome : flightOf target with
    | none => rfl
    | some status =>
        have hin := @flightOf_isSome target
        rw [hsome, hflight] at hin
        cases hin
  · rfl

/-- An accepted challenge joins the queue and changes nothing else of the review. -/
theorem challengeFinding_ok (hrow : RowOk r row)
    (h : challengeFinding now findingId question row.run = .ok run') :
    exists q question', queueOn row.run = some q ∧
      (exists f, f ∈ q.review.findings ∧ f.id = findingId ∧
        isChallengeInFlight f.challenge = false) ∧
      queueOn run' = some (challenged findingId question' q) ∧
      RowOk r { row with run := run', rev := row.rev + 1 } := by
  rcases hrow.review with ⟨step, q, hstep, hq, hok, hphase⟩
  rcases queueOn_some hq with ⟨step0, hstep0, hreview, hjobs⟩
  rw [hrow.cursor, hstep] at hstep0
  cases hstep0
  refine ⟨q, trimmed question, hq, ?_⟩
  simp only [challengeFinding] at h
  cases hrunning : row.run.steps.findIdx? isChallengingReview with
  | some i =>
      have hi := hrow.findIdx (fun _ hp => Or.inl hp) hrunning
      subst hi
      simp only [hrunning] at h
      split at h
      · cases h
      · simp only [hstep, Option.bind_some, hreview, Option.map_some] at h
        cases hqueued : queueChallenge findingId (trimmed question) q.review step with
        | error e => simp [hqueued] at h
        | ok step' =>
            simp only [hqueued] at h
            cases h
            rcases queueChallenge_cases hqueued with ⟨hidle, rfl⟩
            rw [hjobs]
            have hwaits : stepAwaitsDecision step = false := by
              rcases hphase with ⟨_, hwaits⟩ | ⟨hparked, _⟩
              · exact hwaits
              · have hfound := findIdx_found hrunning hstep
                simp [isChallengingReview, hreview, hparked] at hfound
            refine ⟨hidle, ?_⟩
            exact hrow.rewritten hstep (queueOk_challenged hok hidle) ⟨rfl, rfl⟩ rfl hwaits
  | none =>
      simp only [hrunning] at h
      cases hparked : findParkedReview row.run with
      | none => simp [hparked] at h
      | some found =>
          rcases found with ⟨i, parked, approval, review⟩
          have hat := (findParkedReview_spec hparked).1
          have hreview' := (findParkedReview_review hparked).1
          have hi := hrow.parked_at hparked
          subst hi
          rw [hstep] at hat
          cases hat
          rw [hreview] at hreview'
          cases hreview'
          simp only [hparked] at h
          cases hqueued : queueChallenge findingId (trimmed question) q.review step with
          | error e => simp [hqueued] at h
          | ok step' =>
              simp only [hqueued] at h
              cases h
              rcases queueChallenge_cases hqueued with ⟨hidle, rfl⟩
              rw [hjobs]
              refine ⟨hidle, ?_⟩
              refine hrow.rewritten hstep (queueOk_challenged hok hidle) ?_ rfl ?_
              · simp [startStep, resetStepForRerun, putQueue]
              · simp [stepAwaitsDecision]

/-- Between the flip and the park no challenge is accepted. -/
theorem challengeFinding_refused {q : ReviewQueue} (hrow : RowOk r row)
    (hq : queueOn row.run = some q)
    (hstatus : q.review.status = PrReviewStatus.awaitingSelection)
    (hwaits : (row.run.steps[r]?.any stepAwaitsDecision) = false) :
    challengeFinding now findingId question row.run ≠ .ok run' := by
  rcases queueOn_some hq with ⟨step, hstep, hreview, _⟩
  rw [hrow.cursor] at hstep
  intro h
  simp only [challengeFinding] at h
  cases hrunning : row.run.steps.findIdx? isChallengingReview with
  | some i =>
      have hi := hrow.findIdx (fun _ hp => Or.inl hp) hrunning
      subst hi
      have hfound := findIdx_found hrunning hstep
      simp [isChallengingReview, hreview, hstatus] at hfound
  | none =>
      simp only [hrunning] at h
      cases hparked : findParkedReview row.run with
      | none => simp [hparked] at h
      | some found =>
          rcases found with ⟨i, parked, approval, review⟩
          have hi := hrow.parked_at hparked
          subst hi
          have hat := (findParkedReview_spec hparked).1
          have hawaits := (findParkedReview_review hparked).2.2.2
          rw [hat] at hwaits
          simp [hawaits] at hwaits

end Challenge

/-!
## The laws of the queue
-/

/-- What holds of a stored queue. -/
structure QueueLaw (q : ReviewQueue) : Prop where
  slots : (running q).length ≤ MAX_CONCURRENT_CHALLENGE_INVESTIGATIONS
  epochs : (q.challengeJobs.filterMap PrReviewChallengeJob.epoch).Nodup
  flight : forall f, f ∈ q.review.findings ->
    (isChallengeInFlight f.challenge = true <->
      (q.challengeJobs.map PrReviewChallengeJob.findingId).count f.id = 1)
  phases : forall f job, f ∈ q.review.findings -> job ∈ q.challengeJobs ->
    job.findingId = f.id ->
      f.challenge.map PrReviewFindingChallenge.status =
        some (if job.epoch = none then .queued else .investigating)
  idle : q.review.status = PrReviewStatus.awaitingSelection -> q.challengeJobs = []
  budget : forall job, job ∈ q.challengeJobs ->
    job.evictionRecoveries.getD 0 ≤ MAX_TRANSIENT_EVICTION_RECOVERIES

/-- The actions that carry an investigator's outcome. -/
def carriesOutcome : ChallengeAction -> Bool
  | .start _ _ => true
  | .poll _ _ => true
  | _ => false

/-- What an action does to the stored queue. -/
structure ChallengeLaw (q q' : ReviewQueue) (a : ChallengeAction) : Prop where
  /-- A challenge in flight stays in flight, or its outcome is recorded. -/
  kept : forall f, f ∈ q.review.findings -> isChallengeInFlight f.challenge = true ->
    exists f', f' ∈ q'.review.findings ∧ f'.id = f.id ∧
      (isChallengeInFlight f'.challenge = true ∨
        carriesOutcome a = true ∧ exists job outcome, job ∈ q.challengeJobs ∧
          job.findingId = f.id ∧ f' = settleFinding job.question outcome f)
  /-- A claimed entry is queued again only after an eviction, within its budget. -/
  requeued : forall job job', job ∈ q.challengeJobs -> job' ∈ q'.challengeJobs ->
    job'.findingId = job.findingId -> isClaimed job = true -> isClaimed job' = false ->
      exists w updates error kind, a = .poll w updates ∧
        (job, some (JobUpdate.failed error (some kind))) ∈ (startedJobs q).zip updates ∧
        job.evictionRecoveries.getD 0 < evictionBudget kind ∧
        job'.evictionRecoveries = some (job.evictionRecoveries.getD 0 + 1)
  /-- An accepted challenge is in flight. -/
  accepted : forall now findingId question, a = .challengeFinding now findingId question ->
    exists f', f' ∈ q'.review.findings ∧ f'.id = findingId ∧
      flightOf f' = some ChallengeStatus.queued

section Laws

variable {dispatched : Nat} {q q' : ReviewQueue} {a : ChallengeAction}

theorem queueLaw_of_ok (hq : QueueOk dispatched q)
    (hidle : q.review.status = PrReviewStatus.awaitingSelection -> q.challengeJobs = []) :
    QueueLaw q where
  slots := by
    rw [running, <- List.countP_eq_length_filter]
    exact hq.slots
  epochs := by
    unfold List.Nodup
    rw [List.pairwise_filterMap]
    apply hq.distinct.of_map.imp_of_mem
    intro job other hjob hother hne epoch hepoch epoch' hepoch' hsame
    rw [<- hsame] at hepoch'
    exact hne (hq.epochs job other epoch hjob hother hepoch hepoch')
  flight := by
    intro f hf
    rw [<- flightOf_isSome, hq.agrees f hf, Option.isSome_map]
    constructor
    · intro hsome
      rcases Option.isSome_iff_exists.mp hsome with ⟨job, hjob⟩
      rcases (lookup_eq_some_iff hq.distinct).mp hjob with ⟨hmem, hid⟩
      exact List.count_eq_one_of_mem hq.distinct (List.mem_map.mpr ⟨job, hmem, hid⟩)
    · intro hcount
      have hmem : f.id ∈ q.challengeJobs.map PrReviewChallengeJob.findingId :=
        List.count_pos_iff.mp (by rw [hcount]; exact Nat.one_pos)
      rcases List.mem_map.mp hmem with ⟨job, hjob, hid⟩
      have hentry : entryOf q.challengeJobs f.id = some job :=
        (lookup_eq_some_iff hq.distinct).mpr ⟨hjob, hid⟩
      rw [hentry]
      rfl
  phases := by
    intro f job hf hjob hid
    have hflight := (hq.challenged hjob hf hid.symm).1
    unfold flightOf at hflight
    split at hflight
    · rw [hflight]
      cases hepoch : job.epoch with
      | none => simp [phase, isClaimed, hepoch]
      | some epoch => simp [phase, isClaimed, hepoch]
    · cases hflight
  idle := hidle
  budget := hq.budget

theorem challengeLaw_same (ha : forall now findingId question,
    a ≠ .challengeFinding now findingId question) (hq : QueueOk dispatched q)
    (hfindings : q'.review.findings = q.review.findings)
    (hjobs : q'.challengeJobs = q.challengeJobs) : ChallengeLaw q q' a where
  kept := by
    intro f hf hflight
    rw [hfindings]
    exact ⟨f, hf, rfl, Or.inl hflight⟩
  requeued := by
    intro job job' hjob hjob' hid hclaimed hfree
    rw [hjobs] at hjob'
    rw [eq_of_key hq.distinct hjob' hjob hid, hclaimed] at hfree
    cases hfree
  accepted := fun now findingId question h => absurd h (ha now findingId question)

theorem challengeLaw_challenged {now : Nat} {findingId : String}
    {question question' : Option String} (hq : QueueOk dispatched q)
    (hidle : exists f, f ∈ q.review.findings ∧ f.id = findingId ∧
      isChallengeInFlight f.challenge = false) :
    ChallengeLaw q (challenged findingId question' q)
      (.challengeFinding now findingId question) where
  kept := by
    intro f hf hflight
    refine ⟨_, List.mem_map_of_mem hf, ?_, ?_⟩
    · split
      · rfl
      · rfl
    · left
      split
      · rfl
      · exact hflight
  requeued := by
    intro job job' hjob hjob' hid hclaimed hfree
    rcases List.mem_append.mp hjob' with hold | hnew
    · rw [eq_of_key hq.distinct hold hjob hid, hclaimed] at hfree
      cases hfree
    · rcases hidle with ⟨f, hf, hfid, hflight⟩
      rw [List.mem_singleton.mp hnew] at hid
      have hin := (hq.challenged hjob hf (hfid.trans hid)).1
      have hsome := @flightOf_isSome f
      rw [hin, hflight] at hsome
      cases hsome
  accepted := by
    rintro _ _ _ ⟨⟩
    rcases hidle with ⟨f, hf, hfid, _⟩
    refine ⟨_, List.mem_map_of_mem hf, ?_, ?_⟩
    · rw [if_pos hfid]
      exact hfid
    · rw [if_pos hfid]
      rfl

/-- An entry that was kept is the entry of its finding. -/
theorem not_requeued {job job' : PrReviewChallengeJob} (hq : QueueOk dispatched q)
    (hjob : job ∈ q.challengeJobs) (hjob' : job' ∈ q.challengeJobs)
    (hid : job'.findingId = job.findingId) (hclaimed : isClaimed job = true) :
    isClaimed job' = true := by
  rw [eq_of_key hq.distinct hjob' hjob hid]
  exact hclaimed

theorem challengeLaw_claimed {job : PrReviewChallengeJob} {w : Nat}
    (hq : QueueOk dispatched q) (hjob : job ∈ q.challengeJobs) :
    ChallengeLaw q (claimJob dispatched job q) (.claim w) where
  kept := by
    intro f hf _
    refine ⟨if f.id = job.findingId then withStatus .investigating f else f,
      List.mem_map.mpr ⟨f, hf, rfl⟩, ?_, ?_⟩
    · split
      · rfl
      · rfl
    · left
      split
      · rename_i hid
        rcases (hq.challenged hjob hf hid).2 with ⟨challenge, hchallenge⟩
        rw [<- flightOf_isSome, flightOf_setStatus hchallenge (Or.inr rfl)]
        rfl
      · assumption
  requeued := by
    intro other other' hother hother' hid hclaimed hfree
    rcases (mem_replaceItem hjob).mp hother' with rfl | ⟨hold, _⟩
    · cases hfree
    · rw [not_requeued hq hother hold hid hclaimed] at hfree
      cases hfree
  accepted := by
    intro now findingId question h
    cases h

theorem challengeLaw_started {job : PrReviewChallengeJob} {w : Nat} {outcome : StartOutcome}
    (hq : QueueOk dispatched q) (hjob : job ∈ q.challengeJobs)
    (h : Starting job q q') : ChallengeLaw q q' (.start w outcome) where
  kept := by
    intro f hf hflight
    cases h with
    | @settled result move =>
        refine ⟨if f.id = job.findingId then settleFinding job.question result f else f,
          ?_, ?_, ?_⟩
        · rw [move.findings]
          exact List.mem_map.mpr ⟨f, hf, rfl⟩
        · split
          · exact settleFinding_id _ _ f
          · rfl
        · split
          · rename_i hid
            exact Or.inr ⟨rfl, job, result, hjob, hid.symm, rfl⟩
          · exact Or.inl hflight
    | started names epoch move =>
        refine ⟨f, ?_, rfl, Or.inl hflight⟩
        rw [move.findings]
        exact List.mem_map.mpr ⟨f, hf, by simp⟩
  requeued := by
    intro other other' hother hother' hid hclaimed hfree
    cases h with
    | settled move =>
        rcases (move.jobs other').mp hother' with hnew | ⟨hold, _⟩
        · cases hnew
        · rw [not_requeued hq hother hold hid hclaimed] at hfree
          cases hfree
    | started names epoch move =>
        rcases (move.jobs other').mp hother' with hnew | ⟨hold, _⟩
        · cases hnew
          have hsame := eq_of_key hq.distinct hjob hother (names.symm.trans hid)
          subst hsame
          rw [isClaimed, epoch, <- isClaimed, hclaimed] at hfree
          cases hfree
        · rw [not_requeued hq hother hold hid hclaimed] at hfree
          cases hfree
  accepted := by
    intro now findingId question h
    cases h

theorem challengeLaw_polled {w : Nat} {updates : List (Option JobUpdate)}
    (hq : QueueOk dispatched q)
    (h : PollMove dispatched ((startedJobs q).zip updates) q q') :
    ChallengeLaw q q' (.poll w updates) := by
  have hstarted {job : PrReviewChallengeJob} {update : Option JobUpdate}
      (hpair : (job, update) ∈ (startedJobs q).zip updates) :
      job ∈ q.challengeJobs := by
    have hjob := (List.of_mem_zip hpair).1
    exact (List.mem_filter.mp (List.mem_filter.mp hjob).1).1
  constructor
  · intro f hf hflight
    rcases h.findings f hf with ⟨f', hf', hid, hpolled⟩
    refine ⟨f', hf', hid, ?_⟩
    cases hpolled with
    | same same =>
        left
        rw [same]
        exact hflight
    | @settled job update outcome polled names record =>
        exact Or.inr ⟨rfl, job, outcome, hstarted polled, names, record⟩
    | recovered polled names record =>
        left
        rcases (hq.challenged (hstarted polled) hf names.symm).2 with
          ⟨challenge, hchallenge⟩
        rw [record, <- flightOf_isSome, flightOf_setStatus hchallenge (Or.inl rfl)]
        rfl
  · intro other other' hother hother' hid hclaimed hfree
    rcases h.jobs other' hother' with hold | ⟨job, error, kind, hpair, hbudget, rfl⟩
    · rw [not_requeued hq hother hold hid hclaimed] at hfree
      cases hfree
    · have hsame : job = other := eq_of_key hq.distinct (hstarted hpair) hother hid
      subst hsame
      exact ⟨w, updates, error, kind, rfl, hpair, hbudget, rfl⟩
  · intro now findingId question h
    cases h

end Laws

/-!
## The system in order
-/

/-- Where a worker is agrees with the queue it knows. -/
def PointAgrees (q : ReviewQueue) : DrivePoint -> Prop
  | .driving pending =>
      q.review.status = PrReviewStatus.challenging ∧
        (forall job, job ∈ pending -> job ∈ q.challengeJobs) ∧
        (pending.map PrReviewChallengeJob.findingId).Nodup
  | .polling => q.review.status = PrReviewStatus.challenging
  | .flipped => q.review.status = PrReviewStatus.awaitingSelection

def PointOk (worker : Worker) : Prop :=
  exists q, queueOn worker.seen.run = some q ∧ PointAgrees q worker.point

/-- The workers know rows that were stored, and one that flipped the review knows the
row that is stored, alone. -/
structure SystemOk (r : Nat) (s : ChallengeSystem) : Prop where
  stored : RowOk r s.stored
  seen : forall w worker, s.workers w = some worker ->
    Snapshot RunRow.rev s.stored worker.seen ∧ RowOk r worker.seen ∧ PointOk worker
  flips : forall w worker, s.workers w = some worker -> worker.point = .flipped ->
    worker.seen = s.stored ∧ (s.stored.run.steps[r]?.any stepAwaitsDecision) = false ∧
      forall v other, s.workers v = some other -> other.point = .flipped -> v = w

section System

variable {r w : Nat} {s : ChallengeSystem}

theorem setWorker_some {worker : Option Worker} {workers : Nat -> Option Worker} {v : Nat}
    {other : Worker} (h : setWorker w worker workers v = some other) :
    v = w ∧ worker = some other ∨ v ≠ w ∧ workers v = some other := by
  unfold setWorker at h
  split at h
  · rename_i hv
    exact Or.inl ⟨hv, h⟩
  · rename_i hv
    exact Or.inr ⟨hv, h⟩

theorem SystemOk.left (hs : SystemOk r s) :
    SystemOk r { s with workers := setWorker w none s.workers } where
  stored := hs.stored
  seen := by
    intro v worker hv
    rcases setWorker_some hv with ⟨_, h⟩ | ⟨_, h⟩
    · cases h
    · exact hs.seen v worker h
  flips := by
    intro v worker hv hflipped
    rcases setWorker_some hv with ⟨_, h⟩ | ⟨_, h⟩
    · cases h
    · rcases hs.flips v worker h hflipped with ⟨hseen, hwaits, halone⟩
      refine ⟨hseen, hwaits, ?_⟩
      intro u other hu hother
      rcases setWorker_some hu with ⟨_, h'⟩ | ⟨_, h'⟩
      · cases h'
      · exact halone u other h' hother

/-- While a worker knows a challenged review as it is stored, none has flipped it. -/
theorem SystemOk.unflipped {v : Nat} {other : Worker} {q : ReviewQueue}
    (hs : SystemOk r s) (hq : queueOn s.stored.run = some q)
    (hstatus : q.review.status = PrReviewStatus.challenging)
    (hv : s.workers v = some other) : other.point ≠ .flipped := by
  intro hflipped
  have hseen := (hs.flips v other hv hflipped).1
  rcases (hs.seen v other hv).2.2 with ⟨q', hq', hpoint⟩
  rw [hseen, hq] at hq'
  cases hq'
  rw [hflipped, PointAgrees, hstatus] at hpoint
  cases hpoint

/-- A worker's write lands on the row it knows, or ends the worker. -/
theorem SystemOk.saved {worker : Worker} {next : RunRow} {point : Option DrivePoint}
    {q : ReviewQueue} (hs : SystemOk r s) (hw : s.workers w = some worker)
    (hq : queueOn worker.seen.run = some q)
    (hstatus : q.review.status = PrReviewStatus.challenging)
    (hnext : RowOk r { next with rev := worker.seen.rev + 1 })
    (hpoint : forall p, point = some p ->
      PointOk { seen := { next with rev := worker.seen.rev + 1 }, point := p } ∧
        (p = .flipped -> (next.run.steps[r]?.any stepAwaitsDecision) = false)) :
    SystemOk r (save w worker.seen next point s) ∧
      ((save w worker.seen next point s).stored = s.stored ∨
        worker.seen = s.stored ∧
          (save w worker.seen next point s).stored =
            { next with rev := worker.seen.rev + 1 }) := by
  have hsnapshot := (hs.seen w worker hw).1
  by_cases hrev : RunRow.rev s.stored = worker.seen.rev
  · have hseen : worker.seen = s.stored := hsnapshot.same_of_rev hrev.symm
    have hmoved : RunRow.rev s.stored < worker.seen.rev + 1 := by
      rw [hrev]
      exact Nat.lt_succ_self _
    have hlands : compareAndSwap RunRow.rev (some s.stored)
        { next with rev := worker.seen.rev + 1 } worker.seen.rev =
          some { next with rev := worker.seen.rev + 1 } := if_pos hrev
    rw [hseen] at hq
    unfold save
    rw [hlands]
    refine ⟨⟨hnext, ?_, ?_⟩, Or.inr ⟨hseen, rfl⟩⟩
    · intro v other hv
      rcases setWorker_some hv with ⟨_, h⟩ | ⟨_, h⟩
      · rcases Option.map_eq_some_iff.mp h with ⟨p, hp, rfl⟩
        exact ⟨Snapshot.fresh _ _, hnext, (hpoint p hp).1⟩
      · rcases hs.seen v other h with ⟨hbefore, hrow, hat⟩
        exact ⟨hbefore.moved hmoved, hrow, hat⟩
    · intro v other hv hflipped
      rcases setWorker_some hv with ⟨hvw, h⟩ | ⟨_, h⟩
      · rcases Option.map_eq_some_iff.mp h with ⟨p, hp, rfl⟩
        refine ⟨rfl, (hpoint p hp).2 hflipped, ?_⟩
        intro u another hu hother
        rcases setWorker_some hu with ⟨huw, _⟩ | ⟨_, h'⟩
        · rw [huw, hvw]
        · exact absurd hother (hs.unflipped hq hstatus h')
      · exact absurd hflipped (hs.unflipped hq hstatus h)
  · have hlost : compareAndSwap RunRow.rev (some s.stored)
        { next with rev := worker.seen.rev + 1 } worker.seen.rev = none := if_neg hrev
    unfold save
    rw [hlost]
    exact ⟨hs.left, Or.inl rfl⟩

/-- What an action leads to: a system in order, by a lawful change of the queue. -/
def StepOk (r : Nat) (s t : ChallengeSystem) (a : ChallengeAction) : Prop :=
  SystemOk r t ∧ forall q, queueOn s.stored.run = some q ->
    exists q', queueOn t.stored.run = some q' ∧ ChallengeLaw q q' a

theorem RowOk.queueOk {row : RunRow} {q : ReviewQueue} (hrow : RowOk r row)
    (hq : queueOn row.run = some q) : QueueOk row.dispatched q := by
  rcases hrow.review with ⟨_, q', _, hq', hok, _⟩
  rw [hq] at hq'
  cases hq'
  exact hok

/-- An action that leaves the stored row as it is. -/
theorem stepOk_unstored {a : ChallengeAction} (hs : SystemOk r s) (ht : SystemOk r t)
    (hstored : t.stored = s.stored)
    (ha : forall now findingId question, a ≠ .challengeFinding now findingId question) :
    StepOk r s t a := by
  refine ⟨ht, ?_⟩
  intro q hq
  rw [hstored]
  exact ⟨q, hq, challengeLaw_same ha (hs.stored.queueOk hq) rfl rfl⟩

/-- A worker's write of another queue. -/
theorem stepOk_saved {worker : Worker} {dispatched : Nat} {q q' : ReviewQueue}
    {point : Option DrivePoint} {a : ChallengeAction} (hs : SystemOk r s)
    (hw : s.workers w = some worker) (hq : queueOn worker.seen.run = some q)
    (hstatus : q.review.status = PrReviewStatus.challenging)
    (hq' : QueueOk dispatched q')
    (hnew : q'.review.status = PrReviewStatus.challenging ∨
      q'.review.status = PrReviewStatus.awaitingSelection ∧ q'.challengeJobs = [])
    (hpoint : forall p, point = some p -> forall row, queueOn row.run = some q' ->
      PointOk { seen := row, point := p })
    (ha : forall now findingId question, a ≠ .challengeFinding now findingId question)
    (hlaw : ChallengeLaw q q' a) :
    StepOk r s
      (save w worker.seen
        { worker.seen with
          run := setQueue q' worker.seen.run
          dispatched := dispatched } point s) a := by
  have hseen := (hs.seen w worker hw).2.1
  have hrow : RowOk r
      { run := setQueue q' worker.seen.run
        dispatched := dispatched
        rev := worker.seen.rev + 1 } := by
    apply hseen.setQueue hq hq'
    rcases hnew with hchallenging | hidle
    · exact Or.inl ⟨hchallenging, hstatus⟩
    · exact Or.inr hidle
  have hwaits : ((setQueue q' worker.seen.run).steps[r]?.any stepAwaitsDecision) = false := by
    rcases hseen.review with ⟨step, q0, hstep, hq0, _, hphase⟩
    rw [hq] at hq0
    cases hq0
    have hidle : stepAwaitsDecision step = false := by
      rcases hphase with ⟨_, hidle⟩ | ⟨hparked, _⟩
      · exact hidle
      · rw [hstatus] at hparked
        cases hparked
    rw [<- hseen.cursor] at hstep ⊢
    rw [setQueue_step hstep]
    exact hidle
  have hsaved := @SystemOk.saved r w s worker
    { worker.seen with
      run := setQueue q' worker.seen.run
      dispatched := dispatched } point q hs hw hq hstatus hrow
    (fun p hp => ⟨hpoint p hp _ (queueOn_setQueue hq), fun _ => hwaits⟩)
  refine ⟨hsaved.1, ?_⟩
  intro q0 hq0
  rcases hsaved.2 with hsame | ⟨hknown, hstored⟩
  · rw [hsame]
    exact ⟨q0, hq0, challengeLaw_same ha (hs.stored.queueOk hq0) rfl rfl⟩
  · rw [hstored]
    rw [<- hknown, hq] at hq0
    cases hq0
    exact ⟨q', queueOn_setQueue hq, hlaw⟩

theorem challengeFinding_step {now : Nat} {findingId : String} {question : Option String}
    (hs : SystemOk r s) (h : challengeAct s (.challengeFinding now findingId question) = some t) :
    StepOk r s t (.challengeFinding now findingId question) := by
  rcases Option.map_eq_some_iff.mp h with ⟨run', hok, rfl⟩
  have hrun := except_toOption hok
  rcases challengeFinding_ok hs.stored hrun with
    ⟨q, question', hq, hidle, hq', hrow⟩
  have hunflipped : forall v other, s.workers v = some other -> other.point ≠ .flipped := by
    intro v other hv hflipped
    rcases hs.flips v other hv hflipped with ⟨hseen, hwaits, _⟩
    rcases (hs.seen v other hv).2.2 with ⟨q0, hq0, hpoint⟩
    rw [hflipped] at hpoint
    rw [hseen, hq] at hq0
    cases hq0
    exact challengeFinding_refused hs.stored hq hpoint hwaits hrun
  refine ⟨⟨hrow, ?_, ?_⟩, ?_⟩
  · intro v other hv
    rcases hs.seen v other hv with ⟨hbefore, hknown⟩
    exact ⟨hbefore.moved (Nat.lt_succ_self _), hknown⟩
  · intro v other hv hflipped
    exact absurd hflipped (hunflipped v other hv)
  · intro q0 hq0
    rw [hq] at hq0
    cases hq0
    exact ⟨_, hq', challengeLaw_challenged (hs.stored.queueOk hq) hidle⟩

/-!
## The steps of a worker
-/

theorem drivable_challenging {run : Run} {q : ReviewQueue} (h : drivable run = true)
    (hq : queueOn run = some q) : q.review.status = PrReviewStatus.challenging := by
  rcases queueOn_some hq with ⟨step, hstep, hreview, _⟩
  unfold drivable at h
  rw [Bool.and_eq_true, hstep] at h
  have hchallenging := h.2
  simp only [Option.any_some, isChallengingReview, hreview, Bool.and_eq_true,
    decide_eq_true_eq] at hchallenging
  exact hchallenging.2

/-- A worker reads the stored run. -/
theorem enter_step {point : ReviewQueue -> DrivePoint} {a : ChallengeAction} (hs : SystemOk r s)
    (hpoint : forall q, queueOn s.stored.run = some q -> QueueOk s.stored.dispatched q ->
      q.review.status = PrReviewStatus.challenging ->
        point q ≠ .flipped ∧ PointOk { seen := s.stored, point := point q })
    (ha : forall now findingId question, a ≠ .challengeFinding now findingId question)
    (h : enter w point s = some t) : StepOk r s t a := by
  unfold enter at h
  split at h
  · rename_i hdrivable
    rcases Option.map_eq_some_iff.mp h with ⟨q, hq, rfl⟩
    have hchallenging := drivable_challenging hdrivable.1 hq
    rcases hpoint q hq (hs.stored.queueOk hq) hchallenging with ⟨hunflipped, hat⟩
    refine stepOk_unstored hs ⟨hs.stored, ?_, ?_⟩ rfl ha
    · intro v worker hv
      rcases setWorker_some hv with ⟨_, hnew⟩ | ⟨_, hold⟩
      · cases hnew
        exact ⟨Snapshot.fresh _ _, hs.stored, hat⟩
      · exact hs.seen v worker hold
    · intro v worker hv hflipped
      rcases setWorker_some hv with ⟨_, hnew⟩ | ⟨_, hold⟩
      · cases hnew
        exact absurd hflipped hunflipped
      · exact absurd hflipped (hs.unflipped hq hchallenging hold)
  · cases h

theorem enterDrive_step (hs : SystemOk r s)
    (h : challengeAct s (.enterDrive w) = some t) : StepOk r s t (.enterDrive w) := by
  refine enter_step hs ?_ ?_ h
  · intro q hq hok hchallenging
    refine ⟨?_, q, hq, hchallenging, ?_, ?_⟩
    · intro hpoint
      cases hpoint
    · intro job hjob
      exact (List.mem_filter.mp (List.mem_filter.mp hjob).1).1
    · exact hok.distinct.sublist ((List.filter_sublist.trans List.filter_sublist).map _)
  · intro now findingId question hsame
    cases hsame

theorem enterPoll_step (hs : SystemOk r s)
    (h : challengeAct s (.enterPoll w) = some t) : StepOk r s t (.enterPoll w) := by
  refine enter_step hs ?_ ?_ h
  · intro q hq _ hchallenging
    refine ⟨?_, q, hq, hchallenging⟩
    intro hpoint
    cases hpoint
  · intro now findingId question hsame
    cases hsame

/-- What a worker at work knows of the queue. -/
theorem SystemOk.known {worker : Worker} {q : ReviewQueue} (hs : SystemOk r s)
    (hw : s.workers w = some worker) (hq : queueOn worker.seen.run = some q) :
    QueueOk worker.seen.dispatched q ∧ PointAgrees q worker.point := by
  rcases (hs.seen w worker hw).2 with ⟨hrow, q', hq', hpoint⟩
  rw [hq] at hq'
  cases hq'
  exact ⟨hrow.queueOk hq, hpoint⟩

theorem start_step {outcome : StartOutcome} (hs : SystemOk r s)
    (h : challengeAct s (.start w outcome) = some t) : StepOk r s t (.start w outcome) := by
  simp only [challengeAct] at h
  split at h
  · rename_i seen job rest hw
    rcases Option.map_eq_some_iff.mp h with ⟨q, hq, rfl⟩
    rcases hs.known hw hq with ⟨hok, hchallenging, hpending, hdistinct⟩
    have hjob : job ∈ q.challengeJobs := hpending job List.mem_cons_self
    rcases @startJob_spec _ q job outcome hok hjob with ⟨hok', hstarting⟩
    rw [List.map_cons, List.nodup_cons] at hdistinct
    have hstatus := hstarting.status.trans hchallenging
    refine stepOk_saved hs hw hq hchallenging hok' (Or.inl hstatus) ?_ ?_
      (challengeLaw_started hok hjob hstarting)
    · rintro p ⟨⟩ row hrow
      refine ⟨_, hrow, hstatus, ?_, hdistinct.2⟩
      intro other hother
      apply hstarting.others (hpending other (List.mem_cons_of_mem _ hother))
      intro hsame
      exact hdistinct.1 (List.mem_map.mpr ⟨other, hother, by rw [hsame]⟩)
    · intro now findingId question hsame
      cases hsame
  · cases h

theorem claim_step (hs : SystemOk r s)
    (h : challengeAct s (.claim w) = some t) : StepOk r s t (.claim w) := by
  simp only [challengeAct] at h
  split at h
  · rename_i seen hw
    rcases Option.bind_eq_some_iff.mp h with ⟨q, hq, hclaim⟩
    rcases Option.bind_eq_some_iff.mp hclaim with ⟨job, hhead, hsaved⟩
    split at hsaved
    · rename_i hslot
      cases hsaved
      rcases hs.known hw hq with ⟨hok, hchallenging, _⟩
      rcases List.mem_filter.mp (List.mem_of_mem_head? hhead) with ⟨hjob, hfree⟩
      rw [Bool.not_eq_true'] at hfree
      refine stepOk_saved hs hw hq hchallenging (hok.claimed hjob hfree hslot)
        (Or.inl hchallenging) ?_ ?_ (challengeLaw_claimed hok hjob)
      · rintro p ⟨⟩ row hrow
        refine ⟨_, hrow, hchallenging, ?_, List.nodup_singleton _⟩
        intro other hother
        rw [List.mem_singleton.mp hother]
        exact (mem_replaceItem hjob).mpr (Or.inl rfl)
      · intro now findingId question hsame
        cases hsame
    · cases hsaved
  · cases h

theorem QueueOk.finished {dispatched : Nat} {q : ReviewQueue} (hq : QueueOk dispatched q) :
    QueueOk dispatched (finishQueue q) where
  minted := hq.minted
  distinct := hq.distinct
  named := hq.named
  agrees := hq.agrees
  slots := hq.slots
  counted := hq.counted
  epochs := hq.epochs
  budget := hq.budget

theorem flip_step (hs : SystemOk r s)
    (h : challengeAct s (.flip w) = some t) : StepOk r s t (.flip w) := by
  simp only [challengeAct] at h
  split at h
  · rename_i seen hw
    rcases Option.bind_eq_some_iff.mp h with ⟨q, hq, hflip⟩
    split at hflip
    · rename_i hempty
      cases hflip
      rcases hs.known hw hq with ⟨hok, hchallenging, _⟩
      have hnot : forall now findingId question,
          ChallengeAction.flip w ≠ .challengeFinding now findingId question := by
        intro now findingId question hsame
        cases hsame
      refine stepOk_saved hs hw hq hchallenging (QueueOk.finished hok)
        (Or.inr ⟨rfl, hempty⟩) ?_ hnot (challengeLaw_same hnot hok rfl rfl)
      rintro p ⟨⟩ row hrow
      exact ⟨_, hrow, rfl⟩
    · cases hflip
  · cases h

theorem poll_step {updates : List (Option JobUpdate)} (hs : SystemOk r s)
    (h : challengeAct s (.poll w updates) = some t) :
    StepOk r s t (.poll w updates) := by
  have hnot : forall now findingId question,
      ChallengeAction.poll w updates ≠ .challengeFinding now findingId question := by
    intro now findingId question hsame
    cases hsame
  simp only [challengeAct] at h
  split at h
  · rename_i seen hw
    rcases Option.bind_eq_some_iff.mp h with ⟨q, hq, hpoll⟩
    split at hpoll
    · rename_i hlength
      rcases hs.known hw hq with ⟨hok, hchallenging⟩
      have hsublist : (startedJobs q).Sublist q.challengeJobs :=
        List.filter_sublist.trans List.filter_sublist
      have hmove : PollMove seen.dispatched ((startedJobs q).zip updates) q
          (settleAll ((startedJobs q).zip updates) q).1 := by
        apply settleAll_move hok
        · intro pair hpair
          exact hsublist.subset (List.of_mem_zip hpair).1
        · have hids : ((startedJobs q).zip updates).map (fun pair => pair.1.findingId) =
              (startedJobs q).map PrReviewChallengeJob.findingId := by
            calc
              ((startedJobs q).zip updates).map (fun pair => pair.1.findingId)
                  = (((startedJobs q).zip updates).map Prod.fst).map
                      PrReviewChallengeJob.findingId := by rw [List.map_map]; rfl
              _ = (startedJobs q).map PrReviewChallengeJob.findingId := by
                  rw [List.map_fst_zip (Nat.le_of_eq hlength.symm)]
          rw [hids]
          exact hok.distinct.sublist (hsublist.map _)
      split at hpoll
      · cases hpoll
        refine stepOk_saved hs hw hq hchallenging hmove.ok
          (Or.inl (hmove.status.trans hchallenging)) ?_ hnot (challengeLaw_polled hok hmove)
        intro p hp
        cases hp
      · cases hpoll
        exact stepOk_unstored hs hs.left rfl hnot
    · cases hpoll
  · cases h

theorem RowOk.revised {row : RunRow} (hrow : RowOk r row) (rev : Nat) :
    RowOk r { row with rev := rev } where
  cursor := hrow.cursor
  review := hrow.review
  only := hrow.only

theorem heartbeat_step (hs : SystemOk r s)
    (h : challengeAct s (.heartbeat w) = some t) : StepOk r s t (.heartbeat w) := by
  have hnot : forall now findingId question,
      ChallengeAction.heartbeat w ≠ .challengeFinding now findingId question := by
    intro now findingId question hsame
    cases hsame
  simp only [challengeAct] at h
  split at h
  · rename_i seen hw
    cases h
    rcases (hs.seen w _ hw).2 with ⟨hrow, q, hq, hchallenging⟩
    have hsaved := @SystemOk.saved r w s _ seen none q hs hw hq hchallenging
      (hrow.revised _) (fun p hp => by cases hp)
    refine ⟨hsaved.1, ?_⟩
    intro q0 hq0
    refine ⟨q0, ?_, challengeLaw_same hnot (hs.stored.queueOk hq0) rfl rfl⟩
    rcases hsaved.2 with hsame | ⟨hknown, hstored⟩
    · rw [hsame]
      exact hq0
    · rw [hstored]
      rw [<- hknown] at hq0
      exact hq0
  · cases h

theorem leave_step (hs : SystemOk r s)
    (h : challengeAct s (.leave w) = some t) : StepOk r s t (.leave w) := by
  cases h
  refine stepOk_unstored hs hs.left rfl ?_
  intro now findingId question hsame
  cases hsame

/-- The review waits for the human again. -/
theorem RowOk.parkedRun {row : RunRow} {q : ReviewQueue} {now rev : Nat} {approvalId : String}
    (hrow : RowOk r row) (hq : queueOn row.run = some q)
    (hstatus : q.review.status = PrReviewStatus.awaitingSelection) :
    queueOn (parkRun now approvalId row.run) = some q ∧
      RowOk r { row with run := parkRun now approvalId row.run, rev := rev } := by
  rcases queueOn_some hq with ⟨step, hstep, hreview, hjobs⟩
  have hnew : (parkRun now approvalId row.run).steps[row.run.currentStep]? =
      some (openDecisionPark now approvalId "" step) := by
    simp [parkRun, hstep]
  have hqueue : queueOn (parkRun now approvalId row.run) = some q := by
    rw [@queueOn_of_step (parkRun now approvalId row.run) _ q.review hnew hreview]
    show some { review := q.review, challengeJobs := step.challengeJobs } = some q
    rw [hjobs]
  refine ⟨hqueue, hrow.cursor, ?_, ?_⟩
  · refine ⟨openDecisionPark now approvalId "" step, q, ?_, hqueue, hrow.queueOk hq,
      Or.inr ⟨hstatus, ?_⟩⟩
    · rw [<- hrow.cursor]
      exact hnew
    · rcases hrow.review with ⟨_, q', _, hq', _, hphase⟩
      rw [hq] at hq'
      cases hq'
      rcases hphase with ⟨hchallenging, _⟩ | ⟨_, hempty⟩
      · rw [hstatus] at hchallenging
        cases hchallenging
      · exact hempty
  · intro j other hj hother
    have hne : j ≠ row.run.currentStep := by
      rw [hrow.cursor]
      exact hj
    exact hrow.only j other hj ((modify_other hne).symm.trans hother)

theorem park_step {now : Nat} {approvalId : String} (hs : SystemOk r s)
    (h : challengeAct s (.park w now approvalId) = some t) :
    StepOk r s t (.park w now approvalId) := by
  simp only [challengeAct] at h
  split at h
  · rename_i seen hw
    cases h
    rcases hs.flips w _ hw rfl with ⟨hseen, _, halone⟩
    rcases (hs.seen w _ hw).2.2 with ⟨q, hq, hawaiting⟩
    simp only at hseen hq
    subst hseen
    rcases @RowOk.parkedRun r s.stored q now (s.stored.rev + 1) approvalId hs.stored hq
      hawaiting with ⟨hqueue, hrow⟩
    refine ⟨⟨hrow, ?_, ?_⟩, ?_⟩
    · intro v other hv
      rcases setWorker_some hv with ⟨_, hnew⟩ | ⟨_, hold⟩
      · cases hnew
      · rcases hs.seen v other hold with ⟨hbefore, hknown⟩
        exact ⟨hbefore.moved (Nat.lt_succ_self _), hknown⟩
    · intro v other hv hflipped
      rcases setWorker_some hv with ⟨_, hnew⟩ | ⟨hne, hold⟩
      · cases hnew
      · exact absurd (halone v other hold hflipped) hne
    · intro q0 hq0
      rw [hq] at hq0
      cases hq0
      refine ⟨q, hqueue, challengeLaw_same ?_ (hs.stored.queueOk hq) rfl rfl⟩
      intro now findingId question hsame
      cases hsame
  · cases h

theorem challenge_step {a : ChallengeAction} (hs : SystemOk r s)
    (h : challengeAct s a = some t) : StepOk r s t a := by
  cases a with
  | challengeFinding now findingId question => exact challengeFinding_step hs h
  | enterDrive w => exact enterDrive_step hs h
  | enterPoll w => exact enterPoll_step hs h
  | start w outcome => exact start_step hs h
  | claim w => exact claim_step hs h
  | flip w => exact flip_step hs h
  | park w now approvalId => exact park_step hs h
  | poll w updates => exact poll_step hs h
  | heartbeat w => exact heartbeat_step hs h
  | leave w => exact leave_step hs h

end System

/-!
## Runs parked on a review
-/

/-- A run parked on the review of step `r`, before anything was challenged: the
findings were minted apart, and none is in flight. -/
structure ParkedReviewRun (r : Nat) where
  run : Run
  step : Step
  review : PrReviewStepState
  cursor : run.currentStep = r
  step_at : run.steps[r]? = some step
  parked : isParkedReview step = true
  review_on : step.prReview = some review
  minted : (review.findings.map PrReviewFinding.id).Nodup
  unchallenged : forall f, f ∈ review.findings -> isChallengeInFlight f.challenge = false
  empty : step.challengeJobs = []
  only : forall j other, j ≠ r -> run.steps[j]? = some other ->
    isChallengingReview other = false ∧ isParkedReview other = false

def ParkedReviewRun.system {r : Nat} (start : ParkedReviewRun r) (dispatched rev : Nat) :
    ChallengeSystem where
  stored := { run := start.run, dispatched := dispatched, rev := rev }
  workers := fun _ => none

theorem ParkedReviewRun.awaiting {r : Nat} (start : ParkedReviewRun r) :
    start.review.status = PrReviewStatus.awaitingSelection := by
  have hparked := start.parked
  simp only [isParkedReview, start.review_on, Option.any_some, Bool.and_eq_true,
    decide_eq_true_eq] at hparked
  exact hparked.2

theorem ParkedReviewRun.queueOk {r : Nat} (start : ParkedReviewRun r) (dispatched : Nat) :
    QueueOk dispatched { review := start.review, challengeJobs := [] } where
  minted := start.minted
  distinct := List.nodup_nil
  named := by
    intro job hjob
    cases hjob
  agrees := by
    intro f hf
    have hnone : (flightOf f).isSome = false := by
      rw [flightOf_isSome]
      exact start.unchallenged f hf
    exact Option.not_isSome_iff_eq_none.mp (by simp [hnone])
  slots := Nat.zero_le _
  counted := by
    intro job epoch hjob
    cases hjob
  epochs := by
    intro job other epoch hjob
    cases hjob
  budget := by
    intro job hjob
    cases hjob

theorem ParkedReviewRun.ok {r : Nat} (start : ParkedReviewRun r) (dispatched rev : Nat) :
    SystemOk r (start.system dispatched rev) where
  stored := by
    refine ⟨start.cursor, ?_, start.only⟩
    refine ⟨start.step, { review := start.review, challengeJobs := [] }, start.step_at, ?_,
      start.queueOk dispatched, Or.inr ⟨start.awaiting, rfl⟩⟩
    have hstep : start.run.steps[start.run.currentStep]? = some start.step := by
      rw [start.cursor]
      exact start.step_at
    show queueOn start.run = _
    rw [queueOn_of_step hstep start.review_on, start.empty]
  seen := by
    intro w worker hw
    cases hw
  flips := by
    intro w worker hw
    cases hw

/-- Whatever people and workers do, the stored queue is lawful, and so is every next
action. -/
theorem challengeQueue_law {r dispatched rev : Nat} (start : ParkedReviewRun r)
    {trace : List ChallengeAction} {s : ChallengeSystem}
    (hrun : Foundation.Run challengeAct (start.system dispatched rev) trace s) :
    exists q, queueOn s.stored.run = some q ∧ QueueLaw q ∧
      forall a t, challengeAct s a = some t ->
        exists q', queueOn t.stored.run = some q' ∧ ChallengeLaw q q' a := by
  have hs : SystemOk r s := by
    refine @RunWhere.invariant _ _ _ _ _ (fun x => SystemOk r x) (start.ok dispatched rev)
      ?_ _ _ hrun
    intro x a y hx _ hy
    exact (challenge_step hx hy).1
  rcases hs.stored.review with ⟨_, q, _, hq, hok, hphase⟩
  refine ⟨q, hq, queueLaw_of_ok hok ?_, ?_⟩
  · intro hawaiting
    rcases hphase with ⟨hchallenging, _⟩ | ⟨_, hempty⟩
    · rw [hawaiting] at hchallenging
      cases hchallenging
    · exact hempty
  · intro a t ht
    exact (challenge_step hs ht).2 q hq

/-- Two findings wait for a selection. -/
def reviewedFindings : PrReviewStepState where
  status := PrReviewStatus.awaitingSelection
  findings :=
    [{ id := "f1", path := "src/lock.ts", severity := .high, category := .correctness
       title := "The lock leaks", detail := "An early return keeps it." },
      { id := "f2", path := "src/lock.ts", severity := .low, category := .correctness
        title := "The name misleads", detail := "It is no mutex." }]

def reviewedStep : Step where
  agentKind := PR_REVIEW_STEP_KIND
  state := AgentState.waitingDecision
  approval := some { id := "appr_1", status := StepApprovalStatus.pending, proposal := "" }
  prReview := some reviewedFindings

def parkedReviewRun : ParkedReviewRun 0 where
  run := { id := "exec_1", steps := [reviewedStep], status := ExecutionStatus.blocked }
  step := reviewedStep
  review := reviewedFindings
  cursor := rfl
  step_at := rfl
  parked := by decide
  review_on := rfl
  minted := by decide
  unchallenged := by decide
  empty := rfl
  only := by
    intro j other hj hother
    cases j with
    | zero => exact absurd rfl hj
    | succ j => cases hother

/-- A second challenge arrives while the first is investigated. -/
def challengedTwice : List ChallengeAction :=
  [.challengeFinding 1 "f1" none, .enterDrive 0, .claim 0,
    .start 0 (.job "job-1" none none none), .challengeFinding 2 "f2" (some "why?"),
    .leave 0, .enterPoll 1]

/-- The container of the first is evicted. -/
def evictedPoll : ChallengeAction :=
  .poll 1 [some (.failed "container evicted" (some .crash))]

theorem challengeQueue_law_evicted :
    exists s t q q', challengeAct s evictedPoll = some t ∧
      queueOn s.stored.run = some q ∧ QueueLaw q ∧
      queueOn t.stored.run = some q' ∧ ChallengeLaw q q' evictedPoll ∧
      q'.challengeJobs.map PrReviewChallengeJob.findingId = ["f1", "f2"] ∧
      running q' = [] := by
  have hsome : (challengeAct (endOf challengeAct (parkedReviewRun.system 0 0) challengedTwice)
      evictedPoll).isSome = true := by decide +kernel
  have hjobs : ((challengeAct (endOf challengeAct (parkedReviewRun.system 0 0)
      challengedTwice) evictedPoll).bind fun t => (queueOn t.stored.run).map
        fun q => (q.challengeJobs.map PrReviewChallengeJob.findingId, running q)) =
      some (["f1", "f2"], []) := by decide +kernel
  rcases Option.isSome_iff_exists.mp hsome with ⟨t, ht⟩
  have hrun := @run_endOf _ _ challengeAct challengedTwice (parkedReviewRun.system 0 0)
    (by decide +kernel)
  rcases challengeQueue_law parkedReviewRun hrun with ⟨q, hq, hlaw, hnext⟩
  rcases hnext evictedPoll t ht with ⟨q', hq', hstep⟩
  rw [ht, Option.bind_some, hq', Option.map_some, Option.some.injEq, Prod.mk.injEq] at hjobs
  exact ⟨_, t, q, q', ht, hq, hlaw, hq', hstep, hjobs.1, hjobs.2⟩

end Gates
end CatFactory
