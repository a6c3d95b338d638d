import CatFactory.Foundation.Keyed
import CatFactory.Reviews.PrReview

/-!
# The queue of challenges

Every challenged finding has an entry until its investigation is settled.  An
entry is claimed before its investigator starts, goes back to the head when its
container was evicted, and leaves with a verdict or a failure.
-/

namespace CatFactory
namespace Reviews

open Foundation

/-!
## The queue on a step
-/

def MAX_CONCURRENT_CHALLENGE_INVESTIGATIONS : Nat := 3

def MAX_EVICTION_RECOVERIES : Nat := 1

def MAX_TRANSIENT_EVICTION_RECOVERIES : Nat := 5

/-- The review of a step and its queue; an entry stands for itself, as no two are
equal. -/
structure ReviewQueue where
  review : PrReviewStepState
  challengeJobs : List PrReviewChallengeJob
deriving DecidableEq

def isClaimed (job : PrReviewChallengeJob) : Bool :=
  job.epoch.isSome

/-- The executor accepted the entry. -/
def hasJob (job : PrReviewChallengeJob) : Bool :=
  job.jobId.any fun id => id ≠ ""

def running (q : ReviewQueue) : List PrReviewChallengeJob :=
  q.challengeJobs.filter isClaimed

def claimedUnstarted (q : ReviewQueue) : List PrReviewChallengeJob :=
  (running q).filter fun job => !hasJob job

def queued (q : ReviewQueue) : List PrReviewChallengeJob :=
  q.challengeJobs.filter fun job => !isClaimed job

def removeJob (job : PrReviewChallengeJob) (q : ReviewQueue) : ReviewQueue :=
  { q with challengeJobs := removeItem job q.challengeJobs }

/-- Assign to the fields of an entry. -/
def updateJob (job job' : PrReviewChallengeJob) (q : ReviewQueue) : ReviewQueue :=
  { q with challengeJobs := replaceItem job job' q.challengeJobs }

/-!
## Claiming and settling
-/

def claimedJob (epoch : Nat) (job : PrReviewChallengeJob) : PrReviewChallengeJob :=
  { job with epoch := some epoch }

def claimJob (epoch : Nat) (job : PrReviewChallengeJob) (q : ReviewQueue) : ReviewQueue :=
  updateJob job (claimedJob epoch job)
    { q with
      review :=
        { q.review with
          findings :=
            setChallengeStatus job.findingId .investigating q.review.findings } }

def settleResult (job : PrReviewChallengeJob) (output : Option PrReviewChallengeOutput)
    (q : ReviewQueue) : ReviewQueue :=
  removeJob job
    { q with review := applyChallengeVerdict q.review job.findingId job.question output }

def settleFailure (job : PrReviewChallengeJob) (reason : String) (q : ReviewQueue) :
    ReviewQueue :=
  removeJob job
    { q with review := failChallenge q.review job.findingId job.question (some reason) }

inductive ContainerEvictionKind where
  | crash
  | transient
deriving DecidableEq

def evictionBudget : ContainerEvictionKind -> Nat
  | .transient => MAX_TRANSIENT_EVICTION_RECOVERIES
  | .crash => MAX_EVICTION_RECOVERIES

def requeuedJob (job : PrReviewChallengeJob) : PrReviewChallengeJob :=
  { findingId := job.findingId
    question := job.question
    evictionRecoveries := some (job.evictionRecoveries.getD 0 + 1) }

/-- Put an evicted entry back at the head; `none` when its budget is spent or it was
no eviction. -/
def requeueEvicted (job : PrReviewChallengeJob) (evicted : Option ContainerEvictionKind)
    (q : ReviewQueue) : Option ReviewQueue :=
  match evicted with
  | none => none
  | some kind =>
      if evictionBudget kind ≤ job.evictionRecoveries.getD 0 then none
      else
        some
          { review :=
              { q.review with
                findings :=
                  setChallengeStatus job.findingId .queued q.review.findings }
            challengeJobs := requeuedJob job :: removeItem job q.challengeJobs }

/-!
## Starting an investigator
-/

/-- How a start comes back: the executor accepted a job, answered in line, or threw. -/
inductive StartOutcome where
  | job (jobId : String) (model subscriptionTokenId initiatedByUserId : Option String)
  | result (output : Option PrReviewChallengeOutput)
  | throws (reason : String)
deriving DecidableEq

/-- `if (value) target = value`. -/
def assigned (target value : Option String) : Option String :=
  (value.filter fun v => v ≠ "").or target

def startedJob (jobId : String) (model subscriptionTokenId initiatedByUserId : Option String)
    (job : PrReviewChallengeJob) : PrReviewChallengeJob :=
  { job with
    jobId := some jobId
    model := assigned job.model model
    subscriptionTokenId := assigned job.subscriptionTokenId subscriptionTokenId
    initiatedByUserId := assigned job.initiatedByUserId initiatedByUserId }

/-- A finding that is gone takes its entry along. -/
def startJob (job : PrReviewChallengeJob) (outcome : StartOutcome) (q : ReviewQueue) :
    ReviewQueue :=
  if q.review.findings.any fun f => f.id = job.findingId then
    match outcome with
    | .job jobId model subscriptionTokenId initiatedByUserId =>
        updateJob job
          (startedJob jobId model subscriptionTokenId initiatedByUserId job) q
    | .result output => settleResult job output q
    | .throws reason => settleFailure job reason q
  else removeJob job q

/-!
## Polling
-/

inductive JobUpdate where
  | running
  | failed (error : String) (evicted : Option ContainerEvictionKind)
  | done (output : Option PrReviewChallengeOutput)
deriving DecidableEq

/-- Fold one status into the queue; `none` when the job still runs, or its status
could not be read. -/
def settleUpdate (job : PrReviewChallengeJob) (update : Option JobUpdate) (q : ReviewQueue) :
    Option ReviewQueue :=
  match update with
  | none => none
  | some .running => none
  | some (.failed error evicted) =>
      some ((requeueEvicted job evicted q).getD (settleFailure job error q))
  | some (.done output) => some (settleResult job output q)

/-- Fold the statuses of the started entries, in order; the flag says that one was
settled. -/
def settleAll : List (PrReviewChallengeJob × Option JobUpdate) -> ReviewQueue ->
    ReviewQueue × Bool
  | [], q => (q, false)
  | (job, update) :: rest, q =>
      match settleUpdate job update q with
      | none => settleAll rest q
      | some q => ((settleAll rest q).1, true)

def startedJobs (q : ReviewQueue) : List PrReviewChallengeJob :=
  (running q).filter hasJob

end Reviews
end CatFactory
