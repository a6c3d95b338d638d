import CatFactory.Execution.DelegationProtocol

/-!
# The law of the delegation record

What every history of a step obeys as long as polls fold onto a live record of
the job in flight only: the attempt log grows by the claims that open an
attempt and freezes behind its last entry, a settled record waits for the next
claim, container jobs leave the record alone, and the handle to re-attach to is
missing exactly when there is no job or its claim is unanswered.
-/

namespace CatFactory
namespace Execution

open Foundation

namespace DelegatedStep

variable {trace : List DelegationAction} {s : DelegatedStep} {s t : DelegatedStep}

/-!
## The invariant
-/

/-- How the record and the job handle agree with the history. -/
structure Protocol (s : DelegatedStep) : Prop where
  attempts : forall record, s.step.delegated = some record -> record.attempts ≠ []
  unanswered : forall key, s.unanswered = some key <->
    exists record, s.step.delegated = some record ∧
      record.status = RunDelegationStatus.starting ∧ record.correlationKey = key
  container : s.containerInFlight = true -> forall record,
    inFlightDelegation s.step = some record ->
      record.status ≠ RunDelegationStatus.starting
  own : s.containerInFlight = false -> forall record jobId,
    s.step.delegated = some record ->
      record.status = RunDelegationStatus.starting ->
        s.step.jobId = some jobId -> jobId = record.correlationKey
  dispatching : s.dispatching = true -> s.containerInFlight = false ∧
    exists record, inFlightDelegation s.step = some record ∧
      record.status = RunDelegationStatus.starting

/-- What an action other than a claim does to the record: it folds, and either
nothing changes about its status or a live record gets an answer. -/
structure Effect (s t : DelegatedStep) : Prop where
  folds : Folds s.step.delegated t.step.delegated
  opened : t.opened = s.opened
  status :
    (t.step.delegated.map RunDelegation.status =
        s.step.delegated.map RunDelegation.status ∧
      t.unanswered = s.unanswered) ∨
    (exists before after, s.step.delegated = some before ∧
      t.step.delegated = some after ∧
      after.status ≠ RunDelegationStatus.starting ∧
      (before.status.live = true ∨ after.status = before.status) ∧
      t.unanswered = none)

theorem Effect.of_same (hrecord : t.step.delegated = s.step.delegated)
    (hunanswered : t.unanswered = s.unanswered) (hopened : t.opened = s.opened) :
    Effect s t := by
  constructor
  · rw [hrecord]
    exact Folds.refl _
  · exact hopened
  · exact Or.inl ⟨by rw [hrecord], hunanswered⟩

theorem Effect.attempts (h : Effect s t) (hs : Protocol s) :
    forall record, t.step.delegated = some record -> record.attempts ≠ [] := by
  intro record hrecord hempty
  have hfolds := h.folds
  rw [hrecord] at hfolds
  cases hbefore : s.step.delegated with
  | none =>
      rw [hbefore] at hfolds
      cases hfolds
  | some before =>
      rw [hbefore] at hfolds
      cases hfolds with
      | record _ hlength _ =>
          apply hs.attempts before hbefore
          rw [hempty] at hlength
          exact List.eq_nil_of_length_eq_zero hlength.symm

theorem Effect.unanswered (h : Effect s t) (hs : Protocol s) :
    forall key, t.unanswered = some key <->
      exists record, t.step.delegated = some record ∧
        record.status = RunDelegationStatus.starting ∧
        record.correlationKey = key := by
  intro key
  rcases h.status with ⟨hstatus, hunanswered⟩ |
    ⟨before, after, _, hafter, hstatus, _, hunanswered⟩
  · rw [hunanswered, hs.unanswered]
    have hfolds := h.folds
    cases hbefore : s.step.delegated with
    | none =>
        rw [hbefore] at hfolds
        generalize t.step.delegated = after at hfolds
        cases hfolds
        simp
    | some before =>
        rw [hbefore] at hfolds hstatus
        generalize t.step.delegated = after at hfolds hstatus
        cases hfolds with
        | @record _ after hkey _ _ =>
            simp only [Option.map_some, Option.some.injEq] at hstatus
            simp [hstatus, hkey]
  · rw [hunanswered, hafter]
    constructor
    · intro hnone
      cases hnone
    · rintro ⟨record, hrecord, hstarting, _⟩
      cases hrecord
      exact absurd hstarting hstatus

/-- The rest of the invariant after an action whose record is not `starting`. -/
theorem Protocol.of_answered {record : RunDelegation} (hs : Protocol s) (heffect : Effect s t)
    (hrecord : t.step.delegated = some record)
    (hstatus : record.status ≠ RunDelegationStatus.starting)
    (hdispatching : t.dispatching = false) : Protocol t := by
  constructor
  · exact heffect.attempts hs
  · exact heffect.unanswered hs
  · intro _ current hflight
    rw [(inFlightDelegation_eq_some_iff.mp hflight).1] at hrecord
    cases hrecord
    exact hstatus
  · intro _ current _ hcurrent hstarting _
    rw [hcurrent] at hrecord
    cases hrecord
    exact absurd hstarting hstatus
  · intro h
    rw [hdispatching] at h
    cases h

/-- The rest of the invariant after an action that drops the job id. -/
theorem Protocol.of_no_job (hs : Protocol s) (heffect : Effect s t) (hjob : t.step.jobId = none)
    (hdispatching : t.dispatching = false) : Protocol t := by
  constructor
  · exact heffect.attempts hs
  · exact heffect.unanswered hs
  · intro _ record hflight
    cases (inFlightDelegation_eq_some_iff.mp hflight).2.symm.trans hjob
  · intro _ _ _ _ _ hsome
    rw [hjob] at hsome
    cases hsome
  · intro h
    rw [hdispatching] at h
    cases h

/-- The rest of the invariant after an action that keeps the record and the job
handle. -/
theorem Protocol.of_kept (hs : Protocol s) (heffect : Effect s t)
    (hrecord : t.step.delegated = s.step.delegated) (hjob : t.step.jobId = s.step.jobId)
    (hcontainer : t.containerInFlight = s.containerInFlight)
    (hdispatching : t.dispatching = true -> s.dispatching = true) : Protocol t := by
  have hflight : inFlightDelegation t.step = inFlightDelegation s.step := by
    unfold inFlightDelegation
    rw [hrecord, hjob]
  constructor
  · exact heffect.attempts hs
  · exact heffect.unanswered hs
  · intro h
    rw [hcontainer] at h
    rw [hflight]
    exact hs.container h
  · intro h
    rw [hcontainer] at h
    rw [hrecord, hjob]
    exact hs.own h
  · intro h
    rw [hcontainer, hflight]
    exact hs.dispatching (hdispatching h)

/-!
## Writes against the process that holds the claim
-/

theorem of_write_dispatching {next : PipelineStep}
    (h : (s.write next).dispatching = true) : s.dispatching = true ∧ next = s.step := by
  simpa [write] using h

theorem write_dispatching_of_answered {next : PipelineStep} {record : RunDelegation}
    (hs : Protocol s) (hrecord : next.delegated = some record)
    (hstatus : record.status ≠ RunDelegationStatus.starting) :
    (s.write next).dispatching = false := by
  cases h : (s.write next).dispatching with
  | false => rfl
  | true =>
      rcases of_write_dispatching h with ⟨hlive, hsame⟩
      rcases (hs.dispatching hlive).2 with ⟨current, hflight, hstarting⟩
      rw [hsame, (inFlightDelegation_eq_some_iff.mp hflight).1] at hrecord
      cases hrecord
      exact absurd hstarting hstatus

theorem write_dispatching_of_no_job {next : PipelineStep} (hs : Protocol s)
    (hjob : next.jobId = none) :
    (s.write next).dispatching = false := by
  cases h : (s.write next).dispatching with
  | false => rfl
  | true =>
      rcases of_write_dispatching h with ⟨hlive, hsame⟩
      rcases (hs.dispatching hlive).2 with ⟨current, hflight, _⟩
      rw [hsame, (inFlightDelegation_eq_some_iff.mp hflight).2] at hjob
      cases hjob

/-- With no record in flight and no container job, no claim is unanswered. -/
theorem Protocol.unanswered_of_miss {jobId : String} (hs : Protocol s)
    (hown : s.containerInFlight = false) (hjob : s.step.jobId = some jobId)
    (hflight : inFlightDelegation s.step = none) : s.unanswered = none := by
  cases hunanswered : s.unanswered with
  | none => rfl
  | some key =>
      rcases (hs.unanswered key).mp hunanswered with ⟨record, hrecord, hstarting, _⟩
      have hkey := hs.own hown record jobId hrecord hstarting hjob
      rw [hkey] at hjob
      have hsome := inFlightDelegation_eq_some_iff.mpr ⟨hrecord, hjob⟩
      rw [hflight] at hsome
      cases hsome

/-!
## One action at a time
-/

theorem claim_protocol {input : ClaimInput} (hs : Protocol s)
    (h : s.act (.claimDelegation input) = some t) :
    Protocol t ∧ Frozen s.attemptLog t.attemptLog ∧
      t.attemptLog.length + s.opened = s.attemptLog.length + t.opened := by
  cases h
  -- the code's test for a resumption is the history's
  have hresumes : resumesClaim s.step.delegated input = true <->
      s.unanswered = some input.correlationKey := by
    rw [hs.unanswered]
    unfold resumesClaim
    cases hrecord : s.step.delegated with
    | none => simp
    | some record =>
        have hattempts := hs.attempts record hrecord
        simp [hattempts]
  have hlog : attemptLog
      { step := Execution.claimDelegation s.step input
        dispatching := true
        containerInFlight := false
        unanswered := some input.correlationKey
        opened :=
          if s.unanswered = some input.correlationKey then s.opened
          else s.opened + 1 } =
      if resumesClaim s.step.delegated input then s.attemptLog
      else s.attemptLog ++ [{ startedAt := input.startedAt }] := rfl
  constructor
  · constructor
    · intro record hrecord
      cases hrecord
      change (if resumesClaim s.step.delegated input then s.attemptLog
        else s.attemptLog ++ [{ startedAt := input.startedAt }]) ≠ []
      split
      · rename_i hresumed
        cases hprior : s.step.delegated with
        | none =>
            rw [hprior] at hresumed
            cases hresumed
        | some prior =>
            unfold attemptLog
            rw [hprior]
            exact hs.attempts prior hprior
      · simp
    · intro key
      constructor
      · intro hkey
        exact ⟨_, rfl, rfl, Option.some.inj hkey⟩
      · rintro ⟨record, hrecord, _, hkey⟩
        cases hrecord
        exact congrArg some hkey
    · intro hcontainer
      cases hcontainer
    · intro _ record jobId hrecord _ hjob
      cases hrecord
      exact (Option.some.inj hjob).symm
    · intro _
      exact ⟨rfl, _, inFlightDelegation_eq_some_iff.mpr ⟨rfl, rfl⟩, rfl⟩
  · rw [hlog]
    by_cases hresumed : resumesClaim s.step.delegated input = true
    · rw [if_pos hresumed]
      simp only [if_pos (hresumes.mp hresumed)]
      exact ⟨Frozen.refl _, trivial⟩
    · rw [if_neg hresumed]
      simp only [if_neg (fun hsame => hresumed (hresumes.mpr hsame))]
      constructor
      · exact Frozen.append _ _
      · simp
        omega

theorem accept_protocol {handle : AgentJobHandle} {delegated : DelegatedHandle} {kind : String}
    (hs : Protocol s) (h : s.act (.acceptDispatch handle delegated kind) = some t) :
    Effect s t ∧ Protocol t := by
  unfold act at h
  simp only at h
  split at h
  · rename_i hdispatching
    cases h
    rcases (hs.dispatching hdispatching).2 with ⟨record, hflight, hstarting⟩
    have hrecord := (inFlightDelegation_eq_some_iff.mp hflight).1
    rcases recordDispatchedJob_delegated hrecord (hs.attempts record hrecord) handle
      delegated kind with ⟨stamped, hstamped, hstatus, hfolds⟩
    have hne : stamped.status ≠ RunDelegationStatus.starting := by
      rw [hstatus]
      exact fun hbad => by cases hbad
    have heffect : Effect s
        { s with
          step := recordDispatchedJob s.step
            { handle with delegated := some delegated } kind
          dispatching := false
          unanswered := none } := by
      constructor
      · change Folds s.step.delegated (recordDispatchedJob s.step _ kind).delegated
        rw [hrecord, hstamped]
        exact hfolds
      · rfl
      · exact Or.inr ⟨record, stamped, hrecord, hstamped, hne,
          Or.inl (by rw [hstarting]; rfl), rfl⟩
    exact ⟨heffect, hs.of_answered heffect hstamped hne rfl⟩
  · cases h

theorem fail_protocol {failure : DispatchFailure} (hs : Protocol s)
    (h : s.act (.failDelegationDispatch failure) = some t) :
    Effect s t ∧ Protocol t := by
  unfold act at h
  simp only at h
  split at h
  · rename_i hdispatching
    cases h
    rcases (hs.dispatching hdispatching).2 with ⟨record, hflight, hstarting⟩
    have hrecord := (inFlightDelegation_eq_some_iff.mp hflight).1
    have hjob : (Execution.failDelegationDispatch s.step failure).jobId = none := by
      unfold Execution.failDelegationDispatch
      cases failure.contacted with
      | true => rfl
      | false => rfl
    have heffect : Effect s
        { s with
          step := Execution.failDelegationDispatch s.step failure
          dispatching := false
          unanswered := if failure.contacted then s.unanswered else none } := by
      constructor
      · exact failDelegationDispatch_folds s.step failure
      · rfl
      · cases hcontacted : failure.contacted with
        | true =>
            left
            simp [Execution.failDelegationDispatch, hcontacted, hrecord]
        | false =>
            have hsettled : (Execution.failDelegationDispatch s.step failure).delegated =
                some (settledRecord record
                  { status := RunDelegationStatus.failed
                    outcome := some failure.error }) := by
              simp [Execution.failDelegationDispatch, hcontacted, settleDelegation,
                hrecord]
            exact Or.inr ⟨record, _, hrecord, hsettled, fun hbad => (by cases hbad),
              Or.inl (by rw [hstarting]; rfl), rfl⟩
    exact ⟨heffect, hs.of_no_job heffect hjob rfl⟩
  · cases h

theorem runningPoll_protocol {jobId : String} {update : RunningUpdate} (hs : Protocol s)
    (hok : s.foldsOnlyLive (.runningPoll jobId update) = true)
    (h : s.act (.runningPoll jobId update) = some t) :
    Effect s t ∧ Protocol t := by
  unfold act at h
  simp only at h
  split at h
  · cases h
  · cases h
    by_cases hhit : s.step.jobId = some jobId ∧ inFlightDelegation s.step ≠ none
    · rcases hhit with ⟨hjob, hflight⟩
      rcases Option.ne_none_iff_exists'.mp hflight with ⟨record, hrecord⟩
      have hlive : s.containerInFlight = false ∧ record.status.live = true := by
        simpa [foldsOnlyLive, hjob, hrecord] using hok
      rcases applyRunningFold_hit hjob hrecord update with ⟨folded, hfolded, hstatus⟩
      have hne : folded.status ≠ RunDelegationStatus.starting := by
        rw [hstatus]
        exact fun hbad => by cases hbad
      have hdispatching := write_dispatching_of_answered hs hfolded hne
      have heffect : Effect s
          { s.write (applyRunningFold s.step jobId update) with
            unanswered :=
              if s.containerInFlight = false ∧ s.step.jobId = some jobId then none
              else s.unanswered } := by
        constructor
        · exact applyRunningFold_folds s.step jobId update
        · rfl
        · exact Or.inr ⟨record, folded, (inFlightDelegation_eq_some_iff.mp hrecord).1,
            hfolded, hne, Or.inl hlive.2, if_pos ⟨hlive.1, hjob⟩⟩
      exact ⟨heffect, hs.of_answered heffect hfolded hne hdispatching⟩
    · have hmiss : s.step.jobId = some jobId -> inFlightDelegation s.step = none := by
        intro hjob
        by_contra hflight
        exact hhit ⟨hjob, hflight⟩
      have hsame := applyRunningFold_miss hmiss update
      have hunanswered :
          (if s.containerInFlight = false ∧ s.step.jobId = some jobId then none
            else s.unanswered) = s.unanswered := by
        split
        · rename_i hown
          exact (hs.unanswered_of_miss hown.1 hown.2 (hmiss hown.2)).symm
        · rfl
      have heffect : Effect s
          { s.write (applyRunningFold s.step jobId update) with
            unanswered :=
              if s.containerInFlight = false ∧ s.step.jobId = some jobId then none
              else s.unanswered } :=
        Effect.of_same hsame hunanswered rfl
      exact ⟨heffect, hs.of_kept heffect hsame
        (applyRunningFold_jobId s.step jobId update) rfl
        (fun hd => (of_write_dispatching hd).1)⟩

theorem settledPoll_protocol {update : SettledUpdate} {clearsJob : Bool} (hs : Protocol s)
    (hok : s.foldsOnlyLive (.settledPoll update clearsJob) = true)
    (h : s.act (.settledPoll update clearsJob) = some t) :
    Effect s t ∧ Protocol t := by
  unfold act at h
  simp only at h
  split at h
  · rename_i hjob
    cases h
    cases hflight : inFlightDelegation s.step with
    | some record =>
        have hlive : s.containerInFlight = false ∧
            (record.status.live = true ∨
              record.status = update.settlement.status) := by
          simpa [foldsOnlyLive, hflight] using hok
        have hsettled := settleDelegatedJob_hit hflight update
        have hne := settlement_status_ne_starting update
        have hnext : (if clearsJob then
            { settleDelegatedJob s.step update with jobId := none }
            else settleDelegatedJob s.step update).delegated =
              some (settledRecord record update.settlement) := by
          cases clearsJob with
          | true => exact hsettled
          | false => exact hsettled
        have hdispatching := write_dispatching_of_answered hs hnext hne
        have heffect : Effect s
            { s.write (if clearsJob then
                { settleDelegatedJob s.step update with jobId := none }
                else settleDelegatedJob s.step update) with
              containerInFlight := s.containerInFlight && !clearsJob
              unanswered := if s.containerInFlight then s.unanswered else none } := by
          constructor
          · have hfolds := settleDelegatedJob_folds s.step update
            rw [hsettled] at hfolds
            change Folds s.step.delegated (if clearsJob then
              { settleDelegatedJob s.step update with jobId := none }
              else settleDelegatedJob s.step update).delegated
            rw [hnext]
            exact hfolds
          · rfl
          · exact Or.inr ⟨record, _, (inFlightDelegation_eq_some_iff.mp hflight).1,
              hnext, hne, hlive.2.imp id Eq.symm, by simp [hlive.1]⟩
        exact ⟨heffect, hs.of_answered heffect hnext hne hdispatching⟩
    | none =>
        rw [settleDelegatedJob_miss hflight]
        have hsame : (if clearsJob then { s.step with jobId := none }
            else s.step).delegated = s.step.delegated := by
          cases clearsJob with
          | true => rfl
          | false => rfl
        have hunanswered : (if s.containerInFlight then s.unanswered else none) =
            s.unanswered := by
          cases hcontainer : s.containerInFlight with
          | true => rfl
          | false =>
              cases hjobId : s.step.jobId with
              | none =>
                  rw [hjobId] at hjob
                  cases hjob
              | some jobId =>
                  exact (hs.unanswered_of_miss hcontainer hjobId hflight).symm
        have heffect : Effect s
            { s.write (if clearsJob then { s.step with jobId := none } else s.step) with
              containerInFlight := s.containerInFlight && !clearsJob
              unanswered := if s.containerInFlight then s.unanswered else none } :=
          Effect.of_same hsame hunanswered rfl
        cases clearsJob with
        | true =>
            exact ⟨heffect, hs.of_no_job heffect rfl
              (write_dispatching_of_no_job hs rfl)⟩
        | false =>
            exact ⟨heffect, hs.of_kept heffect rfl rfl (by simp)
              (fun hd => (of_write_dispatching hd).1)⟩
  · cases h

theorem containerDispatch_protocol {handle : AgentJobHandle} {kind : String} (hs : Protocol s)
    (hok : s.foldsOnlyLive (.containerDispatch handle kind) = true)
    (h : s.act (.containerDispatch handle kind) = some t) :
    Effect s t ∧ Protocol t := by
  cases h
  have hsame := recordDispatchedJob_container s.step handle kind
  have heffect : Effect s
      { s with
        step := recordDispatchedJob s.step { handle with delegated := none } kind
        dispatching := false
        containerInFlight := true } := Effect.of_same hsame rfl rfl
  constructor
  · exact heffect
  · constructor
    · exact heffect.attempts hs
    · exact heffect.unanswered hs
    · intro _ record hflight hstarting
      rcases inFlightDelegation_eq_some_iff.mp hflight with ⟨hrecord, hjob⟩
      rw [hsame] at hrecord
      rw [recordDispatchedJob_jobId] at hjob
      have hkey : record.correlationKey ≠ handle.jobId := by
        simpa [foldsOnlyLive, hrecord, hstarting] using hok
      exact hkey (Option.some.inj hjob).symm
    · intro hown
      cases hown
    · intro hd
      cases hd

theorem reset_protocol (hs : Protocol s)
    (h : s.act .resetStepForRerun = some t) : Effect s t ∧ Protocol t := by
  cases h
  have heffect : Effect s
      { s.write (Execution.resetStepForRerun s.step) with
        containerInFlight := false } := Effect.of_same rfl rfl rfl
  exact ⟨heffect, hs.of_no_job heffect rfl (write_dispatching_of_no_job hs rfl)⟩

theorem cancel_protocol {report : List CancelReport} (hs : Protocol s)
    (h : s.act (.applyDelegationCancellation report) = some t) :
    Effect s t ∧ Protocol t := by
  cases h
  by_cases hlive : exists record, s.step.delegated = some record ∧
      record.status.live = true
  · rcases hlive with ⟨record, hrecord, hlive⟩
    have hcancelled : (cancelDelegation report s.step).delegated =
        some (settledRecord record (cancelSettlement record report)) := by
      simp [cancelDelegation, settleDelegation, hrecord, hlive]
    have hne : (settledRecord record (cancelSettlement record report)).status ≠
        RunDelegationStatus.starting := fun hbad => by cases hbad
    have hdispatching := write_dispatching_of_answered hs hcancelled hne
    have heffect : Effect s
        { s.write (cancelDelegation report s.step) with unanswered := none } := by
      constructor
      · exact cancelDelegation_folds report s.step
      · rfl
      · exact Or.inr ⟨record, _, hrecord, hcancelled, hne, Or.inl hlive, rfl⟩
    exact ⟨heffect, hs.of_answered heffect hcancelled hne hdispatching⟩
  · have hsame : cancelDelegation report s.step = s.step := by
      unfold cancelDelegation
      cases hrecord : s.step.delegated with
      | none => rfl
      | some record =>
          have hsettled : Not (record.status.live = true) :=
            fun h => hlive ⟨record, hrecord, h⟩
          simp only [if_neg hsettled]
    have hunanswered : none = s.unanswered := by
      cases hkey : s.unanswered with
      | none => rfl
      | some key =>
          rcases (hs.unanswered key).mp hkey with ⟨record, hrecord, hstarting, _⟩
          exact absurd ⟨record, hrecord, by rw [hstarting]; rfl⟩ hlive
    have heffect : Effect s
        { s.write (cancelDelegation report s.step) with unanswered := none } :=
      Effect.of_same (by rw [hsame]; rfl) hunanswered rfl
    exact ⟨heffect, hs.of_kept heffect (by rw [hsame]; rfl) (by rw [hsame]; rfl) rfl
      (fun hd => (of_write_dispatching hd).1)⟩

/-- Every action but a claim folds onto the record and keeps the invariant. -/
theorem act_effect {action : DelegationAction} (hs : Protocol s)
    (hok : s.foldsOnlyLive action = true) (hclaim : action.isClaim = false)
    (h : s.act action = some t) :
    Effect s t ∧ Protocol t := by
  cases action with
  | claimDelegation input => cases hclaim
  | processDeath =>
      cases h
      have heffect : Effect s { s with dispatching := false } :=
        Effect.of_same rfl rfl rfl
      exact ⟨heffect, hs.of_kept heffect rfl rfl rfl (fun hd => by cases hd)⟩
  | acceptDispatch handle delegated kind => exact accept_protocol hs h
  | failDelegationDispatch failure => exact fail_protocol hs h
  | runningPoll jobId update => exact runningPoll_protocol hs hok h
  | settledPoll update clearsJob => exact settledPoll_protocol hs hok h
  | containerDispatch handle kind => exact containerDispatch_protocol hs hok h
  | resetStepForRerun => exact reset_protocol hs h
  | applyDelegationCancellation report => exact cancel_protocol hs h

/-!
## Whole histories
-/

abbrev History (start : DelegatedStep) (trace : List DelegationAction)
    (s : DelegatedStep) : Prop :=
  RunWhere act (fun s action => s.foldsOnlyLive action = true) start trace s

theorem start_protocol {step : PipelineStep}
    (hattempts : forall record, step.delegated = some record ->
      record.attempts ≠ []) : Protocol (start step) := by
  constructor
  · exact hattempts
  · intro key
    unfold start
    cases hrecord : step.delegated with
    | none => simp
    | some record =>
        simp only
        split
        · rename_i hstarting
          simp [hstarting]
        · rename_i hstarting
          simp [hstarting]
  · intro hcontainer record hflight
    have hflight' : inFlightDelegation step = some record := hflight
    simp [start, hflight'] at hcontainer
  · intro hcontainer record jobId hrecord _ hjob
    have hrecord' : step.delegated = some record := hrecord
    have hjob' : step.jobId = some jobId := hjob
    simp only [start, hjob', Option.isSome_some, Bool.true_and] at hcontainer
    cases hflight : inFlightDelegation step with
    | none =>
        rw [hflight] at hcontainer
        cases hcontainer
    | some current =>
        rcases inFlightDelegation_eq_some_iff.mp hflight with ⟨hcurrent, hkey⟩
        rw [hrecord'] at hcurrent
        cases hcurrent
        rw [hjob'] at hkey
        exact Option.some.inj hkey
  · intro hd
    cases hd

theorem act_protocol {action : DelegationAction} (hs : Protocol s)
    (hok : s.foldsOnlyLive action = true) (h : s.act action = some t) : Protocol t := by
  cases hclaim : action.isClaim with
  | false => exact (act_effect hs hok hclaim h).2
  | true =>
      cases action with
      | claimDelegation input => exact (claim_protocol hs h).1
      | _ => cases hclaim

theorem history_protocol (hs : Protocol s) (hrun : History s trace t) : Protocol t :=
  hrun.invariant hs (fun _ _ _ hu hok h => act_protocol hu hok h)

/-- The log freezes behind its last entry and grows by the claims that opened an
attempt. -/
theorem history_log (hs : Protocol s) (hrun : History s trace t) :
    Frozen s.attemptLog t.attemptLog ∧
      t.attemptLog.length + s.opened = s.attemptLog.length + t.opened := by
  induction hrun with
  | nil => exact ⟨Frozen.refl _, rfl⟩
  | @snoc trace u t action hinit hok h ih =>
      have hu := history_protocol hs hinit
      have hstep : Frozen u.attemptLog t.attemptLog ∧
          t.attemptLog.length + u.opened = u.attemptLog.length + t.opened := by
        cases hclaim : action.isClaim with
        | false =>
            have heffect := (act_effect hu hok hclaim h).1
            constructor
            · exact heffect.folds.log_frozen
            · unfold attemptLog
              rw [heffect.folds.log_length, heffect.opened]
        | true =>
            cases action with
            | claimDelegation input => exact (claim_protocol hu h).2
            | _ => cases hclaim
      constructor
      · exact ih.1.trans hstep.1
      · omega

/-- Without a claim a settled record keeps its status. -/
theorem history_settled (hs : Protocol s) (hrun : History s trace t)
    (hclaims : forall action, action ∈ trace -> action.isClaim = false) {record : RunDelegation}
    (hrecord : s.step.delegated = some record) (hsettled : record.status.live = false) :
    t.step.delegated.map RunDelegation.status = some record.status := by
  induction hrun with
  | nil => rw [hrecord, Option.map_some]
  | @snoc trace u t action hinit hok h ih =>
      have hu := history_protocol hs hinit
      have hbefore := ih (fun a ha => hclaims a (List.mem_append_left _ ha))
      have hclaim : action.isClaim = false :=
        hclaims action (List.mem_append_right _ (List.mem_singleton.mpr rfl))
      rcases (act_effect hu hok hclaim h).1.status with
        ⟨hstatus, _⟩ | ⟨before, after, hub, hta, _, hstatus, _⟩
      · rw [hstatus, hbefore]
      · rw [hub, Option.map_some, Option.some.injEq] at hbefore
        rcases hstatus with hlive | hsame
        · rw [hbefore, hsettled] at hlive
          cases hlive
        · rw [hta, Option.map_some, hsame, hbefore]

/-- The polls of a container job leave the record alone. -/
theorem history_container (hcontainer : s.containerInFlight = true) (hrun : History s trace t)
    (hpolls : forall action, action ∈ trace -> action.isPoll = true) :
    t.step.delegated = s.step.delegated := by
  -- a settled poll may drop the job id, and then there is nothing left to poll
  have hinvariant : (t.containerInFlight = true ∨ t.step.jobId = none) ∧
      t.step.delegated = s.step.delegated := by
    induction hrun with
    | nil => exact ⟨Or.inl hcontainer, rfl⟩
    | @snoc trace u t action _ hok h ih =>
        rcases ih (fun a ha => hpolls a (List.mem_append_left _ ha)) with
          ⟨hjob, hrecord⟩
        have hmiss : (exists jobId update, action = .runningPoll jobId update ∧
              u.step.jobId ≠ some jobId) ∨
            inFlightDelegation u.step = none := by
          cases hflight : inFlightDelegation u.step with
          | none => exact Or.inr rfl
          | some record =>
              have hsome := (inFlightDelegation_eq_some_iff.mp hflight).2
              have hlive : u.containerInFlight = true := by
                rcases hjob with hlive | hnone
                · exact hlive
                · rw [hsome] at hnone
                  cases hnone
              have hpoll := hpolls action
                (List.mem_append_right _ (List.mem_singleton.mpr rfl))
              cases action with
              | runningPoll jobId update =>
                  left
                  exact ⟨jobId, update, rfl, by simpa [foldsOnlyLive, hflight, hlive] using hok⟩
              | settledPoll update clearsJob =>
                  simp [foldsOnlyLive, hflight, hlive] at hok
              | _ => cases hpoll
        have hpoll := hpolls action
          (List.mem_append_right _ (List.mem_singleton.mpr rfl))
        cases action with
        | runningPoll jobId update =>
            have hsame : (applyRunningFold u.step jobId update).delegated =
                u.step.delegated := by
              apply applyRunningFold_miss
              intro hsome
              rcases hmiss with ⟨_, _, heq, hne⟩ | hnone
              · cases heq
                exact absurd hsome hne
              · exact hnone
            unfold act at h
            simp only at h
            split at h
            · cases h
            · cases h
              constructor
              · change u.containerInFlight = true ∨
                  (applyRunningFold u.step jobId update).jobId = none
                rw [applyRunningFold_jobId]
                exact hjob
              · exact hsame.trans hrecord
        | settledPoll update clearsJob =>
            have hnone : inFlightDelegation u.step = none := by
              rcases hmiss with ⟨_, _, heq, _⟩ | hnone
              · cases heq
              · exact hnone
            unfold act at h
            simp only [settleDelegatedJob_miss hnone] at h
            split at h
            · cases h
              cases clearsJob with
              | true => exact ⟨Or.inr rfl, hrecord⟩
              | false =>
                  constructor
                  · rcases hjob with hlive | hdropped
                    · exact Or.inl (by simp [hlive])
                    · exact Or.inr hdropped
                  · exact hrecord
            · cases h
        | _ => cases hpoll
  exact hinvariant.2

/-- There is no handle to re-attach to exactly when the step has no job or its
job is a claim nobody has answered. -/
def LiveJobIdExact (s : DelegatedStep) : Prop :=
  liveJobId s.step = none <->
    truthy s.step.jobId = false ∨
      (s.containerInFlight = false ∧ s.unanswered ≠ none ∧
        s.unanswered = s.step.jobId)

theorem liveJobIdExact_of_protocol (hs : Protocol s) :
    LiveJobIdExact s := by
  unfold LiveJobIdExact liveJobId
  cases hjob : truthy s.step.jobId with
  | false => simp
  | true =>
      simp only [Bool.true_eq_false, if_false, false_or]
      have hsome : s.step.jobId ≠ none := by
        intro hnone
        rw [hnone] at hjob
        cases hjob
      constructor
      · intro h
        split at h
        · rename_i hstarting
          rcases Option.map_eq_some_iff.mp hstarting with ⟨record, hflight, hstatus⟩
          rcases inFlightDelegation_eq_some_iff.mp hflight with ⟨hrecord, hkey⟩
          have hunanswered := (hs.unanswered _).mpr ⟨record, hrecord, hstatus, rfl⟩
          constructor
          · cases hcontainer : s.containerInFlight with
            | false => rfl
            | true => exact absurd hstatus (hs.container hcontainer record hflight)
          · rw [hunanswered, hkey]
            exact ⟨fun hbad => (by cases hbad), rfl⟩
        · exact absurd h hsome
      · rintro ⟨_, hclaimed, hsame⟩
        rcases Option.ne_none_iff_exists'.mp hclaimed with ⟨key, hkey⟩
        rcases (hs.unanswered key).mp hkey with ⟨record, hrecord, hstatus, hown⟩
        have hflight : inFlightDelegation s.step = some record := by
          apply inFlightDelegation_eq_some_iff.mpr
          rw [<- hsame, hkey, hown]
          exact ⟨hrecord, rfl⟩
        rw [hflight, Option.map_some, hstatus, if_pos rfl]

/-- The law of the record, over any history and any further history of it whose
polls fold onto live records only. -/
theorem delegation_law {step : PipelineStep}
    (hattempts : forall record, step.delegated = some record ->
      record.attempts ≠ [])
    {trace rest : List DelegationAction} {s t : DelegatedStep}
    (hrun : History (start step) trace s) (hrest : History s rest t) :
    Frozen s.attemptLog t.attemptLog ∧
      t.attemptLog.length + s.opened = s.attemptLog.length + t.opened ∧
      (forall record, s.step.delegated = some record ->
        record.status.live = false ->
        (forall action, action ∈ rest -> action.isClaim = false) ->
        t.step.delegated.map RunDelegation.status = some record.status) ∧
      (s.containerInFlight = true ->
        (forall action, action ∈ rest -> action.isPoll = true) ->
        t.step.delegated = s.step.delegated) ∧
      LiveJobIdExact t := by
  have hs := history_protocol (start_protocol hattempts) hrun
  have hlog := history_log hs hrest
  constructor
  · exact hlog.1
  · constructor
    · exact hlog.2
    · constructor
      · intro record hrecord hsettled hclaims
        exact history_settled hs hrest hclaims hrecord hsettled
      · constructor
        · intro hcontainer hpolls
          exact history_container hcontainer hrest hpolls
        · exact liveJobIdExact_of_protocol (history_protocol hs hrest)

/-!
## A coder step on an external workflow
-/

def externalCoder : PipelineStep :=
  { agentKind := "coder", state := AgentState.working }

def coderClaim : ClaimInput :=
  { executor := "github-actions"
    correlationKey := "exec_1-coder"
    startedAt := 1
    poll := { intervalMs := 15000, maxDurationMs := 3600000 } }

def coderAnswer : DelegationAction :=
  .acceptDispatch { jobId := "exec_1-coder" }
    { executor := "github-actions", externalId := "77" } "coder"

/-- A claim that died, its replay, the answer and the settlement. -/
def settledTrace : List DelegationAction :=
  [.claimDelegation coderClaim, .processDeath, .claimDelegation coderClaim,
    coderAnswer, .settledPoll (.failed "checks failed" true none) false]

def settledCoder : DelegatedStep :=
  endOf act (start externalCoder) settledTrace

/-- A container helper on the same step. -/
def helperTrace : List DelegationAction :=
  [.resetStepForRerun, .containerDispatch { jobId := "exec_1-fixer" } "fixer",
    .runningPoll "exec_1-fixer" {}, .settledPoll (.done true none none) true]

def helpedCoder : DelegatedStep :=
  endOf act settledCoder helperTrace

theorem delegation_law_helpedCoder :
    Frozen settledCoder.attemptLog helpedCoder.attemptLog ∧
      helpedCoder.attemptLog.length + settledCoder.opened =
        settledCoder.attemptLog.length + helpedCoder.opened ∧
      (forall record, settledCoder.step.delegated = some record ->
        record.status.live = false ->
        (forall action, action ∈ helperTrace -> action.isClaim = false) ->
        helpedCoder.step.delegated.map RunDelegation.status = some record.status) ∧
      (settledCoder.containerInFlight = true ->
        (forall action, action ∈ helperTrace -> action.isPoll = true) ->
        helpedCoder.step.delegated = settledCoder.step.delegated) ∧
      LiveJobIdExact helpedCoder :=
  delegation_law (fun _ h => (by cases h))
    (runWhere_endOf (fun _ _ h => h) (by decide))
    (runWhere_endOf (fun _ _ h => h) (by decide))

/-- A poll that lands between a teardown's cancellation and the end of the run
makes the cancelled record `running` again. -/
theorem cancelled_revived_byPoll :
    exists trace s t,
      Run act (start externalCoder) trace s ∧
        Run act s [.runningPoll "exec_1-coder" {}] t ∧
        s.step.delegated.map RunDelegation.status =
          some RunDelegationStatus.cancelled ∧
        t.step.delegated.map RunDelegation.status =
          some RunDelegationStatus.running :=
  ⟨[.claimDelegation coderClaim, coderAnswer, .applyDelegationCancellation []], _, _,
    run_endOf (by decide), run_endOf (by decide), by decide, by decide⟩

end DelegatedStep

end Execution
end CatFactory
