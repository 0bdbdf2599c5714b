import JobScheduler.Repository

/-!
# What a committed operation did

One specification per repository operation: which rows it found, what became of them, and which
tables it left alone.  Each is a structure (`Creates`, `Claims`, `Completes`, …) obtained from the
operation's success by one lemma; no proof after this module unfolds an operation.

* `Owned` — what the two finalizing operations find: the job RUNNING under the worker's id, and the
  claim's own attempt RUNNING.
* `Settles` — the two ways a failed job ends, shared by `FailExecution` and the recovery.
-/

namespace JobScheduler

open KeyedTable Transaction Transaction.Tx

variable {s s' : Store}

theorem insertJobEvent_spec {now : Time} {eventID jobID tenantID : UUID} {eventType : EventType}
    {source : String} {payload : List (String × FieldValue)} {u : Unit}
    (h : insertJobEvent now eventID jobID tenantID eventType source payload s = .ok (u, s')) :
    s'.jobs = s.jobs ∧ s'.attempts = s.attempts ∧ s'.deadLetters = s.deadLetters ∧
      s'.events.rows
        = s.events.rows ++ [jobEvent now eventID jobID tenantID eventType source payload] := by
  obtain ⟨-, events, hi, rfl⟩ := insertJobEvent_eq_ok.1 h
  exact ⟨rfl, rfl, rfl, (Table.insert_eq_some hi).2⟩

/-! ### Creating -/

/-- A committed `Create`. -/
structure Creates (now : Time) (j : Job) (s s' : Store) : Prop where
  keyFree : ¬s.KeyTaken (createRow now j)
  jobs : s.jobs.insert (createRow now j) = some s'.jobs
  attempts : s'.attempts = s.attempts
  deadLetters : s'.deadLetters = s.deadLetters
  events : ∃ eventID payload, s'.events.rows
    = s.events.rows ++ [jobEvent now eventID j.id j.tenantID .created "scheduler-api" payload]
  /-- The event names the instant of the job. -/
  runAt : (FieldValue.time j.runAt).Marshals

theorem create_spec {now : Time} {eventID : UUID} {j out : Job}
    (h : create now eventID j s = .ok (out, s')) :
    Creates now j s s' ∧ out = (createRow now j).toJob := by
  simp only [create, bind_eq_ok, insertJob_eq_ok, pure_eq_ok] at h
  obtain ⟨_, s₁, ⟨hk, jobs, hins, rfl⟩, _, s₂, hev, rfl, rfl⟩ := h
  obtain ⟨hj, ha, hd, he⟩ := insertJobEvent_spec hev
  have hrunAt : (FieldValue.time j.runAt).Marshals :=
    (insertJobEvent_eq_ok.1 hev).1 ("run_at", .time j.runAt) (by simp [createRow])
  exact ⟨⟨hk, by rw [hj]; exact hins, ha, hd, ⟨eventID, _, he⟩, hrunAt⟩, rfl⟩

/-- A committed `RequeueDeadLetter` of the dead letter `dl`. -/
structure Requeues (now clock : Time) (newID tenantID : UUID) (dl : DeadLetterJob) (runAt : Time)
    (s s' : Store) : Prop where
  letter : s.deadLetters.find? dl.id = some dl
  tenant : dl.tenantID = tenantID
  pending : dl.requeuedAt = none
  jobs : s.jobs.insert (requeueRow now clock newID tenantID dl runAt) = some s'.jobs
  attempts : s'.attempts = s.attempts
  deadLetters : s'.deadLetters
    = s.deadLetters.modify dl.id (requeuedLetter now newID) (requeuedLetter_id now newID)
  events : ∃ eventID, s'.events.rows = s.events.rows ++
    [jobEvent now eventID newID tenantID .requeued "scheduler-api"
      [("source_dead_letter_id", .uuid dl.id)]]

theorem requeueDeadLetter_spec {now clock runAt : Time} {newID eventID tenantID deadLetterID : UUID}
    {out : Job}
    (h : requeueDeadLetter now clock newID eventID tenantID deadLetterID runAt s = .ok (out, s')) :
    ∃ dl, dl.id = deadLetterID ∧ Requeues now clock newID tenantID dl runAt s s' := by
  simp only [requeueDeadLetter, bind_eq_ok, read_eq_ok, orAbort_eq_ok, insertJob_eq_ok,
    updateDeadLetters_eq_ok, pure_eq_ok] at h
  obtain ⟨_, s₀, ⟨rfl, rfl⟩, dl, s₁, ⟨hfind, rfl⟩, _, s₂, ⟨-, jobs, hins, rfl⟩, n, s₃, ⟨-, rfl⟩, _,
    s₄, hev, -, rfl⟩ := h
  obtain ⟨hj, ha, hd, he⟩ := insertJobEvent_spec hev
  have hdl := List.find?_some hfind
  simp only [decide_eq_true_eq] at hdl
  obtain ⟨htenant, rfl, hpending⟩ := hdl
  refine ⟨dl, rfl, ⟨Table.find?_key (List.mem_of_find?_eq_some hfind), htenant, hpending, ?_, ha,
    hd, eventID, he⟩⟩
  rw [hj]
  exact hins

/-! ### Claiming -/

/-- A committed iteration of `ClaimDueJobs` on the row `r`. -/
structure Claims (x : ClaimArgs) (r : JobRow) (s s' : Store) : Prop where
  jobs : s'.jobs = s.jobs.modify r.id x.lease x.lease_id
  attempts : s.attempts.insert (x.attempt r) = some s'.attempts
  deadLetters : s'.deadLetters = s.deadLetters
  events : ∃ payload, s'.events.rows = s.events.rows ++
    [jobEvent x.now (x.eventID r.id) r.id r.tenantID .started "worker" payload]

theorem claimJob_spec {x : ClaimArgs} {r : JobRow} {c : ClaimedJob}
    (h : claimJob x r s = .ok (c, s')) : Claims x r s s' ∧ c = x.claimed r := by
  simp only [claimJob, bind_eq_ok, updateJobs_eq_ok, insertAttempt_eq_ok, pure_eq_ok] at h
  obtain ⟨n, s₁, ⟨-, rfl⟩, _, s₂, ⟨attempts, hins, rfl⟩, _, s₃, hev, rfl, rfl⟩ := h
  obtain ⟨hj, ha, hd, he⟩ := insertJobEvent_spec hev
  refine ⟨⟨hj, ?_, hd, _, he⟩, rfl⟩
  rw [ha]
  exact hins

/-- An `ExtendLease` that renewed the lease found on the row `r`. -/
structure Extends (now : Time) (ttl : Duration) (w : String) (r : JobRow) (s s' : Store) : Prop where
  row : s.jobs.find? r.id = some r
  lockedBy : r.lockedBy = some w
  running : r.status = .running
  jobs : s'.jobs = s.jobs.modify r.id (extendedRow now ttl) (extendedRow_id now ttl)
  attempts : s'.attempts = s.attempts
  deadLetters : s'.deadLetters = s.deadLetters
  events : s'.events = s.events

theorem extendLease_spec {now : Time} {jobID : UUID} {w : String} {ttl : Duration} {extended : Bool}
    (h : extendLease now jobID w ttl s = .ok (extended, s')) :
    (extended = true ∧ ∃ r, r.id = jobID ∧ Extends now ttl w r s s') ∨
      (extended = false ∧ s' = s) := by
  simp only [extendLease, bind_eq_ok, updateJobs_eq_ok, pure_eq_ok] at h
  obtain ⟨n, s₁, ⟨hn, rfl⟩, hb, rfl⟩ := h
  have hle := s.jobs.count_key_le_one jobID fun r => r.lockedBy = some w ∧ r.status = .running
  simp only [key_jobRow, hn] at hle
  by_cases h0 : n = 0
  · -- no row was selected, so the update is the identity
    subst h0
    refine .inr ⟨by simpa using hb.symm, ?_⟩
    rw [Table.update_eq_self (Table.count_eq_zero.1 hn)]
  · have h1 : n = 1 := by omega
    refine .inl ⟨by simpa [h1] using hb.symm, ?_⟩
    obtain ⟨r, hr, hw, hs⟩ := Table.exists_of_count_key_ne_zero
      (g := fun r : JobRow => r.lockedBy = some w ∧ r.status = .running) (hn.trans_ne h0)
    obtain ⟨-, rfl⟩ := Table.find?_eq_some_iff.1 hr
    exact ⟨r, rfl, hr, hw, hs, Table.update_key_and hr _ ⟨hw, hs⟩ _ _, rfl, rfl, rfl⟩

/-! ### Finalizing -/

/-- The claim `c` of worker `w` finds its job RUNNING under `w` and its own attempt RUNNING. -/
structure Owned (w : String) (c : ClaimedJob) (r : JobRow) (a : Attempt) (s : Store) : Prop where
  row : s.jobs.find? c.id = some r
  running : r.status = .running
  lockedBy : r.lockedBy = some w
  attempt : s.attempts.find? c.activeAttemptID = some a
  attemptRunning : a.status = .running

/-- A committed `CompleteExecution`. -/
structure Completes (now : Time) (durationMS : Int) (result : RawMessage) (w : String)
    (c : ClaimedJob) (r : JobRow) (a : Attempt) (s s' : Store) : Prop extends Owned w c r a s where
  jobs : s'.jobs = s.jobs.modify c.id (succeededRow now) (succeededRow_id now)
  attempts : s'.attempts = s.attempts.modify c.activeAttemptID
    (succeededAttempt now durationMS result) (succeededAttempt_id now durationMS result)
  deadLetters : s'.deadLetters = s.deadLetters
  events : ∃ eventID payload, s'.events.rows = s.events.rows ++
    [jobEvent now eventID c.id c.tenantID .completed "worker" payload]

/-- The attempt a guarded update by attempt id selects. -/
theorem exists_running_attempt {attemptID : UUID}
    (h : s.attempts.count (fun a => a.id = attemptID ∧ a.status = .running) ≠ 0) :
    ∃ a, s.attempts.find? attemptID = some a ∧ a.status = .running :=
  Table.exists_of_count_key_ne_zero (g := fun a : Attempt => a.status = .running) h

theorem completeExecution_spec {now : Time} {eventID : UUID} {c : ClaimedJob} {w : String}
    {durationMS : Int} {result : RawMessage} {u : Unit}
    (h : completeExecution now eventID c w durationMS result s = .ok (u, s')) :
    ∃ r a, Completes now durationMS result w c r a s s' := by
  simp only [completeExecution, bind_eq_ok, updateJobs_eq_ok, require_eq_ok,
    updateAttempts_eq_ok] at h
  obtain ⟨n, s₁, ⟨rfl, rfl⟩, _, s₂, ⟨hn, rfl⟩, m, s₃, ⟨rfl, rfl⟩, _, s₄, ⟨hm, rfl⟩, hev⟩ := h
  obtain ⟨hj, ha, hd, he⟩ := insertJobEvent_spec hev
  obtain ⟨r, hr, htenant, hw, hrun⟩ := Table.exists_of_count_key_ne_zero
    (g := fun r : JobRow => r.tenantID = c.tenantID ∧ r.lockedBy = some w ∧ r.status = .running) hn
  obtain ⟨a, hfa, harun⟩ := exists_running_attempt hm
  refine ⟨r, a, ⟨hr, hrun, hw, hfa, harun⟩, ?_, ?_, hd, eventID, _, he⟩
  · rw [hj]
    exact Table.update_key_and hr _ ⟨htenant, hw, hrun⟩ _ _
  · rw [ha]
    exact Table.update_key_and hfa _ harun _ _

/-- What becomes of the job of a failed attempt: buried with a dead letter, or scheduled again.  `j`
is the copy of the job the transaction works from. -/
inductive Settles (now : Time) (j : Job) (retryCount : Int) (message : String) (s s' : Store) :
    Status → Prop where
  | buried (deadLetterID : UUID)
      (jobs : s'.jobs = s.jobs.modify j.id (buryRow now retryCount message)
        (buryRow_id now retryCount message))
      (deadLetters : s.deadLetters.insert (deadLetterRow now deadLetterID j message retryCount)
        = some s'.deadLetters) :
      Settles now j retryCount message s s' .deadLettered
  | retried (runAt : Time)
      (jobs : s'.jobs = s.jobs.modify j.id (retryRow now retryCount runAt message)
        (retryRow_id now retryCount runAt message))
      (deadLetters : s'.deadLetters = s.deadLetters) :
      Settles now j retryCount message s s' .retryScheduled

/-- A committed `FailExecution`. -/
structure Fails (now : Time) (durationMS : Int) (outcome : ExecutionResult) (nextStatus : Status)
    (nextRetryCount : Int) (w : String) (c : ClaimedJob) (r : JobRow) (a : Attempt) (s s' : Store) :
    Prop extends Owned w c r a s where
  attempts : s'.attempts = s.attempts.modify c.activeAttemptID
    (failedAttempt now durationMS outcome) (failedAttempt_id now durationMS outcome)
  settles : Settles now c.toJob nextRetryCount outcome.message s s'
    (if nextStatus = .deadLettered then .deadLettered else .retryScheduled)
  events : ∃ failedEvent outcomeEvent payload payload', s'.events.rows = s.events.rows ++
    [jobEvent now failedEvent c.id c.tenantID (.named .failed) "worker" payload,
      jobEvent now outcomeEvent c.id c.tenantID
        (.named (if nextStatus = .deadLettered then .deadLettered else .retryScheduled)) "worker"
        payload']

theorem failExecution_spec {now : Time} {ids : FailureIDs} {c : ClaimedJob} {w : String}
    {durationMS : Int} {outcome : ExecutionResult} {nextStatus : Status} {nextRetryCount : Int}
    {nextRunAt : Time} {u : Unit}
    (h : failExecution now ids c w durationMS outcome nextStatus nextRetryCount nextRunAt s
      = .ok (u, s')) :
    ∃ r a, Fails now durationMS outcome nextStatus nextRetryCount w c r a s s' := by
  simp only [failExecution, bind_eq_ok, require_eq_ok, updateAttempts_eq_ok] at h
  obtain ⟨m, s₁, ⟨rfl, rfl⟩, _, s₂, ⟨hm, rfl⟩, _, s₃, hev, h⟩ := h
  obtain ⟨hj, ha, hd, he⟩ := insertJobEvent_spec hev
  obtain ⟨a, hfa, harun⟩ := exists_running_attempt hm
  have hattempts : s₃.attempts = s.attempts.modify c.activeAttemptID
      (failedAttempt now durationMS outcome) (failedAttempt_id now durationMS outcome) := by
    rw [ha]
    exact Table.update_key_and hfa _ harun _ _
  by_cases hstatus : nextStatus = .deadLettered
  · simp only [hstatus, if_true, bind_eq_ok, updateJobs_eq_ok, require_eq_ok,
      insertDeadLetter_eq_ok] at h
    obtain ⟨n, s₄, ⟨rfl, rfl⟩, _, s₅, ⟨hn, rfl⟩, _, s₆, ⟨deadLetters, hins, rfl⟩, hev'⟩ := h
    obtain ⟨hj', ha', hd', he'⟩ := insertJobEvent_spec hev'
    obtain ⟨r, hr, hw, hrun⟩ := Table.exists_of_count_key_ne_zero
      (g := fun r : JobRow => r.lockedBy = some w ∧ r.status = .running) hn
    refine ⟨r, a, ⟨hj ▸ hr, hrun, hw, hfa, harun⟩, ha'.trans hattempts, ?_, ?_⟩
    · rw [if_pos hstatus]
      refine .buried ids.deadLetter ?_ ?_
      · rw [hj', ← hj]
        exact Table.update_key_and hr _ ⟨hw, hrun⟩ _ _
      · rw [hd', ← hd]
        exact hins
    · simp only [he, List.append_assoc, List.cons_append, List.nil_append] at he'
      rw [if_pos hstatus]
      exact ⟨_, _, _, _, he'⟩
  · simp only [hstatus, if_false, bind_eq_ok, updateJobs_eq_ok, require_eq_ok] at h
    obtain ⟨n, s₄, ⟨rfl, rfl⟩, _, s₅, ⟨hn, rfl⟩, hev'⟩ := h
    obtain ⟨hj', ha', hd', he'⟩ := insertJobEvent_spec hev'
    obtain ⟨r, hr, hw, hrun⟩ := Table.exists_of_count_key_ne_zero
      (g := fun r : JobRow => r.lockedBy = some w ∧ r.status = .running) hn
    refine ⟨r, a, ⟨hj ▸ hr, hrun, hw, hfa, harun⟩, ha'.trans hattempts, ?_, ?_⟩
    · rw [if_neg hstatus]
      refine .retried nextRunAt ?_ (hd'.trans hd)
      rw [hj', ← hj]
      exact Table.update_key_and hr _ ⟨hw, hrun⟩ _ _
    · simp only [he, List.append_assoc, List.cons_append, List.nil_append] at he'
      rw [if_neg hstatus]
      exact ⟨_, _, _, _, he'⟩

/-- A committed `ReleaseClaim`. -/
structure Releases (now : Time) (status : Status) (w : String) (r : JobRow) (s s' : Store) :
    Prop where
  row : s.jobs.find? r.id = some r
  running : r.status = .running
  lockedBy : r.lockedBy = some w
  jobs : s'.jobs = s.jobs.modify r.id (releasedRow now status) (releasedRow_id now status)
  attempts : s'.attempts = s.attempts
  deadLetters : s'.deadLetters = s.deadLetters
  events : s'.events = s.events

theorem releaseClaim_spec {now : Time} {jobID : UUID} {w : String} {status : Status} {u : Unit}
    (h : releaseClaim now jobID w status s = .ok (u, s')) :
    ∃ r, r.id = jobID ∧ Releases now status w r s s' := by
  simp only [releaseClaim, bind_eq_ok, updateJobs_eq_ok, require_eq_ok] at h
  obtain ⟨n, s₁, ⟨rfl, rfl⟩, hn, rfl⟩ := h
  obtain ⟨r, hr, hw, hrun⟩ := Table.exists_of_count_key_ne_zero
    (g := fun r : JobRow => r.lockedBy = some w ∧ r.status = .running) hn
  obtain ⟨-, rfl⟩ := Table.find?_eq_some_iff.1 hr
  exact ⟨r, rfl, hr, hrun, hw, Table.update_key_and hr _ ⟨hw, hrun⟩ _ _, rfl, rfl, rfl⟩

/-! ### Operators and recovery -/

/-- A committed `TransitionJob`. -/
structure Transitions (now : Time) (tenantID : UUID) (allowedFrom : List Status) (target : Status)
    (r : JobRow) (s s' : Store) : Prop where
  row : s.jobs.find? r.id = some r
  tenant : r.tenantID = tenantID
  allowed : r.status ∈ allowedFrom
  jobs : s'.jobs = s.jobs.modify r.id (operatorRow now target) (operatorRow_id now target)
  attempts : s'.attempts =
    if target = .cancelled then
      s.attempts.update (fun a => a.jobID = r.id ∧ a.status = .running) (cancelledAttempt now)
        (cancelledAttempt_id now)
    else s.attempts
  deadLetters : s'.deadLetters = s.deadLetters
  events : ∃ eventID payload, s'.events.rows = s.events.rows ++
    [jobEvent now eventID r.id tenantID (.named target) "scheduler-api" payload]

theorem transitionJob_spec {now : Time} {eventID tenantID id : UUID} {allowedFrom : List Status}
    {target : Status} {u : Unit}
    (h : transitionJob now eventID tenantID id allowedFrom target s = .ok (u, s')) :
    ∃ r, r.id = id ∧ Transitions now tenantID allowedFrom target r s s' := by
  simp only [transitionJob, bind_eq_ok, updateJobs_eq_ok, require_eq_ok] at h
  obtain ⟨n, s₁, ⟨rfl, rfl⟩, _, s₂, ⟨hn, rfl⟩, h⟩ := h
  obtain ⟨r, hr, htenant, hfrom⟩ := Table.exists_of_count_key_ne_zero
    (g := fun r : JobRow => r.tenantID = tenantID ∧ r.status ∈ allowedFrom) hn
  have hjobs := Table.update_key_and hr (fun r : JobRow => r.tenantID = tenantID ∧
    r.status ∈ allowedFrom) ⟨htenant, hfrom⟩ (operatorRow now target) (operatorRow_id now target)
  obtain ⟨-, rfl⟩ := Table.find?_eq_some_iff.1 hr
  by_cases ht : target = .cancelled
  · rw [if_pos ht] at h
    simp only [cancelAttempts, bind_eq_ok, updateAttempts_eq_ok] at h
    obtain ⟨m, s₃, ⟨-, rfl⟩, hev⟩ := h
    obtain ⟨hj, ha, hd, he⟩ := insertJobEvent_spec hev
    refine ⟨r, rfl, hr, htenant, hfrom, hj.trans hjobs, ?_, hd, eventID, _, he⟩
    rw [ha, if_pos ht]
    rfl
  · rw [if_neg ht] at h
    simp only [bind_eq_ok, pure_eq_ok] at h
    obtain ⟨m, s₃, ⟨-, rfl⟩, hev⟩ := h
    obtain ⟨hj, ha, hd, he⟩ := insertJobEvent_spec hev
    refine ⟨r, rfl, hr, htenant, hfrom, hj.trans hjobs, ?_, hd, eventID, _, he⟩
    rw [ha, if_neg ht]

/-- A committed iteration of `RecoverExpiredRunningJobs` on the row `r`. -/
structure Recovers (x : RecoverArgs) (r : JobRow) (s s' : Store) : Prop where
  attempts : s'.attempts = s.attempts.update (fun a => a.jobID = r.id ∧ a.status = .running)
    x.expired x.expired_id
  settles : Settles x.now r.toJob (r.retryCount + 1) x.reason s s' (x.decision r).status
  events : ∃ payload, s'.events.rows = s.events.rows ++
    [jobEvent x.now (x.eventID r.id) r.id r.tenantID (.named (x.decision r).status) "recovery"
      payload]

theorem RecoverArgs.decision_cases (x : RecoverArgs) (r : JobRow) :
    (x.decision r).status = .deadLettered ∨ (x.decision r).status = .retryScheduled := by
  simp only [RecoverArgs.decision, decideFailure]
  split
  · exact .inl rfl
  · exact .inr rfl

theorem recoverJob_spec {x : RecoverArgs} {r : JobRow} {id : UUID}
    (hr : s.jobs.find? r.id = some r) (hrun : r.status = .running)
    (h : recoverJob x r s = .ok (id, s')) : Recovers x r s s' ∧ id = r.id := by
  have hcount : (x.decision r).nextRetryCount = r.retryCount + 1 :=
    decideFailure_nextRetryCount _ _ _ _
  simp only [recoverJob, expireAttempts, bind_eq_ok, updateAttempts_eq_ok] at h
  obtain ⟨m, s₁, ⟨-, rfl⟩, h⟩ := h
  rcases x.decision_cases r with hd | hd
  · simp only [hd, if_true, bind_eq_ok, updateJobs_eq_ok, insertDeadLetter_eq_ok, pure_eq_ok] at h
    obtain ⟨n, s₃, ⟨-, rfl⟩, _, s₄, ⟨deadLetters, hins, rfl⟩, _, s₅, hev, rfl, rfl⟩ := h
    obtain ⟨hj, ha, hdl, he⟩ := insertJobEvent_spec hev
    refine ⟨⟨ha, ?_, ?_⟩, rfl⟩
    · rw [hd, ← hcount]
      refine .buried (x.deadLetterID r.id) ?_ ?_
      · rw [hj]
        exact Table.update_key_and hr _ hrun _ _
      · rw [hdl]
        exact hins
    · rw [hd]
      exact ⟨_, he⟩
  · simp only [hd, reduceCtorEq, if_false, bind_eq_ok, updateJobs_eq_ok, pure_eq_ok] at h
    obtain ⟨n, s₃, ⟨-, rfl⟩, _, s₄, hev, rfl, rfl⟩ := h
    obtain ⟨hj, ha, hdl, he⟩ := insertJobEvent_spec hev
    refine ⟨⟨ha, ?_, ?_⟩, rfl⟩
    · rw [hd, ← hcount]
      refine .retried (x.decision r).nextRunAt ?_ hdl
      rw [hj]
      exact Table.update_key_and hr _ hrun _ _
    · rw [hd]
      exact ⟨_, he⟩

end JobScheduler
