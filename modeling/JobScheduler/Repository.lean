import JobScheduler.CreateRequest
import JobScheduler.Engine
import JobScheduler.Statements
import Mathlib.Data.List.Sort

/-!
# The job repository

The operations of `PostgresRepository` the API and the workers call, statement by statement.  Each
is one transaction: `now` is PostgreSQL's `now()`, fixed for the whole transaction; `clock` is what
`time.Now()` returns in the calling process; the ids `uuid.New` draws are arguments.

`FOR UPDATE SKIP LOCKED` skips the rows other transactions hold locked at that moment: `locked` says
which ones.  The loops of `ClaimDueJobs` and `RecoverExpiredRunningJobs` run their body once per
selected row, in the order of the selection.
-/

namespace JobScheduler

open KeyedTable Transaction

/-! ### Creating jobs -/

/-- The row `Create` inserts: the columns its `INSERT` leaves out take their defaults. -/
def createRow (now : Time) (j : Job) : JobRow where
  toJob :=
    { j with
      lockedUntil := none, lockedBy := none, lastError := none, createdAt := now
      updatedAt := now, completedAt := none, failedAt := none, cancelledAt := none }
  sourceDeadLetterID := none

/-- The transaction of `Create`: the job and its `job.created` event. -/
def create (now : Time) (eventID : UUID) (j : Job) : RepoTx Job := do
  let inserted := createRow now j
  insertJob inserted
  insertJobEvent now eventID inserted.id inserted.tenantID .created "scheduler-api"
    [("status", .status inserted.status), ("run_at", .time inserted.runAt),
      ("priority", .number inserted.priority)]
  pure inserted.toJob

/-- `getByIdempotencyKey`, the lookup `Create` makes after a unique violation. -/
def getByIdempotencyKey (tenantID : UUID) (idempotencyKey : String) : RepoTx Job := do
  let found ← Tx.read fun s =>
    s.jobs.rows.find? fun r => decide (r.tenantID = tenantID ∧ r.idempotencyKey = some idempotencyKey)
  let r ← Tx.orAbort found .noRows
  pure r.toJob

/-- `GetByID`. -/
def getByID (tenantID id : UUID) : RepoTx Job := do
  let found ← Tx.read fun s => s.jobs.rows.find? fun r => decide (r.tenantID = tenantID ∧ r.id = id)
  let r ← Tx.orAbort found .notFound
  pure r.toJob

/-- The row `RequeueDeadLetter` inserts for a dead letter. -/
def requeueRow (now clock : Time) (newID : UUID) (tenantID : UUID) (dl : DeadLetterJob)
    (runAt : Time) : JobRow where
  id := newID
  tenantID := tenantID
  name := dl.name
  jobType := dl.jobType
  payload := dl.payload
  status := initialStatus runAt clock
  priority := 5
  runAt := runAt
  lockedUntil := none
  lockedBy := none
  retryCount := 0
  maxRetries := 3
  retryBackoffSeconds := 30
  timeoutSeconds := 300
  lastError := none
  createdBy := none
  createdAt := now
  updatedAt := now
  completedAt := none
  failedAt := none
  cancelledAt := none
  idempotencyKey := none
  requestHash := none
  sourceDeadLetterID := some dl.id

/-- `SET requeued_at=now(),requeued_job_id=…`. -/
def requeuedLetter (now : Time) (newID : UUID) (d : DeadLetterJob) : DeadLetterJob :=
  { d with requeuedAt := some now, requeuedJobID := some newID }

@[simp] theorem requeuedLetter_id (now : Time) (newID : UUID) (d : DeadLetterJob) :
    (requeuedLetter now newID d).id = d.id := rfl

/-- `RequeueDeadLetter`: a fresh job, and the link to it on the dead letter. -/
def requeueDeadLetter (now clock : Time) (newID eventID tenantID deadLetterID : UUID)
    (runAt : Time) : RepoTx Job := do
  let found ← Tx.read fun s => s.deadLetters.rows.find? fun d =>
    decide (d.tenantID = tenantID ∧ d.id = deadLetterID ∧ d.requeuedAt = none)
  let dl ← Tx.orAbort found .notFound
  let inserted := requeueRow now clock newID tenantID dl runAt
  insertJob inserted
  let _ ← updateDeadLetters (fun d => d.id = deadLetterID) (requeuedLetter now inserted.id)
    (requeuedLetter_id now inserted.id)
  insertJobEvent now eventID inserted.id inserted.tenantID .requeued "scheduler-api"
    [("source_dead_letter_id", .uuid deadLetterID)]
  pure inserted.toJob

/-! ### Claiming -/

/-- `locked_until < now()`, which is not true of `NULL`. -/
def lockedBefore : Option Time → Time → Bool
  | none, _ => false
  | some t, now => decide (t < now)

/-- The `WHERE` clause of `ClaimDueJobs`. -/
def JobRow.ClaimableAt (now : Time) (r : JobRow) : Prop :=
  r.status ∈ [Status.pending, .scheduled, .retryScheduled] ∧ r.runAt ≤ now ∧
    (r.lockedUntil = none ∨ lockedBefore r.lockedUntil now = true)

instance (now : Time) : DecidablePred (JobRow.ClaimableAt now) :=
  fun _ => inferInstanceAs (Decidable (_ ∧ _ ∧ _))

/-- `ORDER BY priority DESC, run_at ASC, created_at ASC, id ASC`. -/
def claimsBefore (a b : JobRow) : Prop :=
  b.priority < a.priority ∨ (a.priority = b.priority ∧
    (a.runAt < b.runAt ∨ (a.runAt = b.runAt ∧
      (a.createdAt < b.createdAt ∨ (a.createdAt = b.createdAt ∧ a.id ≤ b.id)))))

instance : DecidableRel claimsBefore :=
  fun _ _ => inferInstanceAs (Decidable (_ ∨ _))

/-- The rows `ClaimDueJobs` selects. -/
def dueJobs (now : Time) (locked : UUID → Bool) (batchSize : Int) (s : Store) : List JobRow :=
  ((s.jobs.rows.filter fun r => decide (r.ClaimableAt now) && !locked r.id).insertionSort
    claimsBefore).take batchSize.toNat

/-- What a claiming transaction draws and is configured with. -/
structure ClaimArgs where
  now : Time
  clock : Time
  /-- The attempt id drawn for each job. -/
  attemptID : UUID → NewUUID
  /-- The event id drawn for each job. -/
  eventID : UUID → UUID
  workerID : String
  lockTTL : Duration

/-- `SET status='RUNNING', locked_by=…, locked_until=…, updated_at=…`. -/
def ClaimArgs.lease (x : ClaimArgs) (r : JobRow) : JobRow :=
  { r with
    status := .running, lockedBy := some x.workerID
    lockedUntil := some (x.now + wholeSeconds x.lockTTL * second), updatedAt := x.now }

@[simp] theorem ClaimArgs.lease_id (x : ClaimArgs) (r : JobRow) : (x.lease r).id = r.id := rfl

/-- The in-memory job the loop of `ClaimDueJobs` completes. -/
def ClaimArgs.claimed (x : ClaimArgs) (r : JobRow) : ClaimedJob where
  toJob :=
    { r.toJob with
      status := .running, lockedBy := some x.workerID, lockedUntil := some (x.clock + x.lockTTL) }
  activeAttemptID := (x.attemptID r.id).val
  attemptNumber := r.retryCount + 1

/-- The attempt the loop of `ClaimDueJobs` inserts. -/
def ClaimArgs.attempt (x : ClaimArgs) (r : JobRow) : Attempt where
  id := (x.attemptID r.id).val
  jobID := r.id
  tenantID := r.tenantID
  workerID := x.workerID
  attemptNumber := r.retryCount + 1
  status := .running
  startedAt := x.now
  completedAt := none
  failedAt := none
  errorMessage := none
  executionDurationMS := none
  createdAt := x.now
  result := none
  errorCode := none
  retryable := none

/-- The loop body of `ClaimDueJobs`. -/
def claimJob (x : ClaimArgs) (r : JobRow) : RepoTx ClaimedJob := do
  let _ ← updateJobs (fun r' => r'.id = r.id) x.lease x.lease_id
  let j := x.claimed r
  insertAttempt (x.attempt r)
  insertJobEvent x.now (x.eventID r.id) j.id j.tenantID .started "worker"
    [("worker_id", .text x.workerID), ("attempt_number", .number j.attemptNumber)]
  pure j

/-- `ClaimDueJobs`. -/
def claimDueJobs (x : ClaimArgs) (locked : UUID → Bool) (batchSize : Int) :
    RepoTx (List ClaimedJob) := do
  let items ← Tx.read (dueJobs x.now locked batchSize)
  Tx.forEach (claimJob x) items

/-- `SET locked_until=…, updated_at=…`. -/
def extendedRow (now : Time) (ttl : Duration) (r : JobRow) : JobRow :=
  { r with lockedUntil := some (now + wholeSeconds ttl * second), updatedAt := now }

@[simp] theorem extendedRow_id (now : Time) (ttl : Duration) (r : JobRow) :
    (extendedRow now ttl r).id = r.id := rfl

/-- `ExtendLease`: whether the lease was still there to be renewed. -/
def extendLease (now : Time) (jobID : UUID) (workerID : String) (ttl : Duration) : RepoTx Bool := do
  let n ← updateJobs (fun r => r.id = jobID ∧ (r.lockedBy = some workerID ∧ r.status = .running))
    (extendedRow now ttl) (extendedRow_id now ttl)
  pure (decide (n = 1))

/-- `CreateAttempt`: the attempt of a claim that came without one. -/
def createAttempt (now : Time) (attemptID jobID : UUID) (workerID : String) (attemptNumber : Int) :
    RepoTx UUID := do
  let found ← Tx.read fun s => s.jobs.find? jobID
  let r ← Tx.orAbort found .noRows
  insertAttempt
    { id := attemptID, jobID := jobID, tenantID := r.tenantID, workerID := workerID
      attemptNumber := attemptNumber, status := .running, startedAt := now, completedAt := none
      failedAt := none, errorMessage := none, executionDurationMS := none, createdAt := now
      result := none, errorCode := none, retryable := none }
  pure attemptID

/-! ### Finalizing -/

/-- `SET status='SUCCEEDED', …` on the job. -/
def succeededRow (now : Time) (r : JobRow) : JobRow :=
  { r with
    status := .succeeded, completedAt := some now, lockedBy := none, lockedUntil := none
    updatedAt := now }

@[simp] theorem succeededRow_id (now : Time) (r : JobRow) : (succeededRow now r).id = r.id := rfl

/-- `SET status='SUCCEEDED', …` on the attempt. -/
def succeededAttempt (now : Time) (durationMS : Int) (result : RawMessage) (a : Attempt) :
    Attempt :=
  { a with
    status := .succeeded, completedAt := some now, executionDurationMS := some durationMS
    result := nullableJSON result }

@[simp] theorem succeededAttempt_id (now : Time) (durationMS : Int) (result : RawMessage)
    (a : Attempt) :
    (succeededAttempt now durationMS result a).id = a.id := rfl

/-- `CompleteExecution`. -/
def completeExecution (now : Time) (eventID : UUID) (j : ClaimedJob) (workerID : String)
    (durationMS : Int) (result : RawMessage) : RepoTx Unit := do
  let n ← updateJobs
    (fun r => r.id = j.id ∧
      (r.tenantID = j.tenantID ∧ r.lockedBy = some workerID ∧ r.status = .running))
    (succeededRow now) (succeededRow_id now)
  Tx.require (n ≠ 0) .conflict
  let m ← updateAttempts (fun a => a.id = j.activeAttemptID ∧ a.status = .running)
    (succeededAttempt now durationMS result) (succeededAttempt_id now durationMS result)
  Tx.require (m ≠ 0) .conflict
  insertJobEvent now eventID j.id j.tenantID .completed "worker"
    [("worker_id", .text workerID), ("execution_duration_ms", .number durationMS)]

/-- The dead-letter row written next to a job that exhausts its retries. -/
def deadLetterRow (now : Time) (deadLetterID : UUID) (j : Job) (finalError : String)
    (retryCount : Int) : DeadLetterJob where
  id := deadLetterID
  originalJobID := j.id
  tenantID := j.tenantID
  name := j.name
  jobType := j.jobType
  payload := j.payload
  finalError := finalError
  retryCount := retryCount
  failedAt := now
  createdAt := now
  requeuedAt := none
  requeuedJobID := none

/-- `SET status='DEAD_LETTERED', …`, of `FailExecution` and of the recovery. -/
def buryRow (now : Time) (retryCount : Int) (message : String) (r : JobRow) : JobRow :=
  { r with
    status := .deadLettered, retryCount := retryCount, lastError := some message
    failedAt := some now, lockedBy := none, lockedUntil := none, updatedAt := now }

@[simp] theorem buryRow_id (now : Time) (retryCount : Int) (message : String) (r : JobRow) :
    (buryRow now retryCount message r).id = r.id := rfl

/-- `SET status='RETRY_SCHEDULED', …`, of `FailExecution` and of the recovery. -/
def retryRow (now : Time) (retryCount : Int) (runAt : Time) (message : String) (r : JobRow) :
    JobRow :=
  { r with
    status := .retryScheduled, retryCount := retryCount, runAt := runAt
    lastError := some message, failedAt := some now, lockedBy := none, lockedUntil := none
    updatedAt := now }

@[simp] theorem retryRow_id (now : Time) (retryCount : Int) (runAt : Time) (message : String)
    (r : JobRow) :
    (retryRow now retryCount runAt message r).id = r.id := rfl

/-- `SET status='FAILED', …` on the attempt of a failed execution. -/
def failedAttempt (now : Time) (durationMS : Int) (outcome : ExecutionResult) (a : Attempt) :
    Attempt :=
  { a with
    status := .failed, failedAt := some now, errorMessage := some outcome.message
    errorCode := some outcome.errorCode, retryable := some outcome.retryable
    executionDurationMS := some durationMS, result := nullableJSON outcome.metadata }

@[simp] theorem failedAttempt_id (now : Time) (durationMS : Int) (outcome : ExecutionResult)
    (a : Attempt) :
    (failedAttempt now durationMS outcome a).id = a.id := rfl

/-- The ids `FailExecution` draws. -/
structure FailureIDs where
  failedEvent : UUID
  deadLetter : UUID
  outcomeEvent : UUID

/-- `FailExecution`. -/
def failExecution (now : Time) (ids : FailureIDs) (j : ClaimedJob) (workerID : String)
    (durationMS : Int) (outcome : ExecutionResult) (nextStatus : Status) (nextRetryCount : Int)
    (nextRunAt : Time) : RepoTx Unit := do
  let n ← updateAttempts (fun a => a.id = j.activeAttemptID ∧ a.status = .running)
    (failedAttempt now durationMS outcome) (failedAttempt_id now durationMS outcome)
  Tx.require (n ≠ 0) .conflict
  insertJobEvent now ids.failedEvent j.id j.tenantID (.named .failed) "worker"
    [("worker_id", .text workerID), ("attempt_number", .number j.attemptNumber),
      ("error", .text outcome.message), ("error_code", .text outcome.errorCode),
      ("retryable", .bool outcome.retryable)]
  if nextStatus = .deadLettered then
    let m ← updateJobs
      (fun r => r.id = j.id ∧ (r.lockedBy = some workerID ∧ r.status = .running))
      (buryRow now nextRetryCount outcome.message) (buryRow_id now nextRetryCount outcome.message)
    Tx.require (m ≠ 0) .conflict
    insertDeadLetter (deadLetterRow now ids.deadLetter j.toJob outcome.message nextRetryCount)
    insertJobEvent now ids.outcomeEvent j.id j.tenantID (.named .deadLettered) "worker"
      [("retry_count", .number nextRetryCount), ("final_error", .text outcome.message)]
  else
    let m ← updateJobs
      (fun r => r.id = j.id ∧ (r.lockedBy = some workerID ∧ r.status = .running))
      (retryRow now nextRetryCount nextRunAt outcome.message)
      (retryRow_id now nextRetryCount nextRunAt outcome.message)
    Tx.require (m ≠ 0) .conflict
    insertJobEvent now ids.outcomeEvent j.id j.tenantID (.named .retryScheduled) "worker"
      [("retry_count", .number nextRetryCount), ("next_run_at", .time nextRunAt)]

/-- `SET status=…, locked_by=NULL, locked_until=NULL, updated_at=now()`. -/
def releasedRow (now : Time) (status : Status) (r : JobRow) : JobRow :=
  { r with status := status, lockedBy := none, lockedUntil := none, updatedAt := now }

@[simp] theorem releasedRow_id (now : Time) (status : Status) (r : JobRow) :
    (releasedRow now status r).id = r.id := rfl

/-- `ReleaseClaim`: the job goes back to a claimable status; its attempt is not touched. -/
def releaseClaim (now : Time) (jobID : UUID) (workerID : String) (status : Status) :
    RepoTx Unit := do
  let n ← updateJobs (fun r => r.id = jobID ∧ (r.lockedBy = some workerID ∧ r.status = .running))
    (releasedRow now status) (releasedRow_id now status)
  Tx.require (n ≠ 0) .conflict

/-! ### Operators and recovery -/

/-- `SET status='CANCELLED', …` on an attempt. -/
def cancelledAttempt (now : Time) (a : Attempt) : Attempt :=
  { a with
    status := .cancelled, failedAt := some now, errorMessage := some "cancelled by operator"
    errorCode := some "CANCELLED", retryable := some false }

@[simp] theorem cancelledAttempt_id (now : Time) (a : Attempt) : (cancelledAttempt now a).id = a.id := rfl

/-- The update of the running attempts of a cancelled job. -/
def cancelAttempts (now : Time) (jobID : UUID) : RepoTx ℕ :=
  updateAttempts (fun a => a.jobID = jobID ∧ a.status = .running) (cancelledAttempt now)
    (cancelledAttempt_id now)

/-- `SET status=…, updated_at=…, cancelled_at=CASE …, locked_by=NULL, locked_until=NULL`. -/
def operatorRow (now : Time) (target : Status) (r : JobRow) : JobRow :=
  { r with
    status := target, updatedAt := now
    cancelledAt := if target = .cancelled then some now else r.cancelledAt
    lockedBy := none, lockedUntil := none }

@[simp] theorem operatorRow_id (now : Time) (target : Status) (r : JobRow) :
    (operatorRow now target r).id = r.id := rfl

/-- `TransitionJob`. -/
def transitionJob (now : Time) (eventID tenantID id : UUID) (allowedFrom : List Status)
    (target : Status) : RepoTx Unit := do
  let n ← updateJobs (fun r => r.id = id ∧ (r.tenantID = tenantID ∧ r.status ∈ allowedFrom))
    (operatorRow now target) (operatorRow_id now target)
  Tx.require (n ≠ 0) (.invalidTransition "")
  let _ ← if target = .cancelled then cancelAttempts now id else pure 0
  insertJobEvent now eventID id tenantID (.named target) "scheduler-api"
    [("status", .status target)]

/-- The `WHERE` clause of `RecoverExpiredRunningJobs`. -/
def JobRow.ExpiredAt (now : Time) (r : JobRow) : Prop :=
  r.status = .running ∧ lockedBefore r.lockedUntil now = true

instance (now : Time) : DecidablePred (JobRow.ExpiredAt now) :=
  fun _ => inferInstanceAs (Decidable (_ ∧ _))

/-- What a recovering transaction draws. -/
structure RecoverArgs where
  now : Time
  clock : Time
  reason : String
  /-- The dead-letter id drawn for each job. -/
  deadLetterID : UUID → UUID
  /-- The event id drawn for each job. -/
  eventID : UUID → UUID

/-- `SET status='FAILED', …` on an attempt whose lease expired. -/
def RecoverArgs.expired (x : RecoverArgs) (a : Attempt) : Attempt :=
  { a with
    status := .failed, failedAt := some x.now, errorMessage := some x.reason
    errorCode := some "LEASE_EXPIRED", retryable := some true }

@[simp] theorem RecoverArgs.expired_id (x : RecoverArgs) (a : Attempt) : (x.expired a).id = a.id := rfl

/-- The update of the running attempts of a recovered job. -/
def expireAttempts (x : RecoverArgs) (jobID : UUID) : RepoTx ℕ :=
  updateAttempts (fun a => a.jobID = jobID ∧ a.status = .running) x.expired x.expired_id

/-- The decision the recovery takes for a job. -/
def RecoverArgs.decision (x : RecoverArgs) (j : JobRow) : FailureDecision :=
  decideFailure x.clock j.retryCount j.maxRetries j.retryBackoffSeconds

/-- The loop body of `RecoverExpiredRunningJobs`. -/
def recoverJob (x : RecoverArgs) (j : JobRow) : RepoTx UUID := do
  let _ ← expireAttempts x j.id
  let decision := x.decision j
  if decision.status = .deadLettered then
    let _ ← updateJobs (fun r => r.id = j.id ∧ r.status = .running)
      (buryRow x.now decision.nextRetryCount x.reason)
      (buryRow_id x.now decision.nextRetryCount x.reason)
    insertDeadLetter
      (deadLetterRow x.now (x.deadLetterID j.id) j.toJob x.reason decision.nextRetryCount)
    insertJobEvent x.now (x.eventID j.id) j.id j.tenantID (.named .deadLettered) "recovery"
      [("reason", .text x.reason), ("retry_count", .number decision.nextRetryCount)]
  else
    let _ ← updateJobs (fun r => r.id = j.id ∧ r.status = .running)
      (retryRow x.now decision.nextRetryCount decision.nextRunAt x.reason)
      (retryRow_id x.now decision.nextRetryCount decision.nextRunAt x.reason)
    insertJobEvent x.now (x.eventID j.id) j.id j.tenantID (.named .retryScheduled) "recovery"
      [("reason", .text x.reason), ("retry_count", .number decision.nextRetryCount),
        ("next_run_at", .time decision.nextRunAt)]
  pure j.id

/-- `RecoverExpiredRunningJobs`: the ids of the jobs it recovered; the code returns their number. -/
def recoverExpiredRunningJobs (x : RecoverArgs) (locked : UUID → Bool) : RepoTx (List UUID) := do
  let items ← Tx.read fun s =>
    s.jobs.rows.filter fun r => decide (r.ExpiredAt x.now) && !locked r.id
  Tx.forEach (recoverJob x) items

end JobScheduler
