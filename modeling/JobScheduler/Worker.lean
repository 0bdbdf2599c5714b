import JobScheduler.Repository

/-!
# The worker process

`internal/worker/service.go` as a state machine.  The claim loop of `Run` polls, recovers, claims and
hands the batch to the slots over an unbuffered channel; a slot runs `ProcessJob` on one claimed job
at a time, with `renewLease` beside the executor.  The phases are the points of `ProcessJob` at
which something outside the process happens next.
-/

namespace JobScheduler

open Transaction

/-! ### Outcomes of the executor -/

/-- The error `Execute` returns, as far as `ClassifyError` and `ProcessJob` look into it. -/
inductive ExecError where
  /-- An `*ExecutionError`. -/
  | execution (code message : String) (retryable : Bool) (retryAfter : Duration)
      (metadata : RawMessage)
  /-- An error that is `context.DeadlineExceeded`. -/
  | deadlineExceeded (message : String)
  /-- An error that is `context.Canceled`. -/
  | canceled (message : String)
  | other (message : String)

/-- `ClassifyError`. -/
def classifyError : ExecError → ExecutionResult
  | .execution code message retryable _ metadata => ⟨metadata, code, retryable, message⟩
  | .deadlineExceeded message => ⟨"", "TIMEOUT", true, message⟩
  | .canceled message => ⟨"", "CANCELLED", true, message⟩
  | .other message => ⟨"", "HANDLER_ERROR", true, message⟩

/-- `retryAfter`. -/
def retryAfter : ExecError → Duration
  | .execution _ _ _ delay _ => delay
  | _ => 0

/-- The `FailExecution` arguments `ProcessJob` computes from the claim and the error. -/
structure Failure where
  outcome : ExecutionResult
  nextStatus : Status
  nextRetryCount : Int
  nextRunAt : Time

/-- The failure branch of `ProcessJob`; `clock` is read for the decision and again for a
`Retry-After`. -/
def decideOutcome (clock clock' : Time) (j : ClaimedJob) (err : ExecError) : Failure :=
  let outcome := classifyError err
  let decision := decideFailure clock j.retryCount j.maxRetries j.retryBackoffSeconds
  { outcome := outcome
    nextStatus :=
      if decision.status = .deadLettered ∨ outcome.retryable = false then .deadLettered
      else .retryScheduled
    nextRetryCount := decision.nextRetryCount
    nextRunAt := if retryAfter err > 0 then clock' + retryAfter err else decision.nextRunAt }

/-! ### The state of a worker -/

/-- The secondary lease: none, or Redis. -/
inductive LockManager where
  | noop
  | redis
  deriving DecidableEq

/-- The settings of `NewService` that its loops depend on. -/
structure WorkerConfig where
  concurrency : Int
  batchSize : Int
  lockTTL : Duration
  lockManager : LockManager

/-- The number of slots: `NewService` raises a concurrency below one. -/
def WorkerConfig.slots (cfg : WorkerConfig) : ℕ :=
  if cfg.concurrency < 1 then 1 else cfg.concurrency.toNat

/-- The claim batch: `NewService` raises a batch size below one. -/
def WorkerConfig.batch (cfg : WorkerConfig) : Int := if cfg.batchSize < 1 then 1 else cfg.batchSize

/-- The lease `ProcessJob` asks for. -/
def WorkerConfig.leaseTTL (cfg : WorkerConfig) (j : ClaimedJob) : Duration :=
  if cfg.lockTTL ≤ 0 then (j.timeoutSeconds + 60) * second else cfg.lockTTL

/-- Where `renewLease` is: between ticks, between its two renewals, or returned. -/
inductive Renewal where
  | waiting
  | extending
  | stopped
  deriving DecidableEq

/-- Where a slot is in `consume` and `ProcessJob`. -/
inductive Phase where
  /-- Waiting on the channel. -/
  | idle
  /-- Took a job; about to acquire the lock. -/
  | received (j : ClaimedJob)
  /-- The lock is held elsewhere; about to release the claim. -/
  | missed (j : ClaimedJob)
  /-- Holds the lock; about to execute. -/
  | locked (j : ClaimedJob)
  /-- Inside `Execute`, or between its return and the end of `renewLease`. -/
  | executing (j : ClaimedJob) (renewal : Renewal) (returned : Option (Except ExecError RawMessage))
  /-- Finalized; about to run the deferred lock release. -/
  | finished (j : ClaimedJob)
  /-- `consume` has returned. -/
  | exited

/-- The claim a phase may still act on in the database. -/
def Phase.claim? : Phase → Option ClaimedJob
  | .received j => some j
  | .missed j => some j
  | .locked j => some j
  | .executing j _ _ => some j
  | .idle => none
  | .finished _ => none
  | .exited => none

/-- The claim a slot is about to execute. -/
def Phase.locked? : Phase → Option ClaimedJob
  | .locked j => some j
  | _ => none

/-- The claim a slot executes. -/
def Phase.executing? : Phase → Option ClaimedJob
  | .executing j _ _ => some j
  | _ => none

theorem Phase.executing?_eq_some {p : Phase} {j : ClaimedJob} (h : p.executing? = some j) :
    ∃ renewal returned, p = .executing j renewal returned := by
  cases p with
  | executing j' renewal returned =>
    obtain rfl := Option.some.inj h
    exact ⟨renewal, returned, rfl⟩
  | _ => cases h

/-- Where the claim loop of `Run` is; it polls once its batch is dispatched. -/
inductive Loop where
  | dispatching (rest : List ClaimedJob)
  /-- Between the recovery and the claim of one poll. -/
  | recovered
  | stopped

/-- The claims the loop has not dispatched yet. -/
def Loop.batch : Loop → List ClaimedJob
  | .dispatching rest => rest
  | .recovered => []
  | .stopped => []

/-- A call of the loop may be under way: the recovery of a poll, or its claim. -/
def Loop.calling : Loop → Bool
  | .dispatching [] => true
  | .dispatching (_ :: _) => false
  | .recovered => true
  | .stopped => false

/-- The memory of a worker process. -/
structure Worker where
  loop : Loop
  slots : ℕ → Phase
  ctxDone : Bool
  /-- The call of the loop that was under way when the context was cancelled has not returned. -/
  inFlight : Bool

/-- A worker that has just started. -/
def Worker.initial : Worker := ⟨.dispatching [], fun _ => .idle, false, false⟩

/-- What the connection can do to a call of the loop.  The driver refuses a cancelled context, so a call
made after the cancellation fails; the one that was under way may get through. -/
def Worker.Permits (wk : Worker) (link : Link) : Prop :=
  wk.ctxDone = false ∨ wk.inFlight = true ∨ link = .down

instance (wk : Worker) (link : Link) : Decidable (wk.Permits link) :=
  inferInstanceAs (Decidable (_ ∨ _ ∨ _))

end JobScheduler
