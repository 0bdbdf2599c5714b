import JobScheduler.Library.KeyedTable
import Mathlib.Data.BitVec

/-!
# The rows of the scheduler's database

The records of `internal/job/model.go` and the tables of `migrations/`, column by column.  A `Job` is
what `scanJob` reads out of a row of `jobs`; the row itself (`JobRow`) also has the column
`source_dead_letter_id`, which no Go struct carries, and a claimed job (`ClaimedJob`) the two
worker-only fields `ActiveAttemptID` and `AttemptNumber`.

Times and durations are integers of nanoseconds, as Go keeps them; a JSON document is the text it is
stored and read back as.
-/

namespace JobScheduler

/-! ### Scalars -/

/-- `uuid.UUID`: sixteen bytes. -/
abbrev UUID := BitVec 128

instance : @LawfulBEq UUID instBEqOfDecidableEq := inferInstance

/-- `uuid.Nil`. -/
def UUID.nil : UUID := 0#128

/-- What `uuid.New` returns: a version-4 id, hence never `uuid.Nil`. -/
abbrev NewUUID := { u : UUID // u ≠ UUID.nil }

/-- `DefaultTenantID`, also the default of the columns `tenant_id`. -/
def defaultTenantID : UUID := 1

/-- `time.Time`, in nanoseconds since the Unix epoch. -/
abbrev Time := Int

/-- `time.Duration`, in nanoseconds. -/
abbrev Duration := Int

/-- `time.Second`. -/
def second : Duration := 1000000000

/-- `time.Time{}`: midnight UTC on January 1 of year 1. -/
def Time.zero : Time := -62135596800 * second

/-- `int(d.Seconds())`: whole seconds, truncated towards zero. -/
def wholeSeconds (d : Duration) : Int := d.tdiv second

/-- `json.RawMessage`. -/
abbrev RawMessage := String

/-- `nullableJSON`: an empty message is stored as `NULL`. -/
def nullableJSON (value : RawMessage) : Option RawMessage :=
  if value = "" then none else some value

/-! ### Enumerations -/

/-- The persisted job states; the scheduler package's constants mirror them. -/
inductive Status where
  | pending
  | scheduled
  | running
  | succeeded
  | failed
  | retryScheduled
  | deadLettered
  | cancelled
  | paused
  deriving DecidableEq

/-- The text a status is stored as. -/
def Status.text : Status → String
  | .pending => "PENDING"
  | .scheduled => "SCHEDULED"
  | .running => "RUNNING"
  | .succeeded => "SUCCEEDED"
  | .failed => "FAILED"
  | .retryScheduled => "RETRY_SCHEDULED"
  | .deadLettered => "DEAD_LETTERED"
  | .cancelled => "CANCELLED"
  | .paused => "PAUSED"

/-- The values the statements write into `job_attempts.status`. -/
inductive AttemptStatus where
  | running
  | succeeded
  | failed
  | cancelled
  deriving DecidableEq

/-- The values the statements write into `job_events.event_type`.  `named status` is the text
`"job." + strings.ToLower(status)`; the literals `job.failed`, `job.retry_scheduled` and
`job.dead_lettered` have that form too. -/
inductive EventType where
  | created
  | requeued
  | started
  | completed
  | named (status : Status)
  deriving DecidableEq

/-- The sentinel errors of `internal/errors` with the text they are wrapped with, `pgx.ErrNoRows`, a
PostgreSQL error with its code and the constraint it names, and any other error, of the connection or
of an encoder. -/
inductive AppError where
  | notFound
  | invalidInput (detail : String)
  | invalidTransition (detail : String)
  | conflict
  | idempotency
  | noRows
  | postgres (code constraint : String)
  | connection
  deriving DecidableEq

/-! ### Rows -/

/-- The columns of `jobs` that `scanJob` reads. -/
structure Job where
  id : UUID
  tenantID : UUID
  name : String
  jobType : String
  payload : RawMessage
  status : Status
  priority : Int
  runAt : Time
  lockedUntil : Option Time
  lockedBy : Option String
  retryCount : Int
  maxRetries : Int
  retryBackoffSeconds : Int
  timeoutSeconds : Int
  lastError : Option String
  createdBy : Option String
  createdAt : Time
  updatedAt : Time
  completedAt : Option Time
  failedAt : Option Time
  cancelledAt : Option Time
  idempotencyKey : Option String
  requestHash : Option String

/-- A row of `jobs`. -/
structure JobRow extends Job where
  sourceDeadLetterID : Option UUID

/-- A job as `ClaimDueJobs` hands it to the worker. -/
structure ClaimedJob extends Job where
  activeAttemptID : UUID
  attemptNumber : Int

/-- A row of `job_attempts`. -/
structure Attempt where
  id : UUID
  jobID : UUID
  tenantID : UUID
  workerID : String
  attemptNumber : Int
  status : AttemptStatus
  startedAt : Time
  completedAt : Option Time
  failedAt : Option Time
  errorMessage : Option String
  executionDurationMS : Option Int
  createdAt : Time
  result : Option RawMessage
  errorCode : Option String
  retryable : Option Bool

/-- A row of `dead_letter_jobs`. -/
structure DeadLetterJob where
  id : UUID
  originalJobID : UUID
  name : String
  jobType : String
  payload : RawMessage
  finalError : String
  retryCount : Int
  failedAt : Time
  createdAt : Time
  tenantID : UUID
  requeuedAt : Option Time
  requeuedJobID : Option UUID

/-- A value in the JSON object an event carries. -/
inductive FieldValue where
  | text (s : String)
  | number (n : Int)
  | bool (b : Bool)
  | time (t : Time)
  | uuid (u : UUID)
  | status (s : Status)

/-- A row of `job_events`, with its outbox columns. -/
structure Event where
  id : UUID
  jobID : UUID
  tenantID : UUID
  eventType : EventType
  source : String
  payload : List (String × FieldValue)
  schemaVersion : Int
  createdAt : Time
  correlationID : Option String
  causationID : Option UUID
  publishedAt : Option Time
  publishAttempts : Int
  nextPublishAt : Time
  lastPublishError : Option String
  claimedBy : Option String
  claimedUntil : Option Time

/-- `ExecutionResult`: the normalized outcome stored with a failed attempt. -/
structure ExecutionResult where
  metadata : RawMessage
  errorCode : String
  retryable : Bool
  message : String

deriving instance DecidableEq for Job, JobRow, Attempt, DeadLetterJob, FieldValue, Event

open KeyedTable

instance : Keyed JobRow UUID := ⟨fun r => r.id⟩
instance : Keyed Attempt UUID := ⟨fun a => a.id⟩
instance : Keyed DeadLetterJob UUID := ⟨fun d => d.id⟩
instance : Keyed Event UUID := ⟨fun e => e.id⟩

@[simp] theorem key_jobRow (r : JobRow) : key r = r.id := rfl
@[simp] theorem key_attempt (a : Attempt) : key a = a.id := rfl
@[simp] theorem key_deadLetterJob (d : DeadLetterJob) : key d = d.id := rfl
@[simp] theorem key_event (e : Event) : key e = e.id := rfl

/-- The four tables the job repository writes. -/
structure Store where
  jobs : Table JobRow
  attempts : Table Attempt
  deadLetters : Table DeadLetterJob
  events : Table Event

/-- The database after the migrations. -/
def Store.empty : Store := ⟨Table.empty, Table.empty, Table.empty, Table.empty⟩

end JobScheduler
