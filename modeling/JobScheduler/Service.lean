import JobScheduler.Repository

/-!
# The job service: create calls and operator calls

`Service.Create` and `Service.transition` of `internal/job/service.go`, cut where they touch the
database.  A create call runs the insert transaction and, when the unique index rejects its row,
looks the winner up in a second transaction (`CreateCall.replay`).  An operator call reads the job
(`Operation.check`) and then writes it in a second, guarded transaction.
-/

namespace JobScheduler

open Transaction

/-! ### Creating -/

/-- The parts of the authenticated principal the job service uses. -/
structure Principal where
  tenantID : UUID
  clientName : String

/-- `CreateResponse`. -/
structure CreateResponse where
  jobID : UUID
  status : Status
  replayed : Bool
  deriving DecidableEq

/-- A `Create` call that has passed validation: its tenant, the id drawn for it, its trimmed key and
the hash of its request. -/
structure CreateCall where
  tenantID : UUID
  jobID : UUID
  idempotencyKey : Option String
  requestHash : String
  deriving DecidableEq

/-- The request after `withDefaults` and the trimming of its key. -/
def ServiceConfig.normalize (cfg : ServiceConfig) (req : CreateRequest) : CreateRequest :=
  let req := cfg.withDefaults req
  { req with idempotencyKey := trimSpace req.idempotencyKey }

/-- The job `Service.Create` builds from a normalized request. -/
def ServiceConfig.newJob (cfg : ServiceConfig) (principal : Principal) (req : CreateRequest)
    (jobID : NewUUID) (clock : Time) : Job where
  id := jobID.val
  tenantID := principal.tenantID
  name := req.name
  jobType := req.jobType
  payload := req.payload
  status := initialStatus req.runAt clock
  priority := req.priority
  runAt := req.runAt
  lockedUntil := none
  lockedBy := none
  retryCount := 0
  maxRetries := req.maxRetries
  retryBackoffSeconds := req.retryBackoffSeconds
  timeoutSeconds := req.timeoutSeconds
  lastError := none
  createdBy := some principal.clientName
  createdAt := Time.zero
  updatedAt := Time.zero
  completedAt := none
  failedAt := none
  cancelledAt := none
  idempotencyKey := if req.idempotencyKey = "" then none else some req.idempotencyKey
  requestHash := some (cfg.requestHash req)

/-- `Service.Create` up to its repository call. -/
def ServiceConfig.prepare (cfg : ServiceConfig) (principal : Principal) (req : CreateRequest)
    (jobID : NewUUID) (clock : Time) : Except AppError (CreateCall × Job) :=
  let req := cfg.normalize req
  if req.idempotencyKey.utf8ByteSize > 255 then
    .error (.invalidInput "Idempotency-Key exceeds 255 characters")
  else
    match cfg.validateCreate req with
    | .error message => .error (.invalidInput message)
    | .ok () =>
      let j := cfg.newJob principal req jobID clock
      .ok (⟨j.tenantID, j.id, j.idempotencyKey, cfg.requestHash req⟩, j)

theorem ServiceConfig.prepare_eq_ok {cfg : ServiceConfig} {principal : Principal}
    {req : CreateRequest} {jobID : NewUUID} {clock : Time} {call : CreateCall} {j : Job}
    (h : cfg.prepare principal req jobID clock = .ok (call, j)) :
    cfg.validateCreate (cfg.normalize req) = .ok () ∧
      j = cfg.newJob principal (cfg.normalize req) jobID clock ∧
      call = ⟨j.tenantID, j.id, j.idempotencyKey, cfg.requestHash (cfg.normalize req)⟩ := by
  simp only [prepare] at h
  split at h
  · exact absurd h (by simp)
  · cases hv : cfg.validateCreate (cfg.normalize req) with
    | error message =>
      rw [hv] at h
      exact absurd h (by simp)
    | ok u =>
      rw [hv] at h
      obtain ⟨rfl, rfl⟩ := Prod.mk.inj (Except.ok.inj h)
      exact ⟨rfl, rfl, rfl⟩

/-- The `INSERT` of `Create` itself was rejected with `23505`. -/
def AppError.rejectsInsert (e : AppError) : Bool :=
  decide (e = uniqueViolation "uq_jobs_tenant_idempotency") || decide (e = uniqueViolation "jobs_pkey")

/-- What a rejected create call makes of the row it finds under its key. -/
def CreateCall.replay (call : CreateCall) (existing : Job) : Except AppError Job :=
  if existing.requestHash ≠ some call.requestHash then .error .idempotency else .ok existing

/-- The response for a job the repository returned. -/
def CreateCall.respond (call : CreateCall) (inserted : Job) : CreateResponse :=
  ⟨inserted.id, inserted.status, decide (inserted.id ≠ call.jobID)⟩

/-! ### Operator calls -/

/-- The operator operations of the service. -/
inductive Operation where
  | cancel
  | pause
  | resume
  | retry
  deriving DecidableEq

/-- The status an operation moves a job to. -/
def Operation.target : Operation → Status
  | .cancel => .cancelled
  | .pause => .paused
  | .resume => .scheduled
  | .retry => .retryScheduled

/-- The statuses an operation accepts. -/
def Operation.allowedFrom : Operation → List Status
  | .cancel => [.pending, .scheduled, .retryScheduled, .running]
  | .pause => [.pending, .scheduled]
  | .resume => [.paused]
  | .retry => [.failed]

/-- The check `transition` makes on the job it read. -/
def Operation.check (op : Operation) (current : Job) : Except AppError Unit :=
  if current.status ∈ op.allowedFrom ∧ canTransition current.status op.target = true then .ok ()
  else .error (.invalidTransition
    ("cannot transition " ++ current.status.text ++ " to " ++ op.target.text))

/-- The write `transition` makes after its check passed. -/
def Operation.write (op : Operation) (now : Time) (eventID tenantID id : UUID) : RepoTx Unit :=
  transitionJob now eventID tenantID id op.allowedFrom op.target

/-- An operator call between its read and its write. -/
structure OperatorCall where
  op : Operation
  tenantID : UUID
  id : UUID

end JobScheduler
