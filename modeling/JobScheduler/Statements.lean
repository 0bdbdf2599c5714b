import JobScheduler.DataModel
import JobScheduler.Library.Transaction

/-!
# The SQL statements the repository is made of

Each statement kind of `internal/job/repository.go` is one transaction on the `Store`: the inserts,
which fail with PostgreSQL's `23505` when a primary key or the index `uq_jobs_tenant_idempotency`
is violated, and `UPDATE … WHERE`, which reports how many rows it touched.  The lemmas say what a
statement did when it succeeded; the repository's operations are taken apart with them.

A foreign key is not checked here: every statement inserts ids that were read from the rows they
refer to.
-/

namespace JobScheduler

open KeyedTable Transaction

/-- A transaction of the repository. -/
abbrev RepoTx (α : Type) := Tx Store AppError α

/-- PostgreSQL's `unique_violation`, naming the violated index. -/
def uniqueViolation (constraint : String) : AppError := .postgres "23505" constraint

/-- The partial unique index `uq_jobs_tenant_idempotency` already holds the row's tenant and key. -/
def Store.KeyTaken (s : Store) (r : JobRow) : Prop :=
  ∃ r' ∈ s.jobs.rows, r.idempotencyKey ≠ none ∧ r'.tenantID = r.tenantID ∧
    r'.idempotencyKey = r.idempotencyKey

instance (s : Store) (r : JobRow) : Decidable (s.KeyTaken r) :=
  inferInstanceAs (Decidable (∃ r' ∈ s.jobs.rows, _))

/-- `INSERT INTO jobs`. -/
def insertJob (r : JobRow) : RepoTx Unit := fun s =>
  if s.KeyTaken r then .error (uniqueViolation "uq_jobs_tenant_idempotency")
  else
    match s.jobs.insert r with
    | some jobs => .ok ((), { s with jobs := jobs })
    | none => .error (uniqueViolation "jobs_pkey")

/-- `INSERT INTO job_attempts`. -/
def insertAttempt (a : Attempt) : RepoTx Unit := fun s =>
  match s.attempts.insert a with
  | some attempts => .ok ((), { s with attempts := attempts })
  | none => .error (uniqueViolation "job_attempts_pkey")

/-- `INSERT INTO dead_letter_jobs`. -/
def insertDeadLetter (d : DeadLetterJob) : RepoTx Unit := fun s =>
  match s.deadLetters.insert d with
  | some deadLetters => .ok ((), { s with deadLetters := deadLetters })
  | none => .error (uniqueViolation "dead_letter_jobs_pkey")

/-- `INSERT INTO job_events`. -/
def insertEvent (e : Event) : RepoTx Unit := fun s =>
  match s.events.insert e with
  | some events => .ok ((), { s with events := events })
  | none => .error (uniqueViolation "job_events_pkey")

/-- The row `insertJobEvent` inserts: the columns it leaves out take their defaults. -/
def jobEvent (now : Time) (eventID jobID tenantID : UUID) (eventType : EventType) (source : String)
    (payload : List (String × FieldValue)) : Event where
  id := eventID
  jobID := jobID
  tenantID := tenantID
  eventType := eventType
  source := source
  payload := payload
  schemaVersion := 1
  createdAt := now
  correlationID := none
  causationID := none
  publishedAt := none
  publishAttempts := 0
  nextPublishAt := now
  lastPublishError := none
  claimedBy := none
  claimedUntil := none

/-- `json.Marshal` writes the value; it refuses a time outside the years 0 to 9999.  The processes run
in UTC. -/
def FieldValue.Marshals : FieldValue → Prop
  | .time t => -62167219200 * second ≤ t ∧ t < 253402300800 * second
  | .text _ => True
  | .number _ => True
  | .bool _ => True
  | .uuid _ => True
  | .status _ => True

instance : DecidablePred FieldValue.Marshals
  | .time _ => inferInstanceAs (Decidable (_ ∧ _))
  | .text _ => isTrue trivial
  | .number _ => isTrue trivial
  | .bool _ => isTrue trivial
  | .uuid _ => isTrue trivial
  | .status _ => isTrue trivial

/-- `insertJobEvent`. -/
def insertJobEvent (now : Time) (eventID jobID tenantID : UUID) (eventType : EventType)
    (source : String) (payload : List (String × FieldValue)) : RepoTx Unit := do
  Tx.require (∀ field ∈ payload, field.2.Marshals) .connection
  insertEvent (jobEvent now eventID jobID tenantID eventType source payload)

/-- `UPDATE jobs SET … WHERE …`. -/
def updateJobs (p : JobRow → Prop) [DecidablePred p] (f : JobRow → JobRow)
    (hf : ∀ r, (f r).id = r.id) : RepoTx ℕ := fun s =>
  .ok (s.jobs.count p, { s with jobs := s.jobs.update p f hf })

/-- `UPDATE job_attempts SET … WHERE …`. -/
def updateAttempts (p : Attempt → Prop) [DecidablePred p] (f : Attempt → Attempt)
    (hf : ∀ a, (f a).id = a.id) : RepoTx ℕ := fun s =>
  .ok (s.attempts.count p, { s with attempts := s.attempts.update p f hf })

/-- `UPDATE dead_letter_jobs SET … WHERE …`. -/
def updateDeadLetters (p : DeadLetterJob → Prop) [DecidablePred p]
    (f : DeadLetterJob → DeadLetterJob) (hf : ∀ d, (f d).id = d.id) : RepoTx ℕ := fun s =>
  .ok (s.deadLetters.count p, { s with deadLetters := s.deadLetters.update p f hf })

/-! ### Successful statements -/

section Lemmas

variable {s s' : Store} {u : Unit} {n : ℕ}

theorem insertJob_eq_ok {r : JobRow} :
    insertJob r s = .ok (u, s') ↔
      ¬s.KeyTaken r ∧ ∃ jobs, s.jobs.insert r = some jobs ∧ s' = { s with jobs := jobs } := by
  unfold insertJob
  by_cases hk : s.KeyTaken r
  · simp [hk]
  · cases h : s.jobs.insert r with
    | none => simp [hk]
    | some jobs => simp [hk, eq_comm]

theorem insertAttempt_eq_ok {a : Attempt} :
    insertAttempt a s = .ok (u, s') ↔
      ∃ attempts, s.attempts.insert a = some attempts ∧ s' = { s with attempts := attempts } := by
  unfold insertAttempt
  cases h : s.attempts.insert a with
  | none => simp
  | some attempts => simp [eq_comm]

theorem insertDeadLetter_eq_ok {d : DeadLetterJob} :
    insertDeadLetter d s = .ok (u, s') ↔
      ∃ deadLetters, s.deadLetters.insert d = some deadLetters ∧
        s' = { s with deadLetters := deadLetters } := by
  unfold insertDeadLetter
  cases h : s.deadLetters.insert d with
  | none => simp
  | some deadLetters => simp [eq_comm]

theorem insertEvent_eq_ok {e : Event} :
    insertEvent e s = .ok (u, s') ↔
      ∃ events, s.events.insert e = some events ∧ s' = { s with events := events } := by
  unfold insertEvent
  cases h : s.events.insert e with
  | none => simp
  | some events => simp [eq_comm]

theorem insertJobEvent_eq_ok {now : Time} {eventID jobID tenantID : UUID} {eventType : EventType}
    {source : String} {payload : List (String × FieldValue)} :
    insertJobEvent now eventID jobID tenantID eventType source payload s = .ok (u, s') ↔
      (∀ field ∈ payload, field.2.Marshals) ∧ ∃ events,
        s.events.insert (jobEvent now eventID jobID tenantID eventType source payload) = some events ∧
        s' = { s with events := events } := by
  simp only [insertJobEvent, Tx.bind_eq_ok, Tx.require_eq_ok, insertEvent_eq_ok]
  constructor
  · rintro ⟨-, s₁, ⟨hp, rfl⟩, hins⟩
    exact ⟨hp, hins⟩
  · rintro ⟨hp, hins⟩
    exact ⟨(), s, ⟨hp, rfl⟩, hins⟩

@[simp] theorem updateJobs_eq_ok {p : JobRow → Prop} [DecidablePred p] {f : JobRow → JobRow}
    {hf : ∀ r, (f r).id = r.id} :
    updateJobs p f hf s = .ok (n, s') ↔
      s.jobs.count p = n ∧ { s with jobs := s.jobs.update p f hf } = s' := by
  simp [updateJobs]

@[simp] theorem updateAttempts_eq_ok {p : Attempt → Prop} [DecidablePred p]
    {f : Attempt → Attempt} {hf : ∀ a, (f a).id = a.id} :
    updateAttempts p f hf s = .ok (n, s') ↔
      s.attempts.count p = n ∧ { s with attempts := s.attempts.update p f hf } = s' := by
  simp [updateAttempts]

@[simp] theorem updateDeadLetters_eq_ok {p : DeadLetterJob → Prop} [DecidablePred p]
    {f : DeadLetterJob → DeadLetterJob} {hf : ∀ d, (f d).id = d.id} :
    updateDeadLetters p f hf s = .ok (n, s') ↔
      s.deadLetters.count p = n ∧ { s with deadLetters := s.deadLetters.update p f hf } = s' := by
  simp [updateDeadLetters]

end Lemmas

end JobScheduler
