import JobScheduler.Outbox
import JobScheduler.Service

/-!
# The queries of the API

`List`, `ListAttempts`, `ListEvents` and `ListDeadLetters` of `internal/job/repository.go`, with the
checks `Service.List` makes first.  `ORDER BY` is a sort of the selected rows.  `ListAttempts` orders
by `attempt_number` alone; in which order it meets rows with one number is left to PostgreSQL, and
`scan` says it.

Page offsets are computed in 64 bits, and PostgreSQL refuses a negative one.
-/

namespace JobScheduler

open KeyedTable Transaction OrderBy

/-! ### Pages -/

/-- `normalizePage`. -/
def normalizePage (page : Int) : Int := if page < 1 then 1 else page

/-- `normalizePageSize`. -/
def normalizePageSize (pageSize : Int) : Int :=
  if pageSize < 1 then 20 else if pageSize > 100 then 100 else pageSize

/-- `(page - 1) * pageSize`, as a Go `int`. -/
def pageOffset (page pageSize : Int) : Int := ((page - 1) * pageSize).bmod (2 ^ 64)

/-- PostgreSQL's `invalid_row_count_in_result_offset_clause`. -/
def negativeOffset : AppError := .postgres "2201X" ""

/-- `LIMIT pageSize OFFSET (page-1)*pageSize` on normalized arguments. -/
def pageOf {α : Type} (page pageSize : Int) (rows : List α) : RepoTx (List α) := do
  Tx.require (0 ≤ pageOffset page pageSize) negativeOffset
  pure ((rows.drop (pageOffset page pageSize).toNat).take pageSize.toNat)

/-! ### `List` -/

/-- `ListFilter`. -/
structure ListFilter where
  status : String
  jobType : String
  page : Int
  pageSize : Int
  sort : String
  order : String
  createdAfter : Option Time
  createdBefore : Option Time

/-- `Page`. -/
structure JobPage where
  items : List Job
  page : Int
  pageSize : Int
  total : ℕ

/-- `isKnownStatus`. -/
def isKnownStatus (status : String) : Bool :=
  status ∈ [Status.pending, .scheduled, .running, .succeeded, .failed, .retryScheduled,
    .deadLettered, .cancelled, .paused].map Status.text

/-- The columns a list can be sorted by. -/
inductive SortColumn where
  | createdAt
  | runAt
  | priority

/-- The value of the column. -/
def SortColumn.value : SortColumn → JobRow → Int
  | .createdAt, r => r.createdAt
  | .runAt, r => r.runAt
  | .priority, r => r.priority

/-- What `Service.List` hands on: the filter with a known column and direction. -/
structure ListQuery where
  filter : ListFilter
  column : SortColumn
  descending : Bool

/-- `filter.Sort`, with its default. -/
def parseSort (sort : String) : Option SortColumn :=
  if sort = "" ∨ sort = "created_at" then some .createdAt
  else if sort = "run_at" then some .runAt
  else if sort = "priority" then some .priority
  else none

/-- `filter.Order`, with its default: whether it is descending. -/
def parseOrder (order : String) : Option Bool :=
  if order = "" ∨ order = "desc" then some true
  else if order = "asc" then some false
  else none

/-- The checks of `Service.List`. -/
def ListFilter.validate (filter : ListFilter) : Except AppError ListQuery :=
  if filter.status ≠ "" ∧ isKnownStatus filter.status = false then
    .error (.invalidInput "unsupported status filter")
  else if filter.jobType ≠ "" ∧ filter.jobType ∉ supportedJobTypes then
    .error (.invalidInput "unsupported job_type filter")
  else
    match parseSort filter.sort with
    | none => .error (.invalidInput "unsupported sort")
    | some column =>
      match parseOrder filter.order with
      | none => .error (.invalidInput "unsupported order")
      | some descending =>
        match filter.createdAfter, filter.createdBefore with
        | some after, some before =>
          if after > before then
            .error (.invalidInput "created_after must not be after created_before")
          else .ok ⟨filter, column, descending⟩
        | _, _ => .ok ⟨filter, column, descending⟩

/-- The `WHERE` clause of `List`. -/
def ListFilter.Selects (filter : ListFilter) (tenantID : UUID) (r : JobRow) : Prop :=
  r.tenantID = tenantID ∧ (filter.status = "" ∨ r.status.text = filter.status) ∧
    (filter.jobType = "" ∨ r.jobType = filter.jobType) ∧
    (∀ t ∈ filter.createdAfter, t ≤ r.createdAt) ∧ ∀ t ∈ filter.createdBefore, r.createdAt ≤ t

instance (filter : ListFilter) (tenantID : UUID) : DecidablePred (filter.Selects tenantID) :=
  fun _ => inferInstanceAs (Decidable (_ ∧ _ ∧ _ ∧ _ ∧ _))

/-- `ORDER BY column, id`, ascending. -/
def SortColumn.Before (column : SortColumn) (a b : JobRow) : Prop :=
  column.value a < column.value b ∨ (column.value a = column.value b ∧ a.id ≤ b.id)

instance (column : SortColumn) : DecidableRel column.Before :=
  fun _ _ => inferInstanceAs (Decidable (_ ∨ _))

/-- `ORDER BY` in the direction asked for. -/
def ListQuery.Before (query : ListQuery) (a b : JobRow) : Prop :=
  if query.descending then query.column.Before b a else query.column.Before a b

instance (query : ListQuery) : DecidableRel query.Before :=
  fun _ _ => inferInstanceAs (Decidable (ite _ _ _))

/-- What `List` sorts by. -/
def SortColumn.rank (column : SortColumn) (r : JobRow) : Lex (Int × ℕ) :=
  toLex (column.value r, r.id.toNat)

theorem SortColumn.before_iff (column : SortColumn) (a b : JobRow) :
    column.Before a b ↔ column.rank a ≤ column.rank b := by
  simp only [SortColumn.Before, SortColumn.rank, Prod.Lex.le_iff, ofLex_toLex, BitVec.le_def]

theorem SortColumn.id_of_rank {column : SortColumn} {a b : JobRow}
    (h : column.rank a = column.rank b) : a.id = b.id :=
  BitVec.eq_of_toNat_eq (congrArg (fun k => (ofLex k).2) h)

/-- The rows of `List`, before the page is cut out. -/
def listRows (tenantID : UUID) (query : ListQuery) (s : Store) : List JobRow :=
  (s.jobs.rows.filter fun r => decide (query.filter.Selects tenantID r)).insertionSort query.Before

/-- `List`. -/
def list (tenantID : UUID) (query : ListQuery) : RepoTx JobPage := do
  let page := normalizePage query.filter.page
  let pageSize := normalizePageSize query.filter.pageSize
  let rows ← Tx.read (listRows tenantID query)
  let items ← pageOf page pageSize rows
  pure ⟨items.map JobRow.toJob, page, pageSize, rows.length⟩

/-! ### `ListAttempts` -/

/-- `Attempt`, as the API shows it. -/
structure AttemptView where
  id : UUID
  jobID : UUID
  workerID : String
  attemptNumber : Int
  status : AttemptStatus
  startedAt : Time
  completedAt : Option Time
  failedAt : Option Time
  errorMessage : Option String
  executionDurationMS : Option Int
  createdAt : Time
  result : Option RawMessage
  errorCode : Option String
  retryable : Option Bool

/-- The columns `ListAttempts` selects. -/
def Attempt.view (a : Attempt) : AttemptView :=
  ⟨a.id, a.jobID, a.workerID, a.attemptNumber, a.status, a.startedAt, a.completedAt, a.failedAt,
    a.errorMessage, a.executionDurationMS, a.createdAt, a.result, a.errorCode, a.retryable⟩

/-- `ORDER BY attempt_number ASC`, and the order PostgreSQL meets the rows in. -/
def Attempt.Before (scan : UUID → ℕ) (a b : Attempt) : Prop :=
  a.attemptNumber < b.attemptNumber ∨ (a.attemptNumber = b.attemptNumber ∧
    (scan a.id < scan b.id ∨ (scan a.id = scan b.id ∧ a.id ≤ b.id)))

instance (scan : UUID → ℕ) : DecidableRel (Attempt.Before scan) :=
  fun _ _ => inferInstanceAs (Decidable (_ ∨ _))

/-- `ListAttempts`. -/
def listAttempts (tenantID jobID : UUID) (scan : UUID → ℕ) : RepoTx (List AttemptView) := do
  let rows ← Tx.read fun s =>
    (s.attempts.rows.filter fun a => decide (a.tenantID = tenantID ∧ a.jobID = jobID)).insertionSort
      (Attempt.Before scan)
  pure (rows.map Attempt.view)

/-! ### `ListEvents` -/

/-- `Event`, as the API shows it. -/
structure EventView where
  id : UUID
  jobID : UUID
  tenantID : UUID
  eventType : EventType
  source : String
  schemaVersion : Int
  correlationID : Option String
  causationID : Option UUID
  payload : List (String × FieldValue)
  createdAt : Time
  publishedAt : Option Time
  publishAttempts : Int
  lastPublishError : Option String

/-- The columns `ListEvents` selects. -/
def Event.view (e : Event) : EventView :=
  ⟨e.id, e.jobID, e.tenantID, e.eventType, e.source, e.schemaVersion, e.correlationID,
    e.causationID, e.payload, e.createdAt, e.publishedAt, e.publishAttempts, e.lastPublishError⟩

/-- The rows of `ListEvents`. -/
def eventRows (tenantID jobID : UUID) (s : Store) : List Event :=
  (s.events.rows.filter fun e => decide (e.tenantID = tenantID ∧ e.jobID = jobID)).insertionSort
    Event.Before

/-- `ListEvents`. -/
def listEvents (tenantID jobID : UUID) : RepoTx (List EventView) := do
  let rows ← Tx.read (eventRows tenantID jobID)
  pure (rows.map Event.view)

/-! ### `ListDeadLetters` -/

/-- `ORDER BY created_at DESC, id DESC`. -/
def DeadLetterJob.Before (a b : DeadLetterJob) : Prop :=
  b.createdAt < a.createdAt ∨ (a.createdAt = b.createdAt ∧ b.id ≤ a.id)

instance : DecidableRel DeadLetterJob.Before := fun _ _ => inferInstanceAs (Decidable (_ ∨ _))

/-- What `ListDeadLetters` sorts by. -/
def DeadLetterJob.rank (d : DeadLetterJob) : (Lex (Int × ℕ))ᵒᵈ :=
  OrderDual.toDual (toLex (d.createdAt, d.id.toNat))

theorem DeadLetterJob.before_byKey : ByKey DeadLetterJob.Before DeadLetterJob.rank := by
  constructor
  intro a b
  simp only [DeadLetterJob.Before, DeadLetterJob.rank, OrderDual.toDual_le_toDual, Prod.Lex.le_iff,
    ofLex_toLex, BitVec.le_def, eq_comm]

theorem DeadLetterJob.id_of_rank {a b : DeadLetterJob} (h : a.rank = b.rank) : a.id = b.id :=
  BitVec.eq_of_toNat_eq (congrArg (fun k => (ofLex (OrderDual.ofDual k)).2) h)

/-- The rows of `ListDeadLetters`, before the page is cut out. -/
def deadLetterRows (tenantID : UUID) (s : Store) : List DeadLetterJob :=
  (s.deadLetters.rows.filter fun d => decide (d.tenantID = tenantID)).insertionSort
    DeadLetterJob.Before

/-- `ListDeadLetters`. -/
def listDeadLetters (tenantID : UUID) (page pageSize : Int) : RepoTx (List DeadLetterJob) := do
  let rows ← Tx.read (deadLetterRows tenantID)
  pageOf (normalizePage page) (normalizePageSize pageSize) rows

end JobScheduler
