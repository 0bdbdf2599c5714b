import JobScheduler.Changes

/-!
# One transition, three implementations

A failed attempt ends in a retry or in a dead letter.  `FailExecution` does this for a worker in one
transaction, `RecoverExpiredRunningJobs` for a job whose lease has expired, and the older steps
`FailAttempt` and `MoveToDeadLetterByWorker` for a worker in two.  Each has SQL of its own.

A job is compared by what the tables hold of it (`JobView`).

* `recovery_agrees_but_for_events` — recovery leaves the row, the attempts and the dead letters that
  `FailExecution` leaves, and never the events: it writes no `job.failed`.
* `steps_agree_but_for_events` — the older steps leave the same row; they write no event at all, and a
  dead letter of the default tenant, whatever the tenant of the job.
-/

namespace JobScheduler

open KeyedTable Transaction

/-! ### The older steps -/

/-- `SET status='FAILED', failed_at=…, error_message=…, execution_duration_ms=…`. -/
def failedAttemptOnly (now : Time) (durationMS : Int) (message : String) (a : Attempt) : Attempt :=
  { a with
    status := .failed, failedAt := some now, errorMessage := some message
    executionDurationMS := some durationMS }

@[simp] theorem failedAttemptOnly_id (now : Time) (durationMS : Int) (message : String) (a : Attempt) :
    (failedAttemptOnly now durationMS message a).id = a.id := rfl

/-- `FailAttempt`. -/
def failAttempt (now : Time) (attemptID : UUID) (durationMS : Int) (message : String) :
    RepoTx Unit := do
  let _ ← updateAttempts (fun a => a.id = attemptID) (failedAttemptOnly now durationMS message)
    (failedAttemptOnly_id now durationMS message)
  pure ()

/-- `MoveToDeadLetterByWorker`: its `INSERT` leaves the tenant to the default. -/
def moveToDeadLetterByWorker (now : Time) (deadLetterID : UUID) (j : Job) (workerID message : String)
    (finalRetryCount : Int) : RepoTx Unit := do
  let n ← updateJobs (fun r => r.id = j.id ∧ (r.lockedBy = some workerID ∧ r.status = .running))
    (buryRow now finalRetryCount message) (buryRow_id now finalRetryCount message)
  Tx.require (n ≠ 0) .conflict
  insertDeadLetter
    { deadLetterRow now deadLetterID j message finalRetryCount with tenantID := defaultTenantID }

/-! ### What the tables hold of a job -/

/-- The row of a job, its attempts, its dead letters and its events. -/
@[ext]
structure JobView where
  row : Option JobRow
  attempts : List Attempt
  deadLetters : List DeadLetterJob
  events : List Event

def Store.viewOf (s : Store) (id : UUID) : JobView where
  row := s.jobs.find? id
  attempts := s.attempts.rows.filter fun a => decide (a.jobID = id)
  deadLetters := s.deadLetters.rows.filter fun d => decide (d.originalJobID = id)
  events := s.events.rows.filter fun e => decide (e.jobID = id)

/-- A dead letter up to its id. -/
def DeadLetterJob.content (d : DeadLetterJob) : DeadLetterJob := { d with id := UUID.nil }

namespace JobView

/-- The dead letters, up to their ids. -/
def letters (v : JobView) : List DeadLetterJob := v.deadLetters.map DeadLetterJob.content

/-- The statuses of the attempts, and whether they may be retried. -/
def outcomes (v : JobView) : List (UUID × AttemptStatus × Option Bool) :=
  v.attempts.map fun a => (a.id, a.status, a.retryable)

def eventTypes (v : JobView) : List EventType := v.events.map fun e => e.eventType

end JobView

/-- The row a failure leaves. -/
def settledRow (now : Time) (status : Status) (retryCount : Int) (runAt : Time) (message : String) :
    JobRow → JobRow :=
  if status = .deadLettered then buryRow now retryCount message
  else retryRow now retryCount runAt message

/-- The dead letter a failure leaves, up to its id. -/
def settledLetters (now : Time) (status : Status) (retryCount : Int) (message : String) (j : Job) :
    List DeadLetterJob :=
  if status = .deadLettered then [(deadLetterRow now UUID.nil j message retryCount).content] else []

variable {s s' : Store}

/-! ### Statements, seen from a job -/

theorem viewOf_letters_insert {d : DeadLetterJob} {letters : Table DeadLetterJob}
    (h : s.deadLetters.insert d = some letters) {s' : Store} (hs' : s'.deadLetters = letters)
    (id : UUID) : (s'.viewOf id).letters
      = (s.viewOf id).letters ++ if d.originalJobID = id then [d.content] else [] := by
  have hrows : s'.deadLetters.rows = s.deadLetters.rows ++ [d] := by
    rw [hs']
    exact (Table.insert_eq_some h).2
  by_cases hid : d.originalJobID = id
  · simp [Store.viewOf, JobView.letters, hrows, List.filter_append, hid]
  · simp [Store.viewOf, JobView.letters, hrows, List.filter_append, hid]

theorem viewOf_eventTypes_append {es : List Event} (h : s'.events.rows = s.events.rows ++ es)
    (id : UUID) : (s'.viewOf id).eventTypes
      = (s.viewOf id).eventTypes
        ++ (es.filter fun e => decide (e.jobID = id)).map fun e => e.eventType := by
  simp [Store.viewOf, JobView.eventTypes, h, List.filter_append]

/-- An update of attempts that moves none to another job. -/
theorem viewOf_attempts_update {p : Attempt → Prop} [DecidablePred p] {f : Attempt → Attempt}
    {hf : ∀ a, (f a).id = a.id} (h : s'.attempts = s.attempts.update p f hf)
    (hjob : ∀ a, (f a).jobID = a.jobID) (id : UUID) :
    (s'.viewOf id).attempts = (s.viewOf id).attempts.map fun a => if p a then f a else a := by
  simp only [Store.viewOf, h]
  exact s.attempts.filter_update hf fun a => by rw [hjob]

/-- A guarded update of one row, when it touched one. -/
theorem find?_update_of_count {k : UUID} {g : JobRow → Prop} [DecidablePred g] {jobs : Table JobRow}
    (f : JobRow → JobRow) (hf : ∀ r, (f r).id = r.id) (h : jobs.count (fun r => r.id = k ∧ g r) ≠ 0) :
    (jobs.update (fun r => r.id = k ∧ g r) f hf).find? k = (jobs.find? k).map f := by
  obtain ⟨r, hr, hg⟩ := Table.exists_of_count_key_ne_zero (g := g) h
  rw [Table.find?_update, hr, Option.map_some, Option.map_some]
  exact congrArg some (if_pos ⟨(Table.find?_eq_some_iff.1 hr).2, hg⟩)

/-! ### The three implementations, seen from the job -/

/-- The job of a failed attempt was buried or scheduled again. -/
structure SettledView (now : Time) (j : Job) (status : Status) (retryCount : Int) (runAt : Time)
    (message : String) (v v' : JobView) : Prop where
  row : v'.row = v.row.map (settledRow now status retryCount runAt message)
  letters : v'.letters = v.letters ++ settledLetters now status retryCount message j

theorem Settles.viewLetters {now : Time} {j : Job} {retryCount : Int} {message : String} {status : Status}
    (h : Settles now j retryCount message s s' status) :
    (s'.viewOf j.id).letters
      = (s.viewOf j.id).letters ++ settledLetters now status retryCount message j := by
  cases h with
  | buried deadLetterID jobs deadLetters =>
    rw [viewOf_letters_insert deadLetters rfl]
    exact congrArg _ (if_pos rfl)
  | retried runAt jobs deadLetters => simp [Store.viewOf, JobView.letters, deadLetters, settledLetters]

/-- How a job ends is not seen from another. -/
theorem Settles.viewOther {now : Time} {j : Job} {retryCount : Int} {message : String} {status : Status}
    (h : Settles now j retryCount message s s' status) {k : UUID} (hne : k ≠ j.id) :
    (s'.viewOf k).row = (s.viewOf k).row ∧ (s'.viewOf k).deadLetters = (s.viewOf k).deadLetters := by
  cases h with
  | buried deadLetterID jobs deadLetters =>
    refine ⟨?_, ?_⟩
    · simp only [Store.viewOf, jobs]
      exact Table.find?_modify_ne _ hne _ _
    · simp only [Store.viewOf, (Table.insert_eq_some deadLetters).2, List.filter_append]
      simp [deadLetterRow, hne.symm]
  | retried runAt jobs deadLetters =>
    refine ⟨?_, ?_⟩
    · simp only [Store.viewOf, jobs]
      exact Table.find?_modify_ne _ hne _ _
    · simp only [Store.viewOf, deadLetters]

section FailExecution

variable {now : Time} {ids : FailureIDs} {c : ClaimedJob} {w : String} {durationMS : Int}
  {outcome : ExecutionResult} {nextStatus : Status} {nextRetryCount : Int} {nextRunAt : Time} {u : Unit}

theorem failExecution_row
    (h : failExecution now ids c w durationMS outcome nextStatus nextRetryCount nextRunAt s
      = .ok (u, s')) :
    s'.jobs.find? c.id = (s.jobs.find? c.id).map
      (settledRow now nextStatus nextRetryCount nextRunAt outcome.message) := by
  simp only [failExecution, Tx.bind_eq_ok, Tx.require_eq_ok, updateAttempts_eq_ok] at h
  obtain ⟨m, s₁, ⟨-, rfl⟩, _, s₂, ⟨-, rfl⟩, _, s₃, hev, h⟩ := h
  obtain ⟨hj, -⟩ := insertJobEvent_spec hev
  unfold settledRow
  by_cases hstatus : nextStatus = .deadLettered
  · simp only [hstatus, if_true, Tx.bind_eq_ok, updateJobs_eq_ok, Tx.require_eq_ok,
      insertDeadLetter_eq_ok] at h
    obtain ⟨n, s₄, ⟨rfl, rfl⟩, _, s₅, ⟨hn, rfl⟩, _, s₆, ⟨deadLetters, -, rfl⟩, hev'⟩ := h
    obtain ⟨hj', -⟩ := insertJobEvent_spec hev'
    rw [hj', if_pos hstatus, find?_update_of_count _ _ hn, hj]
  · simp only [hstatus, if_false, Tx.bind_eq_ok, updateJobs_eq_ok, Tx.require_eq_ok] at h
    obtain ⟨n, s₄, ⟨rfl, rfl⟩, _, s₅, ⟨hn, rfl⟩, hev'⟩ := h
    obtain ⟨hj', -⟩ := insertJobEvent_spec hev'
    rw [hj', if_neg hstatus, find?_update_of_count _ _ hn, hj]

theorem failExecution_settled
    (h : failExecution now ids c w durationMS outcome nextStatus nextRetryCount nextRunAt s
      = .ok (u, s')) :
    SettledView now c.toJob nextStatus nextRetryCount nextRunAt outcome.message (s.viewOf c.id)
      (s'.viewOf c.id) := by
  obtain ⟨r, a, hfails⟩ := failExecution_spec h
  refine ⟨failExecution_row h, ?_⟩
  have hletters := hfails.settles.viewLetters
  by_cases hstatus : nextStatus = .deadLettered
  · rw [if_pos hstatus] at hletters
    rw [hstatus]
    exact hletters
  · rw [if_neg hstatus] at hletters
    simpa [settledLetters, hstatus] using hletters

theorem failExecution_eventTypes
    (h : failExecution now ids c w durationMS outcome nextStatus nextRetryCount nextRunAt s
      = .ok (u, s')) :
    (s'.viewOf c.id).eventTypes = (s.viewOf c.id).eventTypes ++ [.named .failed,
      .named (if nextStatus = .deadLettered then .deadLettered else .retryScheduled)] := by
  obtain ⟨r, a, hfails⟩ := failExecution_spec h
  obtain ⟨failedEvent, outcomeEvent, payload, payload', hevents⟩ := hfails.events
  rw [viewOf_eventTypes_append hevents]
  simp [jobEvent]

theorem failExecution_attempts
    (h : failExecution now ids c w durationMS outcome nextStatus nextRetryCount nextRunAt s
      = .ok (u, s')) :
    (s'.viewOf c.id).attempts = (s.viewOf c.id).attempts.map fun a =>
      if a.id = c.activeAttemptID then failedAttempt now durationMS outcome a else a := by
  obtain ⟨r, a, hfails⟩ := failExecution_spec h
  exact viewOf_attempts_update hfails.attempts (fun _ => rfl) c.id

end FailExecution

section Recovery

variable {x : RecoverArgs} {r : JobRow} {id : UUID}

theorem recoverJob_row (hr : s.jobs.find? r.id = some r) (hrun : r.status = .running)
    (h : recoverJob x r s = .ok (id, s')) :
    s'.jobs.find? r.id = some (settledRow x.now (x.decision r).status (x.decision r).nextRetryCount
      (x.decision r).nextRunAt x.reason r) := by
  have hcount : s.jobs.count (fun r' => r'.id = r.id ∧ r'.status = .running) ≠ 0 :=
    Table.count_ne_zero.2 ⟨r, (Table.find?_eq_some_iff.1 hr).1, rfl, hrun⟩
  simp only [recoverJob, expireAttempts, Tx.bind_eq_ok, updateAttempts_eq_ok] at h
  obtain ⟨m, s₁, ⟨-, rfl⟩, h⟩ := h
  unfold settledRow
  by_cases hd : (x.decision r).status = .deadLettered
  · simp only [hd, if_true, Tx.bind_eq_ok, updateJobs_eq_ok, insertDeadLetter_eq_ok,
      Tx.pure_eq_ok] at h
    obtain ⟨n, s₃, ⟨-, rfl⟩, _, s₄, ⟨deadLetters, -, rfl⟩, _, s₅, hev, -, rfl⟩ := h
    obtain ⟨hj, -⟩ := insertJobEvent_spec hev
    rw [hj, if_pos hd, find?_update_of_count _ _ hcount, hr, Option.map_some]
  · simp only [hd, if_false, Tx.bind_eq_ok, updateJobs_eq_ok, Tx.pure_eq_ok] at h
    obtain ⟨n, s₃, ⟨-, rfl⟩, _, s₄, hev, -, rfl⟩ := h
    obtain ⟨hj, -⟩ := insertJobEvent_spec hev
    rw [hj, if_neg hd, find?_update_of_count _ _ hcount, hr, Option.map_some]

/-- What the recovery of a job leaves of it. -/
structure RecoveredView (x : RecoverArgs) (r : JobRow) (v v' : JobView) : Prop where
  settled : SettledView x.now r.toJob (x.decision r).status (x.decision r).nextRetryCount
    (x.decision r).nextRunAt x.reason v v'
  attempts : v'.attempts = v.attempts.map fun a =>
    if a.jobID = r.id ∧ a.status = .running then x.expired a else a
  eventTypes : v'.eventTypes = v.eventTypes ++ [.named (x.decision r).status]

theorem recoverJob_view (hr : s.jobs.find? r.id = some r) (hrun : r.status = .running)
    (h : recoverJob x r s = .ok (id, s')) : RecoveredView x r (s.viewOf r.id) (s'.viewOf r.id) := by
  obtain ⟨hrec, -⟩ := recoverJob_spec hr hrun h
  have hcount : (x.decision r).nextRetryCount = r.retryCount + 1 := decideFailure_nextRetryCount _ _ _ _
  refine ⟨⟨?_, ?_⟩, ?_, ?_⟩
  · have hrow : (s.viewOf r.id).row = some r := hr
    rw [hrow]
    exact recoverJob_row hr hrun h
  · rw [hcount]
    exact hrec.settles.viewLetters
  · exact viewOf_attempts_update hrec.attempts (fun _ => rfl) r.id
  · obtain ⟨payload, hevents⟩ := hrec.events
    rw [viewOf_eventTypes_append hevents]
    simp [jobEvent]

/-- The recovery of one job is not seen from another. -/
theorem recoverJob_other (hr : s.jobs.find? r.id = some r) (hrun : r.status = .running)
    (h : recoverJob x r s = .ok (id, s')) {k : UUID} (hne : k ≠ r.id) : s'.viewOf k = s.viewOf k := by
  obtain ⟨hrec, -⟩ := recoverJob_spec hr hrun h
  obtain ⟨hrow, hletters⟩ := hrec.settles.viewOther hne
  obtain ⟨payload, hevents⟩ := hrec.events
  have hattempts : (s'.viewOf k).attempts = (s.viewOf k).attempts := by
    rw [viewOf_attempts_update hrec.attempts (fun _ => rfl)]
    have hsame : ∀ a ∈ (s.viewOf k).attempts,
        (if a.jobID = r.id ∧ a.status = .running then x.expired a else a) = a := by
      intro a ha
      have hk : a.jobID = k := by simpa using (List.mem_filter.1 ha).2
      exact if_neg fun hp => hne (hk.symm.trans hp.1)
    rw [List.map_congr_left hsame, List.map_id']
  have hevents' : (s'.viewOf k).events = (s.viewOf k).events := by
    simp only [Store.viewOf, hevents, List.filter_append]
    simp [jobEvent, hne.symm]
  exact JobView.ext hrow hattempts hletters hevents'

/-- The loop: every job it selected is recovered, and no other is touched. -/
theorem forEach_recoverJob_view {items : List JobRow} {ids : List UUID}
    (hrows : ∀ r ∈ items, s.jobs.find? r.id = some r ∧ r.status = .running)
    (hnodup : (items.map fun r => r.id).Nodup)
    (h : Tx.forEach (recoverJob x) items s = .ok (ids, s')) :
    (∀ r ∈ items, RecoveredView x r (s.viewOf r.id) (s'.viewOf r.id)) ∧
      ∀ k ∉ items.map (fun r => r.id), s'.viewOf k = s.viewOf k := by
  induction items generalizing s ids with
  | nil =>
    obtain ⟨-, rfl⟩ := Tx.forEach_nil_eq_ok.1 h
    exact ⟨fun r hr => absurd hr List.not_mem_nil, fun _ _ => rfl⟩
  | cons r₀ rest ih =>
    obtain ⟨id, s₁, ids', hfirst, hrest, rfl⟩ := Tx.forEach_cons_eq_ok.1 h
    rw [List.map_cons, List.nodup_cons] at hnodup
    obtain ⟨hr₀, hrun₀⟩ := hrows r₀ List.mem_cons_self
    have hother : ∀ k ≠ r₀.id, s₁.viewOf k = s.viewOf k :=
      fun k hne => recoverJob_other hr₀ hrun₀ hfirst hne
    have hne : ∀ r ∈ rest, r.id ≠ r₀.id :=
      fun r hr he => hnodup.1 (he ▸ List.mem_map_of_mem hr)
    have hrows₁ : ∀ r ∈ rest, s₁.jobs.find? r.id = some r ∧ r.status = .running := by
      intro r hr
      obtain ⟨hfind, hrun⟩ := hrows r (List.mem_cons_of_mem _ hr)
      exact ⟨(congrArg JobView.row (hother r.id (hne r hr))).trans hfind, hrun⟩
    obtain ⟨hall, hrest'⟩ := ih hrows₁ hnodup.2 hrest
    constructor
    · intro r hr
      rcases List.mem_cons.1 hr with rfl | hr
      · rw [hrest' r.id hnodup.1]
        exact recoverJob_view hr₀ hrun₀ hfirst
      · rw [← hother r.id (hne r hr)]
        exact hall r hr
    · intro k hk
      rw [List.map_cons, List.mem_cons, not_or] at hk
      rw [hrest' k hk.2, hother k hk.1]

theorem recoverExpiredRunningJobs_view {locked : UUID → Bool} {ids : List UUID}
    (hr : s.jobs.find? r.id = some r) (hexpired : r.ExpiredAt x.now) (hfree : locked r.id = false)
    (h : recoverExpiredRunningJobs x locked s = .ok (ids, s')) :
    RecoveredView x r (s.viewOf r.id) (s'.viewOf r.id) := by
  simp only [recoverExpiredRunningJobs, Tx.bind_eq_ok, Tx.read_eq_ok] at h
  obtain ⟨_, _, ⟨rfl, rfl⟩, hloop⟩ := h
  have hrows : ∀ r ∈ s.jobs.rows.filter (fun r => decide (r.ExpiredAt x.now) && !locked r.id),
      s.jobs.find? r.id = some r ∧ r.status = .running := by
    intro r hr
    obtain ⟨hmem, hselected⟩ := List.mem_filter.1 hr
    rw [Bool.and_eq_true, decide_eq_true_iff] at hselected
    exact ⟨Table.find?_key hmem, hselected.1.1⟩
  have hnodup : ((s.jobs.rows.filter fun r => decide (r.ExpiredAt x.now) && !locked r.id).map
      fun r => r.id).Nodup := s.jobs.nodup.sublist (List.filter_sublist.map _)
  have hmem : r ∈ s.jobs.rows.filter fun r => decide (r.ExpiredAt x.now) && !locked r.id :=
    List.mem_filter.2 ⟨(Table.find?_eq_some_iff.1 hr).1, by simp [hexpired, hfree]⟩
  exact (forEach_recoverJob_view hrows hnodup hloop).1 r hmem

end Recovery

section Steps

variable {now : Time} {u : Unit}

theorem failAttempt_view {attemptID : UUID} {durationMS : Int} {message : String}
    (h : failAttempt now attemptID durationMS message s = .ok (u, s')) (id : UUID) :
    (s'.viewOf id).row = (s.viewOf id).row ∧ (s'.viewOf id).letters = (s.viewOf id).letters ∧
      (s'.viewOf id).eventTypes = (s.viewOf id).eventTypes := by
  simp only [failAttempt, Tx.bind_eq_ok, updateAttempts_eq_ok, Tx.pure_eq_ok] at h
  obtain ⟨n, s₁, ⟨-, rfl⟩, -, rfl⟩ := h
  exact ⟨rfl, rfl, rfl⟩

theorem moveToDeadLetterByWorker_view {deadLetterID : UUID} {j : Job} {w message : String}
    {finalRetryCount : Int}
    (h : moveToDeadLetterByWorker now deadLetterID j w message finalRetryCount s = .ok (u, s')) :
    (s'.viewOf j.id).row = (s.viewOf j.id).row.map (buryRow now finalRetryCount message) ∧
      (s'.viewOf j.id).letters = (s.viewOf j.id).letters ++
        [{ (deadLetterRow now UUID.nil j message finalRetryCount).content with
          tenantID := defaultTenantID }] ∧
      (s'.viewOf j.id).eventTypes = (s.viewOf j.id).eventTypes := by
  simp only [moveToDeadLetterByWorker, Tx.bind_eq_ok, updateJobs_eq_ok, Tx.require_eq_ok,
    insertDeadLetter_eq_ok] at h
  obtain ⟨n, s₁, ⟨rfl, rfl⟩, _, s₂, ⟨hn, rfl⟩, deadLetters, hinsert, rfl⟩ := h
  have hrow := find?_update_of_count (buryRow now finalRetryCount message)
    (buryRow_id now finalRetryCount message) hn
  refine ⟨hrow, ?_, rfl⟩
  rw [viewOf_letters_insert hinsert rfl]
  exact congrArg _ (if_pos rfl)

end Steps

/-! ### The comparison -/

/-- The columns that name a job, and so its dead letter, are the same. -/
theorem settledLetters_congr {j j' : Job} (h : j.identity = j'.identity) (now : Time) (status : Status)
    (retryCount : Int) (message : String) :
    settledLetters now status retryCount message j = settledLetters now status retryCount message j' := by
  have hid : j.id = j'.id := congrArg JobIdentity.id h
  have htenant : j.tenantID = j'.tenantID := congrArg JobIdentity.tenantID h
  have hname : j.name = j'.name := congrArg JobIdentity.name h
  have htype : j.jobType = j'.jobType := congrArg JobIdentity.jobType h
  have hpayload : j.payload = j'.payload := congrArg JobIdentity.payload h
  simp only [settledLetters, deadLetterRow, hid, htenant, hname, htype, hpayload]

/-- Two implementations leave the same of a job. -/
structure JobView.Agrees (v v' : JobView) : Prop where
  row : v.row = v'.row
  letters : v.letters = v'.letters
  eventTypes : v.eventTypes = v'.eventTypes

/-- A claim of the RUNNING job of row `r`, whose lease has expired: the attempt it was claimed under is
the one RUNNING attempt of the job. -/
structure ExpiredClaim (now : Time) (s : Store) (c : ClaimedJob) (r : JobRow) : Prop where
  row : s.jobs.find? r.id = some r
  expired : r.ExpiredAt now
  identity : c.toJob.identity = r.toJob.identity
  retryCount : c.retryCount = r.retryCount
  attempt : ∀ a ∈ s.attempts.rows, a.jobID = r.id ∧ a.status = .running ↔ a.id = c.activeAttemptID

/-- The decision of `DecideFailure` for a claimed job. -/
def ClaimedJob.decision (clock : Time) (c : ClaimedJob) : FailureDecision :=
  decideFailure clock c.retryCount c.maxRetries c.retryBackoffSeconds

theorem ExpiredClaim.decision_eq {now : Time} {c : ClaimedJob} {r : JobRow} (h : ExpiredClaim now s c r)
    (x : RecoverArgs) : c.decision x.clock = x.decision r := by
  have hmax : c.maxRetries = r.maxRetries := congrArg JobIdentity.maxRetries h.identity
  have hbackoff : c.retryBackoffSeconds = r.retryBackoffSeconds :=
    congrArg JobIdentity.retryBackoffSeconds h.identity
  rw [ClaimedJob.decision, RecoverArgs.decision, h.retryCount, hmax, hbackoff]

/-- Both paths fail the same attempt, as one that may be retried. -/
theorem ExpiredClaim.outcomes_eq {now : Time} {c : ClaimedJob} {r : JobRow} (h : ExpiredClaim now s c r)
    (x : RecoverArgs) (durationMS : Int) {outcome : ExecutionResult} (hretryable : outcome.retryable = true)
    {v₁ v₂ : JobView}
    (h₁ : v₁.attempts = (s.viewOf r.id).attempts.map fun a =>
      if a.jobID = r.id ∧ a.status = .running then x.expired a else a)
    (h₂ : v₂.attempts = (s.viewOf r.id).attempts.map fun a =>
      if a.id = c.activeAttemptID then failedAttempt x.now durationMS outcome a else a) :
    v₁.outcomes = v₂.outcomes := by
  rw [JobView.outcomes, JobView.outcomes, h₁, h₂, List.map_map, List.map_map]
  apply List.map_congr_left
  intro a ha
  have hiff := h.attempt a (List.mem_filter.1 ha).1
  simp only [Function.comp_apply]
  by_cases hactive : a.id = c.activeAttemptID
  · rw [if_pos hactive, if_pos (hiff.2 hactive)]
    simp only [RecoverArgs.expired, failedAttempt, hretryable]
  · rw [if_neg hactive, if_neg fun hrunning => hactive (hiff.1 hrunning)]

/-- The recovery and the failure by the owner agree on the row, on the attempts and on the dead letters.
They never agree on the events: the recovery writes no `job.failed`. -/
theorem recovery_agrees_but_for_events {x : RecoverArgs} {locked : UUID → Bool} {ids : List UUID}
    {c : ClaimedJob} {r : JobRow} {w : String} {fids : FailureIDs} {durationMS : Int}
    {outcome : ExecutionResult} {u : Unit} {s₁ s₂ : Store} (hclaim : ExpiredClaim x.now s c r)
    (hfree : locked r.id = false) (hmessage : outcome.message = x.reason)
    (hretryable : outcome.retryable = true)
    (hrecover : recoverExpiredRunningJobs x locked s = .ok (ids, s₁))
    (hfail : failExecution x.now fids c w durationMS outcome (c.decision x.clock).status
      (c.decision x.clock).nextRetryCount (c.decision x.clock).nextRunAt s = .ok (u, s₂)) :
    (s₁.viewOf r.id).row = (s₂.viewOf r.id).row ∧
      (s₁.viewOf r.id).outcomes = (s₂.viewOf r.id).outcomes ∧
      (s₁.viewOf r.id).letters = (s₂.viewOf r.id).letters ∧
      (s₁.viewOf r.id).eventTypes
        = (s.viewOf r.id).eventTypes ++ [.named (c.decision x.clock).status] ∧
      (s₂.viewOf r.id).eventTypes
        = (s.viewOf r.id).eventTypes ++ [.named .failed, .named (c.decision x.clock).status] ∧
      ¬((s₁.viewOf r.id).outcomes = (s₂.viewOf r.id).outcomes ∧
        (s₁.viewOf r.id).Agrees (s₂.viewOf r.id)) := by
  have hid : c.id = r.id := congrArg JobIdentity.id hclaim.identity
  have hview := recoverExpiredRunningJobs_view hclaim.row hclaim.expired hfree hrecover
  have hsettled := failExecution_settled hfail
  have hattempts := failExecution_attempts hfail
  have hevents := failExecution_eventTypes hfail
  rw [hid] at hsettled hattempts hevents
  have hstatus : (if (c.decision x.clock).status = .deadLettered then .deadLettered
      else .retryScheduled) = (c.decision x.clock).status := by
    rw [hclaim.decision_eq x]
    rcases x.decision_cases r with hd | hd <;> rw [hd] <;> rfl
  rw [hstatus] at hevents
  have hevents₁ := hview.eventTypes
  rw [← hclaim.decision_eq x] at hevents₁
  have hrows : (s₁.viewOf r.id).row = (s₂.viewOf r.id).row := by
    rw [hview.settled.row, hsettled.row, hclaim.decision_eq x, hmessage]
  have hletters : (s₁.viewOf r.id).letters = (s₂.viewOf r.id).letters := by
    rw [hview.settled.letters, hsettled.letters, hclaim.decision_eq x, hmessage,
      settledLetters_congr hclaim.identity]
  refine ⟨hrows, hclaim.outcomes_eq x durationMS hretryable hview.attempts hattempts, hletters,
    hevents₁, hevents, ?_⟩
  rintro ⟨-, hagrees⟩
  have hlength := congrArg List.length (hevents₁.symm.trans (hagrees.eventTypes.trans hevents))
  simp at hlength

namespace Demo

/-- Worker `a` claims at second 1, for thirty seconds. -/
def claiming : ClaimArgs :=
  ⟨second, second, fun _ => drawn 11, fun _ => 2011, "a", 30 * second⟩

/-- The job `1` of a tenant, before it is claimed. -/
def queuedJob (tenant : UUID) : JobRow where
  id := 1
  tenantID := tenant
  name := "report"
  jobType := "CALL_WEBHOOK"
  payload := "\x7b\x7d"
  status := .pending
  priority := 5
  runAt := 0
  lockedUntil := none
  lockedBy := none
  retryCount := 0
  maxRetries := 3
  retryBackoffSeconds := 30
  timeoutSeconds := 300
  lastError := none
  createdBy := none
  createdAt := 0
  updatedAt := 0
  completedAt := none
  failedAt := none
  cancelledAt := none
  idempotencyKey := none
  requestHash := none
  sourceDeadLetterID := none

def claimedJob (tenant : UUID) : ClaimedJob := claiming.claimed (queuedJob tenant)

/-- The tables with that job claimed under the attempt `11`. -/
def claimedStore (tenant : UUID) : Store where
  jobs := ⟨[claiming.lease (queuedJob tenant)], List.nodup_singleton _⟩
  attempts := ⟨[claiming.attempt (queuedJob tenant)], List.nodup_singleton _⟩
  deadLetters := Table.empty
  events := Table.empty

/-- The recovery at second 40. -/
def recovering : RecoverArgs :=
  ⟨40 * second, 40 * second, leaseExpired, fun _ => 21, fun _ => 22⟩

def timedOut : ExecutionResult := ⟨"", "TIMEOUT", true, leaseExpired⟩

theorem expiredClaim (tenant : UUID) : ExpiredClaim recovering.now (claimedStore tenant)
    (claimedJob tenant) (claiming.lease (queuedJob tenant)) where
  row := rfl
  expired := ⟨rfl, rfl⟩
  identity := rfl
  retryCount := rfl
  attempt := by
    intro a ha
    rw [List.mem_singleton.1 ha]
    exact ⟨fun _ => rfl, fun _ => ⟨rfl, rfl⟩⟩

/-- The failure of the claimed job by worker `a`. -/
def failing (tenant : UUID) (decision : FailureDecision) : RepoTx Unit :=
  failExecution recovering.now ⟨31, 32, 33⟩ (claimedJob tenant) "a" 5 timedOut decision.status
    decision.nextRetryCount decision.nextRunAt

end Demo

theorem recovery_agrees_but_for_events_retry :
    ∃ ids u s₁ s₂,
      recoverExpiredRunningJobs Demo.recovering (fun _ => false) (Demo.claimedStore 7)
        = .ok (ids, s₁) ∧
      Demo.failing 7 ((Demo.claimedJob 7).decision (40 * second)) (Demo.claimedStore 7) = .ok (u, s₂) ∧
      (s₁.viewOf 1).row = (s₂.viewOf 1).row ∧ (s₁.viewOf 1).letters = (s₂.viewOf 1).letters ∧
      ¬((s₁.viewOf 1).outcomes = (s₂.viewOf 1).outcomes ∧ (s₁.viewOf 1).Agrees (s₂.viewOf 1)) := by
  obtain ⟨ids, s₁, h₁⟩ : ∃ ids s₁, recoverExpiredRunningJobs Demo.recovering (fun _ => false)
      (Demo.claimedStore 7) = .ok (ids, s₁) := ⟨_, _, rfl⟩
  obtain ⟨u, s₂, h₂⟩ : ∃ u s₂, Demo.failing 7 ((Demo.claimedJob 7).decision (40 * second))
      (Demo.claimedStore 7) = .ok (u, s₂) := ⟨_, _, rfl⟩
  obtain ⟨hrow, -, hletters, -, -, hdiffer⟩ :=
    recovery_agrees_but_for_events (Demo.expiredClaim 7) rfl rfl rfl h₁ h₂
  exact ⟨ids, u, s₁, s₂, h₁, h₂, hrow, hletters, hdiffer⟩

/-- A lease that expired: the recovery records `job.retry_scheduled` alone, the owner `job.failed` before
it. -/
theorem recovery_without_failed_event :
    ∃ ids u s₁ s₂,
      recoverExpiredRunningJobs Demo.recovering (fun _ => false) (Demo.claimedStore 7)
        = .ok (ids, s₁) ∧
      Demo.failing 7 ((Demo.claimedJob 7).decision (40 * second)) (Demo.claimedStore 7) = .ok (u, s₂) ∧
      (s₁.viewOf 1).outcomes = [(11, .failed, some true)] ∧
      (s₁.viewOf 1).eventTypes = [.named .retryScheduled] ∧
      (s₂.viewOf 1).eventTypes = [.named .failed, .named .retryScheduled] :=
  ⟨_, _, _, _, rfl, rfl, by decide +kernel, by decide +kernel, by decide +kernel⟩

/-- The older steps and the failure by the owner agree on the row.  They agree on the dead letter if
the job is of the default tenant, and never on the events: the steps write none. -/
theorem steps_agree_but_for_events {now now' : Time} {c : ClaimedJob} {w message : String}
    {finalRetryCount durationMS : Int} {deadLetterID : UUID} {fids : FailureIDs} {runAt : Time}
    {outcome : ExecutionResult} {u u' u'' : Unit} {s₁ s₂ s₃ : Store} (hmessage : outcome.message = message)
    (hattempt : failAttempt now' c.activeAttemptID durationMS message s = .ok (u, s₁))
    (hmove : moveToDeadLetterByWorker now deadLetterID c.toJob w message finalRetryCount s₁
      = .ok (u', s₂))
    (hfail : failExecution now fids c w durationMS outcome .deadLettered finalRetryCount runAt s
      = .ok (u'', s₃)) :
    (s₂.viewOf c.id).row = (s₃.viewOf c.id).row ∧
      ((s₂.viewOf c.id).letters = (s₃.viewOf c.id).letters ↔ c.tenantID = defaultTenantID) ∧
      (s₂.viewOf c.id).eventTypes = (s.viewOf c.id).eventTypes ∧
      (s₃.viewOf c.id).eventTypes
        = (s.viewOf c.id).eventTypes ++ [.named .failed, .named .deadLettered] ∧
      ¬(s₂.viewOf c.id).Agrees (s₃.viewOf c.id) := by
  obtain ⟨hrow₁, hletters₁, hevents₁⟩ := failAttempt_view hattempt c.id
  obtain ⟨hrow₂, hletters₂, hevents₂⟩ := moveToDeadLetterByWorker_view hmove
  have hsettled := failExecution_settled hfail
  have hevents₃ := failExecution_eventTypes hfail
  rw [if_pos rfl] at hevents₃
  have hevents : (s₂.viewOf c.id).eventTypes = (s.viewOf c.id).eventTypes := hevents₂.trans hevents₁
  refine ⟨?_, ?_, hevents, hevents₃, ?_⟩
  · rw [hrow₂, hrow₁, hsettled.row, hmessage]
    rfl
  · rw [hletters₂, hletters₁, hsettled.letters, hmessage, settledLetters, if_pos rfl,
      List.append_cancel_left_eq, List.cons_eq_cons]
    constructor
    · intro h
      exact (congrArg DeadLetterJob.tenantID h.1).symm
    · intro h
      refine ⟨?_, rfl⟩
      rw [← h]
      rfl
  · intro hagrees
    have hlength := congrArg List.length (hevents.symm.trans (hagrees.eventTypes.trans hevents₃))
    simp at hlength

theorem steps_agree_but_for_events_exhausted :
    ∃ u u' u'' s₁ s₂ s₃,
      failAttempt (39 * second) 11 5 leaseExpired (Demo.claimedStore 7) = .ok (u, s₁) ∧
      moveToDeadLetterByWorker (40 * second) 21 (Demo.claimedJob 7).toJob "a" leaseExpired 1 s₁
        = .ok (u', s₂) ∧
      Demo.failing 7 ⟨.deadLettered, 1, 0⟩ (Demo.claimedStore 7) = .ok (u'', s₃) ∧
      (s₂.viewOf 1).row = (s₃.viewOf 1).row ∧ ¬(s₂.viewOf 1).Agrees (s₃.viewOf 1) := by
  obtain ⟨u, u', s₁, s₂, h₁, h₂⟩ : ∃ u u' s₁ s₂,
      failAttempt (39 * second) 11 5 leaseExpired (Demo.claimedStore 7) = .ok (u, s₁) ∧
      moveToDeadLetterByWorker (40 * second) 21 (Demo.claimedJob 7).toJob "a" leaseExpired 1 s₁
        = .ok (u', s₂) := ⟨_, _, _, _, rfl, rfl⟩
  obtain ⟨u'', s₃, h₃⟩ : ∃ u'' s₃, Demo.failing 7 ⟨.deadLettered, 1, 0⟩ (Demo.claimedStore 7)
      = .ok (u'', s₃) := ⟨_, _, rfl⟩
  obtain ⟨hrow, -, -, -, hdiffer⟩ := steps_agree_but_for_events rfl h₁ h₂ h₃
  exact ⟨u, u', u'', s₁, s₂, s₃, h₁, h₂, h₃, hrow, hdiffer⟩

/-- A job of tenant `7`: the older steps leave a dead letter of the default tenant and no event. -/
theorem steps_change_tenant :
    ∃ u u' u'' s₁ s₂ s₃,
      failAttempt (39 * second) 11 5 leaseExpired (Demo.claimedStore 7) = .ok (u, s₁) ∧
      moveToDeadLetterByWorker (40 * second) 21 (Demo.claimedJob 7).toJob "a" leaseExpired 1 s₁
        = .ok (u', s₂) ∧
      Demo.failing 7 ⟨.deadLettered, 1, 0⟩ (Demo.claimedStore 7) = .ok (u'', s₃) ∧
      (s₂.viewOf 1).letters.map (fun d => d.tenantID) = [defaultTenantID] ∧
      (s₃.viewOf 1).letters.map (fun d => d.tenantID) = [7] ∧
      (s₂.viewOf 1).eventTypes = [] ∧
      (s₃.viewOf 1).eventTypes = [.named .failed, .named .deadLettered] :=
  ⟨_, _, _, _, _, _, rfl, rfl, rfl, by decide +kernel, by decide +kernel, by decide +kernel,
    by decide +kernel⟩

end JobScheduler
