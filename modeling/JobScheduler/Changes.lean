import JobScheduler.History

/-!
# What one commit does to one row

The projection of a commit to a single job row and to a single attempt row.  A job row is either
inserted (`NewRow`) or rewritten in one of seven ways (`RowChange`), and only the row of the entry's
own job is touched.  An attempt is inserted by a claim; after that it changes at most once, when an
entry closes it (`Entry.Closes`) while it is RUNNING.

The columns no statement rewrites are collected in `Job.identity`.
-/

namespace JobScheduler

open KeyedTable

variable {h : List Entry} {s s' : Store} {e : Entry}

/-! ### Job rows -/

/-- The columns of a job that no statement changes after the insert. -/
structure JobIdentity where
  id : UUID
  tenantID : UUID
  name : String
  jobType : String
  payload : RawMessage
  priority : Int
  maxRetries : Int
  retryBackoffSeconds : Int
  timeoutSeconds : Int
  createdBy : Option String
  createdAt : Time
  idempotencyKey : Option String
  requestHash : Option String

/-- The unchanging columns of a job. -/
def Job.identity (j : Job) : JobIdentity :=
  ⟨j.id, j.tenantID, j.name, j.jobType, j.payload, j.priority, j.maxRetries, j.retryBackoffSeconds,
    j.timeoutSeconds, j.createdBy, j.createdAt, j.idempotencyKey, j.requestHash⟩

/-- The rows that are inserted into `jobs`. -/
inductive NewRow : Entry → JobRow → Prop where
  | created (now : Time) {j : Job} (hj : Submitted j) : NewRow (.created j.id) (createRow now j)
  | requeued (now clock : Time) (newID tenantID : UUID) (dl : DeadLetterJob) (runAt : Time) :
      NewRow (.requeued newID dl.id) (requeueRow now clock newID tenantID dl runAt)

/-- The row a failed attempt leaves behind, with the status it ends in. -/
inductive Settled (now : Time) (retryCount : Int) (message : String) (r : JobRow) :
    Status → JobRow → Prop where
  | buried : Settled now retryCount message r .deadLettered (buryRow now retryCount message r)
  | retried (runAt : Time) :
      Settled now retryCount message r .retryScheduled (retryRow now retryCount runAt message r)

/-- The ways an entry rewrites the row `r` of its job. -/
inductive RowChange (h : List Entry) (r : JobRow) : Entry → JobRow → Prop where
  | claimed (x : ClaimArgs) (hr : r.ClaimableAt x.now) :
      RowChange h r (.claimed x.workerID (x.claimed r)) (x.lease r)
  | extended (now : Time) (ttl : Duration) {w : String} {c : ClaimedJob} (hp : Executing h w c)
      (hrun : r.status = .running) (hby : r.lockedBy = some w) :
      RowChange h r (.extended w c) (extendedRow now ttl r)
  | completed (now : Time) {w : String} {c : ClaimedJob} (hp : Executing h w c)
      (hrun : r.status = .running) (hby : r.lockedBy = some w) :
      RowChange h r (.completed w c) (succeededRow now r)
  | failed {now : Time} {message : String} {status : Status} {r' : JobRow} {w : String}
      {c : ClaimedJob} {retryable : Bool} (hp : Executing h w c) (hrun : r.status = .running)
      (hby : r.lockedBy = some w) (hs : Settled now (c.retryCount + 1) message r status r')
      (hd : status = .deadLettered ↔ c.maxRetries < c.retryCount + 1 ∨ retryable = false) :
      RowChange h r (.failed w c) r'
  | released (now : Time) {w : String} {c : ClaimedJob} (hp : Pending h w c)
      (hrun : r.status = .running) (hby : r.lockedBy = some w) :
      RowChange h r (.released w c) (releasedRow now .retryScheduled r)
  | transitioned (now : Time) {op : Operation} (hfrom : r.status ∈ op.allowedFrom) :
      RowChange h r (.transitioned r.id op) (operatorRow now op.target r)
  | recovered {now : Time} {message : String} {status : Status} {r' : JobRow}
      (hrun : r.status = .running) (hs : Settled now (r.retryCount + 1) message r status r')
      (hd : status = .deadLettered ↔ r.maxRetries < r.retryCount + 1) :
      RowChange h r (.recovered r.id) r'

/-- The row under a key after a failed attempt was settled. -/
theorem Settles.find?_cases {now : Time} {j : Job} {retryCount : Int} {message : String}
    {status : Status} {r : JobRow} (hs : Settles now j retryCount message s s' status)
    (hr : s.jobs.find? j.id = some r) (k : UUID) :
    (k ≠ j.id ∧ s'.jobs.find? k = s.jobs.find? k) ∨
      (k = j.id ∧ ∃ r', Settled now retryCount message r status r' ∧ s'.jobs.find? k = some r') := by
  cases hs with
  | buried _ hjobs _ =>
    rw [hjobs]
    rcases Table.find?_modify_cases hr (buryRow now retryCount message) _ k with hk | ⟨hk, hk'⟩
    · exact .inl hk
    · exact .inr ⟨hk, _, .buried, hk'⟩
  | retried runAt hjobs _ =>
    rw [hjobs]
    rcases Table.find?_modify_cases hr (retryRow now retryCount runAt message) _ k with hk | ⟨hk, hk'⟩
    · exact .inl hk
    · exact .inr ⟨hk, _, .retried runAt, hk'⟩

/-- When `ProcessJob` asks for a dead letter. -/
theorem decideOutcome_deadLettered_iff (clock clock' : Time) (c : ClaimedJob) (err : ExecError) :
    (if (decideOutcome clock clock' c err).nextStatus = .deadLettered then Status.deadLettered
      else .retryScheduled) = .deadLettered ↔
      c.maxRetries < c.retryCount + 1 ∨ (classifyError err).retryable = false := by
  rw [← decideFailure_deadLettered_iff clock c.retryCount c.maxRetries c.retryBackoffSeconds]
  simp only [decideOutcome]
  split <;> simp_all

/-- **One row per commit.**  A commit inserts or rewrites the row of its entry's own job and leaves
every other row alone; only the start of an execution touches no row at all. -/
theorem Commit.job_cases (hc : Commit h s e s') (k : UUID) :
    ((k = e.jobID → ∃ w c, e = .executed w c) ∧ s'.jobs.find? k = s.jobs.find? k) ∨
      (k = e.jobID ∧ s.jobs.find? k = none ∧ ∃ r', NewRow e r' ∧ s'.jobs.find? k = some r') ∨
      (k = e.jobID ∧ ∃ r r', s.jobs.find? k = some r ∧ RowChange h r e r' ∧
        s'.jobs.find? k = some r') := by
  cases hc with
  | created hj hc =>
    rcases Table.find?_insert_cases hc.jobs k with ⟨hne, hk⟩ | ⟨hk, hnone, hsome⟩
    · exact .inl ⟨fun he => absurd he hne, hk⟩
    · exact .inr (.inl ⟨hk, hnone, _, .created _ hj, hsome⟩)
  | requeued hc =>
    rcases Table.find?_insert_cases hc.jobs k with ⟨hne, hk⟩ | ⟨hk, hnone, hsome⟩
    · exact .inl ⟨fun he => absurd he hne, hk⟩
    · exact .inr (.inl ⟨hk, hnone, _, .requeued _ _ _ _ _ _, hsome⟩)
  | @claimed x r _ hrow hr hc =>
    rw [hc.jobs]
    rcases Table.find?_modify_cases hrow x.lease x.lease_id k with ⟨hne, hk⟩ | ⟨rfl, hk⟩
    · exact .inl ⟨fun he => absurd he hne, hk⟩
    · exact .inr (.inr ⟨rfl, r, _, hrow, .claimed x hr, hk⟩)
  | @extended now ttl w c r _ hp hid hc =>
    rw [hc.jobs]
    rcases Table.find?_modify_cases hc.row (extendedRow now ttl) _ k with ⟨hne, hk⟩ | ⟨rfl, hk⟩
    · exact .inl ⟨fun he => absurd (he.trans hid.symm) hne, hk⟩
    · exact .inr (.inr ⟨hid, r, _, hc.row, .extended now ttl hp hc.running hc.lockedBy, hk⟩)
  | executed hp => exact .inl ⟨fun _ => ⟨_, _, rfl⟩, rfl⟩
  | @completed now _ _ w c r _ _ hp hc =>
    rw [hc.jobs]
    rcases Table.find?_modify_cases hc.row (succeededRow now) _ k with ⟨hne, hk⟩ | ⟨rfl, hk⟩
    · exact .inl ⟨fun he => absurd he hne, hk⟩
    · exact .inr (.inr ⟨rfl, r, _, hc.row, .completed now hp hc.running hc.lockedBy, hk⟩)
  | @failed now clock clock' _ err w c r _ _ hp hc =>
    rcases hc.settles.find?_cases hc.row k with ⟨hne, hk⟩ | ⟨rfl, r', hs, hk⟩
    · exact .inl ⟨fun he => absurd he hne, hk⟩
    · refine .inr (.inr ⟨rfl, r, r', hc.row, ?_, hk⟩)
      have hcount : (decideOutcome clock clock' c err).nextRetryCount = c.retryCount + 1 :=
        decideFailure_nextRetryCount _ _ _ _
      rw [hcount] at hs
      exact .failed hp hc.running hc.lockedBy hs (decideOutcome_deadLettered_iff clock clock' c err)
  | @released now w c r _ hp hid hc =>
    rw [hc.jobs]
    rcases Table.find?_modify_cases hc.row (releasedRow now .retryScheduled) _ k with ⟨hne, hk⟩ | ⟨rfl, hk⟩
    · exact .inl ⟨fun he => absurd (he.trans hid.symm) hne, hk⟩
    · exact .inr (.inr ⟨hid, r, _, hc.row, .released now hp hc.running hc.lockedBy, hk⟩)
  | @transitioned now _ op r _ hc =>
    rw [hc.jobs]
    rcases Table.find?_modify_cases hc.row (operatorRow now op.target) _ k with ⟨hne, hk⟩ | ⟨rfl, hk⟩
    · exact .inl ⟨fun he => absurd he hne, hk⟩
    · exact .inr (.inr ⟨rfl, r, _, hc.row, .transitioned now hc.allowed, hk⟩)
  | @recovered x r _ hrow hr hc =>
    rcases hc.settles.find?_cases hrow k with ⟨hne, hk⟩ | ⟨rfl, r', hs, hk⟩
    · exact .inl ⟨fun he => absurd he hne, hk⟩
    · exact .inr (.inr ⟨rfl, r, r', hrow,
        .recovered hr.1 hs (decideFailure_deadLettered_iff _ _ _ _), hk⟩)

/-! ### Attempts -/

/-- The entry finalizes the attempt, if it is RUNNING. -/
def Entry.Closes (e : Entry) (a : Attempt) : Prop :=
  match e with
  | .completed _ c => a.id = c.activeAttemptID
  | .failed _ c => a.id = c.activeAttemptID
  | .transitioned id .cancel => a.jobID = id
  | .recovered id => a.jobID = id
  | _ => False

/-- The ways an entry rewrites a RUNNING attempt. -/
inductive AttemptChange (h : List Entry) (a : Attempt) : Entry → Attempt → Prop where
  | completed (now : Time) (durationMS : Int) (result : RawMessage) {w : String} {c : ClaimedJob}
      (hp : Executing h w c) (hid : a.id = c.activeAttemptID) :
      AttemptChange h a (.completed w c) (succeededAttempt now durationMS result a)
  | failed (now : Time) (durationMS : Int) (outcome : ExecutionResult) {w : String}
      {c : ClaimedJob} (hp : Executing h w c) (hid : a.id = c.activeAttemptID) :
      AttemptChange h a (.failed w c) (failedAttempt now durationMS outcome a)
  | cancelled (now : Time) {id : UUID} (hj : a.jobID = id) :
      AttemptChange h a (.transitioned id .cancel) (cancelledAttempt now a)
  | recovered (x : RecoverArgs) {id : UUID} (hj : a.jobID = id) :
      AttemptChange h a (.recovered id) (x.expired a)

/-- Outside the entry's own job no row changes. -/
theorem Commit.job_frame (hc : Commit h s e s') {k : UUID} (hk : k ≠ e.jobID) :
    s'.jobs.find? k = s.jobs.find? k := by
  rcases hc.job_cases k with ⟨-, hsame⟩ | ⟨he, -⟩ | ⟨he, -⟩
  · exact hsame
  · exact absurd he hk
  · exact absurd he hk

/-- A row after a commit was there before, or the entry inserted it, or the entry rewrote one. -/
theorem Commit.row_cases (hc : Commit h s e s') {k : UUID} {r' : JobRow}
    (hr' : s'.jobs.find? k = some r') :
    s.jobs.find? k = some r' ∨ (k = e.jobID ∧ s.jobs.find? k = none ∧ NewRow e r') ∨
      (k = e.jobID ∧ ∃ r, s.jobs.find? k = some r ∧ RowChange h r e r') := by
  rcases hc.job_cases k with ⟨-, hk⟩ | ⟨hk, hnone, r₁, hn, hr₁⟩ | ⟨hk, r, r₁, hr, hch, hr₁⟩
  · exact .inl (hk.symm.trans hr')
  · obtain rfl := Option.some.inj (hr₁.symm.trans hr')
    exact .inr (.inl ⟨hk, hnone, hn⟩)
  · obtain rfl := Option.some.inj (hr₁.symm.trans hr')
    exact .inr (.inr ⟨hk, r, hr, hch⟩)

/-- Only failures and recoveries bury a job. -/
theorem RowChange.of_buried (hch : RowChange h r e r') (hd : r'.status = .deadLettered) :
    (∃ w c, e = .failed w c) ∨ ∃ id, e = .recovered id := by
  cases hch with
  | claimed => cases hd
  | extended now ttl _ hrun _ =>
    have hd : r.status = .deadLettered := hd
    rw [hrun] at hd
    cases hd
  | completed => cases hd
  | failed => exact .inl ⟨_, _, rfl⟩
  | released => cases hd
  | @transitioned now op _ =>
    have htarget : op.target = .deadLettered := hd
    cases op <;> cases htarget
  | recovered => exact .inr ⟨_, rfl⟩

/-- The columns of an attempt that no statement changes after the insert. -/
structure AttemptIdentity where
  id : UUID
  jobID : UUID
  tenantID : UUID
  workerID : String
  attemptNumber : Int
  startedAt : Time
  createdAt : Time

/-- The unchanging columns of an attempt. -/
def Attempt.identity (a : Attempt) : AttemptIdentity :=
  ⟨a.id, a.jobID, a.tenantID, a.workerID, a.attemptNumber, a.startedAt, a.createdAt⟩

theorem AttemptChange.identity_eq {a a' : Attempt} (hc : AttemptChange h a e a') :
    a'.identity = a.identity := by
  cases hc <;> rfl

theorem AttemptChange.status_ne {a a' : Attempt} (hc : AttemptChange h a e a') :
    a'.status ≠ .running := by
  cases hc <;> exact fun he => by cases he

/-- The attempt under a key when an entry rewrites the RUNNING attempt `attemptID`. -/
private theorem modify_attempt_cases {attemptID : UUID} {a : Attempt}
    (ha : s.attempts.find? attemptID = some a) (f : Attempt → Attempt) (hf : ∀ a, (f a).id = a.id)
    (k : UUID) :
    ((s.attempts.modify attemptID f hf).find? k = s.attempts.find? k ∧
        ∀ a, s.attempts.find? k = some a → a.id ≠ attemptID) ∨
      (k = attemptID ∧ (s.attempts.modify attemptID f hf).find? k = some (f a)) := by
  by_cases hk : k = attemptID
  · subst hk
    exact .inr ⟨rfl, Table.find?_modify_self ha f hf⟩
  · refine .inl ⟨Table.find?_modify_ne _ hk f hf, ?_⟩
    intro b hb hid
    exact hk ((Table.find?_eq_some_iff.1 hb).2.symm.trans hid)

/-- The attempt under a key when an entry rewrites the RUNNING attempts of the job `j`. -/
private theorem update_attempt_cases (t : Table Attempt) (j : UUID) (f : Attempt → Attempt)
    (hf : ∀ a, (f a).id = a.id) (k : UUID) :
    ((t.update (fun a => a.jobID = j ∧ a.status = .running) f hf).find? k = t.find? k ∧
        ∀ a, t.find? k = some a → a.status = .running → a.jobID ≠ j) ∨
      ∃ a, t.find? k = some a ∧ a.status = .running ∧ a.jobID = j ∧
        (t.update (fun a => a.jobID = j ∧ a.status = .running) f hf).find? k = some (f a) := by
  rcases Table.find?_update_cases t (fun a => a.jobID = j ∧ a.status = .running) f hf k with
    ⟨hk, hno⟩ | ⟨a, ha, ⟨hj, hrun⟩, hk⟩
  · exact .inl ⟨hk, fun a ha hrun hj => hno a ha ⟨hj, hrun⟩⟩
  · exact .inr ⟨a, ha, hrun, hj, hk⟩

/-- **Attempts are closed at most once.**  A commit leaves the attempt under a key alone, unless it is
RUNNING and closed by the entry; a claim inserts its own. -/
theorem Commit.attempt_cases (hc : Commit h s e s') (k : UUID) :
    (s'.attempts.find? k = s.attempts.find? k ∧
        ∀ a, s.attempts.find? k = some a → a.status = .running → ¬e.Closes a) ∨
      (s.attempts.find? k = none ∧ ∃ (x : ClaimArgs) (r : JobRow),
        e = .claimed x.workerID (x.claimed r) ∧ s.jobs.find? r.id = some r ∧
        k = (x.attemptID r.id).val ∧ s'.attempts.find? k = some (x.attempt r)) ∨
      (∃ a a', s.attempts.find? k = some a ∧ a.status = .running ∧ AttemptChange h a e a' ∧
        s'.attempts.find? k = some a') := by
  cases hc with
  | created _ hc =>
    rw [hc.attempts]
    exact .inl ⟨rfl, fun _ _ _ => id⟩
  | requeued hc =>
    rw [hc.attempts]
    exact .inl ⟨rfl, fun _ _ _ => id⟩
  | @claimed x r _ hrow _ hc =>
    rcases Table.find?_insert_cases hc.attempts k with ⟨-, hk⟩ | ⟨hk, hnone, hsome⟩
    · exact .inl ⟨hk, fun _ _ _ => id⟩
    · exact .inr (.inl ⟨hnone, x, r, rfl, hrow, hk, hsome⟩)
  | extended _ _ hc =>
    rw [hc.attempts]
    exact .inl ⟨rfl, fun _ _ _ => id⟩
  | executed _ => exact .inl ⟨rfl, fun _ _ _ => id⟩
  | completed hp hc =>
    rw [hc.attempts]
    rcases modify_attempt_cases hc.attempt _ (succeededAttempt_id _ _ _) k with ⟨hk, hno⟩ | ⟨rfl, hk⟩
    · exact .inl ⟨hk, fun a ha _ => hno a ha⟩
    · exact .inr (.inr ⟨_, _, hc.attempt, hc.attemptRunning,
        .completed _ _ _ hp (Table.find?_eq_some_iff.1 hc.attempt).2, hk⟩)
  | failed hp hc =>
    rw [hc.attempts]
    rcases modify_attempt_cases hc.attempt _ (failedAttempt_id _ _ _) k with ⟨hk, hno⟩ | ⟨rfl, hk⟩
    · exact .inl ⟨hk, fun a ha _ => hno a ha⟩
    · exact .inr (.inr ⟨_, _, hc.attempt, hc.attemptRunning,
        .failed _ _ _ hp (Table.find?_eq_some_iff.1 hc.attempt).2, hk⟩)
  | released _ _ hc =>
    rw [hc.attempts]
    exact .inl ⟨rfl, fun _ _ _ => id⟩
  | @transitioned now _ op r _ hc =>
    rw [hc.attempts]
    cases op with
    | cancel =>
      rw [if_pos (show Operation.cancel.target = .cancelled from rfl)]
      rcases update_attempt_cases s.attempts r.id _ (cancelledAttempt_id now) k with
        ⟨hk, hno⟩ | ⟨a, ha, hrun, hj, hk⟩
      · exact .inl ⟨hk, hno⟩
      · exact .inr (.inr ⟨a, _, ha, hrun, .cancelled now hj, hk⟩)
    | pause => exact .inl ⟨rfl, fun _ _ _ => id⟩
    | resume => exact .inl ⟨rfl, fun _ _ _ => id⟩
    | retry => exact .inl ⟨rfl, fun _ _ _ => id⟩
  | @recovered x r _ _ _ hc =>
    rw [hc.attempts]
    rcases update_attempt_cases s.attempts r.id _ x.expired_id k with
      ⟨hk, hno⟩ | ⟨a, ha, hrun, hj, hk⟩
    · exact .inl ⟨hk, hno⟩
    · exact .inr (.inr ⟨a, _, ha, hrun, .recovered x hj, hk⟩)

/-- An attempt that is not RUNNING stays as it is. -/
theorem Commit.attempt_kept (hc : Commit h s e s') {k : UUID} {a : Attempt}
    (ha : s.attempts.find? k = some a) (hrun : a.status ≠ .running) :
    s'.attempts.find? k = some a := by
  rcases hc.attempt_cases k with ⟨hk, -⟩ | ⟨hnone, -⟩ | ⟨a₀, a', ha₀, hrun₀, -, -⟩
  · exact hk.trans ha
  · rw [hnone] at ha
    exact absurd ha (by simp)
  · obtain rfl := Option.some.inj (ha₀.symm.trans ha)
    exact absurd hrun₀ hrun

/-! ### Row by row along a log -/

/-- **Row invariants.**  What holds of every inserted row and is kept by every rewriting holds of
every row of every log. -/
theorem Log.row_invariant {P : JobRow → Prop} (hnew : ∀ {e r}, NewRow e r → P r)
    (hstep : ∀ {h s e r r'}, Log h s → s.jobs.find? e.jobID = some r → RowChange h r e r' → P r → P r')
    (hl : Log h s) {k : UUID} {r : JobRow} (hr : s.jobs.find? k = some r) : P r := by
  induction hl generalizing r with
  | nil => simp [Store.empty] at hr
  | cons hl hc ih =>
    rcases hc.row_cases hr with hold | ⟨-, -, hn⟩ | ⟨rfl, r₀, hr₀, hch⟩
    · exact ih hold
    · exact hnew hn
    · exact hstep hl hr₀ hch (ih hr₀)

/-! ### Along a path -/

/-- The row of a job changes by at most one commit along entries about distinct jobs. -/
theorem Path.job_cases {es : List Entry} (hp : Path h s es s')
    (hnodup : (es.map Entry.jobID).Nodup) (k : UUID) :
    s'.jobs.find? k = s.jobs.find? k ∨
      ∃ h₁ s₁ s₂ e, e ∈ es ∧ e.jobID = k ∧ Commit h₁ s₁ e s₂ ∧
        s₁.jobs.find? k = s.jobs.find? k ∧ s'.jobs.find? k = s₂.jobs.find? k := by
  induction hp with
  | nil => exact .inl rfl
  | @cons es s₁ s' e hp hc ih =>
    rw [List.map_cons, List.nodup_cons] at hnodup
    by_cases hk : e.jobID = k
    · -- the other entries are about other jobs, so the row was untouched before
      refine .inr ⟨es ++ h, s₁, s', e, List.mem_cons_self, hk, hc, ?_, rfl⟩
      rcases ih hnodup.2 with hsame | ⟨-, -, -, e', hm, hk', -⟩
      · exact hsame
      · exact absurd (hk.trans hk'.symm ▸ List.mem_map_of_mem hm) hnodup.1
    · have hframe : s'.jobs.find? k = s₁.jobs.find? k := hc.job_frame (Ne.symm hk)
      rcases ih hnodup.2 with hsame | ⟨h₁, s₀, s₂, e', hm, hk', hc', h₀, h₂⟩
      · exact .inl (hframe.trans hsame)
      · exact .inr ⟨h₁, s₀, s₂, e', List.mem_cons_of_mem _ hm, hk', hc', h₀, hframe.trans h₂⟩

end JobScheduler
