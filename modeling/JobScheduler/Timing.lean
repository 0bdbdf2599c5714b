import JobScheduler.Coherence
import JobScheduler.FailurePaths

/-!
# Timestamps and leases along a run

All timestamps are PostgreSQL's `now()`, the time at which a transaction began.  Transactions that
overlap can commit in another order than they began in: `Punctual δ T` says that the times of a run go
back by at most `δ` and stay below `T`.

* `Store.Timed` — in every table, what comes later is not stamped earlier, up to `δ`, and no lease
  outlives the last update of its job by more than `L`.
* `create_timed`, …, `recoverExpiredRunningJobs_timed` — every operation keeps that, by the rules of
  `Tx.Keeps`.
* `timestamps_in_order` — the tables after every punctual run.
* `expired_jobs_recovered` — one poll later than every lease can reach frees all RUNNING jobs.
-/

namespace JobScheduler

open KeyedTable Transaction TransitionSystem

/-! ### The times of a run -/

/-- `now()` in the writing transaction of an API step. -/
def ApiAct.now? : ApiAct → Option Time
  | .create _ _ _ _ _ now _ => some now
  | .writeJob _ _ now _ => some now
  | .requeue _ _ _ _ _ _ now _ => some now
  | .lookup _ _ => none
  | .readJob _ _ _ _ => none

/-- `now()` in the transaction of a step of the claim loop. -/
def LoopAct.now? : LoopAct → Option Time
  | .recover x _ _ => some x.now
  | .claim x _ _ => some x.now
  | _ => none

/-- `now()` in the transaction of a step of a slot. -/
def SlotAct.now? : SlotAct → Option Time
  | .release now _ => some now
  | .createAttempt _ now _ => some now
  | .extendLease now _ => some now
  | .complete _ _ now _ => some now
  | .fail _ _ _ _ now _ => some now
  | _ => none

/-- `now()` in the writing transaction of a step. -/
def Act.now? : Act → Option Time
  | .api a => a.now?
  | .loop _ a => a.now?
  | .slot _ _ a => a.now?
  | .crash _ => none
  | .expireLock _ => none

/-- The times of the writing transactions of a run. -/
def times (xs : List Act) : List Time := xs.filterMap Act.now?

theorem times_snoc (xs : List Act) (x : Act) : times (xs ++ [x]) = times xs ++ x.now?.toList := by
  cases h : x.now? <;> simp [times, h]

/-- The times of a run go back by at most `δ`, and stay up to `T`. -/
structure Punctual (δ : Duration) (T : Time) (xs : List Act) : Prop where
  nonneg : 0 ≤ δ
  ordered : (times xs).Pairwise fun t t' => t ≤ t' + δ
  bounded : ∀ t ∈ times xs, t ≤ T

instance (δ : Duration) (T : Time) (xs : List Act) : Decidable (Punctual δ T xs) :=
  decidable_of_iff (0 ≤ δ ∧ (times xs).Pairwise (fun t t' => t ≤ t' + δ) ∧ ∀ t ∈ times xs, t ≤ T)
    ⟨fun h => ⟨h.1, h.2.1, h.2.2⟩, fun h => ⟨h.1, h.2, h.3⟩⟩

/-- `now` is the time of a transaction in a run up to `T`: the latest time, up to `δ`. -/
structure Current (δ : Duration) (T now : Time) : Prop where
  le : now ≤ T
  ge : T ≤ now + δ

/-! ### Timed tables -/

section Rows

variable {δ L : Duration} {T now : Time}

/-- A timestamp, if it is set, lies between `lo` and `hi`, up to `δ` at the lower end. -/
def Within (δ : Duration) (lo hi : Time) (o : Option Time) : Prop := ∀ t ∈ o, lo ≤ t + δ ∧ t ≤ hi

theorem Within.none {lo hi : Time} : Within δ lo hi none := fun _ ht => nomatch ht

/-- A statement at `now` leaves a timestamp as it was, or sets it to `now`. -/
theorem Within.touched {lo : Time} {o o' : Option Time} (h : Within δ lo T o)
    (hc : Current δ T now) (hlo : lo ≤ T) (ho : ∀ t ∈ o', t ∈ o ∨ t = now) : Within δ lo T o' := by
  intro t ht
  rcases ho t ht with hold | rfl
  · exact h t hold
  · exact ⟨hlo.trans hc.ge, hc.le⟩

/-- The timestamps of a job are in order, and its lease ends at most `L` after its last update. -/
structure JobRow.Timed (δ L : Duration) (T : Time) (r : JobRow) : Prop where
  created : r.createdAt ≤ T
  updated : r.updatedAt ≤ T
  later : r.createdAt ≤ r.updatedAt + δ
  completed : Within δ r.createdAt T r.completedAt
  failed : Within δ r.createdAt T r.failedAt
  cancelled : Within δ r.createdAt T r.cancelledAt
  last : ∀ t, t ∈ r.completedAt ∨ t ∈ r.failedAt ∨ t ∈ r.cancelledAt → t ≤ r.updatedAt + δ
  leased : ∀ t ∈ r.lockedUntil, t ≤ r.updatedAt + L

/-- A row inserted at `now`. -/
theorem JobRow.Timed.fresh {r : JobRow} (hc : Current δ T now) (hcreated : r.createdAt = now)
    (hupdated : r.updatedAt = now) (hcompleted : r.completedAt = none) (hfailed : r.failedAt = none)
    (hcancelled : r.cancelledAt = none) (hlease : r.lockedUntil = none) : r.Timed δ L T := by
  have hT : r.createdAt ≤ T := hcreated.trans_le hc.le
  refine ⟨hT, hupdated.trans_le hc.le, ?_, ?_, ?_, ?_, ?_, ?_⟩
  · rw [hupdated]
    exact hT.trans hc.ge
  · exact hcompleted ▸ .none
  · exact hfailed ▸ .none
  · exact hcancelled ▸ .none
  · simp [hcompleted, hfailed, hcancelled]
  · simp [hlease]

/-- A row updated at `now`: what is stamped is stamped with `now`, and at most `L` is granted. -/
theorem JobRow.Timed.touched {r r' : JobRow} (hr : r.Timed δ L T) (hc : Current δ T now)
    (hcreated : r'.createdAt = r.createdAt) (hupdated : r'.updatedAt = now)
    (hcompleted : ∀ t ∈ r'.completedAt, t ∈ r.completedAt ∨ t = now)
    (hfailed : ∀ t ∈ r'.failedAt, t ∈ r.failedAt ∨ t = now)
    (hcancelled : ∀ t ∈ r'.cancelledAt, t ∈ r.cancelledAt ∨ t = now)
    (hlease : ∀ t ∈ r'.lockedUntil, t ≤ now + L) : r'.Timed δ L T := by
  have hcompleted' := hr.completed.touched hc hr.created hcompleted
  have hfailed' := hr.failed.touched hc hr.created hfailed
  have hcancelled' := hr.cancelled.touched hc hr.created hcancelled
  rw [← hcreated] at hcompleted' hfailed' hcancelled'
  refine ⟨?_, hupdated.trans_le hc.le, ?_, hcompleted', hfailed', hcancelled', ?_, ?_⟩
  · rw [hcreated]
    exact hr.created
  · rw [hcreated, hupdated]
    exact hr.created.trans hc.ge
  · rw [hupdated]
    rintro t (ht | ht | ht)
    · exact (hcompleted' t ht).2.trans hc.ge
    · exact (hfailed' t ht).2.trans hc.ge
    · exact (hcancelled' t ht).2.trans hc.ge
  · rwa [hupdated]

/-- An attempt starts when it is inserted and ends later. -/
structure Attempt.Timed (δ : Duration) (T : Time) (a : Attempt) : Prop where
  started : a.startedAt ≤ T
  inserted : a.createdAt = a.startedAt
  completed : Within δ a.startedAt T a.completedAt
  failed : Within δ a.startedAt T a.failedAt

/-- An attempt closed at `now`. -/
theorem Attempt.Timed.closed {a a' : Attempt} (ha : a.Timed δ T) (hc : Current δ T now)
    (hstarted : a'.startedAt = a.startedAt) (hinserted : a'.createdAt = a.createdAt)
    (hcompleted : ∀ t ∈ a'.completedAt, t ∈ a.completedAt ∨ t = now)
    (hfailed : ∀ t ∈ a'.failedAt, t ∈ a.failedAt ∨ t = now) : a'.Timed δ T := by
  have hcompleted' := ha.completed.touched hc ha.started hcompleted
  have hfailed' := ha.failed.touched hc ha.started hfailed
  rw [← hstarted] at hcompleted' hfailed'
  exact ⟨hstarted.trans_le ha.started, hinserted.trans (ha.inserted.trans hstarted.symm), hcompleted',
    hfailed'⟩

/-- A dead letter is requeued after it was filed. -/
structure DeadLetterJob.Timed (δ : Duration) (T : Time) (d : DeadLetterJob) : Prop where
  filed : d.failedAt ≤ T
  requeued : Within δ d.failedAt T d.requeuedAt

/-- The tables are in order. -/
structure Store.Timed (δ L : Duration) (T : Time) (s : Store) : Prop where
  jobs : ∀ r ∈ s.jobs.rows, r.Timed δ L T
  attempts : ∀ a ∈ s.attempts.rows, a.Timed δ T
  deadLetters : ∀ d ∈ s.deadLetters.rows, d.Timed δ T
  events : ∀ e ∈ s.events.rows, e.createdAt ≤ T

theorem Store.Timed.mono {s : Store} {T' : Time} (h : s.Timed δ L T) (hT : T ≤ T') :
    s.Timed δ L T' := by
  have hwithin : ∀ {lo o}, Within δ lo T o → Within δ lo T' o :=
    fun ho t ht => ⟨(ho t ht).1, (ho t ht).2.trans hT⟩
  refine ⟨fun r hr => ?_, fun a ha => ?_, fun d hd => ?_, fun e he => (h.events e he).trans hT⟩
  · have hr := h.jobs r hr
    exact ⟨hr.created.trans hT, hr.updated.trans hT, hr.later, hwithin hr.completed,
      hwithin hr.failed, hwithin hr.cancelled, hr.last, hr.leased⟩
  · have ha := h.attempts a ha
    exact ⟨ha.started.trans hT, ha.inserted, hwithin ha.completed, hwithin ha.failed⟩
  · have hd := h.deadLetters d hd
    exact ⟨hd.filed.trans hT, hwithin hd.requeued⟩

/-! ### The statements -/

/-- The transaction keeps the tables in order. -/
abbrev KeepsTimed (δ L : Duration) (T : Time) {α : Type} (tx : RepoTx α) : Prop :=
  Tx.Keeps (Store.Timed δ L T) tx

theorem insertJob_timed {r : JobRow} (hr : r.Timed δ L T) : KeepsTimed δ L T (insertJob r) := by
  constructor
  intro s u s' h hs
  obtain ⟨-, jobs, hins, rfl⟩ := insertJob_eq_ok.1 hs
  refine ⟨fun r' hr' => ?_, h.attempts, h.deadLetters, h.events⟩
  rcases (Table.mem_insert hins).1 hr' with hold | rfl
  · exact h.jobs r' hold
  · exact hr

theorem insertAttempt_timed {a : Attempt} (ha : a.Timed δ T) : KeepsTimed δ L T (insertAttempt a) := by
  constructor
  intro s u s' h hs
  obtain ⟨attempts, hins, rfl⟩ := insertAttempt_eq_ok.1 hs
  refine ⟨h.jobs, fun a' ha' => ?_, h.deadLetters, h.events⟩
  rcases (Table.mem_insert hins).1 ha' with hold | rfl
  · exact h.attempts a' hold
  · exact ha

theorem insertDeadLetter_timed {d : DeadLetterJob} (hd : d.Timed δ T) :
    KeepsTimed δ L T (insertDeadLetter d) := by
  constructor
  intro s u s' h hs
  obtain ⟨deadLetters, hins, rfl⟩ := insertDeadLetter_eq_ok.1 hs
  refine ⟨h.jobs, h.attempts, fun d' hd' => ?_, h.events⟩
  rcases (Table.mem_insert hins).1 hd' with hold | rfl
  · exact h.deadLetters d' hold
  · exact hd

theorem insertJobEvent_timed (hc : Current δ T now) (eventID jobID tenantID : UUID)
    (eventType : EventType) (source : String) (payload : List (String × FieldValue)) :
    KeepsTimed δ L T (insertJobEvent now eventID jobID tenantID eventType source payload) := by
  constructor
  intro s u s' h hs
  obtain ⟨-, events, hins, rfl⟩ := insertJobEvent_eq_ok.1 hs
  refine ⟨h.jobs, h.attempts, h.deadLetters, fun e' he' => ?_⟩
  rcases (Table.mem_insert hins).1 he' with hold | rfl
  · exact h.events e' hold
  · exact hc.le

theorem updateJobs_timed {p : JobRow → Prop} [DecidablePred p] {f : JobRow → JobRow}
    {hf : ∀ r, (f r).id = r.id} (hr : ∀ r : JobRow, r.Timed δ L T → (f r).Timed δ L T) :
    KeepsTimed δ L T (updateJobs p f hf) := by
  constructor
  intro s n s' h hs
  obtain ⟨-, rfl⟩ := updateJobs_eq_ok.1 hs
  exact ⟨Table.forall_update h.jobs p hf hr, h.attempts, h.deadLetters, h.events⟩

theorem updateAttempts_timed {p : Attempt → Prop} [DecidablePred p] {f : Attempt → Attempt}
    {hf : ∀ a, (f a).id = a.id} (ha : ∀ a : Attempt, a.Timed δ T → (f a).Timed δ T) :
    KeepsTimed δ L T (updateAttempts p f hf) := by
  constructor
  intro s n s' h hs
  obtain ⟨-, rfl⟩ := updateAttempts_eq_ok.1 hs
  exact ⟨h.jobs, Table.forall_update h.attempts p hf ha, h.deadLetters, h.events⟩

theorem updateDeadLetters_timed {p : DeadLetterJob → Prop} [DecidablePred p]
    {f : DeadLetterJob → DeadLetterJob} {hf : ∀ d, (f d).id = d.id}
    (hd : ∀ d : DeadLetterJob, d.Timed δ T → (f d).Timed δ T) :
    KeepsTimed δ L T (updateDeadLetters p f hf) := by
  constructor
  intro s n s' h hs
  obtain ⟨-, rfl⟩ := updateDeadLetters_eq_ok.1 hs
  exact ⟨h.jobs, h.attempts, Table.forall_update h.deadLetters p hf hd, h.events⟩

theorem read_timed {α : Type} (f : Store → α) : KeepsTimed δ L T (Tx.read f : RepoTx α) :=
  .of_readOnly (.read f)

theorem orAbort_timed {α : Type} (o : Option α) (e : AppError) :
    KeepsTimed δ L T (Tx.orAbort o e : RepoTx α) :=
  .of_readOnly (.orAbort o e)

theorem require_timed (c : Prop) [Decidable c] (e : AppError) :
    KeepsTimed δ L T (Tx.require c e : RepoTx Unit) :=
  .of_readOnly (.require c e)

theorem pure_timed {α : Type} (a : α) : KeepsTimed δ L T (pure a : RepoTx α) := .of_readOnly (.pure a)

/-! ### The operations -/

/-- A statement that stamps nothing but `updated_at` and ends the lease or grants one of at most `L`. -/
theorem JobRow.Timed.marked {r r' : JobRow} (hr : r.Timed δ L T) (hc : Current δ T now)
    (hcreated : r'.createdAt = r.createdAt) (hupdated : r'.updatedAt = now)
    (hcompleted : r'.completedAt = r.completedAt) (hfailed : r'.failedAt = r.failedAt)
    (hcancelled : r'.cancelledAt = r.cancelledAt) (hlease : ∀ t ∈ r'.lockedUntil, t ≤ now + L) :
    r'.Timed δ L T :=
  hr.touched hc hcreated hupdated (fun _ ht => .inl (hcompleted ▸ ht)) (fun _ ht => .inl (hfailed ▸ ht))
    (fun _ ht => .inl (hcancelled ▸ ht)) hlease

theorem create_timed (hc : Current δ T now) (eventID : UUID) (j : Job) :
    KeepsTimed δ L T (create now eventID j) :=
  (insertJob_timed (.fresh hc rfl rfl rfl rfl rfl rfl)).bind fun _ =>
    (insertJobEvent_timed hc ..).bind fun _ => pure_timed _

theorem requeueDeadLetter_timed (hc : Current δ T now) (clock : Time)
    (newID eventID tenantID deadLetterID : UUID) (runAt : Time) :
    KeepsTimed δ L T (requeueDeadLetter now clock newID eventID tenantID deadLetterID runAt) := by
  refine (read_timed _).bind fun found => (orAbort_timed _ _).bind fun dl => ?_
  refine (insertJob_timed (.fresh hc rfl rfl rfl rfl rfl rfl)).bind fun _ => ?_
  refine (updateDeadLetters_timed fun d hd => ?_).bind fun _ =>
    (insertJobEvent_timed hc ..).bind fun _ => pure_timed _
  exact ⟨hd.filed, hd.requeued.touched hc hd.filed fun t ht => .inr (Option.some.inj ht).symm⟩

theorem transitionJob_timed (hc : Current δ T now) (eventID tenantID id : UUID)
    (allowedFrom : List Status) (target : Status) :
    KeepsTimed δ L T (transitionJob now eventID tenantID id allowedFrom target) := by
  refine (updateJobs_timed fun r hr => ?_).bind fun _ => (require_timed _ _).bind fun _ => ?_
  · refine hr.touched hc rfl rfl (fun _ => .inl) (fun _ => .inl) (fun t ht => ?_) fun _ ht => nomatch ht
    by_cases htarget : target = .cancelled
    · rw [operatorRow, if_pos htarget] at ht
      exact .inr (Option.some.inj ht).symm
    · rw [operatorRow, if_neg htarget] at ht
      exact .inl ht
  · simp only
    split
    · refine (updateAttempts_timed fun a ha => ?_).bind fun _ => insertJobEvent_timed hc ..
      exact ha.closed hc rfl rfl (fun _ => .inl) fun t ht => .inr (Option.some.inj ht).symm
    · exact (pure_timed 0).bind fun _ => insertJobEvent_timed hc ..

theorem claimDueJobs_timed (x : ClaimArgs) (hc : Current δ T x.now)
    (hL : wholeSeconds x.lockTTL * second ≤ L) (locked : UUID → Bool) (batchSize : Int) :
    KeepsTimed δ L T (claimDueJobs x locked batchSize) := by
  refine (read_timed _).bind fun items => .forEach (fun r => ?_) items
  refine (updateJobs_timed fun r hr => ?_).bind fun _ => (insertAttempt_timed ?_).bind fun _ =>
    (insertJobEvent_timed hc ..).bind fun _ => pure_timed _
  · refine hr.marked hc rfl rfl rfl rfl rfl fun t ht => ?_
    rw [← Option.some.inj ht]
    exact Int.add_le_add_left hL x.now
  · exact ⟨hc.le, rfl, .none, .none⟩

theorem extendLease_timed (hc : Current δ T now) (jobID : UUID) (workerID : String) {ttl : Duration}
    (hL : wholeSeconds ttl * second ≤ L) : KeepsTimed δ L T (extendLease now jobID workerID ttl) := by
  refine (updateJobs_timed fun r hr => ?_).bind fun _ => pure_timed _
  refine hr.marked hc rfl rfl rfl rfl rfl fun t ht => ?_
  rw [← Option.some.inj ht]
  exact Int.add_le_add_left hL now

theorem createAttempt_timed (hc : Current δ T now) (attemptID jobID : UUID) (workerID : String)
    (attemptNumber : Int) :
    KeepsTimed δ L T (createAttempt now attemptID jobID workerID attemptNumber) :=
  (read_timed _).bind fun _ => (orAbort_timed _ _).bind fun _ =>
    (insertAttempt_timed ⟨hc.le, rfl, .none, .none⟩).bind fun _ => pure_timed _

theorem completeExecution_timed (hc : Current δ T now) (eventID : UUID) (j : ClaimedJob)
    (workerID : String) (durationMS : Int) (result : RawMessage) :
    KeepsTimed δ L T (completeExecution now eventID j workerID durationMS result) := by
  refine (updateJobs_timed fun r hr => ?_).bind fun _ => (require_timed _ _).bind fun _ =>
    (updateAttempts_timed fun a ha => ?_).bind fun _ => (require_timed _ _).bind fun _ =>
      insertJobEvent_timed hc ..
  · exact hr.touched hc rfl rfl (fun t ht => .inr (Option.some.inj ht).symm) (fun _ => .inl)
      (fun _ => .inl) fun _ ht => nomatch ht
  · exact ha.closed hc rfl rfl (fun t ht => .inr (Option.some.inj ht).symm) fun _ => .inl

/-- A failure is settled at `now`, in either way. -/
theorem JobRow.Timed.buried {r : JobRow} (hr : r.Timed δ L T) (hc : Current δ T now) (n : Int)
    (message : String) : (buryRow now n message r).Timed δ L T :=
  hr.touched hc rfl rfl (fun _ => .inl) (fun _ ht => .inr (Option.some.inj ht).symm) (fun _ => .inl)
    fun _ ht => nomatch ht

theorem JobRow.Timed.retried {r : JobRow} (hr : r.Timed δ L T) (hc : Current δ T now) (n : Int)
    (runAt : Time) (message : String) : (retryRow now n runAt message r).Timed δ L T :=
  hr.touched hc rfl rfl (fun _ => .inl) (fun _ ht => .inr (Option.some.inj ht).symm) (fun _ => .inl)
    fun _ ht => nomatch ht

theorem failExecution_timed (hc : Current δ T now) (ids : FailureIDs) (j : ClaimedJob)
    (workerID : String) (durationMS : Int) (outcome : ExecutionResult) (nextStatus : Status)
    (nextRetryCount : Int) (nextRunAt : Time) :
    KeepsTimed δ L T (failExecution now ids j workerID durationMS outcome nextStatus nextRetryCount
      nextRunAt) := by
  refine (updateAttempts_timed fun a ha => ?_).bind fun _ => (require_timed _ _).bind fun _ =>
    (insertJobEvent_timed hc ..).bind fun _ => ?_
  · exact ha.closed hc rfl rfl (fun _ => .inl) fun t ht => .inr (Option.some.inj ht).symm
  · split
    · exact (updateJobs_timed fun r hr => hr.buried hc _ _).bind fun _ =>
        (require_timed _ _).bind fun _ => (insertDeadLetter_timed ⟨hc.le, .none⟩).bind fun _ =>
          insertJobEvent_timed hc ..
    · exact (updateJobs_timed fun r hr => hr.retried hc _ _ _).bind fun _ =>
        (require_timed _ _).bind fun _ => insertJobEvent_timed hc ..

theorem releaseClaim_timed (hc : Current δ T now) (jobID : UUID) (workerID : String) (status : Status) :
    KeepsTimed δ L T (releaseClaim now jobID workerID status) := by
  refine (updateJobs_timed fun r hr => ?_).bind fun _ => require_timed _ _
  exact hr.marked hc rfl rfl rfl rfl rfl fun _ ht => nomatch ht

theorem recoverExpiredRunningJobs_timed (x : RecoverArgs) (hc : Current δ T x.now)
    (locked : UUID → Bool) : KeepsTimed δ L T (recoverExpiredRunningJobs x locked) := by
  refine (read_timed _).bind fun items => .forEach (fun j => ?_) items
  refine (updateAttempts_timed fun a ha => ?_).bind fun _ => ?_
  · exact ha.closed hc rfl rfl (fun _ => .inl) fun t ht => .inr (Option.some.inj ht).symm
  · simp only
    split
    · exact (updateJobs_timed fun r hr => hr.buried hc _ _).bind fun _ =>
        (insertDeadLetter_timed ⟨hc.le, .none⟩).bind fun _ =>
          (insertJobEvent_timed hc ..).bind fun _ => pure_timed _
    · exact (updateJobs_timed fun r hr => hr.retried hc _ _ _).bind fun _ =>
        (insertJobEvent_timed hc ..).bind fun _ => pure_timed _

end Rows

/-! ### Steps and runs -/

section Runs

variable {cfg : Config} {δ L : Duration} {T : Time} {s s' : Cluster}

/-- The lease a claim or a renewal grants is cut to whole seconds. -/
theorem wholeSeconds_mul_le {d : Int} (hd : 0 < d) : wholeSeconds d * second ≤ d := by
  have hdiv : wholeSeconds d = d / second := Int.tdiv_eq_ediv_of_nonneg (le_of_lt hd)
  rw [hdiv]
  exact Int.ediv_mul_le d (by decide)

/-- All workers have a positive `WORKER_LOCK_TTL`, of at most `L`. -/
def Config.LeasesUpTo (cfg : Config) (L : Duration) : Prop :=
  ∀ w, 0 < (cfg.worker w).lockTTL ∧ (cfg.worker w).lockTTL ≤ L

theorem Config.LeasesUpTo.lockTTL (hL : cfg.LeasesUpTo L) (w : String) :
    wholeSeconds (cfg.worker w).lockTTL * second ≤ L :=
  (wholeSeconds_mul_le (hL w).1).trans (hL w).2

theorem Config.LeasesUpTo.leaseTTL (hL : cfg.LeasesUpTo L) (w : String) (j : ClaimedJob) :
    wholeSeconds ((cfg.worker w).leaseTTL j) * second ≤ L := by
  have httl : (cfg.worker w).leaseTTL j = (cfg.worker w).lockTTL := if_neg (not_le.2 (hL w).1)
  rw [httl]
  exact hL.lockTTL w

/-- **Step lemma.**  A step whose transaction runs at the latest time, up to `δ`, keeps the tables in
order. -/
theorem step_timed {x : Act} (hL : cfg.LeasesUpTo L) (hx : ∀ now ∈ x.now?, Current δ T now)
    (h : step cfg s x = some s') (hs : s.store.Timed δ L T) : s'.store.Timed δ L T := by
  cases x with
  | api a =>
    rw [step_api] at h
    cases apiStep_move h with
    | refused => exact hs
    | @created principal req jobID eventID clock now link call j lookups answers hp =>
      exact (create_timed (hx now rfl) eventID j).commit hs link _
    | looked => exact hs
    | read => exact hs
    | @written n eventID now link call operators hcall =>
      exact (transitionJob_timed (hx now rfl) eventID _ _ _ _).commit hs link _
    | @requeued tenantID deadLetterID newID eventID clock clock' now link =>
      exact (requeueDeadLetter_timed (hx now rfl) clock' newID.val eventID _ _ clock).commit hs link _
  | loop w a =>
    cases loopStep_move h with
    | @recovered x locked link hloop =>
      exact (recoverExpiredRunningJobs_timed { x with reason := leaseExpired } (hx x.now rfl)
        locked).commit hs link _
    | @claimed x locked link rest hloop hrest =>
      exact (claimDueJobs_timed { x with workerID := w, lockTTL := (cfg.worker w).lockTTL }
        (hx x.now rfl) (hL.lockTTL w) locked _).commit hs link _
    | dispatched hloop hslot hi => exact hs
    | shutdown => exact hs
    | stopped hloop hctx => exact hs
  | slot w i a =>
    obtain ⟨s₁, phase, hmove, rfl⟩ := slotStep_move h
    generalize (s.workers w).slots i = before at hmove
    cases hmove with
    | @released j now link =>
      exact (releaseClaim_timed (hx now rfl) j.id w .retryScheduled).commit hs link _
    | @attempted j attemptID now link phase hnil =>
      exact (createAttempt_timed (hx now rfl) attemptID.val j.id w _).commit hs link _
    | @extended j result now link renewal =>
      exact (extendLease_timed (hx now rfl) j.id w (hL.leaseTTL w j)).commit hs link _
    | @completed j result eventID durationMS now link =>
      exact (completeExecution_timed (hx now rfl) eventID j w durationMS result).commit hs link _
    | @failed j err ids durationMS clock clock' now link =>
      exact (failExecution_timed (hx now rfl) ids j w durationMS _ _ _ _).commit hs link _
    | _ => exact hs
  | crash w =>
    obtain rfl := Option.some.inj h
    exact hs
  | expireLock jobID =>
    obtain rfl := Option.some.inj h
    exact hs

/-- The last transaction of a punctual run is at the latest time of the run, up to `δ`. -/
theorem Punctual.last {xs : List Act} {x : Act} {now : Time} (h : Punctual δ T (xs ++ [x]))
    (hnow : x.now? = some now) : ∃ T₀ ≤ T, Punctual δ T₀ xs ∧ Current δ T₀ now := by
  obtain ⟨hnonneg, hordered, hbounded⟩ := h
  rw [times_snoc, hnow, Option.toList_some] at hordered hbounded
  obtain ⟨hordered', -, hlate⟩ := List.pairwise_append.1 hordered
  refine ⟨min T (now + δ), min_le_left _ _, ⟨hnonneg, hordered', fun t ht => ?_⟩, ?_⟩
  · exact le_min (hbounded t (List.mem_append_left _ ht)) (hlate t ht now List.mem_cons_self)
  · refine ⟨le_min ?_ (le_add_of_nonneg_right hnonneg), min_le_right _ _⟩
    exact hbounded now (List.mem_append_right _ List.mem_cons_self)

/-- **Run lemma.** -/
theorem exec_timed (hL : cfg.LeasesUpTo L) {xs : List Act} (hp : Punctual δ T xs)
    (hxs : (cluster cfg).exec xs = some s) : s.store.Timed δ L T := by
  induction xs using List.reverseRecOn generalizing T s with
  | nil =>
    obtain rfl := Option.some.inj hxs
    constructor <;> exact fun _ hm => absurd hm List.not_mem_nil
  | append_singleton xs x ih =>
    obtain ⟨s₀, hs₀, hstep⟩ := System.exec_snoc.1 hxs
    cases hnow : x.now? with
    | none =>
      have htimes : times (xs ++ [x]) = times xs := by simp [times_snoc, hnow]
      have hp' : Punctual δ T xs := ⟨hp.nonneg, htimes ▸ hp.ordered, htimes ▸ hp.bounded⟩
      exact step_timed hL (by simp [hnow]) hstep (ih hp' hs₀)
    | some now =>
      obtain ⟨T₀, hle, hp', hc⟩ := hp.last hnow
      refine (step_timed hL (fun t ht => ?_) hstep (ih hp' hs₀)).mono hle
      rw [hnow] at ht
      exact Option.some.inj ht ▸ hc

/-- **Timestamps in order.**  After every run whose transaction times go back by at most `δ` and stay up
to `T`, and up to `δ`: a job is updated, completed, failed and cancelled no earlier than it was created,
and last updated no earlier than the others; an attempt ends no earlier than it started; a dead letter
is requeued no earlier than it was filed.  No lease outlives the last update of its job by more than
`L`. -/
theorem timestamps_in_order (cfg : Config) (δ L : Duration) (T : Time) (xs : List Act) (s : Cluster)
    (hL : cfg.LeasesUpTo L) (hp : Punctual δ T xs) (hxs : (cluster cfg).exec xs = some s) :
    (∀ r ∈ s.store.jobs.rows, r.createdAt ≤ r.updatedAt + δ ∧ r.updatedAt ≤ T ∧
      (∀ t, t ∈ r.completedAt ∨ t ∈ r.failedAt ∨ t ∈ r.cancelledAt →
        r.createdAt ≤ t + δ ∧ t ≤ r.updatedAt + δ) ∧
      ∀ t ∈ r.lockedUntil, t ≤ r.updatedAt + L) ∧
    (∀ a ∈ s.store.attempts.rows, a.createdAt = a.startedAt ∧ a.startedAt ≤ T ∧
      ∀ t, t ∈ a.completedAt ∨ t ∈ a.failedAt → a.startedAt ≤ t + δ ∧ t ≤ T) ∧
    ∀ d ∈ s.store.deadLetters.rows, d.failedAt ≤ T ∧
      ∀ t ∈ d.requeuedAt, d.failedAt ≤ t + δ ∧ t ≤ T := by
  have htimed := exec_timed hL hp hxs
  refine ⟨fun r hr => ?_, fun a ha => ?_, fun d hd => ?_⟩
  · have hr := htimed.jobs r hr
    refine ⟨hr.later, hr.updated, fun t ht => ⟨?_, hr.last t ht⟩, hr.leased⟩
    rcases ht with ht | ht | ht
    · exact (hr.completed t ht).1
    · exact (hr.failed t ht).1
    · exact (hr.cancelled t ht).1
  · have ha := htimed.attempts a ha
    exact ⟨ha.inserted, ha.started, fun t ht => ht.elim (ha.completed t) (ha.failed t)⟩
  · have hd := htimed.deadLetters d hd
    exact ⟨hd.filed, hd.requeued⟩

theorem Demo.leases : demo.LeasesUpTo (30 * second) :=
  fun _ => ⟨(by decide : (0 : Int) < 30 * second), le_refl _⟩

open Demo in
/-- The job is taken over by `b` at second 100; its lease is one of thirty seconds from then. -/
theorem timestamps_in_order_takenOver :
    ∃ s, (cluster demo).exec ([submit] ++ poll "a" 1 11 ++ lock "a" 0 ++ execute "a" 0 ++
        poll "b" 40 12 ++ poll "b" 100 13) = some s ∧
      ∃ r ∈ s.store.jobs.rows, r.lockedBy = some "b" ∧ r.failedAt = some (40 * second) ∧
        (40 * second : Int) ≤ r.updatedAt ∧ ∀ t ∈ r.lockedUntil, t ≤ r.updatedAt + 30 * second := by
  obtain ⟨s, hs, r, hr, hby, hfailed⟩ :
      ∃ s, (cluster demo).exec ([submit] ++ poll "a" 1 11 ++ lock "a" 0 ++ execute "a" 0 ++
          poll "b" 40 12 ++ poll "b" 100 13) = some s ∧
        ∃ r ∈ s.store.jobs.rows, r.lockedBy = some "b" ∧ r.failedAt = some (40 * second) :=
    System.exists_of_exec (by decide +kernel)
  have hpunctual : Punctual 0 (100 * second) ([submit] ++ poll "a" 1 11 ++ lock "a" 0 ++
      execute "a" 0 ++ poll "b" 40 12 ++ poll "b" 100 13) := by decide +kernel
  obtain ⟨-, -, hstamps, hlease⟩ :=
    (timestamps_in_order demo 0 (30 * second) (100 * second) _ s Demo.leases hpunctual hs).1 r hr
  have hlast := (hstamps (40 * second) (.inr (.inl hfailed))).2
  exact ⟨s, hs, r, hr, hby, hfailed, by simpa using hlast, hlease⟩

/-! ### Recovery -/

/-- The recovery leaves the row of a job as it is, or the job was RUNNING with its lease over and no
other transaction held its row. -/
theorem recoverExpiredRunningJobs_row {s s' : Store} {x : RecoverArgs} {locked : UUID → Bool}
    {ids : List UUID} (h : recoverExpiredRunningJobs x locked s = .ok (ids, s')) (k : UUID) :
    s'.jobs.find? k = s.jobs.find? k ∨
      ∃ r, s.jobs.find? k = some r ∧ r.ExpiredAt x.now ∧ locked k = false := by
  obtain ⟨hpath, hids, hnodup⟩ := recoverExpiredRunningJobs_path (h := []) h
  have hjobs : ((ids.map Entry.recovered).reverse.map Entry.jobID).Nodup := by
    simpa [Function.comp_def, Entry.jobID] using hnodup
  refine (hpath.job_cases hjobs k).imp_right ?_
  rintro ⟨-, -, -, e, he, hk, -⟩
  obtain ⟨id, hid, rfl⟩ := List.mem_map.1 (List.mem_reverse.1 he)
  obtain rfl : id = k := hk
  rw [hids] at hid
  obtain ⟨r, hr, rfl⟩ := List.mem_map.1 hid
  obtain ⟨hm, hsel⟩ := List.mem_filter.1 hr
  simp only [Bool.and_eq_true, decide_eq_true_eq, Bool.not_eq_true'] at hsel
  exact ⟨r, Table.find?_key hm, hsel.1, hsel.2⟩

/-- What a recovery leaves of the row of a job. -/
structure Freed (r r' : JobRow) : Prop where
  retryCount : r'.retryCount = r.retryCount + 1
  lockedBy : r'.lockedBy = none
  lockedUntil : r'.lockedUntil = none
  status : r'.status = if r.maxRetries < r.retryCount + 1 then .deadLettered else .retryScheduled

theorem RecoveredView.row_eq {x : RecoverArgs} {r : JobRow} {s s' : Store}
    (h : RecoveredView x r (s.viewOf r.id) (s'.viewOf r.id)) (hr : s.jobs.find? r.id = some r) :
    ∃ r', s'.jobs.find? r.id = some r' ∧ Freed r r' := by
  have hrow := h.settled.row
  have hbefore : (s.viewOf r.id).row = some r := hr
  rw [hbefore, Option.map_some] at hrow
  refine ⟨_, hrow, ?_⟩
  have hdead : (x.decision r).status = .deadLettered ↔ r.maxRetries < r.retryCount + 1 :=
    decideFailure_deadLettered_iff _ _ _ _
  have hcount : (x.decision r).nextRetryCount = r.retryCount + 1 := decideFailure_nextRetryCount _ _ _ _
  unfold settledRow
  by_cases hd : r.maxRetries < r.retryCount + 1
  · rw [if_pos (hdead.2 hd), hcount]
    exact ⟨rfl, rfl, rfl, (if_pos hd).symm⟩
  · rw [if_neg fun h => hd (hdead.1 h), hcount]
    exact ⟨rfl, rfl, rfl, (if_neg hd).symm⟩

theorem RecoveredView.attempt_ne_running {x : RecoverArgs} {r : JobRow} {s s' : Store}
    (h : RecoveredView x r (s.viewOf r.id) (s'.viewOf r.id)) :
    ∀ a ∈ s'.attempts.rows, a.jobID = r.id → a.status ≠ .running := by
  intro a ha hjob
  have hview : a ∈ (s'.viewOf r.id).attempts := List.mem_filter.2 ⟨ha, by simpa using hjob⟩
  rw [h.attempts] at hview
  obtain ⟨a₀, ha₀, rfl⟩ := List.mem_map.1 hview
  have hjob₀ : a₀.jobID = r.id := by simpa using (List.mem_filter.1 ha₀).2
  by_cases hrun : a₀.status = .running
  · rw [if_pos ⟨hjob₀, hrun⟩]
    exact fun he => nomatch he
  · rw [if_neg fun hp => hrun hp.2]
    exact hrun

/-- What a recovery that comes after all leases leaves of the row of a job. -/
theorem recovery_rows {s s' : Store} {x : RecoverArgs} {locked : UUID → Bool} {ids : List UUID}
    (hexpired : ∀ r ∈ s.jobs.rows, r.status = .running → r.ExpiredAt x.now)
    (h : recoverExpiredRunningJobs x locked s = .ok (ids, s')) {r : JobRow} (hr : r ∈ s.jobs.rows) :
    (r.status = .running → locked r.id = false → ∃ r', s'.jobs.find? r.id = some r' ∧ Freed r r' ∧
        ∀ a ∈ s'.attempts.rows, a.jobID = r.id → a.status ≠ .running) ∧
      (r.status ≠ .running ∨ locked r.id = true → s'.jobs.find? r.id = some r) := by
  have hfind : s.jobs.find? r.id = some r := Table.find?_key hr
  refine ⟨fun hrun hfree => ?_, fun hheld => ?_⟩
  · have hview := recoverExpiredRunningJobs_view hfind (hexpired r hr hrun) hfree h
    obtain ⟨r', hr', hfreed⟩ := hview.row_eq hfind
    exact ⟨r', hr', hfreed, hview.attempt_ne_running⟩
  · rcases recoverExpiredRunningJobs_row h r.id with hsame | ⟨r₀, hr₀, hex, hfree⟩
    · exact hsame.trans hfind
    · obtain rfl := Option.some.inj (hr₀.symm.trans hfind)
      rcases hheld with hrun | hlocked
      · exact absurd hex.1 hrun
      · exact absurd (hlocked.symm.trans hfree) (by decide)

/-- **Nothing stays RUNNING.**  A poll whose recovery begins more than `L` after all transactions so far
and succeeds recovers every RUNNING job whose row no other transaction holds: it has one retry more, its
lease and its running attempts are ended, and it waits for its retry or is dead-lettered.  All other
jobs stay as they are, those among them whose rows others hold included. -/
theorem expired_jobs_recovered (cfg : Config) (δ L : Duration) (T : Time) (xs : List Act)
    (s s' : Cluster) (w : String) (x : RecoverArgs) (locked : UUID → Bool) (link : Link)
    (ids : List UUID) (hL : cfg.LeasesUpTo L) (hp : Punctual δ T xs)
    (hxs : (cluster cfg).exec xs = some s) (hnow : T + L < x.now)
    (hstep : step cfg s (.loop w (.recover x locked link)) = some s')
    (hreply : (s.recovering x locked link).reply = .ok ids) :
    (∀ r ∈ s.store.jobs.rows, r.status = .running → locked r.id = false →
      ∃ r', s'.store.jobs.find? r.id = some r' ∧ Freed r r' ∧
        ∀ a ∈ s'.store.attempts.rows, a.jobID = r.id → a.status ≠ .running) ∧
    (∀ r ∈ s.store.jobs.rows, r.status ≠ .running ∨ locked r.id = true →
      s'.store.jobs.find? r.id = some r) ∧
    ∀ r' ∈ s'.store.jobs.rows, r'.status = .running → locked r'.id = true := by
  have hlog := (reachable_sound ⟨xs, hxs⟩).log
  have htimed := exec_timed hL hp hxs
  have hstore : s'.store = (s.recovering x locked link).state := by
    have hmove : LoopMove (cfg.worker w) s w (.recover x locked link) s' := loopStep_move hstep
    cases hmove with
    | recovered hloop => rfl
  have htx := Tx.eq_ok_of_reply_ok hreply
  rw [← Cluster.recovering, ← hstore] at htx
  -- no lease reaches as far as the recovery
  have hexpired : ∀ r ∈ s.store.jobs.rows, r.status = .running → r.ExpiredAt x.now := by
    intro r hr hrun
    obtain ⟨t, ht, hex⟩ := (hlog.coherent (Table.find?_key hr)).expiredAt hrun
    have hr := htimed.jobs r hr
    exact hex x.now (((hr.leased t ht).trans (Int.add_le_add_right hr.updated L)).trans_lt hnow)
  have hrows := fun r hr =>
    recovery_rows (x := { x with reason := leaseExpired }) (r := r) hexpired htx hr
  refine ⟨fun r hr => (hrows r hr).1, fun r hr => (hrows r hr).2, fun r' hr' hrun' => ?_⟩
  by_contra hfree
  rw [Bool.not_eq_true] at hfree
  -- the job was RUNNING before, whether or not the recovery changed its row
  obtain ⟨r, hr, hrun⟩ : ∃ r, s.store.jobs.find? r'.id = some r ∧ r.status = .running := by
    rcases recoverExpiredRunningJobs_row htx r'.id with hsame | ⟨r, hr, hex, -⟩
    · exact ⟨r', hsame.symm.trans (Table.find?_key hr'), hrun'⟩
    · exact ⟨r, hr, hex.1⟩
  obtain ⟨hm, hid⟩ := Table.find?_eq_some_iff.1 hr
  replace hid : r.id = r'.id := hid
  obtain ⟨r₁, hr₁, hfreed, -⟩ := (hrows r hm).1 hrun (hid ▸ hfree)
  rw [hid] at hr₁
  obtain rfl := Option.some.inj (hr₁.symm.trans (Table.find?_key hr'))
  have hstatus := hfreed.status
  rw [hrun'] at hstatus
  split at hstatus <;> cases hstatus

namespace Demo

/-- The recovery of a poll of `b`, forty seconds in. -/
def sweep : RecoverArgs := ⟨40 * second, 40 * second, "", fun _ => 12, fun _ => 1012⟩

end Demo

open Demo in
/-- `a` dies with the job RUNNING; the next poll of `b` leaves it for a retry. -/
theorem expired_jobs_recovered_crashed :
    ∃ s s', (cluster demo).exec ([submit] ++ poll "a" 1 11 ++ [.crash "a"]) = some s ∧
      step demo s (.loop "b" (.recover sweep (fun _ => false) .up)) = some s' ∧
      (∃ r ∈ s.store.jobs.rows, r.status = .running) ∧
      ∀ r' ∈ s'.store.jobs.rows, r'.status ≠ .running := by
  obtain ⟨s, hs, hrun, hsome, hcommitted⟩ :
      ∃ s, (cluster demo).exec ([submit] ++ poll "a" 1 11 ++ [.crash "a"]) = some s ∧
        (∃ r ∈ s.store.jobs.rows, r.status = .running) ∧
        (step demo s (.loop "b" (.recover sweep (fun _ => false) .up))).isSome = true ∧
        (s.recovering sweep (fun _ => false) .up).committed = some [1] :=
    System.exists_of_exec (by decide +kernel)
  obtain ⟨s', hstep⟩ := Option.isSome_iff_exists.1 hsome
  have hpunctual : Punctual 0 (1 * second) ([submit] ++ poll "a" 1 11 ++ [.crash "a"]) := by
    decide +kernel
  have hfreed := (expired_jobs_recovered demo 0 (30 * second) (1 * second) _ s s' "b" sweep
    (fun _ => false) .up [1] Demo.leases hpunctual hs (by decide) hstep
    (Tx.reply_of_committed_up hcommitted)).2.2
  exact ⟨s, s', hs, hstep, hrun, fun r' hr' hrun' => absurd (hfreed r' hr' hrun') Bool.false_ne_true⟩

end Runs

end JobScheduler
