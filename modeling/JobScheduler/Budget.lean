import JobScheduler.Refinement

/-!
# The retry budget

Both writers of `retry_count` work from a copy of the job: the worker from the snapshot its claim
took, the recovery from the row it locked.  The bound therefore has to hold of the claims in the
history as well as of the rows (`Log.budget`).

* `retry_budget` — a live job has spent at most its budget; a dead-lettered one has overspent it by
  one, or has a FAILED attempt that was not retryable.
* `retry_count_le_spent` — a retry is only ever spent on a call of the executor, or on a lease that
  ran out before the executor was called (`executions`, `idleRecoveries`).
* `retry_count_le_executions` — so the executions cover the retry count, as long as no recovery takes
  a claim whose execution has not started (`RecoversStarted`).
-/

namespace JobScheduler

open KeyedTable TransitionSystem

variable {h : List Entry} {s s' : Store} {e : Entry} {r r' : JobRow} {w : String} {c : ClaimedJob}

/-! ### The bound -/

/-- The retry count of a row is within its budget. -/
structure JobRow.InBudget (r : JobRow) : Prop where
  nonneg : 0 ≤ r.retryCount
  budget : 0 ≤ r.maxRetries
  live : r.status ≠ .deadLettered → r.retryCount ≤ r.maxRetries
  buried : r.status = .deadLettered → 1 ≤ r.retryCount ∧ r.retryCount ≤ r.maxRetries + 1

/-- The snapshot of a claim is within its budget. -/
structure ClaimedJob.InBudget (c : ClaimedJob) : Prop where
  nonneg : 0 ≤ c.retryCount
  le : c.retryCount ≤ c.maxRetries

theorem NewRow.inBudget (hn : NewRow e r) : r.InBudget := by
  have hlive : r.status ≠ .deadLettered := by
    rcases hn.status_cases with hs | hs <;> simp [hs]
  cases hn with
  | created now hj =>
    have h0 : (createRow now _).retryCount = 0 := hj.retryCount
    have hm : 0 ≤ (createRow now _).maxRetries := hj.maxRetries
    exact ⟨h0 ▸ Int.le_refl 0, hm, fun _ => h0 ▸ hm, fun hd => absurd hd hlive⟩
  | requeued =>
    refine ⟨?_, ?_, fun _ => ?_, fun hd => absurd hd hlive⟩ <;> simp [requeueRow]

/-- The rows a failed attempt leaves: one more failure, buried only when that overspends. -/
theorem Settled.inBudget {now : Time} {n : Int} {message : String} {status : Status}
    (hs : Settled now n message r status r') (hm : 0 ≤ r.maxRetries) (hpos : 1 ≤ n)
    (hle : n ≤ r.maxRetries + 1) (hlive : status ≠ .deadLettered → n ≤ r.maxRetries) :
    r'.InBudget := by
  cases hs with
  | buried =>
    refine ⟨?_, hm, fun hne => absurd rfl hne, fun _ => ⟨hpos, hle⟩⟩
    show 0 ≤ n
    omega
  | retried runAt =>
    refine ⟨?_, hm, fun _ => hlive (by simp), fun hd => absurd hd (by simp [retryRow])⟩
    show 0 ≤ n
    omega

/-- The step lemma of the bound: the claims of the row's job carry the row's budget. -/
theorem RowChange.inBudget (hc : RowChange h r e r') (hr : r.InBudget)
    (hclaims : ∀ w c, .claimed w c ∈ h → c.id = e.jobID →
      c.InBudget ∧ c.maxRetries = r.maxRetries) : r'.InBudget := by
  cases hc with
  | claimed x hcl =>
    have hne : r.status ≠ .deadLettered := by
      intro hd
      have hfrom := hcl.1
      rw [hd] at hfrom
      exact absurd hfrom (by decide)
    exact ⟨hr.nonneg, hr.budget, fun _ => hr.live hne, fun hd => absurd hd (by simp [ClaimArgs.lease])⟩
  | extended now ttl _ hrun _ =>
    exact ⟨hr.nonneg, hr.budget, hr.live, hr.buried⟩
  | completed now _ hrun _ =>
    exact ⟨hr.nonneg, hr.budget, fun _ => hr.live (by simp [hrun]), fun hd =>
      absurd hd (by simp [succeededRow])⟩
  | @failed now message status _ w c retryable hp hrun _ hs hd =>
    obtain ⟨hb, hm⟩ := hclaims w c hp.claimed rfl
    have hnonneg := hb.nonneg
    have hle := hb.le
    refine hs.inBudget hr.budget (by omega) (by omega) fun hne => ?_
    have hkeep : ¬ c.maxRetries < c.retryCount + 1 := fun hlt => hne (hd.2 (.inl hlt))
    omega
  | released now _ hrun _ =>
    exact ⟨hr.nonneg, hr.budget, fun _ => hr.live (by simp [hrun]), fun hd =>
      absurd hd (by simp [releasedRow])⟩
  | @transitioned now op hfrom =>
    have hne : r.status ≠ .deadLettered := by
      intro hd
      rw [hd] at hfrom
      revert hfrom
      cases op <;> decide
    refine ⟨hr.nonneg, hr.budget, fun _ => hr.live hne, fun hd => ?_⟩
    have htarget : op.target ≠ .deadLettered := by cases op <;> decide
    exact absurd hd htarget
  | @recovered now message status _ hrun hs hd =>
    have hnonneg := hr.nonneg
    have hle := hr.live (by simp [hrun])
    refine hs.inBudget hr.budget (by omega) (by omega) fun hne => ?_
    have hkeep : ¬ r.maxRetries < r.retryCount + 1 := fun hlt => hne (hd.2 hlt)
    omega

/-- The columns a claim copies from its row. -/
theorem Log.maxRetries_of_claimed (hl : Log h s) (hm : .claimed w c ∈ h)
    (hr : s.jobs.find? c.id = some r) : c.maxRetries = r.maxRetries := by
  obtain ⟨r₀, hr₀, hid⟩ := hl.job_of_claimed hm
  obtain rfl := Option.some.inj (hr₀.symm.trans hr)
  exact (congrArg JobIdentity.maxRetries hid).symm

/-- **The budget of rows and of claims.**  In every log, every row and every claim ever made are
within their budget. -/
theorem Log.budget (hl : Log h s) :
    (∀ k r, s.jobs.find? k = some r → r.InBudget) ∧ ∀ w c, .claimed w c ∈ h → c.InBudget := by
  induction hl with
  | nil => simp [Store.empty]
  | @cons h s s' e hl hc ih =>
    obtain ⟨ihr, ihc⟩ := ih
    constructor
    · intro k r hr
      rcases hc.row_cases hr with hold | ⟨-, -, hn⟩ | ⟨hk, r₀, hr₀, hch⟩
      · exact ihr k r hold
      · exact hn.inBudget
      · refine hch.inBudget (ihr k r₀ hr₀) fun w c hm hid => ⟨ihc w c hm, ?_⟩
        exact hl.maxRetries_of_claimed hm (by rw [hid, ← hk]; exact hr₀)
    · intro w c hm
      rcases List.mem_cons.1 hm with rfl | hm
      · -- a new claim copies a claimable row
        obtain ⟨-, -, -, r, now, hr, hcl, hid, hrc⟩ := hc.of_claimed
        have hb := ihr c.id r hr
        have hne : r.status ≠ .deadLettered := by
          intro hd
          have hfrom := hcl.1
          rw [hd] at hfrom
          exact absurd hfrom (by decide)
        have hmax : r.maxRetries = c.maxRetries := congrArg JobIdentity.maxRetries hid
        exact ⟨hrc ▸ hb.nonneg, by rw [← hrc, ← hmax]; exact hb.live hne⟩
      · exact ihc w c hm

/-! ### Why a job is buried -/

/-- The job has a FAILED attempt that was recorded as not retryable. -/
def Store.GaveUp (s : Store) (jobID : UUID) : Prop :=
  ∃ k a, s.attempts.find? k = some a ∧ a.jobID = jobID ∧ a.status = .failed ∧
    a.retryable = some false

/-- Closed attempts stay, so the reason stays. -/
theorem Commit.gaveUp (hc : Commit h s e s') {jobID : UUID} (hg : s.GaveUp jobID) :
    s'.GaveUp jobID := by
  obtain ⟨k, a, ha, hj, hf, hr⟩ := hg
  exact ⟨k, a, hc.attempt_kept ha (by simp [hf]), hj, hf, hr⟩

/-- A failure that was not retryable is recorded as such. -/
theorem Fails.gaveUp {now : Time} {durationMS : Int} {outcome : ExecutionResult} {status : Status}
    {n : Int} {a : Attempt} (hf : Fails now durationMS outcome status n w c r a s s')
    (hj : a.jobID = c.id) (hr : outcome.retryable = false) : s'.GaveUp c.id := by
  refine ⟨c.activeAttemptID, failedAttempt now durationMS outcome a, ?_, hj, rfl, ?_⟩
  · rw [hf.attempts]
    exact Table.find?_modify_self hf.attempt _ _
  · simp [failedAttempt, hr]

/-- The status `FailExecution` leaves the job in. -/
theorem Fails.settled {now : Time} {durationMS : Int} {outcome : ExecutionResult} {status : Status}
    {n : Int} {a : Attempt} (hf : Fails now durationMS outcome status n w c r a s s')
    (hr : s'.jobs.find? c.id = some r') :
    Settled now n outcome.message r
      (if status = .deadLettered then .deadLettered else .retryScheduled) r' := by
  rcases hf.settles.find?_cases hf.row c.id with ⟨hne, -⟩ | ⟨-, r₁, hs, hr₁⟩
  · exact absurd rfl hne
  · obtain rfl := Option.some.inj (hr₁.symm.trans hr)
    exact hs

/-- A failure buries a job when the claim had no retries left or the outcome was not retryable. -/
theorem Commit.buried_of_failed (hc : Commit h s (.failed w c) s') (hl : Log h s)
    (hr : s'.jobs.find? c.id = some r') (hd : r'.status = .deadLettered) :
    r'.retryCount = r'.maxRetries + 1 ∨ s'.GaveUp c.id := by
  cases hc with
  | @failed now clock clock' durationMS err _ _ r a _ hp hf =>
    have hst := hf.settled hr
    rw [hst.status_eq, decideOutcome_deadLettered_iff] at hd
    rcases hd with hlt | hret
    · left
      have hcount : r'.retryCount = c.retryCount + 1 := by
        rw [hst.retryCount_eq]
        exact decideFailure_nextRetryCount _ _ _ _
      have hle := (hl.budget.2 w c hp.claimed).le
      have hmax := hl.maxRetries_of_claimed hp.claimed hf.row
      rw [hcount, hst.maxRetries_eq]
      omega
    · right
      obtain ⟨a₁, ha₁, hof⟩ := hl.attempt_of_claimed hp.claimed
      obtain rfl := Option.some.inj (ha₁.symm.trans hf.attempt)
      exact hf.gaveUp hof.jobID hret

/-- A buried job overspent its budget or has an attempt that was not retryable. -/
theorem Log.buried (hl : Log h s) {k : UUID} (hr : s.jobs.find? k = some r)
    (hd : r.status = .deadLettered) : r.retryCount = r.maxRetries + 1 ∨ s.GaveUp k := by
  induction hl generalizing r with
  | nil => simp [Store.empty] at hr
  | @cons h s s' e hl hc ih =>
    rcases hc.row_cases hr with hold | ⟨-, -, hn⟩ | ⟨hk, r₀, hr₀, hch⟩
    · exact (ih hold hd).imp_right hc.gaveUp
    · rcases hn.status_cases with hs | hs <;> simp [hs] at hd
    · rcases hch.of_buried hd with ⟨w, c, rfl⟩ | ⟨id, rfl⟩
      · obtain rfl : k = c.id := hk
        exact hc.buried_of_failed hl hr hd
      · cases hch with
        | recovered hrun hs hdl =>
          cases hs with
          | buried =>
            have hlt := hdl.1 rfl
            have hle := (hl.budget.1 k r₀ hr₀).live (by simp [hrun])
            left
            show r₀.retryCount + 1 = r₀.maxRetries + 1
            omega
          | retried runAt => simp [retryRow] at hd

/-- **Retry budget.**  In every reachable state: a job that is not dead-lettered has spent between
none and all of its retries; a dead-lettered one at least one and at most one too many, and if not
one too many, it has a FAILED attempt recorded as not retryable. -/
theorem retry_budget {cfg : Config} {s : Cluster} (hr : (cluster cfg).Reachable s) {r : JobRow}
    (hm : r ∈ s.store.jobs.rows) :
    (r.status ≠ .deadLettered → 0 ≤ r.retryCount ∧ r.retryCount ≤ r.maxRetries) ∧
      (r.status = .deadLettered → 1 ≤ r.retryCount ∧ r.retryCount ≤ r.maxRetries + 1 ∧
        (r.retryCount = r.maxRetries + 1 ∨ ∃ a ∈ s.store.attempts.rows,
          a.jobID = r.id ∧ a.status = .failed ∧ a.retryable = some false)) := by
  have hlog := (reachable_sound hr).log
  have hrow : s.store.jobs.find? r.id = some r := Table.find?_key hm
  have hb := hlog.budget.1 r.id r hrow
  refine ⟨fun hne => ⟨hb.nonneg, hb.live hne⟩, fun hd => ⟨(hb.buried hd).1, (hb.buried hd).2, ?_⟩⟩
  rcases hlog.buried hrow hd with hover | ⟨k, a, ha, hj, hf, hret⟩
  · exact .inl hover
  · exact .inr ⟨a, (Table.find?_eq_some_iff.1 ha).1, hj, hf, hret⟩

open Demo in
/-- A first attempt that fails for good: buried with one retry of three spent. -/
theorem retry_budget_not_retryable :
    ∃ s r, (cluster demo).exec ([submit] ++ poll "a" 1 11 ++ lock "a" 0 ++
        execute "a" 0 ++ fail "a" 0 5 (.execution "INVALID_URL" "webhook URL is invalid" false 0 "") 3001)
        = some s ∧
      r ∈ s.store.jobs.rows ∧ r.status = .deadLettered ∧ r.retryCount = 1 ∧ r.maxRetries = 3 ∧
      ∃ a ∈ s.store.attempts.rows, a.jobID = r.id ∧ a.status = .failed ∧
        a.retryable = some false := by
  obtain ⟨s, hs, r, hm, hd, hone, hmax⟩ :
      ∃ s, (cluster demo).exec ([submit] ++ poll "a" 1 11 ++ lock "a" 0 ++ execute "a" 0 ++
          fail "a" 0 5 (.execution "INVALID_URL" "webhook URL is invalid" false 0 "") 3001)
          = some s ∧
        ∃ r ∈ s.store.jobs.rows,
          r.status = .deadLettered ∧ r.retryCount = 1 ∧ r.maxRetries = 3 :=
    System.exists_of_exec (by decide +kernel)
  obtain ⟨-, -, hover | hgave⟩ := (retry_budget ⟨_, hs⟩ hm).2 hd
  · omega
  · exact ⟨s, r, hs, hm, hd, hone, hmax, hgave⟩

/-! ### What a retry is spent on -/

/-- The entry is a call of the executor for the job `j`. -/
def Entry.isExecution (j : UUID) : Entry → Bool
  | .executed _ c => decide (c.id = j)
  | _ => false

/-- How often the executor was called for the job `j`. -/
def executions (j : UUID) (h : List Entry) : ℕ := h.countP (Entry.isExecution j)

/-- The executor was called for the attempt. -/
def started (attemptID : UUID) (h : List Entry) : Bool :=
  h.any fun e =>
    match e with
    | .executed _ c => decide (c.activeAttemptID = attemptID)
    | _ => false

/-- Recovering the job `j` after `h` takes it from a claim whose execution was never started. -/
def recoversUnstarted (j : UUID) (h : List Entry) : Bool :=
  match owner j h with
  | some (_, c) => !started c.activeAttemptID h
  | none => false

/-- How often a recovery took the job `j` from a claim whose execution was never started. -/
def idleRecoveries (j : UUID) : List Entry → ℕ
  | [] => 0
  | .recovered id :: h =>
    idleRecoveries j h + if id = j ∧ recoversUnstarted j h = true then 1 else 0
  | _ :: h => idleRecoveries j h

/-- The calls of the executor for `j` and the leases of `j` that ran out before one. -/
def spent (j : UUID) (h : List Entry) : ℕ := executions j h + idleRecoveries j h

theorem idleRecoveries_le_cons (j : UUID) (e : Entry) (h : List Entry) :
    idleRecoveries j h ≤ idleRecoveries j (e :: h) := by
  cases e <;> simp [idleRecoveries]

theorem spent_le_cons (j : UUID) (e : Entry) (h : List Entry) : spent j h ≤ spent j (e :: h) := by
  have hex : executions j h ≤ executions j (e :: h) := by
    rw [executions, executions, List.countP_cons]
    omega
  have hid := idleRecoveries_le_cons j e h
  unfold spent
  omega

theorem spent_executed (w : String) (c : ClaimedJob) (h : List Entry) :
    spent c.id (.executed w c :: h) = spent c.id h + 1 := by
  simp only [spent, executions, List.countP_cons, Entry.isExecution, idleRecoveries, decide_true,
    if_true]
  omega

theorem spent_recovered_unstarted (j : UUID) (h : List Entry) (hu : recoversUnstarted j h = true) :
    spent j (.recovered j :: h) = spent j h + 1 := by
  simp only [spent, executions, List.countP_cons, Entry.isExecution, idleRecoveries, hu, and_self,
    if_true, Bool.false_eq_true, if_false]
  omega

theorem started_iff (hl : Log h s) (hm : .claimed w c ∈ h) :
    started c.activeAttemptID h = true ↔ .executed w c ∈ h := by
  simp only [started, List.any_eq_true]
  constructor
  · rintro ⟨e, he, hx⟩
    cases e with
    | executed w' c' =>
      obtain ⟨rfl, rfl⟩ := hl.claimed_inj (hl.claimed_of_executed he) hm (of_decide_eq_true hx)
      exact he
    | _ => cases hx
  · intro he
    exact ⟨_, he, by simp⟩

/-- What was spent on a job covers the snapshot of a claim, and one more once its execution has
started. -/
def Covered (h : List Entry) (w : String) (c : ClaimedJob) : Prop :=
  c.retryCount ≤ (spent c.id h : Int) ∧
    (.executed w c ∈ h → c.retryCount + 1 ≤ (spent c.id h : Int))

/-- A recovery spends one: on the execution of the owner, or on its lease. -/
theorem Log.spent_recovered (hl : Log h s) {k : UUID} (hr : s.jobs.find? k = some r)
    (hrun : r.status = .running) (hle : r.retryCount ≤ (spent k h : Int))
    (hcov : ∀ w c, .claimed w c ∈ h → Covered h w c) :
    r.retryCount + 1 ≤ (spent k (.recovered k :: h) : Int) := by
  have ho := (hl.row_owner k).2 r hr
  obtain ⟨⟨w, c⟩, hown⟩ := Option.ne_none_iff_exists'.1 (ho.running.1 hrun)
  obtain ⟨hm, rfl⟩ := owner_eq_some hown
  have hmono := spent_le_cons c.id (.recovered c.id) h
  by_cases hst : .executed w c ∈ h
  · have hone := (hcov w c hm).2 hst
    rw [ho.retryCount w c hown]
    omega
  · have hu : recoversUnstarted c.id h = true := by
      have hno : started c.activeAttemptID h = false := by
        rw [Bool.eq_false_iff, ne_eq, started_iff hl hm]
        exact hst
      simp [recoversUnstarted, hown, hno]
    rw [spent_recovered_unstarted c.id h hu]
    omega

/-- **Retries are spent.**  In every log, what was spent on a job covers the retry count of its row
and of every claim of it. -/
theorem Log.covered (hl : Log h s) :
    (∀ k r, s.jobs.find? k = some r → r.retryCount ≤ (spent k h : Int)) ∧
      ∀ w c, .claimed w c ∈ h → Covered h w c := by
  induction hl with
  | nil => simp [Store.empty]
  | @cons h s s' e hl hc ih =>
    obtain ⟨ihr, ihc⟩ := ih
    have hmono : ∀ j, (spent j h : Int) ≤ spent j (e :: h) := fun j =>
      Int.ofNat_le.2 (spent_le_cons j e h)
    constructor
    · intro k r hr
      rcases hc.row_cases hr with hold | ⟨-, -, hn⟩ | ⟨hk, r₀, hr₀, hch⟩
      · exact (ihr k r hold).trans (hmono k)
      · have hzero : r.retryCount = 0 := by
          cases hn with
          | created now hj => exact hj.retryCount
          | requeued => rfl
        omega
      · have hold := (ihr k r₀ hr₀).trans (hmono k)
        cases hch with
        | failed hp _ _ hs _ =>
          rw [hs.retryCount_eq, hk]
          exact ((ihc _ _ hp.claimed).2 hp.executed).trans (hmono _)
        | recovered hrun hs _ =>
          rw [hs.retryCount_eq]
          subst hk
          exact hl.spent_recovered hr₀ hrun (ihr _ r₀ hr₀) ihc
        | claimed => exact hold
        | extended => exact hold
        | completed => exact hold
        | released => exact hold
        | transitioned => exact hold
    · intro w c hm
      rcases List.mem_cons.1 hm with rfl | hm
      · -- a new claim has the row's retry count, and is not started
        obtain ⟨hfresh, -, -, r, now, hr, -, -, hrc⟩ := hc.of_claimed
        refine ⟨hrc ▸ (ihr c.id r hr).trans (hmono c.id), fun hx => ?_⟩
        rcases List.mem_cons.1 hx with hx | hx
        · cases hx
        · obtain ⟨a, ha, -⟩ := hl.attempt_of_claimed (hl.claimed_of_executed hx)
          rw [hfresh] at ha
          exact absurd ha (by simp)
      · obtain ⟨hle, hone⟩ := ihc w c hm
        refine ⟨hle.trans (hmono c.id), fun hx => ?_⟩
        rcases List.mem_cons.1 hx with rfl | hx
        · rw [spent_executed]
          omega
        · exact (hone hx).trans (hmono c.id)

/-- **Retries are spent on executions and on unstarted leases.**  In every reachable state, the retry
count of a job is at most the number of times the executor was called for it plus the number of
times a recovery took it from a claim whose execution had not started; in particular a job is only
dead-lettered when one of the two has happened. -/
theorem retry_count_le_spent {cfg : Config} {s : Cluster} (hr : (cluster cfg).Reachable s)
    {r : JobRow} (hm : r ∈ s.store.jobs.rows) :
    r.retryCount ≤ executions r.id s.history + idleRecoveries r.id s.history ∧
      (r.status = .deadLettered →
        1 ≤ executions r.id s.history + idleRecoveries r.id s.history) := by
  have hlog := (reachable_sound hr).log
  have hrow : s.store.jobs.find? r.id = some r := Table.find?_key hm
  have hle : r.retryCount ≤ (spent r.id s.history : Int) := hlog.covered.1 r.id r hrow
  have hspent : spent r.id s.history
      = executions r.id s.history + idleRecoveries r.id s.history := rfl
  refine ⟨by omega, fun hd => ?_⟩
  have hone := ((hlog.budget.1 r.id r hrow).buried hd).1
  omega

/-! ### Runs that spend retries on executions only -/

/-- A recovery takes only claims whose execution has started. -/
def RecoversStarted (s : Cluster) : Act → Prop
  | .loop _ (.recover x locked link) => link ≠ .down → ∀ r ∈ s.store.jobs.rows, r.ExpiredAt x.now →
      locked r.id = false → recoversUnstarted r.id s.history = false
  | _ => True

instance (s : Cluster) : DecidablePred (RecoversStarted s)
  | .loop _ (.recover x locked link) =>
    inferInstanceAs (Decidable (link ≠ .down → ∀ r ∈ s.store.jobs.rows, r.ExpiredAt x.now →
      locked r.id = false → recoversUnstarted r.id s.history = false))
  | .loop _ (.claim _ _ _) => isTrue trivial
  | .loop _ (.dispatch _) => isTrue trivial
  | .loop _ .shutdown => isTrue trivial
  | .loop _ .stop => isTrue trivial
  | .api _ => isTrue trivial
  | .slot _ _ _ => isTrue trivial
  | .crash _ => isTrue trivial
  | .expireLock _ => isTrue trivial

/-- Entries about other jobs do not make the owner's execution unstarted. -/
theorem recoversUnstarted_of_append {j : UUID} {es : List Entry} (hne : ∀ e ∈ es, e.jobID ≠ j)
    (hu : recoversUnstarted j (es ++ h) = true) : recoversUnstarted j h = true := by
  rw [recoversUnstarted, owner_append_of_ne hne] at hu
  rw [recoversUnstarted]
  cases ho : owner j h with
  | none => simp [ho] at hu
  | some p =>
    simp only [ho, Bool.not_eq_true', started, List.any_append, Bool.or_eq_false_iff] at hu
    simp only [Bool.not_eq_true', started]
    exact hu.2

/-- The recoveries of one step are of distinct jobs, so what was started before the step decides. -/
theorem idleRecoveries_append {j : UUID} {es : List Entry} (hnodup : (es.map Entry.jobID).Nodup)
    (hstarted : .recovered j ∈ es → recoversUnstarted j h = false) :
    idleRecoveries j (es ++ h) = idleRecoveries j h := by
  induction es with
  | nil => rfl
  | cons e es ih =>
    rw [List.map_cons, List.nodup_cons] at hnodup
    have hrest := ih hnodup.2 fun hm => hstarted (List.mem_cons_of_mem _ hm)
    cases e with
    | recovered id =>
      rw [List.cons_append, idleRecoveries, hrest, if_neg, Nat.add_zero]
      rintro ⟨rfl, hu⟩
      have hother : ∀ e ∈ es, e.jobID ≠ id := fun e he heq =>
        hnodup.1 (List.mem_map.2 ⟨e, he, heq⟩)
      have hstart := hstarted List.mem_cons_self
      rw [recoversUnstarted_of_append hother hu] at hstart
      cases hstart
    | _ => exact hrest

theorem Emission.idleRecoveries {cfg : Config} {s s' : Cluster} {x : Act} {es : List Entry}
    (he : Emission cfg s x s' es) (hc : RecoversStarted s x) (j : UUID) :
    idleRecoveries j s'.history = idleRecoveries j s.history := by
  rw [he.history]
  refine idleRecoveries_append he.nodup fun hm => ?_
  cases he.emits _ hm with
  | recovered hr hid hex hfree hlink =>
    subst hid
    exact hc hlink _ hr hex hfree

/-- **Executions cover the retry count** throughout every run in which each recovery finds the
executions of the claims it takes started: no job has more retries counted than calls of the executor,
and none is dead-lettered without one. -/
theorem retry_count_le_executions (cfg : Config) (xs : List Act)
    (hstarted : (cluster cfg).EachStep RecoversStarted xs) :
    (cluster cfg).Always (fun s => ∀ r ∈ s.store.jobs.rows,
      r.retryCount ≤ executions r.id s.history ∧
        (r.status = .deadLettered → 1 ≤ executions r.id s.history)) xs := by
  have hidle : (cluster cfg).Always (fun s => ∀ j, idleRecoveries j s.history = 0) xs := by
    refine System.always_of_eachStep (fun _ => rfl) ?_ hstarted
    intro s x s' hr hzero hc hx j
    obtain ⟨es, he⟩ := reachable_emission hr hx
    rw [he.idleRecoveries hc j, hzero j]
  intro ys s hp hs r hm
  obtain ⟨hle, hdead⟩ := retry_count_le_spent ⟨ys, hs⟩ hm
  rw [hidle ys s hp hs r.id] at hle hdead
  exact ⟨hle, hdead⟩

open Demo in
/-- A failed execution, and the recovery that follows finds nothing to take: one retry, one call of the
executor. -/
theorem retry_count_le_executions_failed :
    ∃ s r, (cluster demo).exec ([submit] ++ poll "a" 1 11 ++ lock "a" 0 ++
        execute "a" 0 ++ fail "a" 0 5 (.other "connection reset") 3001 ++ poll "a" 6 12) = some s ∧
      r ∈ s.store.jobs.rows ∧ r.retryCount = 1 ∧ 1 ≤ executions r.id s.history := by
  have hstarted : (cluster demo).EachStep RecoversStarted ([submit] ++ poll "a" 1 11 ++ lock "a" 0 ++
      execute "a" 0 ++ fail "a" 0 5 (.other "connection reset") 3001 ++ poll "a" 6 12) :=
    System.eachStep_of_check (by decide +kernel)
  obtain ⟨s, hs, r, hm, hone⟩ :
      ∃ s, (cluster demo).exec ([submit] ++ poll "a" 1 11 ++ lock "a" 0 ++ execute "a" 0 ++
          fail "a" 0 5 (.other "connection reset") 3001 ++ poll "a" 6 12) = some s ∧
        ∃ r ∈ s.store.jobs.rows, r.retryCount = 1 :=
    System.exists_of_exec (by decide +kernel)
  have hle := ((retry_count_le_executions demo _ hstarted).last hs r hm).1
  exact ⟨s, r, hs, hm, hone, by omega⟩

/-- The step ends or shuts down a worker. -/
def Act.stopsWorker : Act → Bool
  | .crash _ => true
  | .loop _ .shutdown => true
  | .loop _ .stop => true
  | _ => false

namespace Demo

/-- Slot `0` of `a` receives a job while Redis is unreachable. -/
def lockError : List Act := [.loop "a" (.dispatch 0), .slot "a" 0 (.acquire .down)]

/-- Redis stays unreachable: four claims of the job, each left to expire. -/
def redisDown : List Act :=
  [submit] ++ poll "a" 1 11 ++ lockError ++ poll "a" 100 12 ++
    poll "a" 200 13 ++ lockError ++ poll "a" 300 14 ++
    poll "a" 400 15 ++ lockError ++ poll "a" 500 16 ++
    poll "a" 700 17 ++ lockError ++ poll "a" 800 18

end Demo

/-- No worker stops, the executor is never called, and the job is dead-lettered with four retries
counted. -/
theorem dead_lettered_unexecuted :
    (∀ x ∈ Demo.redisDown, x.stopsWorker = false) ∧
      ∃ s r, (cluster demo).exec Demo.redisDown = some s ∧ r ∈ s.store.jobs.rows ∧
        r.status = .deadLettered ∧ r.retryCount = 4 ∧ executions r.id s.history = 0 := by
  refine ⟨by decide, ?_⟩
  obtain ⟨s, hs, r, hm, hd, hfour, hex⟩ :
      ∃ s, (cluster demo).exec Demo.redisDown = some s ∧ ∃ r ∈ s.store.jobs.rows,
        r.status = .deadLettered ∧ r.retryCount = 4 ∧ executions r.id s.history = 0 :=
    System.exists_of_exec (by decide +kernel)
  exact ⟨s, r, hs, hm, hd, hfour, hex⟩

end JobScheduler
