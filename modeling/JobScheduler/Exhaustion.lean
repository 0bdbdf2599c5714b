import JobScheduler.Budget

/-!
# How often a job can be claimed and executed

The retry budget bounds a column; this module bounds what the column is there to bound.  A claim uses
up one of the `max_retries + 1` tries of its job, and only `ReleaseClaim` gives tries back: it puts
the job back with the retry count it had, and leaves the attempt of the claim RUNNING, so that the
released claim and its successor can both still be finalized.

The argument is amortized.  A try that is not used yet belongs either to the row (`JobRow.room`), when
the job waits to be claimed, or to a RUNNING attempt (`Attempt.stake`), whose failure would hand it
back to the row.  Claims, waiting tries and staked tries together stay within the budget of the
releases (`Log.tries_bounded`).

* `claims_le_tries` — a job is claimed, and executed, at most `(max_retries + 1) * (releases + 1)`
  times.
-/

namespace JobScheduler

open KeyedTable TransitionSystem

variable {h : List Entry} {s s' : Store} {e : Entry} {r r' : JobRow} {w : String} {c : ClaimedJob}
  {k : UUID} {m : Int}

/-! ### Counting entries -/

/-- The entry is a claim of the job `j`. -/
def Entry.isClaim (j : UUID) : Entry → Bool
  | .claimed _ c => decide (c.id = j)
  | _ => false

/-- The entry is a release of a claim of the job `j`. -/
def Entry.isRelease (j : UUID) : Entry → Bool
  | .released _ c => decide (c.id = j)
  | _ => false

/-- How often the job `j` was claimed. -/
def claims (j : UUID) (h : List Entry) : ℕ := h.countP (Entry.isClaim j)

/-- How often a claim of the job `j` was released. -/
def releases (j : UUID) (h : List Entry) : ℕ := h.countP (Entry.isRelease j)

theorem claims_cons_of_not (he : e.isClaim k = false) : claims k (e :: h) = claims k h := by
  simp [claims, he]

theorem releases_cons_of_not (he : e.isRelease k = false) : releases k (e :: h) = releases k h := by
  simp [releases, he]

theorem claims_claimed : claims c.id (.claimed w c :: h) = claims c.id h + 1 := by
  simp [claims, Entry.isClaim]

theorem releases_released : releases c.id (.released w c :: h) = releases c.id h + 1 := by
  simp [releases, Entry.isRelease]

/-- Entries about other jobs, and executions, are neither claims nor releases of the job. -/
theorem Entry.not_counted (he : k = e.jobID → ∃ w c, e = .executed w c) :
    e.isClaim k = false ∧ e.isRelease k = false := by
  cases e with
  | claimed w c =>
    have hne : c.id ≠ k := fun hk => by simpa using he hk.symm
    simp [isClaim, isRelease, hne]
  | released w c =>
    have hne : c.id ≠ k := fun hk => by simpa using he hk.symm
    simp [isClaim, isRelease, hne]
  | _ => exact ⟨rfl, rfl⟩

/-! ### Tries that are not used yet -/

/-- What a budget of `m` retries leaves at the retry count `n`. -/
def triesLeft (m n : Int) : ℕ := (m + 1 - n).toNat

/-- The tries a RUNNING attempt of the job `j` hands back when it fails. -/
def Attempt.stake (j : UUID) (m : Int) (a : Attempt) : ℕ :=
  if a.jobID = j ∧ a.status = .running then triesLeft m a.attemptNumber else 0

/-- The tries of a job that waits to be claimed; a RUNNING or finished job has none of its own. -/
def JobRow.room (r : JobRow) : ℕ :=
  if r.status ∈ [.running, .succeeded, .deadLettered, .cancelled] then 0
  else triesLeft r.maxRetries r.retryCount

theorem Attempt.stake_of_not_running {a : Attempt} (ha : a.status ≠ .running) : a.stake k m = 0 := by
  simp [stake, ha]

theorem AttemptOf.stake {a : Attempt} (ho : AttemptOf w c a) (ha : a.status = .running) :
    a.stake c.id m = triesLeft m (c.retryCount + 1) := by
  simp [Attempt.stake, ho.jobID, ha, ho.attemptNumber]

theorem JobRow.room_le (r : JobRow) : r.room ≤ triesLeft r.maxRetries r.retryCount := by
  unfold room
  split <;> simp

theorem JobRow.room_of_mem (hs : r.status ∈ [.running, .succeeded, .deadLettered, .cancelled]) :
    r.room = 0 :=
  if_pos hs

/-! ### What a commit does to the stakes -/

/-- Closing attempts raises no stake. -/
theorem total_stake_update_le (t : Table Attempt) (p : Attempt → Prop) [DecidablePred p]
    (f : Attempt → Attempt) (hf : ∀ a, (f a).id = a.id) (hstop : ∀ a, (f a).status ≠ .running) :
    (t.update p f hf).total (Attempt.stake k m) ≤ t.total (Attempt.stake k m) := by
  refine Table.total_update_le fun a _ _ => ?_
  rw [Attempt.stake_of_not_running (hstop a)]
  exact Nat.zero_le _

/-- Closing attempts takes away the stake of each. -/
theorem total_stake_update_add_le {t : Table Attempt} {p : Attempt → Prop} [DecidablePred p]
    {f : Attempt → Attempt} {hf : ∀ a, (f a).id = a.id} (hstop : ∀ a, (f a).status ≠ .running)
    {a : Attempt} (ha : a ∈ t.rows) (hp : p a) :
    (t.update p f hf).total (Attempt.stake k m) + a.stake k m ≤ t.total (Attempt.stake k m) := by
  have hle : (t.update p f hf).total (Attempt.stake k m) + a.stake k m
      ≤ t.total (Attempt.stake k m) + (f a).stake k m :=
    Table.total_update_add_le ha hp fun b _ _ => by
      rw [Attempt.stake_of_not_running (hstop b)]
      exact Nat.zero_le _
  rwa [Attempt.stake_of_not_running (hstop a), Nat.add_zero] at hle

theorem succeededAttempt_stops (now : Time) (durationMS : Int) (result : RawMessage) (a : Attempt) :
    (succeededAttempt now durationMS result a).status ≠ .running :=
  fun he => by cases he

theorem failedAttempt_stops (now : Time) (durationMS : Int) (outcome : ExecutionResult)
    (a : Attempt) : (failedAttempt now durationMS outcome a).status ≠ .running :=
  fun he => by cases he

theorem cancelledAttempt_stops (now : Time) (a : Attempt) :
    (cancelledAttempt now a).status ≠ .running :=
  fun he => by cases he

theorem RecoverArgs.expired_stops (x : RecoverArgs) (a : Attempt) :
    (x.expired a).status ≠ .running :=
  fun he => by cases he

/-- Only a claim of the job raises the stakes on it. -/
theorem Commit.stakes_le (hc : Commit h s e s') (he : e.isClaim k = false) :
    s'.attempts.total (Attempt.stake k m) ≤ s.attempts.total (Attempt.stake k m) := by
  cases hc with
  | created _ hc => rw [hc.attempts]
  | requeued hc => rw [hc.attempts]
  | @claimed x r _ _ _ hc =>
    have hne : r.id ≠ k := of_decide_eq_false he
    have hzero : (x.attempt r).stake k m = 0 := if_neg fun hj => hne hj.1
    rw [Table.total_insert hc.attempts, hzero, Nat.add_zero]
  | extended _ _ hc => rw [hc.attempts]
  | executed _ => exact Nat.le_refl _
  | completed _ hc =>
    rw [hc.attempts]
    exact total_stake_update_le _ _ _ _ (succeededAttempt_stops _ _ _)
  | failed _ hc =>
    rw [hc.attempts]
    exact total_stake_update_le _ _ _ _ (failedAttempt_stops _ _ _)
  | released _ _ hc => rw [hc.attempts]
  | @transitioned now _ op _ _ hc =>
    rw [hc.attempts]
    split
    · exact total_stake_update_le _ _ _ _ (cancelledAttempt_stops now)
    · exact Nat.le_refl _
  | @recovered x _ _ _ _ hc =>
    rw [hc.attempts]
    exact total_stake_update_le _ _ _ _ x.expired_stops

/-- A claim stakes what its failure would leave. -/
theorem Commit.stakes_claimed (hc : Commit h s (.claimed w c) s') :
    s'.attempts.total (Attempt.stake c.id m)
      = s.attempts.total (Attempt.stake c.id m) + triesLeft m (c.retryCount + 1) := by
  cases hc with
  | @claimed x r _ _ _ hc =>
    rw [Table.total_insert hc.attempts]
    have ho : AttemptOf x.workerID (x.claimed r) (x.attempt r) := ⟨rfl, rfl, rfl, rfl⟩
    rw [ho.stake rfl]

/-- A failure takes its claim's stake, whether or not the claim still owns the job. -/
theorem Commit.stakes_failed (hc : Commit h s (.failed w c) s') (hl : Log h s) :
    s'.attempts.total (Attempt.stake c.id m) + triesLeft m (c.retryCount + 1)
      ≤ s.attempts.total (Attempt.stake c.id m) := by
  cases hc with
  | @failed _ _ _ _ _ _ _ _ a _ hp hc =>
    obtain ⟨a₁, ha₁, ho⟩ := hl.attempt_of_claimed hp.claimed
    obtain rfl := Option.some.inj (ha₁.symm.trans hc.attempt)
    obtain ⟨hmem, hkey⟩ := Table.find?_eq_some_iff.1 hc.attempt
    rw [hc.attempts, Table.modify, ← ho.stake hc.attemptRunning]
    exact total_stake_update_add_le (failedAttempt_stops _ _ _) hmem hkey

/-- A recovery takes at least the owner's stake. -/
theorem Commit.stakes_recovered (hc : Commit h s (.recovered k) s') (hl : Log h s)
    (hr : s.jobs.find? k = some r) (hrun : r.status = .running) :
    s'.attempts.total (Attempt.stake k m) + triesLeft m (r.retryCount + 1)
      ≤ s.attempts.total (Attempt.stake k m) := by
  have hrow := (hl.row_owner k).2 r hr
  obtain ⟨⟨w, c⟩, hown⟩ := Option.ne_none_iff_exists'.1 (hrow.running.1 hrun)
  obtain ⟨a, ha, ho, harun⟩ := hl.owner_attempt hown
  obtain ⟨-, rfl⟩ := owner_eq_some hown
  have hmem := (Table.find?_eq_some_iff.1 ha).1
  rw [hrow.retryCount w c hown, ← ho.stake harun]
  generalize hid : c.id = id at hc ho
  cases hc with
  | @recovered x r' _ _ _ hc =>
    rw [hc.attempts]
    exact total_stake_update_add_le x.expired_stops hmem ⟨ho.jobID.trans hid, harun⟩

/-! ### The bound -/

/-- The claims of a job, the tries it waits with and the tries staked on its attempts are within its
budget, once for every time a claim was given back. -/
def TriesBounded (h : List Entry) (s : Store) (k : UUID) (r : JobRow) : Prop :=
  claims k h + s.attempts.total (Attempt.stake k r.maxRetries) + r.room
    ≤ triesLeft r.maxRetries 0 * (releases k h + 1)

/-- A job that is not there yet was never claimed. -/
theorem Log.no_claims (hl : Log h s) (hnone : s.jobs.find? k = none) :
    claims k h = 0 ∧ s.attempts.total (Attempt.stake k m) = 0 := by
  have hno : ∀ w c, .claimed w c ∈ h → c.id ≠ k := by
    rintro w c hm rfl
    obtain ⟨r, hr, -⟩ := hl.job_of_claimed hm
    rw [hnone] at hr
    exact absurd hr (by simp)
  constructor
  · rw [claims, List.countP_eq_zero]
    intro e he
    cases e with
    | claimed w c => simpa [Entry.isClaim] using hno w c he
    | _ => simp [Entry.isClaim]
  · refine Table.total_eq_zero fun a ha => if_neg ?_
    rintro ⟨hj, -⟩
    obtain ⟨w, c, hm, ho⟩ := hl.claim_of_attempt (Table.find?_key ha)
    exact hno w c hm (ho.jobID.symm.trans hj)

theorem NewRow.triesBounded (hn : NewRow e r) (hl : Log h s) (hc : Commit h s e s')
    (hnone : s.jobs.find? k = none) : TriesBounded (e :: h) s' k r := by
  obtain ⟨hclaims, hstakes⟩ := hl.no_claims (m := r.maxRetries) hnone
  have hcounted : e.isClaim k = false ∧ r.retryCount = 0 := by
    cases hn with
    | created now hj => exact ⟨rfl, hj.retryCount⟩
    | requeued => exact ⟨rfl, rfl⟩
  have hle := hc.stakes_le (m := r.maxRetries) hcounted.1
  have hroom := r.room_le
  rw [hcounted.2] at hroom
  have hone : triesLeft r.maxRetries 0
      ≤ triesLeft r.maxRetries 0 * (releases k (e :: h) + 1) := Nat.le_mul_of_pos_right _ (by omega)
  rw [TriesBounded, claims_cons_of_not hcounted.1]
  omega

/-- A failed attempt leaves at most what is left after one more retry. -/
theorem Settled.room_le {now : Time} {n : Int} {message : String} {status : Status}
    (hs : Settled now n message r status r') : r'.room ≤ triesLeft r.maxRetries n := by
  rw [← hs.maxRetries_eq, ← hs.retryCount_eq]
  exact r'.room_le

/-- The operator's changes other than a cancellation keep a waiting job waiting. -/
theorem operatorRow_room_le (now : Time) (op : Operation) (hfrom : r.status ∈ op.allowedFrom) :
    (operatorRow now op.target r).room ≤ r.room := by
  cases op with
  | cancel => rw [JobRow.room_of_mem (by simp [operatorRow, Operation.target])]; exact Nat.zero_le _
  | _ =>
    refine (JobRow.room_le _).trans ?_
    have hlive : r.status ∉ [.running, .succeeded, .deadLettered, .cancelled] := by
      revert hfrom
      cases r.status <;> decide
    rw [JobRow.room, if_neg hlive]
    exact Nat.le_refl _

/-- The step lemma of the bound: each change of the row against what it does to the stakes. -/
theorem RowChange.triesBounded (hch : RowChange h r e r') (hl : Log h s) (hc : Commit h s e s')
    (hr : s.jobs.find? e.jobID = some r) (hb : TriesBounded h s e.jobID r) :
    TriesBounded (e :: h) s' e.jobID r' := by
  have hm : r'.maxRetries = r.maxRetries := congrArg JobIdentity.maxRetries hch.identity_eq
  have hbudget := hl.budget.1 _ r hr
  have hkept := hc.stakes_le (k := e.jobID) (m := r.maxRetries)
  unfold TriesBounded at hb ⊢
  rw [hm]
  cases hch with
  | claimed x hcl =>
    -- the row's tries become the claim and its stake
    have hlive : r.status ∉ [.running, .succeeded, .deadLettered, .cancelled] := by
      have hfrom := hcl.1
      revert hfrom
      cases r.status <;> decide
    have hle : r.retryCount ≤ r.maxRetries := hbudget.live fun hd => hlive (by simp [hd])
    have hroom : r.room = triesLeft r.maxRetries r.retryCount := if_neg hlive
    have hgone : (x.lease r).room = 0 := JobRow.room_of_mem (by simp [ClaimArgs.lease])
    have hone : triesLeft r.maxRetries r.retryCount
        = triesLeft r.maxRetries (r.retryCount + 1) + 1 := by
      unfold triesLeft
      omega
    have hstakes : _ = _ + triesLeft r.maxRetries (r.retryCount + 1) :=
      hc.stakes_claimed (m := r.maxRetries)
    simp only [Entry.jobID] at hb ⊢
    rw [claims_claimed, hstakes, releases_cons_of_not rfl, hgone]
    omega
  | extended now ttl _ hrun _ =>
    have hle := hkept rfl
    have hroom : (extendedRow now ttl r).room = r.room := rfl
    rw [claims_cons_of_not rfl, releases_cons_of_not rfl, hroom]
    omega
  | completed now _ _ _ =>
    have hle := hkept rfl
    have hgone : (succeededRow now r).room = 0 := JobRow.room_of_mem (by simp [succeededRow])
    rw [claims_cons_of_not rfl, releases_cons_of_not rfl, hgone]
    omega
  | failed _ _ _ hs _ =>
    have hle := hc.stakes_failed (m := r.maxRetries) hl
    have hroom := hs.room_le
    rw [claims_cons_of_not rfl, releases_cons_of_not rfl]
    simp only [Entry.jobID] at hb ⊢
    omega
  | released now _ _ _ =>
    -- the one change that needs another budget
    have hle := hkept rfl
    have hroom : (releasedRow now .retryScheduled r).room ≤ triesLeft r.maxRetries 0 := by
      refine (JobRow.room_le _).trans ?_
      have hnonneg := hbudget.nonneg
      show triesLeft r.maxRetries r.retryCount ≤ triesLeft r.maxRetries 0
      unfold triesLeft
      omega
    simp only [Entry.jobID] at hb hle ⊢
    rw [claims_cons_of_not rfl, releases_released, Nat.mul_succ]
    omega
  | transitioned now hfrom =>
    have hle := hkept rfl
    have hroom := operatorRow_room_le now _ hfrom
    rw [claims_cons_of_not rfl, releases_cons_of_not rfl]
    omega
  | recovered hrun hs _ =>
    have hle := hc.stakes_recovered (m := r.maxRetries) hl hr hrun
    have hroom := hs.room_le
    rw [claims_cons_of_not rfl, releases_cons_of_not rfl]
    simp only [Entry.jobID] at hb ⊢
    omega

/-- **Tries are bounded.**  In every log, for every job. -/
theorem Log.tries_bounded (hl : Log h s) (hr : s.jobs.find? k = some r) : TriesBounded h s k r := by
  induction hl generalizing r with
  | nil => simp [Store.empty] at hr
  | @cons h s s' e hl hc ih =>
    rcases hc.job_cases k with ⟨he, hsame⟩ | ⟨-, hnone, r', hn, hr'⟩ | ⟨rfl, r₀, r', hr₀, hch, hr'⟩
    · obtain ⟨hclaim, hrelease⟩ := Entry.not_counted he
      have hb := ih (hsame.symm.trans hr)
      have hle := hc.stakes_le (m := r.maxRetries) hclaim
      unfold TriesBounded at hb ⊢
      rw [claims_cons_of_not hclaim, releases_cons_of_not hrelease]
      omega
    · obtain rfl := Option.some.inj (hr'.symm.trans hr)
      exact hn.triesBounded hl hc hnone
    · obtain rfl := Option.some.inj (hr'.symm.trans hr)
      exact hch.triesBounded hl hc hr₀ (ih hr₀)

/-! ### Executions -/

/-- The claim an execution is of. -/
def Entry.ofClaim : Entry → Entry
  | .executed w c => .claimed w c
  | e => e

/-- No claim is executed twice. -/
theorem Log.executed_once (hl : Log h s) (k : UUID) : (h.filter (Entry.isExecution k)).Nodup := by
  induction hl with
  | nil => exact List.nodup_nil
  | @cons h s s' e hl hc ih =>
    by_cases he : e.isExecution k = true
    · rw [List.filter_cons_of_pos he, List.nodup_cons]
      refine ⟨fun hm => ?_, ih⟩
      cases hc with
      | executed hp => exact hp.notExecuted (List.mem_filter.1 hm).1
      | _ => exact absurd he (by simp [Entry.isExecution])
    · rwa [List.filter_cons_of_neg he]

/-- A job is executed at most as often as it is claimed. -/
theorem Log.executions_le_claims (hl : Log h s) (k : UUID) : executions k h ≤ claims k h := by
  have hexec : ∀ e ∈ h.filter (Entry.isExecution k), ∃ w c, e = .executed w c ∧ c.id = k ∧
      .claimed w c ∈ h := by
    intro e he
    obtain ⟨hm, hx⟩ := List.mem_filter.1 he
    cases e with
    | executed w c => exact ⟨w, c, rfl, of_decide_eq_true hx, hl.claimed_of_executed hm⟩
    | _ => cases hx
  have hnodup : ((h.filter (Entry.isExecution k)).map Entry.ofClaim).Nodup := by
    refine (hl.executed_once k).map_on fun e he e' he' heq => ?_
    obtain ⟨w, c, rfl, -⟩ := hexec e he
    obtain ⟨w', c', rfl, -⟩ := hexec e' he'
    obtain ⟨rfl, rfl⟩ := Entry.claimed.inj heq
    rfl
  have hsub : (h.filter (Entry.isExecution k)).map Entry.ofClaim ⊆ h.filter (Entry.isClaim k) := by
    intro e he
    obtain ⟨e', he', rfl⟩ := List.mem_map.1 he
    obtain ⟨w, c, rfl, hid, hm⟩ := hexec e' he'
    exact List.mem_filter.2 ⟨hm, decide_eq_true hid⟩
  have hle := (List.subperm_of_subset hnodup hsub).length_le
  rwa [List.length_map, ← List.countP_eq_length_filter, ← List.countP_eq_length_filter] at hle

/-- **Executions are bounded.**  In every reachable state, a job has been handed to the executor at
most as often as it was claimed, and claimed at most `max_retries + 1` times, and as many times again
for every `ReleaseClaim` that took effect on it. -/
theorem claims_le_tries {cfg : Config} {s : Cluster} (hr : (cluster cfg).Reachable s)
    {r : JobRow} (hm : r ∈ s.store.jobs.rows) :
    executions r.id s.history ≤ claims r.id s.history ∧
      (claims r.id s.history : Int) ≤ (r.maxRetries + 1) * (releases r.id s.history + 1) := by
  have hlog := (reachable_sound hr).log
  have hrow : s.store.jobs.find? r.id = some r := Table.find?_key hm
  refine ⟨hlog.executions_le_claims r.id, ?_⟩
  have hb := hlog.tries_bounded hrow
  have hle : claims r.id s.history
      ≤ triesLeft r.maxRetries 0 * (releases r.id s.history + 1) := by
    unfold TriesBounded at hb
    omega
  have hbudget := (hlog.budget.1 r.id r hrow).budget
  have hcast : ((triesLeft r.maxRetries 0 : ℕ) : Int) = r.maxRetries + 1 := by
    unfold triesLeft
    omega
  calc (claims r.id s.history : Int)
      ≤ ((triesLeft r.maxRetries 0 * (releases r.id s.history + 1) : ℕ) : Int) := by exact_mod_cast hle
    _ = (r.maxRetries + 1) * (releases r.id s.history + 1) := by push_cast [hcast]; rfl

namespace Demo

/-- A job with one retry.  Worker `a` dies under the lock; `b` recovers the job, misses the lock once
and gives the job back, and fails it after the key has expired. -/
def thirdClaim : List Act :=
  [.api (.create ⟨7, "client"⟩ ⟨"report", "CALL_WEBHOOK", "\x7b\x7d", 1, 0, 1, 0, 0, ""⟩
      (drawn 1) 1 10 10 .up)] ++
    poll "a" 1 11 ++ lock "a" 0 ++ [.crash "a"] ++ poll "b" 40 12 ++ poll "b" 100 13 ++
    lock "b" 0 ++ [.slot "b" 0 (.release (101 * second) .up), .expireLock 1] ++
    poll "b" 102 14 ++ lock "b" 0 ++ execute "b" 0 ++ fail "b" 0 103 (.other "reset") 3001

end Demo

/-- With one retry and one release there are three claims, one more than without the release. -/
theorem claims_le_tries_thirdClaim :
    ∃ s r, (cluster demo).exec Demo.thirdClaim = some s ∧ r ∈ s.store.jobs.rows ∧
      r.status = .deadLettered ∧ r.maxRetries = 1 ∧ claims r.id s.history = 3 ∧
      executions r.id s.history ≤ 3 ∧ 3 ≤ (1 + 1) * ((releases r.id s.history : Int) + 1) := by
  obtain ⟨s, hs, r, hm, hd, hmax, hthree⟩ :
      ∃ s, (cluster demo).exec Demo.thirdClaim = some s ∧ ∃ r ∈ s.store.jobs.rows,
        r.status = .deadLettered ∧ r.maxRetries = 1 ∧ claims r.id s.history = 3 :=
    System.exists_of_exec (by decide +kernel)
  have hle := claims_le_tries ⟨_, hs⟩ hm
  rw [hthree, hmax] at hle
  exact ⟨s, r, hs, hm, hd, hmax, hthree, hle.1, hle.2⟩

end JobScheduler
