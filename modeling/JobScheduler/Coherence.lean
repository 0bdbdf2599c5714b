import JobScheduler.Budget
import JobScheduler.Lifecycle

/-!
# The nullable columns of a job

The lease columns and the three timestamps of a job are written by hand in every statement.  They
agree with the status and the retry count in every reachable state (`Coherent`), and so no job gets
lost: one that waits is selected by `ClaimDueJobs` from its `run_at` on, one that runs by
`RecoverExpiredRunningJobs` once its lease is over.
-/

namespace JobScheduler

open KeyedTable TransitionSystem

variable {h : List Entry} {s : Store} {e : Entry} {r r' : JobRow}

/-- The nullable columns of a row agree with its status and its retry count. -/
structure Coherent (r : JobRow) : Prop where
  lockedBy : r.status = .running ↔ r.lockedBy ≠ none
  lockedUntil : r.lockedBy ≠ none ↔ r.lockedUntil ≠ none
  completedAt : r.completedAt ≠ none ↔ r.status = .succeeded
  cancelledAt : r.cancelledAt ≠ none ↔ r.status = .cancelled
  failedAt : r.failedAt ≠ none ↔ 1 ≤ r.retryCount

/-- Rows are inserted without a lease and without timestamps. -/
theorem NewRow.coherent (hn : NewRow e r) : Coherent r := by
  have hstatus := hn.status_cases
  cases hn with
  | @created now j hj =>
    have hcount := hj.retryCount
    constructor <;> rcases hstatus with hs | hs <;> simp_all [createRow]
  | requeued now clock newID tenantID dl runAt =>
    constructor <;> rcases hstatus with hs | hs <;> simp_all [requeueRow]

/-- Settling a failed attempt ends the lease and stamps the failure. -/
theorem Settled.coherent {now : Time} {n : Int} {message : String} {status : Status}
    (hs : Settled now n message r status r') (hn : 1 ≤ n) (hrun : r.status = .running)
    (hr : Coherent r) : Coherent r' := by
  have hcompleted := hr.completedAt
  have hcancelled := hr.cancelledAt
  rw [hrun] at hcompleted hcancelled
  cases hs <;> constructor <;> simp_all [buryRow, retryRow]

/-- The step lemma of coherence.  A worker counts from its claim's snapshot, a recovery from the row
itself; neither count is negative. -/
theorem RowChange.coherent (hc : RowChange h r e r') (hcount : 0 ≤ r.retryCount)
    (hclaims : ∀ w c, .claimed w c ∈ h → 0 ≤ c.retryCount) (hr : Coherent r) : Coherent r' := by
  obtain ⟨hby, huntil, hcompleted, hcancelled, hfailed⟩ := hr
  cases hc with
  | claimed x hcl =>
    have hstatus := hcl.1
    constructor
    · simp [ClaimArgs.lease]
    · simp [ClaimArgs.lease]
    · simp only [ClaimArgs.lease, hcompleted]
      simp only [List.mem_cons, List.not_mem_nil, or_false] at hstatus
      rcases hstatus with hs | hs | hs <;> simp [hs]
    · simp only [ClaimArgs.lease, hcancelled]
      simp only [List.mem_cons, List.not_mem_nil, or_false] at hstatus
      rcases hstatus with hs | hs | hs <;> simp [hs]
    · exact hfailed
  | extended now ttl _ hrun _ =>
    refine ⟨hby, ?_, hcompleted, hcancelled, hfailed⟩
    have hlocked : r.lockedBy ≠ none := hby.1 hrun
    simp [extendedRow, hlocked]
  | completed now _ hrun _ =>
    rw [hrun] at hcancelled
    constructor <;> simp_all [succeededRow]
  | @failed now message status _ w c _ hp hrun _ hs _ =>
    have hnonneg := hclaims w c hp.claimed
    exact hs.coherent (by omega) hrun ⟨hby, huntil, hcompleted, hcancelled, hfailed⟩
  | released now _ hrun _ =>
    rw [hrun] at hcompleted hcancelled
    constructor <;> simp_all [releasedRow]
  | @transitioned now op hfrom =>
    -- no operation starts from or leads to SUCCEEDED, and only a cancellation leads to CANCELLED
    have hstart := (op.edge hfrom).2
    simp only [Status.final, List.mem_cons, List.not_mem_nil, or_false, not_or] at hstart
    have hcompleted' : r.completedAt = none := by simpa [hstart.1] using hcompleted
    have hcancelled' : r.cancelledAt = none := by simpa [hstart.2.1] using hcancelled
    refine ⟨?_, ?_, ?_, ?_, hfailed⟩
    · simp [operatorRow, op.target_ne_running]
    · simp [operatorRow]
    · cases op <;> simp [operatorRow, Operation.target, hcompleted']
    · cases op <;> simp [operatorRow, Operation.target, hcancelled']
  | @recovered now message status _ hrun hs _ =>
    exact hs.coherent (by omega) hrun ⟨hby, huntil, hcompleted, hcancelled, hfailed⟩

/-- Every row of every log is coherent. -/
theorem Log.coherent (hl : Log h s) {k : UUID} (hr : s.jobs.find? k = some r) : Coherent r := by
  refine hl.row_invariant NewRow.coherent ?_ hr
  intro h s e r r' hl hr hch hcoh
  exact hch.coherent (hl.budget.1 _ r hr).nonneg (fun w c hm => (hl.budget.2 w c hm).nonneg) hcoh

/-- A row that waits is due from its `run_at` on. -/
theorem Coherent.claimableAt (hr : Coherent r)
    (hs : r.status ∈ [Status.pending, .scheduled, .retryScheduled]) {now : Time}
    (hnow : r.runAt ≤ now) : r.ClaimableAt now := by
  refine ⟨hs, hnow, .inl ?_⟩
  have hrun : r.status ≠ .running := by
    intro he
    rw [he] at hs
    exact absurd hs (by decide)
  by_contra huntil
  exact hrun (hr.lockedBy.2 (hr.lockedUntil.2 huntil))

/-- A row that runs has a lease, and is expired after it. -/
theorem Coherent.expiredAt (hr : Coherent r) (hs : r.status = .running) :
    ∃ t, r.lockedUntil = some t ∧ ∀ now, t < now → r.ExpiredAt now := by
  obtain ⟨t, ht⟩ := Option.ne_none_iff_exists'.1 (hr.lockedUntil.1 (hr.lockedBy.1 hs))
  refine ⟨t, ht, fun now hlt => ⟨hs, ?_⟩⟩
  simpa [ht, lockedBefore] using hlt

/-- **Row coherence, and no stranded job.**  In every reachable state the nullable columns of every
row agree with its status and retry count; a waiting job is due at every time from its `run_at` on, a
running one expired at every time after its `locked_until`, and every job that is neither final nor
paused is visible to one of the two selections from some time on. -/
theorem rows_coherent {cfg : Config} {s : Cluster} (hr : (cluster cfg).Reachable s) {r : JobRow}
    (hm : r ∈ s.store.jobs.rows) :
    Coherent r ∧
      (r.status ∈ [Status.pending, .scheduled, .retryScheduled] →
        ∀ now, r.runAt ≤ now → r.ClaimableAt now) ∧
      (r.status = .running → ∃ t, r.lockedUntil = some t ∧ ∀ now, t < now → r.ExpiredAt now) ∧
      (r.status ∉ [Status.succeeded, .cancelled, .deadLettered, .paused] →
        ∃ t, ∀ now, t < now → r.ClaimableAt now ∨ r.ExpiredAt now) := by
  have hlog := (reachable_sound hr).log
  have hrow : s.store.jobs.find? r.id = some r := Table.find?_key hm
  have hcoh := hlog.coherent hrow
  refine ⟨hcoh, fun hs now hnow => hcoh.claimableAt hs hnow, hcoh.expiredAt, fun hs => ?_⟩
  have hfailed := hlog.not_failed hrow
  by_cases hrun : r.status = .running
  · obtain ⟨t, -, hex⟩ := hcoh.expiredAt hrun
    exact ⟨t, fun now hlt => .inr (hex now hlt)⟩
  · have hwaits : r.status ∈ [Status.pending, .scheduled, .retryScheduled] := by
      revert hs hrun hfailed
      cases r.status <;> decide
    exact ⟨r.runAt, fun now hlt => .inl (hcoh.claimableAt hwaits (le_of_lt hlt))⟩

open Demo in
/-- A running job under a lease to second 31, expired at second 32. -/
theorem rows_coherent_running :
    ∃ s r, (cluster demo).exec ([submit] ++ poll "a" 1 11) = some s ∧
      r ∈ s.store.jobs.rows ∧ r.lockedUntil = some (31 * second) ∧ Coherent r ∧
      r.ExpiredAt (32 * second) := by
  obtain ⟨s, hs, r, hm, hrunning, huntil⟩ :
      ∃ s, (cluster demo).exec ([submit] ++ poll "a" 1 11) = some s ∧
        ∃ r ∈ s.store.jobs.rows, r.status = .running ∧ r.lockedUntil = some (31 * second) :=
    System.exists_of_exec (by decide +kernel)
  obtain ⟨hcoh, -, hexp, -⟩ := rows_coherent ⟨_, hs⟩ hm
  obtain ⟨t, ht, hex⟩ := hexp hrunning
  obtain rfl := Option.some.inj (huntil.symm.trans ht)
  exact ⟨s, r, hs, hm, huntil, hcoh, hex _ (by decide)⟩

end JobScheduler
