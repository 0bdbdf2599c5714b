import JobScheduler.Refinement

/-!
# The lifecycle of jobs and attempts

The statements encode their status changes in SQL predicates; the table `transitions` is consulted
only for operator calls, on a read that may be stale by the time of the write.  Here every change
that commits, in any run, is shown to be an edge of that table (`RowChange.edge`), and the statuses
SUCCEEDED, CANCELLED and DEAD_LETTERED to be final although the table has an edge out of the last
one (`RowChange.not_final`).  Nothing ever writes FAILED into a job row, so `Service.Retry` has
nothing to act on.
-/

namespace JobScheduler

open KeyedTable TransitionSystem

variable {h : List Entry} {s s' : Store} {e : Entry} {r r' : JobRow}

/-- The statuses a job never leaves. -/
def Status.final : List Status := [.succeeded, .cancelled, .deadLettered]

theorem Settled.edge {now : Time} {n : Int} {message : String} {status : Status}
    (hs : Settled now n message r status r') (hrun : r.status = .running) :
    canTransition r.status r'.status = true := by
  cases hs <;> simp [hrun, buryRow, retryRow, canTransition, transitions]

/-- The accepted statuses of an operation have an edge to its target, and none of them is final. -/
theorem Operation.edge (op : Operation) {status : Status} (hs : status ∈ op.allowedFrom) :
    canTransition status op.target = true ∧ status ∉ Status.final := by
  revert hs
  cases op <;> cases status <;> decide

/-- The claimable statuses have an edge to RUNNING, and none of them is final. -/
theorem claim_edge {status : Status} (hs : status ∈ [Status.pending, .scheduled, .retryScheduled]) :
    canTransition status .running = true ∧ status ∉ Status.final := by
  revert hs
  cases status <;> decide

/-- Every rewriting of a row that changes its status follows an edge of the table. -/
theorem RowChange.edge (hc : RowChange h r e r') :
    r'.status = r.status ∨ canTransition r.status r'.status = true := by
  cases hc with
  | claimed x hr => exact .inr (claim_edge hr.1).1
  | extended => exact .inl rfl
  | completed now _ hrun _ =>
    right
    rw [hrun]
    rfl
  | failed _ hrun _ hs _ => exact .inr (hs.edge hrun)
  | released now _ hrun _ =>
    right
    rw [hrun]
    rfl
  | @transitioned now op hfrom => exact .inr (op.edge hfrom).1
  | recovered hrun hs _ => exact .inr (hs.edge hrun)

/-- No rewriting starts from a final status. -/
theorem RowChange.not_final (hc : RowChange h r e r') : r.status ∉ Status.final := by
  have hrunning : Status.running ∉ Status.final := by decide
  cases hc with
  | claimed x hr => exact (claim_edge hr.1).2
  | extended _ _ _ hrun _ => exact hrun ▸ hrunning
  | completed _ _ hrun _ => exact hrun ▸ hrunning
  | failed _ hrun _ _ _ => exact hrun ▸ hrunning
  | released _ _ hrun _ => exact hrun ▸ hrunning
  | @transitioned now op hfrom => exact (op.edge hfrom).2
  | recovered hrun _ _ => exact hrun ▸ hrunning

/-- No rewriting leaves a job FAILED. -/
theorem RowChange.not_failed (hc : RowChange h r e r') (hr : r.status ≠ .failed) :
    r'.status ≠ .failed := by
  cases hc with
  | claimed => simp [ClaimArgs.lease]
  | extended => exact hr
  | completed => simp [succeededRow]
  | failed _ _ _ hs _ => cases hs <;> simp [buryRow, retryRow]
  | released => simp [releasedRow]
  | transitioned now hfrom =>
    rename_i op
    cases op <;> simp [operatorRow, Operation.target]
  | recovered _ hs _ => cases hs <;> simp [buryRow, retryRow]

/-- No job is ever FAILED. -/
theorem Log.not_failed (hl : Log h s) {k : UUID} (hr : s.jobs.find? k = some r) :
    r.status ≠ .failed := by
  refine hl.row_invariant (P := fun r => r.status ≠ .failed) ?_ ?_ hr
  · intro e r hn
    rcases hn.status_cases with hs | hs <;> simp [hs]
  · intro h s e r r' _ _ hch hne
    exact hch.not_failed hne

/-- An attempt that is not RUNNING is not touched along a path. -/
theorem Path.attempt_kept {es : List Entry} (hp : Path h s es s') {k : UUID} {a : Attempt}
    (ha : s.attempts.find? k = some a) (hrun : a.status ≠ .running) :
    s'.attempts.find? k = some a := by
  induction hp with
  | nil => exact ha
  | cons hp hc ih => exact hc.attempt_kept ih hrun

/-! ### Safety of whole runs -/

/-- What holds from a state `s` of the system on. -/
structure LifecycleSafe (cfg : Config) (s : Cluster) : Prop where
  /-- A step changes the status of a job along an edge of the table, or not at all. -/
  edges : ∀ x s', step cfg s x = some s' → ∀ k r, s.store.jobs.find? k = some r →
    ∃ r', s'.store.jobs.find? k = some r' ∧
      (r'.status = r.status ∨ canTransition r.status r'.status = true)
  /-- A job in a final status keeps its row, and so its status, through every later run. -/
  final : ∀ xs s', (cluster cfg).execFrom s xs = some s' → ∀ k r, s.store.jobs.find? k = some r →
    r.status ∈ [Status.succeeded, .cancelled, .deadLettered] → s'.store.jobs.find? k = some r
  /-- So does an attempt that is not RUNNING. -/
  closed : ∀ xs s', (cluster cfg).execFrom s xs = some s' → ∀ k a,
    s.store.attempts.find? k = some a → a.status ≠ .running → s'.store.attempts.find? k = some a
  /-- No job is FAILED. -/
  noFailed : ∀ k r, s.store.jobs.find? k = some r → r.status ≠ .failed
  /-- `Service.Retry` does not get past its check on any job it reads. -/
  retryCheck : ∀ tenantID id current s', getByID tenantID id s.store = .ok (current, s') →
    Operation.retry.check current ≠ .ok ()
  /-- Neither would its write succeed, whatever an earlier read has seen. -/
  retryWrite : ∀ now eventID tenantID id u s',
    Operation.retry.write now eventID tenantID id s.store ≠ .ok (u, s')

/-- A final row stays through a step. -/
theorem final_step {cfg : Config} {s s' : Cluster} {x : Act} {k : UUID}
    (hr : (cluster cfg).Reachable s) (hx : step cfg s x = some s')
    (hrow : s.store.jobs.find? k = some r) (hf : r.status ∈ Status.final) :
    s'.store.jobs.find? k = some r := by
  obtain ⟨es, he⟩ := reachable_emission hr hx
  rcases he.job_cases k with hk | ⟨hnone, -⟩ | ⟨h, e, r₀, r', hr₀, hch, -⟩
  · exact hk.trans hrow
  · rw [hnone] at hrow
    exact absurd hrow (by simp)
  · obtain rfl := Option.some.inj (hr₀.symm.trans hrow)
    exact absurd hf hch.not_final

/-- The row `GetByID` reads is in the table. -/
theorem getByID_spec {tenantID id : UUID} {current : Job}
    (hg : getByID tenantID id s = .ok (current, s')) :
    ∃ r, s.jobs.find? id = some r ∧ current = r.toJob := by
  simp only [getByID, Transaction.Tx.bind_eq_ok, Transaction.Tx.read_eq_ok,
    Transaction.Tx.orAbort_eq_ok, Transaction.Tx.pure_eq_ok] at hg
  obtain ⟨_, _, ⟨rfl, rfl⟩, r, _, ⟨hfind, rfl⟩, rfl, rfl⟩ := hg
  have hid := List.find?_some hfind
  simp only [decide_eq_true_eq] at hid
  exact ⟨r, Table.find?_eq_some_iff.2 ⟨List.mem_of_find?_eq_some hfind, hid.2⟩, rfl⟩

/-- **Lifecycle safety.**  From every reachable state on, in every interleaving: committed status
changes are edges of the table, final statuses and closed attempts stay, no job is FAILED, and
`Service.Retry` never succeeds. -/
theorem lifecycle_safe {cfg : Config} {s : Cluster} (hr : (cluster cfg).Reachable s) :
    LifecycleSafe cfg s := by
  have hlog := (reachable_sound hr).log
  refine ⟨?_, ?_, ?_, fun k r hk => hlog.not_failed hk, ?_, ?_⟩
  · intro x s' hx k r hrow
    obtain ⟨es, he⟩ := reachable_emission hr hx
    rcases he.job_cases k with hk | ⟨hnone, -⟩ | ⟨h, e, r₀, r', hr₀, hch, hr'⟩
    · exact ⟨r, hk.trans hrow, .inl rfl⟩
    · rw [hnone] at hrow
      exact absurd hrow (by simp)
    · obtain rfl := Option.some.inj (hr₀.symm.trans hrow)
      exact ⟨r', hr', hch.edge⟩
  · intro xs s' hx k r hrow hf
    exact hr.stable (fun _ _ _ hr₁ hs₁ hx₁ => final_step hr₁ hx₁ hs₁ hf) hrow hx
  · intro xs s' hx k a ha hrun
    refine hr.stable (P := fun s => s.store.attempts.find? k = some a) ?_ ha hx
    intro s₁ x₁ s₂ hr₁ hs₁ hx₁
    obtain ⟨es, he⟩ := reachable_emission hr₁ hx₁
    exact he.path.attempt_kept hs₁ hrun
  · intro tenantID id current s' hg hcheck
    obtain ⟨r, hfind, rfl⟩ := getByID_spec hg
    simp only [Operation.check, Operation.allowedFrom, List.mem_singleton] at hcheck
    split at hcheck
    · rename_i hc
      exact hlog.not_failed hfind hc.1
    · exact absurd hcheck (by simp)
  · intro now eventID tenantID id u s' hw
    obtain ⟨r, -, ht⟩ := transitionJob_spec hw
    have hfailed : r.status = .failed := by simpa [Operation.allowedFrom] using ht.allowed
    exact hlog.not_failed ht.row hfailed

open Demo in
/-- A run to SUCCEEDED, and what then holds. -/
theorem lifecycle_safe_succeeded :
    ∃ s, (cluster demo).exec ([submit] ++ poll "a" 1 11 ++ lock "a" 0 ++
        execute "a" 0 ++ complete "a" 0 5 3001) = some s ∧
      s.store.jobs.rows.map (fun r => r.status) = [.succeeded] ∧ LifecycleSafe demo s := by
  obtain ⟨s, hs, hst⟩ :
      ∃ s, (cluster demo).exec ([submit] ++ poll "a" 1 11 ++ lock "a" 0 ++
          execute "a" 0 ++ complete "a" 0 5 3001) = some s ∧
        s.store.jobs.rows.map (fun r => r.status) = [.succeeded] :=
    System.exists_of_exec (by decide +kernel)
  exact ⟨s, hs, hst, lifecycle_safe ⟨_, hs⟩⟩

end JobScheduler
