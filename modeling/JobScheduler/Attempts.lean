import JobScheduler.Fencing

/-!
# One active attempt per running job

A RUNNING job and its RUNNING attempt are written by one transaction and, in all transactions but
one, closed by one.  `ReleaseClaim` is the exception: it takes the job back and leaves the attempt
RUNNING (`Commit.released_leaves_attempt`).

* `one_active_attempt` — in every run in which no `ReleaseClaim` takes effect, a RUNNING job has
  exactly one RUNNING attempt and every other job none.
* `released_attempt_runs` — one lock miss, and the job is RETRY_SCHEDULED with a RUNNING attempt.
-/

namespace JobScheduler

open KeyedTable TransitionSystem

variable {h : List Entry} {s s' : Store} {w : String} {c : ClaimedJob}

/-- How many attempts of the job are RUNNING. -/
def Store.runningAttempts (s : Store) (jobID : UUID) : ℕ :=
  s.attempts.count fun a => a.jobID = jobID ∧ a.status = .running

/-- A RUNNING job has exactly one RUNNING attempt, every other job has none. -/
structure OneActive (s : Store) : Prop where
  running : ∀ r ∈ s.jobs.rows, r.status = .running → s.runningAttempts r.id = 1
  notRunning : ∀ r ∈ s.jobs.rows, r.status ≠ .running → s.runningAttempts r.id = 0

/-- Behind the fence, and without releases, the RUNNING attempts are those of the owners. -/
theorem Fenced.owner_of_running (hf : Fenced h s) (hl : Log h s)
    (hno : ∀ w c, .released w c ∉ h) {a : Attempt} (ha : a ∈ s.attempts.rows)
    (hrun : a.status = .running) :
    ∃ w c, owner a.jobID h = some (w, c) ∧ a.id = c.activeAttemptID := by
  have hfind : s.attempts.find? a.id = some a := Table.find?_key ha
  obtain ⟨w, c, hm, hof⟩ := hl.claim_of_attempt hfind
  rw [hof.id] at hfind
  refine ⟨w, c, ?_, hof.id⟩
  rw [hof.jobID]
  exact hf.current w c a hm (hno w c) hfind hrun

theorem Fenced.oneActive (hf : Fenced h s) (hl : Log h s) (hno : ∀ w c, .released w c ∉ h) :
    OneActive s := by
  constructor
  · intro r hr hrun
    have hrow := (hl.row_owner r.id).2 r (Table.find?_key hr)
    obtain ⟨⟨w, c⟩, ho⟩ := Option.ne_none_iff_exists'.1 (hrow.running.1 hrun)
    obtain ⟨a, ha, hof, harun⟩ := hl.owner_attempt ho
    have hmem := (Table.find?_eq_some_iff.1 ha).1
    have hjob : a.jobID = r.id := hof.jobID.trans (owner_eq_some ho).2
    refine Table.count_eq_one hmem ⟨hjob, harun⟩ ?_
    rintro a' ha' ⟨hj', hrun'⟩
    -- both attempts belong to the owner's claim
    obtain ⟨w', c', ho', hid'⟩ := hf.owner_of_running hl hno ha' hrun'
    rw [hj', ho] at ho'
    obtain ⟨rfl, rfl⟩ := Prod.mk.inj (Option.some.inj ho')
    exact s.attempts.eq_of_key_eq ha' hmem (hid'.trans hof.id.symm)
  · intro r hr hne
    refine Table.count_eq_zero.2 ?_
    rintro a ha ⟨hj, harun⟩
    obtain ⟨w, c, ho, -⟩ := hf.owner_of_running hl hno ha harun
    have hrow := (hl.row_owner r.id).2 r (Table.find?_key hr)
    rw [hj, hrow.eq_none hne] at ho
    exact absurd ho (by simp)

/-- Every release that takes effect leaves a RUNNING attempt of a job that is not RUNNING. -/
theorem Commit.released_leaves_attempt (hc : Commit h s (.released w c) s') (hl : Log h s) :
    ¬OneActive s' := by
  intro hone
  cases hc with
  | @released now _ _ r _ hp hid hr =>
    have hrow := (hl.row_owner r.id).2 r hr.row
    obtain ⟨⟨w', c'⟩, ho⟩ := Option.ne_none_iff_exists'.1 (hrow.running.1 hr.running)
    obtain ⟨a, ha, hof, harun⟩ := hl.owner_attempt ho
    have hrow' : s'.jobs.find? r.id = some (releasedRow now .retryScheduled r) := by
      rw [hr.jobs]
      exact Table.find?_modify_self hr.row _ _
    have hzero := hone.notRunning _ (Table.find?_eq_some_iff.1 hrow').1 (by simp [releasedRow])
    refine Table.count_eq_zero.1 hzero a ?_ ⟨hof.jobID.trans (owner_eq_some ho).2, harun⟩
    rw [hr.attempts]
    exact (Table.find?_eq_some_iff.1 ha).1

/-! ### Runs without effective releases -/

/-- If the step calls `ReleaseClaim`, the job is not RUNNING under the calling worker. -/
def ReleasesNothing (s : Cluster) (x : Act) : Prop :=
  ∀ p ∈ s.releasing x, ¬s.store.RunsUnder p.1 p.2.id

instance (s : Cluster) : DecidablePred (ReleasesNothing s) :=
  fun x => inferInstanceAs (Decidable (∀ p ∈ s.releasing x, _))

/-- In a run in which no `ReleaseClaim` takes effect nothing is ever released. -/
theorem never_released {cfg : Config} {xs : List Act}
    (hno : (cluster cfg).EachStep ReleasesNothing xs) :
    (cluster cfg).Always (fun s => ∀ w c, .released w c ∉ s.history) xs := by
  refine System.always_of_eachStep (by simp [cluster, Cluster.initial]) ?_ hno
  intro s x s' hr hrel hx hstep w c hm
  obtain ⟨es, he⟩ := reachable_emission hr hstep
  rw [he.history] at hm
  rcases List.mem_append.1 hm with hm | hm
  · obtain ⟨-, hcall, hunder, -⟩ := he.of_released hm
    exact hx (w, c) hcall hunder
  · exact hrel w c hm

/-- **One active attempt.**  Throughout every run in which no `ReleaseClaim` call finds its job
RUNNING under the calling worker, every RUNNING job has exactly one RUNNING attempt and every other
job none. -/
theorem one_active_attempt (cfg : Config) (xs : List Act)
    (hno : (cluster cfg).EachStep ReleasesNothing xs) :
    (cluster cfg).Always (fun s => OneActive s.store) xs := by
  have hfenced : (cluster cfg).Always (fun s => Fenced s.history s.store) xs := by
    refine System.always_of_eachStep fenced_initial ?_ hno
    intro s x s' hr hf hx hstep
    exact hf.step hr (fun p hp hu => absurd hu (hx p hp)) hstep
  intro ys s hp hs
  exact (hfenced ys s hp hs).oneActive (reachable_sound ⟨ys, hs⟩).log (never_released hno ys s hp hs)

namespace Demo

/-- The operator cancels the job. -/
def cancel (t : Int) (eventID : UUID) : List Act :=
  [.api (.readJob .cancel 7 1 .up), .api (.writeJob 0 eventID (t * second) .up)]

/-- As `lockMiss`, but the operator cancels the job before `b` gives it back. -/
def lockMissCancelled : List Act :=
  [submit] ++ poll "a" 1 11 ++ lock "a" 0 ++ execute "a" 0 ++
    poll "b" 40 12 ++ poll "b" 100 13 ++ lock "b" 0 ++
    cancel 101 3001 ++ [.slot "b" 0 (.release (102 * second) .up)]

end Demo

/-- A release that comes too late for a cancelled job, whose two attempts are both closed. -/
theorem one_active_attempt_cancelled :
    ∃ s r, (cluster demo).exec Demo.lockMissCancelled = some s ∧ r ∈ s.store.jobs.rows ∧
      r.status = .cancelled ∧ s.store.attempts.rows.length = 2 ∧
      s.store.runningAttempts r.id = 0 := by
  have hno : (cluster demo).EachStep ReleasesNothing Demo.lockMissCancelled :=
    System.eachStep_of_check (by decide +kernel)
  obtain ⟨s, hs, htwo, r, hm, hcancelled⟩ :
      ∃ s, (cluster demo).exec Demo.lockMissCancelled = some s ∧
        s.store.attempts.rows.length = 2 ∧ ∃ r ∈ s.store.jobs.rows, r.status = .cancelled :=
    System.exists_of_exec (by decide +kernel)
  have hone := (one_active_attempt demo Demo.lockMissCancelled hno).last hs
  exact ⟨s, r, hs, hm, hcancelled, htwo, hone.notRunning r hm (by simp [hcancelled])⟩

/-- After one lock miss the job is RETRY_SCHEDULED and its attempt still RUNNING. -/
theorem released_attempt_runs :
    ∃ s r, (cluster demo).exec Demo.lockMiss = some s ∧ r ∈ s.store.jobs.rows ∧
      r.status = .retryScheduled ∧ s.store.runningAttempts r.id = 1 := by
  obtain ⟨s, hs, r, hm, hretry, hone⟩ :
      ∃ s, (cluster demo).exec Demo.lockMiss = some s ∧ ∃ r ∈ s.store.jobs.rows,
        r.status = .retryScheduled ∧ s.store.runningAttempts r.id = 1 :=
    System.exists_of_exec (by decide +kernel)
  exact ⟨s, r, hs, hm, hretry, hone⟩

end JobScheduler
