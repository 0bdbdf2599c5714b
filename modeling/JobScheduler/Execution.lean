import JobScheduler.Attempts

/-!
# Executions and ownership

`ProcessJob` consults Redis before it calls the executor, not PostgreSQL: the claim it works on may
have waited on the channel while its lease ran out, or its job may have been cancelled.  Ownership is
checked when the outcome is committed (`JobScheduler.Fencing`).

What a call of the executor does guarantee: its claim was made, never given back and never executed
before, and as long as nothing ended that claim, the job is RUNNING under the worker and the attempt
is RUNNING.
-/

namespace JobScheduler

open TransitionSystem

/-- What the executor step of a slot does. -/
theorem execute_spec {cfg : Config} {s s' : Cluster} {w : String} {i : ℕ}
    (hx : step cfg s (.slot w i .execute) = some s') :
    ∃ c, (s.workers w).slots i = .locked c ∧ s'.history = .executed w c :: s.history := by
  simp only [step, slotStep] at hx
  split at hx
  · rename_i c hslot
    split at hx
    · cases hx
    · obtain rfl := Option.some.inj hx
      exact ⟨c, hslot, rfl⟩
  · cases hx

/-- **Execution under ownership.**  Whenever the executor is called for a claim, the claim was made by
that worker, was not given back and not executed before; and if nothing has claimed, finalized,
released, recovered or cancelled the job since, the job is RUNNING with `locked_by` the worker, and
the attempt is RUNNING. -/
theorem execute_under_ownership {cfg : Config} {s s' : Cluster} (hr : (cluster cfg).Reachable s)
    {w : String} {i : ℕ} (hx : step cfg s (.slot w i .execute) = some s') :
    ∃ c, (s.workers w).slots i = .locked c ∧ s'.history = .executed w c :: s.history ∧
      Pending s.history w c ∧
      ∀ between before, s.history = between ++ .claimed w c :: before →
        (∀ e ∈ between, ¬e.Ends c.id) →
        s.store.RunsUnder w c.id ∧ s.store.AttemptRuns c.activeAttemptID := by
  obtain ⟨c, hslot, hhist⟩ := execute_spec hx
  have hsound := reachable_sound hr
  have hpending : Pending s.history w c := by
    have hb := (hsound.held w).slot i
    rw [hslot] at hb
    exact hb
  refine ⟨c, hslot, hhist, hpending, fun between before hsplit hquiet => ?_⟩
  have ho : owner c.id s.history = some (w, c) :=
    owner_eq_some_iff.2 ⟨between, before, hsplit, hquiet⟩
  obtain ⟨r, hrow, hrun, hby, -⟩ := hsound.log.owner_row ho
  obtain ⟨a, ha, -, harun⟩ := hsound.log.owner_attempt ho
  obtain ⟨hrm, hrid⟩ := KeyedTable.Table.find?_eq_some_iff.1 hrow
  obtain ⟨ham, haid⟩ := KeyedTable.Table.find?_eq_some_iff.1 ha
  exact ⟨⟨r, hrm, hrid, hrun, hby⟩, a, ham, haid, harun⟩

namespace Demo

/-- The job is cancelled while slot `0` has received it and not yet acquired the lock. -/
def cancelledBeforeLock : List Act :=
  [submit] ++ poll "a" 1 11 ++ [.loop "a" (.dispatch 0)] ++ cancel 2 3001 ++
    [.slot "a" 0 (.acquire .up)]

end Demo

open Demo in
/-- The executor is called right after the claim: job `1` is RUNNING under `a`. -/
theorem execute_under_ownership_claimed :
    ∃ s s', (cluster demo).exec ([submit] ++ poll "a" 1 11 ++ lock "a" 0) = some s ∧
      step demo s (.slot "a" 0 .execute) = some s' ∧ s.store.RunsUnder "a" 1 ∧
      s.store.AttemptRuns 11 := by
  have hrun : ((cluster demo).exec ([submit] ++ poll "a" 1 11 ++ lock "a" 0)).any
      (fun s => (step demo s (.slot "a" 0 .execute)).isSome &&
        ((s.workers "a").slots 0).locked?.any fun c => (owner c.id s.history).any fun o =>
          decide (c.id = 1 ∧ c.activeAttemptID = 11 ∧
            o.2.activeAttemptID = c.activeAttemptID)) = true := by
    decide +kernel
  obtain ⟨s, hs, hst⟩ := (Option.any_eq_true _ _).1 hrun
  rw [Bool.and_eq_true] at hst
  obtain ⟨s', hx⟩ := Option.isSome_iff_exists.1 hst.1
  obtain ⟨c, hslot, -, hp, hown⟩ := execute_under_ownership ⟨_, hs⟩ hx
  obtain ⟨c₁, hlocked, hfacts⟩ := (Option.any_eq_true _ _).1 hst.2
  rw [hslot] at hlocked
  obtain rfl := Option.some.inj hlocked
  obtain ⟨⟨w, c'⟩, ho, hdec⟩ := (Option.any_eq_true _ _).1 hfacts
  obtain ⟨hjob, hatt, hsame⟩ := of_decide_eq_true hdec
  -- the owner's claim is the one in the slot
  obtain ⟨rfl, rfl⟩ := (reachable_sound ⟨_, hs⟩).log.claimed_inj (owner_eq_some ho).1 hp.claimed hsame
  obtain ⟨between, before, hsplit, hquiet⟩ := owner_eq_some_iff.1 ho
  have hnow := hown between before hsplit hquiet
  rw [hjob, hatt] at hnow
  exact ⟨s, s', hs, hx, hnow.1, hnow.2⟩

/-- A cancelled job is executed by the claim that waited. -/
theorem cancelled_job_executes :
    ∃ s s' c, (cluster demo).exec Demo.cancelledBeforeLock = some s ∧
      (s.workers "a").slots 0 = .locked c ∧ step demo s (.slot "a" 0 .execute) = some s' ∧
      s'.history = .executed "a" c :: s.history ∧
      (∃ r ∈ s.store.jobs.rows, r.id = c.id ∧ r.status = .cancelled) ∧
      ¬s.store.AttemptRuns c.activeAttemptID := by
  have hrun : ((cluster demo).exec Demo.cancelledBeforeLock).any (fun s =>
      (step demo s (.slot "a" 0 .execute)).isSome &&
        ((s.workers "a").slots 0).locked?.any fun c =>
          decide ((∃ r ∈ s.store.jobs.rows, r.id = c.id ∧ r.status = .cancelled) ∧
            ¬s.store.AttemptRuns c.activeAttemptID)) = true := by
    decide +kernel
  obtain ⟨s, hs, hst⟩ := (Option.any_eq_true _ _).1 hrun
  rw [Bool.and_eq_true] at hst
  obtain ⟨s', hx⟩ := Option.isSome_iff_exists.1 hst.1
  obtain ⟨c, hslot, hhist⟩ := execute_spec hx
  obtain ⟨c₁, hlocked, hfacts⟩ := (Option.any_eq_true _ _).1 hst.2
  rw [hslot] at hlocked
  obtain rfl := Option.some.inj hlocked
  obtain ⟨hcancelled, hclosed⟩ := of_decide_eq_true hfacts
  exact ⟨s, s', c, hs, hslot, hx, hhist, hcancelled, hclosed⟩

end JobScheduler
