import JobScheduler.Reconciliation

/-!
# Outcomes are not made up

An attempt ends in the database long after `Execute` returned, by a worker that may have lost its
lease, its lock and its connection in between, or by somebody else.  Whatever an attempt records can
be traced back to one of four origins: it still runs, `Execute` returned just that for its own claim,
an operator cancelled the job, or its lease ran out.

* `step_result` — a slot carries a result only because `Execute` returned it there.
* `Explained.commit`, `Explained.path` — commits that finalize nothing keep attempts explained.
* `outcomes_genuine` — the attempts and the SUCCEEDED jobs of every run.
-/

namespace JobScheduler

open KeyedTable Transaction TransitionSystem

variable {cfg : Config} {s s' : Cluster} {w : String} {i : ℕ} {c : ClaimedJob}
  {result : Except ExecError RawMessage}

/-! ### Returns of the executor -/

/-- In the run, `Execute` returned `result` for the claim `c` of worker `w`. -/
def Returned (cfg : Config) (xs : List Act) (w : String) (c : ClaimedJob)
    (result : Except ExecError RawMessage) : Prop :=
  ∃ ys zs i s renewal, xs = ys ++ .slot w i (.finish result) :: zs ∧ (cluster cfg).exec ys = some s ∧
    (s.workers w).slots i = .executing c renewal none

theorem Returned.snoc {xs : List Act} (h : Returned cfg xs w c result) (x : Act) :
    Returned cfg (xs ++ [x]) w c result := by
  obtain ⟨ys, zs, i, s, renewal, rfl, hs, hslot⟩ := h
  exact ⟨ys, zs ++ [x], i, s, renewal, by simp, hs, hslot⟩

/-- The result a slot carries, with its claim. -/
def Phase.result? : Phase → Option (ClaimedJob × Except ExecError RawMessage)
  | .executing c _ returned => returned.map fun result => (c, result)
  | _ => none

/-- A move of a slot keeps the result it carries, drops it, or is the return of `Execute`. -/
theorem SlotMove.result? {wcfg : WorkerConfig} {before after : Phase} {a : SlotAct} {s₁ : Cluster}
    (h : SlotMove wcfg s w before a s₁ after)
    (hnil : ∀ c, before = .locked c → c.activeAttemptID ≠ UUID.nil)
    (hr : after.result? = some (c, result)) :
    before.result? = some (c, result) ∨
      a = .finish result ∧ ∃ renewal, before = .executing c renewal none := by
  cases h with
  | attempted hattempt => exact absurd hattempt (hnil _ rfl)
  | extended => exact .inl hr
  | prolonged => exact .inl hr
  | renewalStopped => exact .inl hr
  | @returned j renewal returned =>
    obtain ⟨rfl, rfl⟩ := Prod.mk.inj (Option.some.inj hr)
    exact .inr ⟨rfl, renewal, rfl⟩
  | _ => cases hr

/-- **Step lemma.**  A slot carries what it carried before, or what `Execute` has just returned. -/
theorem step_result {x : Act} (hr : (cluster cfg).Reachable s) (h : step cfg s x = some s')
    (hres : ((s'.workers w).slots i).result? = some (c, result)) :
    ((s.workers w).slots i).result? = some (c, result) ∨
      x = .slot w i (.finish result) ∧ ∃ renewal, (s.workers w).slots i = .executing c renewal none := by
  have hstep := step_slot h w i
  generalize (s'.workers w).slots i = after at hstep hres
  cases hstep with
  | kept => exact .inl hres
  | received => cases hres
  | crashed => cases hres
  | moved hmove =>
    have hnil : ∀ c, (s.workers w).slots i = .locked c → c.activeAttemptID ≠ UUID.nil := by
      intro c hphase
      have hsound := reachable_sound hr
      have hbacked := (hsound.held w).slot i
      rw [hphase] at hbacked
      exact hsound.log.activeAttemptID_ne_nil (Pending.claimed hbacked)
    rcases hmove.result? hnil hres with hkept | ⟨rfl, hreturned⟩
    · exact .inl hkept
    · exact .inr ⟨rfl, hreturned⟩

/-! ### What an attempt says -/

/-- What the columns of an attempt record of a return of `Execute`. -/
def Attempt.Records (a : Attempt) : Except ExecError RawMessage → Prop
  | .ok result => a.status = .succeeded ∧ a.result = nullableJSON result ∧ a.errorCode = none
  | .error err => a.status = .failed ∧ a.errorMessage = some (classifyError err).message ∧
    a.errorCode = some (classifyError err).errorCode ∧
    a.retryable = some (classifyError err).retryable ∧
    a.result = nullableJSON (classifyError err).metadata

/-- Why an attempt is as it is, given which results were returned. -/
inductive Explained (R : String → ClaimedJob → Except ExecError RawMessage → Prop) (h : List Entry)
    (a : Attempt) : Prop where
  | running (hstatus : a.status = .running) (hresult : a.result = none) (hcode : a.errorCode = none)
  | returned {w : String} {c : ClaimedJob} {result : Except ExecError RawMessage} (hr : R w c result)
      (hclaimed : .claimed w c ∈ h) (hid : a.id = c.activeAttemptID) (hrec : a.Records result)
  | cancelled (hop : .transitioned a.jobID .cancel ∈ h) (hstatus : a.status = .cancelled)
      (hresult : a.result = none)
  | expired (hrecovered : .recovered a.jobID ∈ h) (hstatus : a.status = .failed)
      (hcode : a.errorCode = some "LEASE_EXPIRED") (hretryable : a.retryable = some true)
      (hresult : a.result = none)

section

variable {R R' : String → ClaimedJob → Except ExecError RawMessage → Prop} {h es : List Entry}
  {t t' : Store} {e : Entry} {a : Attempt}

theorem Explained.mono (hx : Explained R h a) (hR : ∀ w c result, R w c result → R' w c result)
    (es : List Entry) : Explained R' (es ++ h) a := by
  cases hx with
  | running hstatus hresult hcode => exact .running hstatus hresult hcode
  | returned hr hclaimed hid hrec =>
    exact .returned (hR _ _ _ hr) (List.mem_append_right _ hclaimed) hid hrec
  | cancelled hop hstatus hresult => exact .cancelled (List.mem_append_right _ hop) hstatus hresult
  | expired hrecovered hstatus hcode hretryable hresult =>
    exact .expired (List.mem_append_right _ hrecovered) hstatus hcode hretryable hresult

/-- Only RUNNING attempts have nothing to explain. -/
theorem Explained.of_running (hx : Explained R h a) (hrun : a.status = .running) :
    a.result = none ∧ a.errorCode = none := by
  cases hx with
  | running hstatus hresult hcode => exact ⟨hresult, hcode⟩
  | @returned w c result hr hclaimed hid hrec =>
    cases result <;> rw [hrec.1] at hrun <;> cases hrun
  | cancelled hop hstatus => rw [hstatus] at hrun; cases hrun
  | expired hrecovered hstatus => rw [hstatus] at hrun; cases hrun

/-- A closed attempt is explained by the commit that closed it; what `CompleteExecution` and
`FailExecution` record is taken from `hout`. -/
theorem Explained.commit (hc : Commit h t e t')
    (hold : ∀ k a, t.attempts.find? k = some a → Explained R h a)
    (hout : ∀ w c, e.Finalizes w c → ∀ k a, t'.attempts.find? k = some a →
      t.attempts.find? k = some a ∨ Explained R (e :: h) a) :
    ∀ k a, t'.attempts.find? k = some a → Explained R (e :: h) a := by
  intro k a ha
  rcases hc.attempt_cases k with ⟨hk, -⟩ | ⟨-, x, r, -, -, -, hk⟩ | ⟨a₀, a', ha₀, hrun, hch, hk⟩
  · exact (hold k a (hk ▸ ha)).mono (fun _ _ _ => id) [e]
  · obtain rfl := Option.some.inj (hk.symm.trans ha)
    exact .running rfl rfl rfl
  · obtain rfl := Option.some.inj (hk.symm.trans ha)
    have finalized : ∀ w c, e.Finalizes w c → Explained R (e :: h) a' := by
      intro w c hf
      rcases hout w c hf k a' ha with hkept | hx
      · obtain rfl := Option.some.inj (hkept.symm.trans ha₀)
        exact absurd hrun hch.status_ne
      · exact hx
    obtain ⟨hresult, -⟩ := (hold k a₀ ha₀).of_running hrun
    cases hch with
    | completed => exact finalized _ _ (.inl rfl)
    | failed => exact finalized _ _ (.inr rfl)
    | cancelled now hj =>
      subst hj
      exact .cancelled List.mem_cons_self rfl hresult
    | recovered x hj =>
      subst hj
      exact .expired List.mem_cons_self rfl rfl rfl hresult

/-- Along the entries of a step that finalizes nothing. -/
theorem Explained.path (hp : Path h t es t') (hes : ∀ e ∈ es, ∀ w c, ¬e.Finalizes w c)
    (hold : ∀ k a, t.attempts.find? k = some a → Explained R h a) :
    ∀ k a, t'.attempts.find? k = some a → Explained R (es ++ h) a := by
  induction hp with
  | nil => exact hold
  | @cons es s₁ s' e hp hc ih =>
    exact Explained.commit hc (ih fun e' he' => hes e' (List.mem_cons_of_mem _ he'))
      fun w c hf => absurd hf (hes e List.mem_cons_self w c)

end

/-! ### Whole runs -/

/-- A slot that carries a result changes no attempt but its own, and records that result. -/
theorem SlotMove.attempts {wcfg : WorkerConfig} {before after : Phase} {x : SlotAct} {s₁ : Cluster}
    (h : SlotMove wcfg s w before x s₁ after) (hr : before.result? = some (c, result)) {k : UUID}
    {a : Attempt} (ha : s₁.store.attempts.find? k = some a) :
    s.store.attempts.find? k = some a ∨ ∃ a₀, s.store.attempts.find? k = some a₀ ∧
      a₀.status = .running ∧ a.id = c.activeAttemptID ∧ (a₀.errorCode = none → a.Records result) := by
  cases h with
  | @extended j returned now link renewal =>
    rcases s.record_cases (extendLease now j.id w (wcfg.leaseTTL j)) link .connection
      (fun extended => if extended then [.extended w j] else []) with ⟨-, hst, -⟩ | ⟨b, ht, -, -⟩
    · exact .inl (hst ▸ ha)
    · rcases extendLease_spec ht with ⟨-, r, -, hx⟩ | ⟨-, hst⟩
      · exact .inl (hx.attempts ▸ ha)
      · exact .inl (hst ▸ ha)
  | prolonged => exact .inl ha
  | renewalStopped => exact .inl ha
  | returned => exact .inl ha
  | @completed j returned eventID durationMS now link =>
    obtain ⟨rfl, rfl⟩ := Prod.mk.inj (Option.some.inj hr)
    rcases s.record_cases (completeExecution now eventID j w durationMS returned) link .connection
      (fun _ => [.completed w j]) with ⟨-, hst, -⟩ | ⟨u, ht, -, -⟩
    · exact .inl (hst ▸ ha)
    · obtain ⟨r, a₀, hc⟩ := completeExecution_spec ht
      rw [hc.attempts] at ha
      rcases Table.find?_modify_cases hc.attempt (succeededAttempt now durationMS returned)
        (succeededAttempt_id now durationMS returned) k with ⟨-, hk⟩ | ⟨rfl, hk⟩
      · exact .inl (hk ▸ ha)
      · obtain rfl := Option.some.inj (hk.symm.trans ha)
        exact .inr ⟨a₀, hc.attempt, hc.attemptRunning, (Table.find?_eq_some_iff.1 hc.attempt).2,
          fun hcode => ⟨rfl, rfl, hcode⟩⟩
  | @failed j err ids durationMS clock clock' now link =>
    obtain ⟨rfl, rfl⟩ := Prod.mk.inj (Option.some.inj hr)
    rcases s.record_cases (failExecution now ids j w durationMS (decideOutcome clock clock' j err).outcome
      (decideOutcome clock clock' j err).nextStatus (decideOutcome clock clock' j err).nextRetryCount
      (decideOutcome clock clock' j err).nextRunAt) link .connection
      (fun _ => [.failed w j]) with ⟨-, hst, -⟩ | ⟨u, ht, -, -⟩
    · exact .inl (hst ▸ ha)
    · obtain ⟨r, a₀, hf⟩ := failExecution_spec ht
      have hattempts : (s.record (s.failing w ids durationMS clock clock' now link j err)
          fun _ => [.failed w j]).store.attempts = _ := hf.attempts
      rw [hattempts] at ha
      rcases Table.find?_modify_cases hf.attempt
        (failedAttempt now durationMS (decideOutcome clock clock' j err).outcome)
        (failedAttempt_id now durationMS _) k with ⟨-, hk⟩ | ⟨rfl, hk⟩
      · exact .inl (hk ▸ ha)
      · obtain rfl := Option.some.inj (hk.symm.trans ha)
        exact .inr ⟨a₀, hf.attempt, hf.attemptRunning, (Table.find?_eq_some_iff.1 hf.attempt).2,
          fun _ => ⟨rfl, rfl, rfl, rfl, rfl⟩⟩
  | _ => cases hr

/-- The slots and the attempts at the end of a run, traced back into it. -/
structure Genuine (cfg : Config) (xs : List Act) (s : Cluster) : Prop where
  slots : ∀ w i c result, ((s.workers w).slots i).result? = some (c, result) →
    Returned cfg xs w c result
  attempts : ∀ k a, s.store.attempts.find? k = some a → Explained (Returned cfg xs) s.history a

/-- **Step lemma.** -/
theorem Genuine.step {xs : List Act} {x : Act} (hg : Genuine cfg xs s)
    (hxs : (cluster cfg).exec xs = some s) (h : step cfg s x = some s') :
    Genuine cfg (xs ++ [x]) s' := by
  have hr : (cluster cfg).Reachable s := ⟨xs, hxs⟩
  have hmono : ∀ w c result, Returned cfg xs w c result → Returned cfg (xs ++ [x]) w c result :=
    fun _ _ _ hret => hret.snoc x
  constructor
  · intro w i c result hres
    rcases step_result hr h hres with hkept | ⟨rfl, renewal, hslot⟩
    · exact (hg.slots w i c result hkept).snoc x
    · exact ⟨xs, [], i, s, renewal, rfl, hxs, hslot⟩
  · obtain ⟨es, he⟩ := reachable_emission hr h
    rw [he.history]
    have hold : ∀ k a, s.store.attempts.find? k = some a →
        Explained (Returned cfg (xs ++ [x])) s.history a :=
      fun k a ha => (hg.attempts k a ha).mono hmono []
    by_cases hquiet : ∀ e ∈ es, ∀ w c, ¬e.Finalizes w c
    · exact Explained.path he.path hquiet hold
    · -- the step is that of a slot with a result
      obtain ⟨w, i, a, c, result, rfl, hres⟩ : ∃ w i a c result, x = .slot w i a ∧
          ((s.workers w).slots i).result? = some (c, result) := by
        push Not at hquiet
        obtain ⟨e, hm, w, c, rfl | rfl⟩ := hquiet
        · cases he.emits _ hm with
          | completed eventID durationMS now link hslot => exact ⟨_, _, _, _, _, rfl, by rw [hslot]; rfl⟩
        · cases he.emits _ hm with
          | failed ids durationMS clock clock' now link hslot =>
            exact ⟨_, _, _, _, _, rfl, by rw [hslot]; rfl⟩
      obtain ⟨s₁, phase, hmove, rfl⟩ := slotStep_move h
      intro k b hb
      rcases hmove.attempts hres hb with hkept | ⟨b₀, hb₀, hrun, hid, hrec⟩
      · exact (hold k b hkept).mono (fun _ _ _ => id) es
      · have hclaimed : .claimed w c ∈ s.history := by
          have hbacked := ((reachable_sound hr).held w).slot i
          generalize (s.workers w).slots i = before at hres hbacked
          cases before with
          | executing j renewal returned =>
            obtain ⟨result', -, heq⟩ := Option.map_eq_some_iff.1 hres
            obtain ⟨rfl, -⟩ := Prod.mk.inj heq
            exact Phase.Backed.claimed hbacked rfl
          | _ => cases hres
        exact .returned ((hg.slots w i c result hres).snoc _) (List.mem_append_right _ hclaimed) hid
          (hrec ((hold k b₀ hb₀).of_running hrun).2)

theorem exec_genuine {xs : List Act} (hxs : (cluster cfg).exec xs = some s) : Genuine cfg xs s := by
  induction xs using List.reverseRecOn generalizing s with
  | nil =>
    obtain rfl := Option.some.inj hxs
    constructor
    · intro w i c result hres
      cases hres
    · intro k a ha
      simp [cluster, Cluster.initial, Store.empty] at ha
  | append_singleton xs x ih =>
    obtain ⟨s₀, hs₀, hx⟩ := System.exec_snoc.1 hxs
    exact (ih hs₀).step hs₀ hx

/-- **Outcomes are genuine.**  In every run: a SUCCEEDED attempt belongs to a claim of its own worker
for which `Execute` returned without an error, and its `result` is what was returned; a FAILED attempt
belongs to one for which `Execute` returned an error that `ClassifyError` turns into just these columns,
or was recovered after its lease; and a SUCCEEDED job has a SUCCEEDED attempt. -/
theorem outcomes_genuine (cfg : Config) (xs : List Act) (s : Cluster)
    (hxs : (cluster cfg).exec xs = some s) :
    (∀ a ∈ s.store.attempts.rows, a.status = .succeeded → ∃ c result,
      Returned cfg xs a.workerID c (.ok result) ∧ c.id = a.jobID ∧ c.activeAttemptID = a.id ∧
        a.result = nullableJSON result) ∧
    (∀ a ∈ s.store.attempts.rows, a.status = .failed →
      (∃ c err, Returned cfg xs a.workerID c (.error err) ∧ c.id = a.jobID ∧
        c.activeAttemptID = a.id ∧ a.errorMessage = some (classifyError err).message ∧
        a.errorCode = some (classifyError err).errorCode ∧
        a.retryable = some (classifyError err).retryable ∧
        a.result = nullableJSON (classifyError err).metadata) ∨
      (.recovered a.jobID ∈ s.history ∧ a.errorCode = some "LEASE_EXPIRED" ∧
        a.retryable = some true ∧ a.result = none)) ∧
    ∀ r ∈ s.store.jobs.rows, r.status = .succeeded →
      ∃ a ∈ s.store.attempts.rows, a.jobID = r.id ∧ a.status = .succeeded := by
  have hlog := (reachable_sound ⟨xs, hxs⟩).log
  have hexplained : ∀ a ∈ s.store.attempts.rows, Explained (Returned cfg xs) s.history a :=
    fun a ha => (exec_genuine hxs).attempts a.id a (Table.find?_key ha)
  -- the claim of an attempt is by its worker, for its job
  have hown : ∀ a ∈ s.store.attempts.rows, ∀ w c, .claimed w c ∈ s.history →
      a.id = c.activeAttemptID → AttemptOf w c a := by
    intro a ha w c hclaimed hid
    obtain ⟨a', ha', hof⟩ := hlog.attempt_of_claimed hclaimed
    rw [← hid] at ha'
    obtain rfl := Option.some.inj (ha'.symm.trans (Table.find?_key ha))
    exact hof
  refine ⟨fun a ha hstatus => ?_, fun a ha hstatus => ?_, fun r hr hstatus => ?_⟩
  · cases hexplained a ha with
    | running hrun => rw [hrun] at hstatus; cases hstatus
    | @returned w c result hret hclaimed hid hrec =>
      have hof := hown a ha w c hclaimed hid
      cases result with
      | error err => rw [hrec.1] at hstatus; cases hstatus
      | ok result => exact ⟨c, result, hof.workerID ▸ hret, hof.jobID.symm, hid.symm, hrec.2.1⟩
    | cancelled hop hcancelled => rw [hcancelled] at hstatus; cases hstatus
    | expired hrecovered hfailed => rw [hfailed] at hstatus; cases hstatus
  · cases hexplained a ha with
    | running hrun => rw [hrun] at hstatus; cases hstatus
    | @returned w c result hret hclaimed hid hrec =>
      have hof := hown a ha w c hclaimed hid
      cases result with
      | ok result => rw [hrec.1] at hstatus; cases hstatus
      | error err =>
        exact .inl ⟨c, err, hof.workerID ▸ hret, hof.jobID.symm, hid.symm, hrec.2⟩
    | cancelled hop hcancelled => rw [hcancelled] at hstatus; cases hstatus
    | expired hrecovered hfailed hcode hretryable hresult =>
      exact .inr ⟨hrecovered, hcode, hretryable, hresult⟩
  · have hrec := hlog.reconciled (Table.find?_key hr)
    have hone : s.store.attemptsOf r.id .succeeded ≠ 0 := by
      rw [← hrec.completed, hrec.succeeded, if_pos hstatus]
      exact one_ne_zero
    obtain ⟨a, ha, hjob, hsucceeded⟩ := Table.count_ne_zero.1 hone
    exact ⟨a, ha, hjob, hsucceeded⟩

open Demo in
/-- The job succeeds: its attempt carries what `Execute` returned to `a`. -/
theorem outcomes_genuine_completed :
    ∃ s a c result, (cluster demo).exec ([submit] ++ poll "a" 1 11 ++ lock "a" 0 ++ execute "a" 0 ++
        complete "a" 0 5 3001) = some s ∧
      a ∈ s.store.attempts.rows ∧ a.status = .succeeded ∧ a.workerID = "a" ∧
      Returned demo ([submit] ++ poll "a" 1 11 ++ lock "a" 0 ++ execute "a" 0 ++
        complete "a" 0 5 3001) "a" c (.ok result) ∧ a.result = nullableJSON result := by
  obtain ⟨s, hs, a, ha, hstatus, hworker⟩ :
      ∃ s, (cluster demo).exec ([submit] ++ poll "a" 1 11 ++ lock "a" 0 ++ execute "a" 0 ++
          complete "a" 0 5 3001) = some s ∧
        ∃ a ∈ s.store.attempts.rows, a.status = .succeeded ∧ a.workerID = "a" :=
    System.exists_of_exec (by decide +kernel)
  obtain ⟨c, result, hreturned, -, -, hresult⟩ := (outcomes_genuine demo _ s hs).1 a ha hstatus
  exact ⟨s, a, c, result, hs, ha, hstatus, hworker, hworker ▸ hreturned, hresult⟩

end JobScheduler
