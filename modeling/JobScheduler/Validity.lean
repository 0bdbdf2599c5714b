import JobScheduler.CreateBody
import JobScheduler.DeadLetters
import JobScheduler.Requeue

/-!
# What was valid stays valid

`validateCreate` looks at a request once, when it comes in.  Everything after that, up to the handler
that `Executor.Execute` looks up by job type, relies on columns that were checked then: a job that
fails is copied into `dead_letter_jobs`, a requeue copies that row back into `jobs` with settings of
its own, and a claim copies the row into the worker.

* `JobIdentity.Valid` — the checks of `validateCreate` on the columns no statement rewrites.
* `executed_jobs_valid` — every row of every reachable state passes them, and so does every job a
  worker holds; its type has a handler, so `UNSUPPORTED_JOB_TYPE` is never the outcome of a lookup.

Two checks are about the request and not about the row: `run_at`, which every retry writes anew, and that
the payload is not spelled `null`, since `jsonb` does not keep the spelling.
-/

namespace JobScheduler

open KeyedTable TransitionSystem

/-! ### The executor -/

/-- `Handler`: how jobs of one type are executed. -/
abbrev Worker.Handler := Job → Except ExecError RawMessage

/-- `Executor`: the handlers by job type. -/
structure Executor where
  handlers : List (String × Worker.Handler)

/-- `NewExecutorWithOptions`, given the webhook handler it makes. -/
def newExecutorWithOptions (webhook : Worker.Handler) : Executor := ⟨[("CALL_WEBHOOK", webhook)]⟩

/-- `Executor.Execute`. -/
def Executor.execute (e : Executor) (j : Job) : Except ExecError RawMessage :=
  match e.handlers.lookup j.jobType with
  | none =>
    .error (.execution "UNSUPPORTED_JOB_TYPE" ("unsupported job type " ++ j.jobType) false 0 "")
  | some handler => handler j

/-- The validator and the executor know the same job types. -/
theorem execute_of_supported (webhook : Worker.Handler) {j : Job} (hj : j.jobType ∈ supportedJobTypes) :
    (newExecutorWithOptions webhook).execute j = webhook j := by
  have htype : j.jobType = "CALL_WEBHOOK" := List.mem_singleton.1 hj
  simp [newExecutorWithOptions, Executor.execute, htype]

/-! ### Valid columns -/

/-- The checks of `validateCreate` on the unchanging columns of a job: a name, a known type, a payload that
is JSON, and settings within their bounds. -/
structure JobIdentity.Valid (cfg : ServiceConfig) (j : JobIdentity) : Prop where
  name : trimSpace j.name ≠ ""
  jobType : j.jobType ∈ supportedJobTypes
  payload : j.payload.utf8ByteSize ≠ 0 ∧ cfg.jsonValid j.payload = true
  priority : 0 ≤ j.priority ∧ j.priority ≤ 10
  maxRetries : 0 ≤ j.maxRetries
  retryBackoffSeconds : 0 ≤ j.retryBackoffSeconds
  timeoutSeconds : 0 ≤ j.timeoutSeconds

variable {cfg : ServiceConfig}

/-- A check that does not fail, and what follows it. -/
theorem check_eq_ok {failed : Prop} [Decidable failed] {message : String} {rest : Except String Unit} :
    (if failed then .error message else rest) = .ok () ↔ ¬failed ∧ rest = .ok () := by
  by_cases h : failed <;> simp [h]

/-- A job built from a request that passes `validateCreate` has valid columns. -/
theorem valid_of_validateCreate {req : CreateRequest} (h : cfg.validateCreate req = .ok ())
    (principal : Principal) (jobID : NewUUID) (clock now : Time) :
    (createRow now (cfg.newJob principal req jobID clock)).toJob.identity.Valid cfg := by
  simp only [ServiceConfig.validateCreate, check_eq_ok, not_or, not_not, Bool.not_eq_false,
    Int.not_lt, gt_iff_lt] at h
  obtain ⟨hname, htype, hpayload, -, hpriority, hretries, hbackoff, htimeout, -⟩ := h
  exact ⟨hname, htype, ⟨hpayload.1, hpayload.2.1⟩, hpriority, hretries, hbackoff, htimeout⟩

/-- A requeued job has the columns its dead letter copied, and settings that pass. -/
theorem valid_of_requeue {j : JobIdentity} {dl : DeadLetterJob} (hj : j.Valid cfg)
    (hname : dl.name = j.name) (htype : dl.jobType = j.jobType) (hpayload : dl.payload = j.payload)
    (now clock : Time) (newID tenantID : UUID) (runAt : Time) :
    (requeueRow now clock newID tenantID dl runAt).toJob.identity.Valid cfg where
  name := by
    show trimSpace dl.name ≠ ""
    exact hname ▸ hj.name
  jobType := by
    show dl.jobType ∈ supportedJobTypes
    exact htype ▸ hj.jobType
  payload := by
    show dl.payload.utf8ByteSize ≠ 0 ∧ cfg.jsonValid dl.payload = true
    exact hpayload ▸ hj.payload
  priority := by show (0 : Int) ≤ 5 ∧ (5 : Int) ≤ 10; omega
  maxRetries := by show (0 : Int) ≤ 3; omega
  retryBackoffSeconds := by show (0 : Int) ≤ 30; omega
  timeoutSeconds := by show (0 : Int) ≤ 300; omega

/-! ### Every reachable state -/

/-- Every job row passes the checks. -/
def ValidRows (cfg : ServiceConfig) (s : Store) : Prop :=
  ∀ k r, s.jobs.find? k = some r → r.toJob.identity.Valid cfg

/-- The dead letter of a job copies its name, type and payload. -/
theorem Log.letter_copies {h : List Entry} {s : Store} (hl : Log h s) {dl : DeadLetterJob}
    (hm : dl ∈ s.deadLetters.rows) : ∃ k r, s.jobs.find? k = some r ∧ dl.name = r.name ∧
      dl.jobType = r.jobType ∧ dl.payload = r.payload := by
  obtain ⟨hknown, hfiled⟩ := hl.filed
  obtain ⟨r, hr⟩ := hknown dl hm
  have hid : dl.originalJobID = r.id := (Table.find?_eq_some_iff.1 hr).2.symm
  have hcopy := (hfiled _ r hr).copies dl hm hid
  exact ⟨_, r, hr, congrArg Letter.name hcopy, congrArg Letter.jobType hcopy,
    congrArg Letter.payload hcopy⟩

/-- **Step lemma.**  Inserted rows are valid, and rewritten ones keep their columns. -/
theorem ValidRows.step {cfg : Config} {s s' : Cluster} {x : Act} (hr : (cluster cfg).Reachable s)
    (hs : ValidRows cfg.service s.store) (hx : step cfg s x = some s') :
    ValidRows cfg.service s'.store := by
  intro k r hk
  obtain ⟨es, hem⟩ := reachable_emission hr hx
  rcases hem.path.job_cases hem.nodup k with hsame | ⟨h₁, s₁, s₂, e, he, -, hc, h₀, h₂⟩
  · exact hs k r (hsame.symm.trans hk)
  · rcases hc.row_origin (h₂.symm.trans hk) with ⟨r₀, hr₀, hid⟩ | ⟨hnone, hnew⟩
    · rw [hid]
      exact hs k r₀ (h₀.symm.trans hr₀)
    · obtain ⟨a, rfl⟩ := emits_of_new hnew (hem.emits e he)
      rw [step_api] at hx
      rcases apiStep_inserts hx (h₀.symm.trans hnone) hk with
        ⟨principal, req, jobID, clock, now, call, j, hp, rfl, -⟩ |
        ⟨dl, hm, now, clock, newID, tenantID, runAt, rfl⟩
      · obtain ⟨hvalid, rfl, -⟩ := ServiceConfig.prepare_eq_ok hp
        exact valid_of_validateCreate hvalid principal jobID clock now
      · obtain ⟨k₀, r₀, hr₀, hname, htype, hpayload⟩ :=
          (reachable_sound hr).log.letter_copies hm
        exact valid_of_requeue (hs k₀ r₀ hr₀) hname htype hpayload now clock newID tenantID runAt

/-- **Run lemma.** -/
theorem reachable_validRows {cfg : Config} {s : Cluster} (hr : (cluster cfg).Reachable s) :
    ValidRows cfg.service s.store := by
  obtain ⟨xs, hxs⟩ := hr
  have hinit : ValidRows cfg.service (cluster cfg).init.store := by
    intro k r hk
    simp [cluster, Cluster.initial, Store.empty] at hk
  exact System.Reachable.stable (fun _ _ _ hr hs hx => ValidRows.step hr hs hx) ⟨[], rfl⟩ hinit hxs

/-- **Workers execute valid jobs.**  In every reachable state, every row of `jobs`, requeued jobs
included, has the name, type, payload and settings that `validateCreate` asks for; so has the job in any
slot of any worker, and the executor finds the webhook handler for it. -/
theorem executed_jobs_valid {cfg : Config} {s : Cluster} (hr : (cluster cfg).Reachable s)
    (webhook : Worker.Handler) :
    (∀ r ∈ s.store.jobs.rows, r.toJob.identity.Valid cfg.service) ∧
      ∀ w i c, ((s.workers w).slots i).claim? = some c →
        c.toJob.identity.Valid cfg.service ∧
          (newExecutorWithOptions webhook).execute c.toJob = webhook c.toJob := by
  have hvalid := reachable_validRows hr
  refine ⟨fun r hm => hvalid r.id r (Table.find?_key hm), fun w i c hc => ?_⟩
  obtain ⟨hlog, hheld⟩ := reachable_sound hr
  obtain ⟨r, hrow, hid⟩ := hlog.job_of_claimed (((hheld w).slot i).claimed hc)
  have hv : c.toJob.identity.Valid cfg.service := hid ▸ hvalid c.id r hrow
  exact ⟨hv, execute_of_supported webhook hv.jobType⟩

open Demo in
/-- A job that was buried, requeued and claimed again: the copy of the copy reaches the handler. -/
theorem executed_jobs_valid_requeued :
    ∃ s c, (cluster demo).exec (requeued ++ poll "a" 20 12 ++ [.loop "a" (.dispatch 1)]) = some s ∧
      ((s.workers "a").slots 1).claim? = some c ∧ c.id ≠ 1 ∧
      (newExecutorWithOptions fun _ => .ok "").execute c.toJob = .ok "" := by
  obtain ⟨s, hs, hclaim⟩ :
      ∃ s, (cluster demo).exec (requeued ++ poll "a" 20 12 ++ [.loop "a" (.dispatch 1)]) = some s ∧
        (((s.workers "a").slots 1).claim?.any fun c => decide (c.id ≠ 1)) = true :=
    System.exists_of_exec (by decide +kernel)
  obtain ⟨c, hc, hne⟩ := (Option.any_eq_true _ _).1 hclaim
  exact ⟨s, c, hs, hc, of_decide_eq_true hne,
    ((executed_jobs_valid ⟨_, hs⟩ fun _ => .ok "").2 "a" 1 c hc).2⟩

end JobScheduler
