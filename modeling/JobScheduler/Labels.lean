import JobScheduler.Deployment
import JobScheduler.Refinement

/-!
# Tenant labels

Attempts, dead letters and events carry a tenant of their own, copied from the job when they are
written: by the API from the caller, by the workers from the claimed copy of the job, by the
recovery from the row.  Several statements select by job id or row id only, and are confined to one
tenant because every copy agrees with its job (`Labelled`).
-/

namespace JobScheduler

open KeyedTable TransitionSystem

variable {h : List Entry} {s s' : Store} {e : Entry}

/-- The tenant of the job under the key. -/
def Store.TenantIs (s : Store) (jobID tenantID : UUID) : Prop :=
  ∃ r, s.jobs.find? jobID = some r ∧ r.tenantID = tenantID

/-- Every attempt, dead letter and event belongs to a job, and carries its tenant. -/
structure Labelled (s : Store) : Prop where
  attempts : ∀ a ∈ s.attempts.rows, s.TenantIs a.jobID a.tenantID
  deadLetters : ∀ d ∈ s.deadLetters.rows, s.TenantIs d.originalJobID d.tenantID
  events : ∀ ev ∈ s.events.rows, s.TenantIs ev.jobID ev.tenantID

/-! ### One commit -/

/-- Jobs keep their tenants. -/
theorem Commit.tenantIs (hc : Commit h s e s') {jobID tenantID : UUID}
    (ht : s.TenantIs jobID tenantID) : s'.TenantIs jobID tenantID := by
  obtain ⟨r, hr, htr⟩ := ht
  obtain ⟨r', hr', hid⟩ := hc.job_persists hr
  exact ⟨r', hr', (congrArg JobIdentity.tenantID hid).trans htr⟩

/-- The claim of a worker carries the tenant of its job. -/
theorem Log.tenantIs_claimed (hl : Log h s) {w : String} {c : ClaimedJob} (hm : .claimed w c ∈ h) :
    s.TenantIs c.id c.tenantID := by
  obtain ⟨r, hr, hid⟩ := hl.job_of_claimed hm
  exact ⟨r, hr, congrArg JobIdentity.tenantID hid⟩

/-- The attempt under a key after a commit is labelled. -/
theorem Commit.attempt_labelled (hc : Commit h s e s')
    (hs : ∀ a ∈ s.attempts.rows, s.TenantIs a.jobID a.tenantID) {a : Attempt}
    (ha : a ∈ s'.attempts.rows) : s'.TenantIs a.jobID a.tenantID := by
  have hfind : s'.attempts.find? a.id = some a := Table.find?_key ha
  rcases hc.attempt_cases a.id with ⟨hk, -⟩ | ⟨-, x, r, -, hr, -, hk⟩ | ⟨a₀, a', ha₀, -, hch, hk⟩
  · exact hc.tenantIs (hs a (Table.find?_eq_some_iff.1 (hk.symm.trans hfind)).1)
  · obtain rfl := Option.some.inj (hk.symm.trans hfind)
    exact hc.tenantIs ⟨r, hr, rfl⟩
  · obtain rfl := Option.some.inj (hk.symm.trans hfind)
    have hj : a'.jobID = a₀.jobID := congrArg AttemptIdentity.jobID hch.identity_eq
    have ht : a'.tenantID = a₀.tenantID := congrArg AttemptIdentity.tenantID hch.identity_eq
    rw [hj, ht]
    exact hc.tenantIs (hs a₀ (Table.find?_eq_some_iff.1 ha₀).1)

/-- Settling a failed attempt writes a dead letter of the copy it works from, or none. -/
theorem Settles.mem_deadLetters {now : Time} {j : Job} {n : Int} {message : String}
    {status : Status} (hs : Settles now j n message s s' status) {d : DeadLetterJob}
    (hd : d ∈ s'.deadLetters.rows) :
    d ∈ s.deadLetters.rows ∨ (d.originalJobID = j.id ∧ d.tenantID = j.tenantID) := by
  cases hs with
  | buried _ _ hins =>
    rcases (Table.mem_insert hins).1 hd with hold | rfl
    · exact .inl hold
    · exact .inr ⟨rfl, rfl⟩
  | retried _ _ hletters => exact .inl (hletters ▸ hd)

/-- A dead letter after a commit was there before, up to what a requeue fills in, or is written for
a job by its label. -/
theorem Commit.deadLetter_labelled (hc : Commit h s e s') (hl : Log h s)
    (hs : ∀ d ∈ s.deadLetters.rows, s.TenantIs d.originalJobID d.tenantID) {d : DeadLetterJob}
    (hd : d ∈ s'.deadLetters.rows) : s'.TenantIs d.originalJobID d.tenantID := by
  have htenant : ∀ {jobID tenantID}, s.TenantIs jobID tenantID → s'.TenantIs jobID tenantID :=
    fun ht => hc.tenantIs ht
  have same : s'.deadLetters = s.deadLetters → s'.TenantIs d.originalJobID d.tenantID :=
    fun he => htenant (hs d (he ▸ hd))
  cases hc with
  | created hj hcr => exact same hcr.deadLetters
  | @requeued now clock _ newID tenantID dl _ hq =>
    have hfind : s'.deadLetters.find? d.id = some d := Table.find?_key hd
    rw [hq.deadLetters] at hfind
    rcases Table.find?_modify_cases hq.letter (requeuedLetter now newID)
      (requeuedLetter_id now newID) d.id with ⟨-, hk⟩ | ⟨-, hk⟩
    · exact htenant (hs d (Table.find?_eq_some_iff.1 (hk.symm.trans hfind)).1)
    · obtain rfl := Option.some.inj (hk.symm.trans hfind)
      exact htenant (hs dl (Table.find?_eq_some_iff.1 hq.letter).1)
  | claimed _ _ hcl => exact same hcl.deadLetters
  | extended _ _ hx => exact same hx.deadLetters
  | executed _ => exact same rfl
  | completed _ hcm => exact same hcm.deadLetters
  | failed hp hf =>
    rcases hf.settles.mem_deadLetters hd with hold | ⟨hj, ht⟩
    · exact htenant (hs d hold)
    · rw [hj, ht]
      exact htenant (hl.tenantIs_claimed hp.claimed)
  | released _ _ hrl => exact same hrl.deadLetters
  | transitioned ht => exact same ht.deadLetters
  | @recovered _ r _ hrow hexp hrec =>
    rcases hrec.settles.mem_deadLetters hd with hold | ⟨hj, ht⟩
    · exact htenant (hs d hold)
    · rw [hj, ht]
      exact htenant ⟨r, hrow, rfl⟩

/-- **What a commit adds to `job_events`**: events of the entry's own job, under its tenant. -/
theorem Commit.new_events (hc : Commit h s e s') (hl : Log h s) :
    ∃ new, s'.events.rows = s.events.rows ++ new ∧
      ∀ ev ∈ new, ev.jobID = e.jobID ∧ s'.TenantIs ev.jobID ev.tenantID := by
  have htenant : ∀ {jobID tenantID}, s.TenantIs jobID tenantID → s'.TenantIs jobID tenantID :=
    fun ht => hc.tenantIs ht
  cases hc with
  | @created _ j _ hj hcr =>
    obtain ⟨eventID, payload, hev⟩ := hcr.events
    refine ⟨_, hev, ?_⟩
    simp only [List.mem_singleton, forall_eq]
    exact ⟨rfl, _, Table.find?_insert_self hcr.jobs, rfl⟩
  | requeued hq =>
    obtain ⟨eventID, hev⟩ := hq.events
    refine ⟨_, hev, ?_⟩
    simp only [List.mem_singleton, forall_eq]
    exact ⟨rfl, _, Table.find?_insert_self hq.jobs, rfl⟩
  | @claimed _ r _ hrow _ hcl =>
    obtain ⟨payload, hev⟩ := hcl.events
    refine ⟨_, hev, ?_⟩
    simp only [List.mem_singleton, forall_eq]
    exact ⟨rfl, htenant ⟨r, hrow, rfl⟩⟩
  | extended _ _ hx => exact ⟨[], by simp [hx.events], by simp⟩
  | executed _ => exact ⟨[], by simp, by simp⟩
  | completed hp hcm =>
    obtain ⟨eventID, payload, hev⟩ := hcm.events
    refine ⟨_, hev, ?_⟩
    simp only [List.mem_singleton, forall_eq]
    exact ⟨rfl, htenant (hl.tenantIs_claimed hp.claimed)⟩
  | failed hp hf =>
    obtain ⟨failedEvent, outcomeEvent, payload, payload', hev⟩ := hf.events
    refine ⟨_, hev, ?_⟩
    simp only [List.mem_cons, List.not_mem_nil, or_false, forall_eq_or_imp, forall_eq]
    have ht := htenant (hl.tenantIs_claimed hp.claimed)
    exact ⟨⟨rfl, ht⟩, rfl, ht⟩
  | released _ _ hrl => exact ⟨[], by simp [hrl.events], by simp⟩
  | transitioned ht =>
    obtain ⟨eventID, payload, hev⟩ := ht.events
    refine ⟨_, hev, ?_⟩
    simp only [List.mem_singleton, forall_eq]
    exact ⟨rfl, htenant ⟨_, ht.row, ht.tenant⟩⟩
  | @recovered _ r _ hrow _ hrec =>
    obtain ⟨payload, hev⟩ := hrec.events
    refine ⟨_, hev, ?_⟩
    simp only [List.mem_singleton, forall_eq]
    exact ⟨rfl, htenant ⟨r, hrow, rfl⟩⟩

/-! ### Logs and reachable states -/

/-- **Labels of a log.** -/
theorem Log.labelled (hl : Log h s) : Labelled s := by
  induction hl with
  | nil => constructor <;> simp [Store.empty, Table.empty]
  | @cons h s s' e hl hc ih =>
    refine ⟨fun a ha => hc.attempt_labelled ih.attempts ha,
      fun d hd => hc.deadLetter_labelled hl ih.deadLetters hd, fun ev hev => ?_⟩
    obtain ⟨new, hrows, hnew⟩ := hc.new_events hl
    rw [hrows, List.mem_append] at hev
    rcases hev with hold | hev
    · exact hc.tenantIs (ih.events ev hold)
    · exact (hnew ev hev).2

/-- In every reachable state of the deployment each attempt, dead letter and event carries the tenant
of its job. -/
theorem reachable_labelled {cfg : DeploymentConfig} {p : Deployment}
    (hp : (deployment cfg).Reachable p) : Labelled p.store := by
  have hcore : Labelled p.store.core := (reachable_sound (reachable_core hp)).log.labelled
  refine ⟨hcore.attempts, hcore.deadLetters, fun ev hev => ?_⟩
  refine hcore.events ev.inserted ?_
  rw [Store.core_events]
  exact List.mem_map_of_mem hev

end JobScheduler
