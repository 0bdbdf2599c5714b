import JobScheduler.Attempts
import JobScheduler.Labels

/-!
# State and events

`job_events` is a second account of a job's life, written by hand next to each update of its status.
Every transaction that moves a job inserts, last, an event that names the new status, with one
exception: `ReleaseClaim` takes a RUNNING job back to RETRY_SCHEDULED and inserts nothing.

* `Commit.tells` — what a commit adds to the account of its job.
* `events_name_status` — in every run in which no `ReleaseClaim` takes effect, the last event of each
  job names its status.
* `release_untold` — one lock miss, and the last event of a RETRY_SCHEDULED job says it was started.
-/

namespace JobScheduler

open KeyedTable TransitionSystem

variable {h : List Entry} {s s' : Store} {e : Entry}

/-! ### The account of a job -/

/-- The event type names the status. -/
def EventType.Names : EventType → Status → Prop
  | .created, status => status = .pending ∨ status = .scheduled
  | .requeued, status => status = .pending ∨ status = .scheduled
  | .started, status => status = .running
  | .completed, status => status = .succeeded
  | .named status', status => status = status'

instance : (t : EventType) → (status : Status) → Decidable (t.Names status)
  | .created, status => inferInstanceAs (Decidable (status = .pending ∨ status = .scheduled))
  | .requeued, status => inferInstanceAs (Decidable (status = .pending ∨ status = .scheduled))
  | .started, status => inferInstanceAs (Decidable (status = .running))
  | .completed, status => inferInstanceAs (Decidable (status = .succeeded))
  | .named status', status => inferInstanceAs (Decidable (status = status'))

/-- The events of a job, in the order in which they were inserted. -/
def Store.timeline (s : Store) (jobID : UUID) : List Event :=
  s.events.rows.filter fun ev => decide (ev.jobID = jobID)

/-- The last event of every job names its status. -/
def Narrated (s : Store) : Prop :=
  ∀ r ∈ s.jobs.rows, ∃ ev, (s.timeline r.id).getLast? = some ev ∧ ev.eventType.Names r.status

theorem timeline_append {jobID : UUID} {new : List Event}
    (hrows : s'.events.rows = s.events.rows ++ new) (hnew : ∀ ev ∈ new, ev.jobID = jobID) :
    s'.timeline jobID = s.timeline jobID ++ new := by
  rw [Store.timeline, hrows, List.filter_append]
  congr 1
  exact List.filter_eq_self.2 fun ev hev => decide_eq_true (hnew ev hev)

theorem timeline_frame {jobID : UUID} {new : List Event}
    (hrows : s'.events.rows = s.events.rows ++ new) (hnew : ∀ ev ∈ new, ev.jobID ≠ jobID) :
    s'.timeline jobID = s.timeline jobID := by
  rw [Store.timeline, hrows, List.filter_append]
  have hnone : new.filter (fun ev => decide (ev.jobID = jobID)) = [] := by
    rw [List.filter_eq_nil_iff]
    intro ev hev
    simpa using hnew ev hev
  rw [hnone, List.append_nil]
  rfl

/-! ### One commit -/

/-- The events a commit adds to the account of its job, and the status they lead to. -/
structure Tells (e : Entry) (s s' : Store) (new : List Event) : Prop where
  rows : s'.events.rows = s.events.rows ++ new
  jobID : ∀ ev ∈ new, ev.jobID = e.jobID
  names : ∀ r', s'.jobs.find? e.jobID = some r' →
    (∃ ev, new.getLast? = some ev ∧ ev.eventType.Names r'.status) ∨
      (new = [] ∧ ∃ r, s.jobs.find? e.jobID = some r ∧ r.status = r'.status)

/-- One event that names the status of the row the commit leaves. -/
theorem Tells.single {ev : Event} {r' : JobRow} (hrows : s'.events.rows = s.events.rows ++ [ev])
    (hid : ev.jobID = e.jobID) (hr' : s'.jobs.find? e.jobID = some r')
    (hn : ev.eventType.Names r'.status) : Tells e s s' [ev] where
  rows := hrows
  jobID := by simpa using hid
  names := by
    intro r₁ hr₁
    obtain rfl := Option.some.inj (hr'.symm.trans hr₁)
    exact .inl ⟨ev, rfl, hn⟩

/-- **Step lemma.**  Every commit but a release tells the status it leaves the job in. -/
theorem Commit.tells (hc : Commit h s e s') (hrel : ∀ w c, e ≠ .released w c) :
    ∃ new, Tells e s s' new := by
  cases hc with
  | created hj hcr =>
    obtain ⟨eventID, payload, hev⟩ := hcr.events
    exact ⟨_, .single hev rfl (Table.find?_insert_self hcr.jobs) hj.status⟩
  | requeued hq =>
    obtain ⟨eventID, hev⟩ := hq.events
    exact ⟨_, .single hev rfl (Table.find?_insert_self hq.jobs) (initialStatus_cases _ _)⟩
  | @claimed x r _ hrow _ hcl =>
    obtain ⟨payload, hev⟩ := hcl.events
    have hr' : s'.jobs.find? r.id = some (x.lease r) := by
      rw [hcl.jobs]
      exact Table.find?_modify_self hrow _ _
    exact ⟨_, .single hev rfl hr' rfl⟩
  | @extended now ttl w c r _ _ hid hx =>
    refine ⟨[], by rw [hx.events, List.append_nil], by simp, fun r' hr' => .inr ⟨rfl, r, ?_⟩⟩
    rw [show (Entry.extended w c).jobID = r.id from hid.symm] at hr' ⊢
    rw [hx.jobs, Table.find?_modify_self hx.row] at hr'
    obtain rfl := Option.some.inj hr'
    exact ⟨hx.row, rfl⟩
  | executed _ =>
    exact ⟨[], by rw [List.append_nil], by simp, fun r' hr' => .inr ⟨rfl, r', hr', rfl⟩⟩
  | @completed now _ _ w c r _ _ _ hcm =>
    obtain ⟨eventID, payload, hev⟩ := hcm.events
    have hr' : s'.jobs.find? c.id = some (succeededRow now r) := by
      rw [hcm.jobs]
      exact Table.find?_modify_self hcm.row _ _
    exact ⟨_, .single hev rfl hr' rfl⟩
  | @failed _ _ _ _ _ w c r _ _ _ hf =>
    obtain ⟨failedEvent, outcomeEvent, payload, payload', hev⟩ := hf.events
    refine ⟨_, hev, by simp [jobEvent, Entry.jobID], fun r' hr' => .inl ⟨_, rfl, ?_⟩⟩
    rcases hf.settles.find?_cases hf.row c.id with ⟨hne, -⟩ | ⟨-, r₁, hs, hr₁⟩
    · exact absurd rfl hne
    · obtain rfl := Option.some.inj (hr₁.symm.trans hr')
      exact hs.status_eq
  | released _ _ _ => exact absurd rfl (hrel _ _)
  | @transitioned now _ op r _ ht =>
    obtain ⟨eventID, payload, hev⟩ := ht.events
    have hr' : s'.jobs.find? r.id = some (operatorRow now op.target r) := by
      rw [ht.jobs]
      exact Table.find?_modify_self ht.row _ _
    exact ⟨_, .single hev rfl hr' rfl⟩
  | @recovered x r _ hrow _ hrec =>
    obtain ⟨payload, hev⟩ := hrec.events
    rcases hrec.settles.find?_cases hrow r.id with ⟨hne, -⟩ | ⟨-, r₁, hs, hr₁⟩
    · exact absurd rfl hne
    · exact ⟨_, .single hev rfl hr₁ hs.status_eq⟩

/-- Telling commits keep every account up to date. -/
theorem Tells.narrated {new : List Event} (ht : Tells e s s' new) (hc : Commit h s e s')
    (hn : Narrated s) : Narrated s' := by
  intro r' hr'
  have hfind : s'.jobs.find? r'.id = some r' := Table.find?_key hr'
  by_cases hk : r'.id = e.jobID
  · rw [hk] at hfind ⊢
    rw [timeline_append ht.rows ht.jobID]
    rcases ht.names r' hfind with ⟨ev, hlast, hname⟩ | ⟨rfl, r, hr, hstatus⟩
    · refine ⟨ev, ?_, hname⟩
      rw [List.getLast?_append, hlast]
      rfl
    · obtain ⟨hm, hid⟩ := Table.find?_eq_some_iff.1 hr
      obtain ⟨ev, hlast, hname⟩ := hn r hm
      rw [show r.id = e.jobID from hid] at hlast
      refine ⟨ev, ?_, hstatus ▸ hname⟩
      rwa [List.append_nil]
  · -- another job: neither its row nor its account changes
    rw [hc.job_frame hk] at hfind
    obtain ⟨ev, hlast, hname⟩ := hn r' (Table.find?_eq_some_iff.1 hfind).1
    refine ⟨ev, ?_, hname⟩
    rwa [timeline_frame ht.rows fun ev hev => by rw [ht.jobID ev hev]; exact Ne.symm hk]

/-- **Accounts of a log.**  Without releases the last event of each job names its status. -/
theorem Log.narrated (hl : Log h s) (hrel : ∀ w c, .released w c ∉ h) : Narrated s := by
  induction hl with
  | nil => simp [Narrated, Store.empty, Table.empty]
  | @cons h s s' e hl hc ih =>
    obtain ⟨new, ht⟩ := hc.tells fun w c he => hrel w c (he ▸ List.mem_cons_self)
    exact ht.narrated hc (ih fun w c hm => hrel w c (List.mem_cons_of_mem _ hm))

/-! ### Runs without effective releases -/

theorem Store.core_timeline (s : Store) (jobID : UUID) :
    s.core.timeline jobID = (s.timeline jobID).map Event.inserted := by
  rw [Store.timeline, Store.core_events, List.filter_map]
  rfl

/-- The relays change no account. -/
theorem Narrated.of_core (hn : Narrated s.core) : Narrated s := by
  intro r hr
  obtain ⟨ev, hlast, hname⟩ := hn r hr
  rw [Store.core_timeline, List.getLast?_map] at hlast
  obtain ⟨ev₀, hlast₀, rfl⟩ := Option.map_eq_some_iff.1 hlast
  exact ⟨ev₀, hlast₀, hname⟩

/-- **State and events agree.**  Throughout every run of the deployment in which no `ReleaseClaim`
call finds its job RUNNING under the calling worker, the last event of every job names the status
the job is in. -/
theorem events_name_status (cfg : DeploymentConfig) (xs : List DeploymentAct)
    (hno : (deployment cfg).EachStep (OnScheduler ReleasesNothing) xs) :
    (deployment cfg).Always (fun p => Narrated p.store) xs := by
  have hcore : (deployment cfg).Always (fun p => Narrated p.cluster.core.store) xs := by
    refine (deployment_simulation cfg).always (D := ReleasesNothing)
      (P := fun s => Narrated s.store) ?_ ?_ hno
    · exact fun p x y hy hx => hx y hy
    · intro ys hys zs s hp hs
      exact (reachable_sound ⟨zs, hs⟩).log.narrated (never_released hys zs s hp hs)
  exact fun ys p hp hs => (hcore ys p hp hs).of_core

/-- A cancelled job: its last event says so. -/
theorem events_name_status_cancelled :
    ∃ p r, (deployment demoDeployment).exec (Demo.deployed Demo.lockMissCancelled) = some p ∧
      r ∈ p.store.jobs.rows ∧ r.status = .cancelled ∧
      ∃ ev, (p.store.timeline r.id).getLast? = some ev ∧ ev.eventType.Names .cancelled := by
  have hno : (deployment demoDeployment).EachStep (OnScheduler ReleasesNothing)
      (Demo.deployed Demo.lockMissCancelled) :=
    System.eachStep_of_check (by decide +kernel)
  obtain ⟨p, hp, r, hr, hcancelled⟩ :
      ∃ p, (deployment demoDeployment).exec (Demo.deployed Demo.lockMissCancelled) = some p ∧
        ∃ r ∈ p.store.jobs.rows, r.status = .cancelled :=
    System.exists_of_exec (by decide +kernel)
  have hname := (events_name_status demoDeployment _ hno).last hp r hr
  rw [hcancelled] at hname
  exact ⟨p, r, hp, hr, hcancelled, hname⟩

/-- A lock miss, and the account of the job stops at `job.started` while it waits for its retry. -/
theorem release_untold :
    ∃ p r ev, (deployment demoDeployment).exec (Demo.deployed Demo.lockMiss) = some p ∧
      r ∈ p.store.jobs.rows ∧ r.status = .retryScheduled ∧
      (p.store.timeline r.id).getLast? = some ev ∧ ev.eventType = .started ∧
      ¬ev.eventType.Names r.status := by
  obtain ⟨p, hp, r, hr, hretry, hstarted⟩ :
      ∃ p, (deployment demoDeployment).exec (Demo.deployed Demo.lockMiss) = some p ∧
        ∃ r ∈ p.store.jobs.rows, r.status = .retryScheduled ∧
          (p.store.timeline r.id).getLast?.map (fun ev => ev.eventType) = some .started :=
    System.exists_of_exec (by decide +kernel)
  obtain ⟨ev, hlast, htype⟩ := Option.map_eq_some_iff.1 hstarted
  refine ⟨p, r, ev, hp, hr, hretry, hlast, htype, ?_⟩
  rw [htype, hretry]
  decide

end JobScheduler
