import JobScheduler.EventInserts
import JobScheduler.Ledger
import JobScheduler.Narrative
import JobScheduler.Queries

/-!
# The order of the timeline

`ListEvents` shows a job's events by `created_at` and then by `id`.  `created_at` is the start of the
inserting transaction, not its commit, and the ids are random; so neither two transactions nor the
two events of one `FailExecution` need come out in the order in which they were written.

* `timeline_in_order` — in every run whose steps draw their keys after those of the job's earlier
  events, `ListEvents` returns the events of each job in the order of their insertion.
* `outcome_before_failure` — one failed execution whose second event draws the smaller id.
-/

namespace JobScheduler

open KeyedTable Transaction TransitionSystem

variable {cfg : DeploymentConfig}

theorem Store.core_stamps (s : Store) : s.core.stamps = s.stamps := by
  rw [Store.stamps, Store.core_events, List.map_map]
  rfl

/-- The relays and `Replay` insert nothing and restamp nothing. -/
theorem deploymentStep_stamps {p p' : Deployment} {x : DeploymentAct}
    (h : deploymentStep cfg p x = some p') :
    p'.store.stamps = p.store.stamps ∨
      ∃ y ∈ x.scheduler?,
        p'.store.stamps = p.store.stamps ++ p.cluster.stamps cfg.scheduler y := by
  cases hx : x.scheduler? with
  | none =>
    have hcore := (deployment_simulation cfg).silent (x := x) h hx
    have hstore : p'.store.core = p.store.core := congrArg Cluster.store hcore
    exact .inl (by rw [← Store.core_stamps, hstore, Store.core_stamps])
  | some y =>
    cases x with
    | scheduler z =>
      obtain rfl := Option.some.inj hx
      obtain ⟨c, hc, rfl⟩ := deploymentStep_scheduler.1 h
      exact (step_stamps hc).stamps.imp_right fun hins => ⟨z, rfl, hins⟩
    | _ => cases hx

/-! ### Runs whose stamps come in order -/

/-- The events the step inserts come after the events their job has, and after one another. -/
def StampsInOrder (cfg : Config) (s : Cluster) (x : Act) : Prop :=
  (s.stamps cfg x).Pairwise Stamp.InOrder ∧
    ∀ a ∈ s.store.stamps, ∀ b ∈ s.stamps cfg x, a.InOrder b

instance (cfg : Config) (s : Cluster) : DecidablePred (StampsInOrder cfg s) :=
  fun _ => inferInstanceAs (Decidable (_ ∧ _))

/-- The events were inserted in the order of their stamps. -/
def Stamped (s : Store) : Prop := s.stamps.Pairwise Stamp.InOrder

theorem Stamped.step {p p' : Deployment} {x : DeploymentAct} (hp : Stamped p.store)
    (hx : OnScheduler (StampsInOrder cfg.scheduler) p x) (h : deploymentStep cfg p x = some p') :
    Stamped p'.store := by
  rcases deploymentStep_stamps h with heq | ⟨y, hy, heq⟩
  · rw [Stamped, heq]
    exact hp
  · obtain ⟨hnew, hafter⟩ := hx y hy
    rw [Stamped, heq, List.pairwise_append]
    exact ⟨hp, hnew, hafter⟩

/-- **Run lemma.**  A run whose stamps come in order keeps the table in their order. -/
theorem stamped_always {xs : List DeploymentAct}
    (hxs : (deployment cfg).EachStep (OnScheduler (StampsInOrder cfg.scheduler)) xs) :
    (deployment cfg).Always (fun p => Stamped p.store) xs := by
  refine System.always_of_eachStep ?_ ?_ hxs
  · exact List.Pairwise.nil
  · exact fun p x p' _ hp hx h => hp.step hx h

/-! ### `ListEvents` -/

/-- An event of a job carries the tenant of the job. -/
theorem Labelled.tenant_of_event {s : Store} (hl : Labelled s) {r : JobRow} (hr : r ∈ s.jobs.rows)
    {ev : Event} (hev : ev ∈ s.events.rows) (hj : ev.jobID = r.id) : ev.tenantID = r.tenantID := by
  obtain ⟨r', hr', ht⟩ := hl.events ev hev
  rw [hj] at hr'
  obtain rfl := Option.some.inj ((Table.find?_key hr).symm.trans hr')
  exact ht.symm

/-- Inserted in the order of the stamps, the events of a job are listed as they were inserted. -/
theorem Stamped.eventRows_eq {s : Store} (hs : Stamped s) (hl : Labelled s) {r : JobRow}
    (hr : r ∈ s.jobs.rows) : eventRows r.tenantID r.id s = s.timeline r.id := by
  have hfilter : (s.events.rows.filter fun e => decide (e.tenantID = r.tenantID ∧ e.jobID = r.id))
      = s.timeline r.id := by
    apply List.filter_congr
    intro ev hev
    rw [decide_eq_decide]
    exact ⟨fun h => h.2, fun h => ⟨hl.tenant_of_event hr hev h, h⟩⟩
  rw [eventRows, hfilter]
  refine List.Pairwise.insertionSort_eq ?_
  have hrows : s.events.rows.Pairwise fun a b => a.stamp.InOrder b.stamp := List.pairwise_map.1 hs
  refine (hrows.filter _).imp_of_mem ?_
  intro a b ha hb hab
  have hja : a.jobID = r.id := by simpa using (List.mem_filter.1 ha).2
  have hjb : b.jobID = r.id := by simpa using (List.mem_filter.1 hb).2
  exact hab (hja.trans hjb.symm)

/-- What `ListEvents` returns. -/
theorem listEvents_eq (tenantID jobID : UUID) (s : Store) :
    listEvents tenantID jobID s = .ok ((eventRows tenantID jobID s).map Event.view, s) := rfl

/-- The timeline, through the stamps. -/
theorem Store.timeline_ids (s : Store) (jobID : UUID) :
    (s.timeline jobID).map (fun ev => ev.id)
      = (s.stamps.filter fun a => decide (a.jobID = jobID)).map fun a => a.id := by
  rw [Store.stamps, List.filter_map, List.map_map]
  rfl

/-- **Insertion order.**  Along every run the table grows at its end. -/
theorem stamps_grow {p q : Deployment} (hp : (deployment cfg).Reachable p) {zs : List DeploymentAct}
    (hq : (deployment cfg).execFrom p zs = some q) : p.store.stamps <+: q.store.stamps := by
  refine System.Reachable.stable (P := fun q => p.store.stamps <+: q.store.stamps) ?_ hp
    List.prefix_rfl hq
  intro q₁ x q₂ _ hpre h
  rcases deploymentStep_stamps h with heq | ⟨y, -, heq⟩
  · rwa [heq]
  · rw [heq]
    exact hpre.trans (List.prefix_append _ _)

/-- **The timeline is in order.**  Throughout every run of the deployment in which each transaction
stamps its events after those their job already has, and `FailExecution` draws the ids of its two
events in order, `ListEvents` returns the events of every job in the order of their insertion: what
was committed earlier in the run stands first. -/
theorem timeline_in_order (cfg : DeploymentConfig) (xs : List DeploymentAct)
    (hxs : (deployment cfg).EachStep (OnScheduler (StampsInOrder cfg.scheduler)) xs) :
    (deployment cfg).Always (fun q =>
      (∀ r ∈ q.store.jobs.rows, listEvents r.tenantID r.id q.store
        = .ok ((q.store.timeline r.id).map Event.view, q.store)) ∧
      ∀ p zs jobID, (deployment cfg).Reachable p → (deployment cfg).execFrom p zs = some q →
        (p.store.timeline jobID).map (fun ev => ev.id)
          <+: (q.store.timeline jobID).map fun ev => ev.id) xs := by
  intro ys q hys hq
  refine ⟨?_, ?_⟩
  · intro r hr
    have hl : Labelled q.store := reachable_labelled ⟨ys, hq⟩
    rw [listEvents_eq, (stamped_always hxs ys q hys hq).eventRows_eq hl hr]
  · intro p zs jobID hp hzs
    rw [Store.timeline_ids, Store.timeline_ids]
    exact ((stamps_grow hp hzs).filter _).map _

/-- A job that fails once and then succeeds, as `ListEvents` tells it. -/
theorem timeline_in_order_secondTry :
    ∃ p r views, (deployment demoDeployment).exec (Demo.deployed Demo.secondTry) = some p ∧
      r ∈ p.store.jobs.rows ∧ listEvents r.tenantID r.id p.store = .ok (views, p.store) ∧
      views.map (fun v => v.eventType) =
        [.created, .started, .named .failed, .named .retryScheduled, .started, .completed] := by
  have hxs : (deployment demoDeployment).EachStep (OnScheduler (StampsInOrder demo))
      (Demo.deployed Demo.secondTry) :=
    System.eachStep_of_check (by decide +kernel)
  obtain ⟨p, hp, r, hr, htypes⟩ :
      ∃ p, (deployment demoDeployment).exec (Demo.deployed Demo.secondTry) = some p ∧
        ∃ r ∈ p.store.jobs.rows, (p.store.timeline r.id).map (fun ev => ev.eventType) =
          [.created, .started, .named .failed, .named .retryScheduled, .started, .completed] :=
    System.exists_of_exec (by decide +kernel)
  refine ⟨p, r, _, hp, hr, ((timeline_in_order demoDeployment _ hxs).last hp).1 r hr, ?_⟩
  rw [List.map_map]
  exact htypes

namespace Demo

/-- An execution fails, and the second event of `FailExecution` draws the smaller id. -/
def failedOutOfOrder : List Act :=
  [submit] ++ poll "a" 1 11 ++ lock "a" 0 ++ execute "a" 0 ++
    finish "a" 0 (.error (.other "connection reset")) ++
    [.slot "a" 0 (.fail ⟨3002, 3003, 3001⟩ 5 (5 * second) (5 * second) (5 * second) .up)]

end Demo

/-- `ListEvents` shows the retry before the failure it follows. -/
theorem outcome_before_failure :
    ∃ p r views, (deployment demoDeployment).exec (Demo.deployed Demo.failedOutOfOrder) = some p ∧
      r ∈ p.store.jobs.rows ∧ listEvents r.tenantID r.id p.store = .ok (views, p.store) ∧
      (p.store.timeline r.id).map (fun ev => ev.eventType) =
        [.created, .started, .named .failed, .named .retryScheduled] ∧
      views.map (fun v => v.eventType) =
        [.created, .started, .named .retryScheduled, .named .failed] := by
  obtain ⟨p, hp, r, hr, htimeline, hviews⟩ :
      ∃ p, (deployment demoDeployment).exec (Demo.deployed Demo.failedOutOfOrder) = some p ∧
        ∃ r ∈ p.store.jobs.rows,
          (p.store.timeline r.id).map (fun ev => ev.eventType) =
            [.created, .started, .named .failed, .named .retryScheduled] ∧
          (eventRows r.tenantID r.id p.store).map (fun ev => ev.eventType) =
            [.created, .started, .named .retryScheduled, .named .failed] :=
    System.exists_of_exec (by decide +kernel)
  refine ⟨p, r, _, hp, hr, listEvents_eq r.tenantID r.id p.store, htimeline, ?_⟩
  rw [List.map_map]
  exact hviews

end JobScheduler
