import JobScheduler.Deployment
import JobScheduler.Effects
import JobScheduler.Moves

/-!
# What the scheduler inserts into `job_events`

No operation of the scheduler changes an event; the operations that write events append them, with
the outbox columns at their defaults.  `Cluster.stamps` lists the keys of the events a step inserts
when its transaction commits, in the order of the inserts, and `step_stamps` says that it inserts
exactly those and leaves every other event as it is.
-/

namespace JobScheduler

open KeyedTable Transaction TransitionSystem

/-! ### Stamps -/

/-- What `ListEvents` and `Claim` order an event by, and the job it belongs to. -/
structure Stamp where
  jobID : UUID
  createdAt : Time
  id : UUID

/-- The stamp of an event. -/
def Event.stamp (e : Event) : Stamp := ⟨e.jobID, e.createdAt, e.id⟩

/-- Events of one job with these stamps are shown in this order. -/
def Stamp.InOrder (a b : Stamp) : Prop :=
  a.jobID = b.jobID → a.createdAt < b.createdAt ∨ (a.createdAt = b.createdAt ∧ a.id ≤ b.id)

instance : DecidableRel Stamp.InOrder := fun _ _ => inferInstanceAs (Decidable (_ → _))

/-- The stamps of all events, in the order of their insertion. -/
def Store.stamps (s : Store) : List Stamp := s.events.rows.map Event.stamp

/-- The columns of an event that belong to the outbox. -/
structure OutboxColumns where
  publishedAt : Option Time
  publishAttempts : Int
  nextPublishAt : Time
  lastPublishError : Option String
  claimedBy : Option String
  claimedUntil : Option Time

/-- The outbox columns of an event. -/
def Event.outbox (e : Event) : OutboxColumns :=
  ⟨e.publishedAt, e.publishAttempts, e.nextPublishAt, e.lastPublishError, e.claimedBy,
    e.claimedUntil⟩

/-- The stamp and the outbox columns of an event that was just inserted. -/
def Stamp.fresh (a : Stamp) : Stamp × OutboxColumns := (a, ⟨none, 0, a.createdAt, none, none, none⟩)

/-- The stamps of all events with their outbox columns. -/
def Store.trace (s : Store) : List (Stamp × OutboxColumns) :=
  s.events.rows.map fun e => (e.stamp, e.outbox)

/-- The stamps of the events an API step inserts. -/
def ApiAct.stamps (s : Cluster) : ApiAct → List Stamp
  | .create _ _ jobID eventID _ now _ => [⟨jobID.val, now, eventID⟩]
  | .writeJob n eventID now _ => s.operators[n]?.toList.map fun call => ⟨call.id, now, eventID⟩
  | .requeue _ _ newID eventID _ _ now _ => [⟨newID.val, now, eventID⟩]
  | .lookup _ _ => []
  | .readJob _ _ _ _ => []

/-- The stamps of the events a step of the claim loop inserts. -/
def LoopAct.stamps (cfg : WorkerConfig) (s : Cluster) : LoopAct → List Stamp
  | .recover x locked _ =>
    (s.store.jobs.rows.filter fun r => decide (r.ExpiredAt x.now) && !locked r.id).map fun r =>
      ⟨r.id, x.now, x.eventID r.id⟩
  | .claim x locked _ =>
    (dueJobs x.now locked cfg.batch s.store).map fun r => ⟨r.id, x.now, x.eventID r.id⟩
  | _ => []

/-- The stamps of the events a slot inserts. -/
def SlotAct.stamps (s : Cluster) (w : String) (i : ℕ) : SlotAct → List Stamp
  | .complete eventID _ now _ =>
    ((s.workers w).slots i).claim?.toList.map fun j => ⟨j.id, now, eventID⟩
  | .fail ids _ _ _ now _ =>
    ((s.workers w).slots i).claim?.toList.flatMap fun j =>
      [⟨j.id, now, ids.failedEvent⟩, ⟨j.id, now, ids.outcomeEvent⟩]
  | _ => []

/-- The stamps of the events a step inserts if its transaction commits. -/
def Cluster.stamps (cfg : Config) (s : Cluster) : Act → List Stamp
  | .api a => a.stamps s
  | .loop w a => a.stamps (cfg.worker w) s
  | .slot w i a => a.stamps s w i
  | .crash _ => []
  | .expireLock _ => []

/-! ### What the operations insert -/

/-- The transaction inserts events with these stamps. -/
abbrev Stamps {α : Type} (tx : RepoTx α) (l : List Stamp) : Prop :=
  tx.Adds Store.trace (l.map Stamp.fresh)

section Operations

variable {α : Type}

theorem insertJob_stamps (r : JobRow) : Stamps (insertJob r) [] :=
  .of_eq fun h => by obtain ⟨-, jobs, -, rfl⟩ := insertJob_eq_ok.1 h; rfl

theorem insertAttempt_stamps (a : Attempt) : Stamps (insertAttempt a) [] :=
  .of_eq fun h => by obtain ⟨attempts, -, rfl⟩ := insertAttempt_eq_ok.1 h; rfl

theorem insertDeadLetter_stamps (d : DeadLetterJob) : Stamps (insertDeadLetter d) [] :=
  .of_eq fun h => by obtain ⟨deadLetters, -, rfl⟩ := insertDeadLetter_eq_ok.1 h; rfl

theorem insertJobEvent_stamps (now : Time) (eventID jobID tenantID : UUID) (eventType : EventType)
    (source : String) (payload : List (String × FieldValue)) :
    Stamps (insertJobEvent now eventID jobID tenantID eventType source payload)
      [⟨jobID, now, eventID⟩] := by
  constructor
  intro s u s' h
  obtain ⟨-, -, -, hrows⟩ := insertJobEvent_spec h
  rw [Store.trace, hrows, List.map_append]
  rfl

theorem updateJobs_stamps (p : JobRow → Prop) [DecidablePred p] (f : JobRow → JobRow)
    (hf : ∀ r, (f r).id = r.id) : Stamps (updateJobs p f hf) [] :=
  .of_eq fun h => by obtain ⟨-, rfl⟩ := updateJobs_eq_ok.1 h; rfl

theorem updateAttempts_stamps (p : Attempt → Prop) [DecidablePred p] (f : Attempt → Attempt)
    (hf : ∀ a, (f a).id = a.id) : Stamps (updateAttempts p f hf) [] :=
  .of_eq fun h => by obtain ⟨-, rfl⟩ := updateAttempts_eq_ok.1 h; rfl

theorem updateDeadLetters_stamps (p : DeadLetterJob → Prop) [DecidablePred p]
    (f : DeadLetterJob → DeadLetterJob) (hf : ∀ d, (f d).id = d.id) :
    Stamps (updateDeadLetters p f hf) [] :=
  .of_eq fun h => by obtain ⟨-, rfl⟩ := updateDeadLetters_eq_ok.1 h; rfl

theorem read_stamps (f : Store → α) : Stamps (Tx.read f) [] :=
  .of_eq fun h => by rw [(Tx.read_eq_ok.1 h).2]

theorem create_stamps (now : Time) (eventID : UUID) (j : Job) :
    Stamps (create now eventID j) [⟨j.id, now, eventID⟩] :=
  (insertJob_stamps _).bind fun _ => (insertJobEvent_stamps ..).bind fun _ => .pure _

theorem requeueDeadLetter_stamps (now clock : Time) (newID eventID tenantID deadLetterID : UUID)
    (runAt : Time) :
    Stamps (requeueDeadLetter now clock newID eventID tenantID deadLetterID runAt)
      [⟨newID, now, eventID⟩] :=
  (read_stamps _).bind fun _ => (Tx.Adds.orAbort ..).bind fun _ => (insertJob_stamps _).bind fun _ =>
    (updateDeadLetters_stamps ..).bind fun _ => (insertJobEvent_stamps ..).bind fun _ => .pure _

theorem claimJob_stamps (x : ClaimArgs) (r : JobRow) :
    Stamps (claimJob x r) [⟨r.id, x.now, x.eventID r.id⟩] :=
  (updateJobs_stamps ..).bind fun _ => (insertAttempt_stamps _).bind fun _ =>
    (insertJobEvent_stamps ..).bind fun _ => .pure _

theorem completeExecution_stamps (now : Time) (eventID : UUID) (j : ClaimedJob) (workerID : String)
    (durationMS : Int) (result : RawMessage) :
    Stamps (completeExecution now eventID j workerID durationMS result) [⟨j.id, now, eventID⟩] :=
  (updateJobs_stamps ..).bind fun _ => (Tx.Adds.require ..).bind fun _ =>
    (updateAttempts_stamps ..).bind fun _ => (Tx.Adds.require ..).bind fun _ =>
      insertJobEvent_stamps ..

theorem failExecution_stamps (now : Time) (ids : FailureIDs) (j : ClaimedJob) (workerID : String)
    (durationMS : Int) (outcome : ExecutionResult) (nextStatus : Status) (nextRetryCount : Int)
    (nextRunAt : Time) :
    Stamps (failExecution now ids j workerID durationMS outcome nextStatus nextRetryCount nextRunAt)
      [⟨j.id, now, ids.failedEvent⟩, ⟨j.id, now, ids.outcomeEvent⟩] := by
  refine (updateAttempts_stamps ..).bind fun _ => (Tx.Adds.require ..).bind fun _ =>
    (insertJobEvent_stamps now ids.failedEvent j.id ..).bind
      (m := [(⟨j.id, now, ids.outcomeEvent⟩ : Stamp)].map Stamp.fresh) fun _ => ?_
  split
  · exact (updateJobs_stamps ..).bind fun _ => (Tx.Adds.require ..).bind fun _ =>
      (insertDeadLetter_stamps _).bind fun _ => insertJobEvent_stamps ..
  · exact (updateJobs_stamps ..).bind fun _ => (Tx.Adds.require ..).bind fun _ =>
      insertJobEvent_stamps ..

theorem transitionJob_stamps (now : Time) (eventID tenantID id : UUID) (allowedFrom : List Status)
    (target : Status) :
    Stamps (transitionJob now eventID tenantID id allowedFrom target) [⟨id, now, eventID⟩] := by
  refine (updateJobs_stamps ..).bind fun _ => (Tx.Adds.require ..).bind fun _ => ?_
  simp only
  split
  · exact (updateAttempts_stamps ..).bind fun _ => insertJobEvent_stamps ..
  · exact (Tx.Adds.pure 0).bind fun _ => insertJobEvent_stamps ..

theorem recoverJob_stamps (x : RecoverArgs) (j : JobRow) :
    Stamps (recoverJob x j) [⟨j.id, x.now, x.eventID j.id⟩] := by
  refine (updateAttempts_stamps ..).bind fun _ => ?_
  simp only
  split
  · exact (updateJobs_stamps ..).bind fun _ => (insertDeadLetter_stamps _).bind fun _ =>
      (insertJobEvent_stamps ..).bind fun _ => .pure _
  · exact (updateJobs_stamps ..).bind fun _ => (insertJobEvent_stamps ..).bind fun _ => .pure _

end Operations

/-! ### What a step inserts -/

/-- The step inserts nothing, or the events it announced. -/
def Inserts (s s' : Store) (l : List Stamp) : Prop :=
  s'.trace = s.trace ∨ s'.trace = s.trace ++ l.map Stamp.fresh

theorem Stamps.record {α : Type} {tx : RepoTx α} {l : List Stamp} (h : Stamps tx l) (s : Cluster)
    (link : Link) (io : AppError) : Inserts s.store (tx.commit link io s.store).state l := by
  rcases tx.commit_cases link io s.store with ⟨-, hs⟩ | ⟨a, st, ht, -, hs⟩
  · exact .inl (by rw [hs])
  · rw [hs]
    exact .inr (h.eq ht)

/-- A selection followed by a loop over it. -/
theorem stamps_loop {α : Type} {sel : Store → List JobRow} {body : JobRow → RepoTx α}
    {g : JobRow → Stamp} (hbody : ∀ r, Stamps (body r) [g r]) (s : Cluster) (link : Link)
    (io : AppError) :
    Inserts s.store ((Tx.read sel >>= Tx.forEach body).commit link io s.store).state
      ((sel s.store).map g) := by
  rcases (Tx.read sel >>= Tx.forEach body).commit_cases link io s.store with
    ⟨-, hs⟩ | ⟨a, st, ht, -, hs⟩
  · exact .inl (by rw [hs])
  · obtain ⟨_, _, hread, hloop⟩ := Tx.bind_eq_ok.1 ht
    obtain ⟨rfl, rfl⟩ := Tx.read_eq_ok.1 hread
    have hadd := (Tx.Adds.forEach hbody (sel s.store)).eq hloop
    have hmap : (sel s.store).flatMap (fun r => [g r].map Stamp.fresh)
        = ((sel s.store).map g).map Stamp.fresh := by
      rw [List.map_map, List.map_eq_flatMap]
      rfl
    rw [hmap] at hadd
    rw [hs]
    exact .inr hadd

theorem apiStep_stamps {cfg : ServiceConfig} {s s' : Cluster} {a : ApiAct}
    (h : apiStep cfg s a = some s') : Inserts s.store s'.store (a.stamps s) := by
  cases apiStep_move h with
  | refused => exact .inl rfl
  | @created principal req jobID eventID clock now link call j lookups answers hp =>
    obtain ⟨-, hj, -⟩ := ServiceConfig.prepare_eq_ok hp
    have hid : j.id = jobID.val := by rw [hj]; rfl
    have hins := (create_stamps now eventID j).record s link .connection
    rw [hid] at hins
    exact hins
  | looked => exact .inl rfl
  | read => exact .inl rfl
  | @written n eventID now link call operators hcall =>
    rw [ApiAct.stamps, hcall]
    exact (transitionJob_stamps now eventID call.tenantID call.id call.op.allowedFrom
      call.op.target).record s link .connection
  | @requeued tenantID deadLetterID newID eventID clock clock' now link =>
    exact (requeueDeadLetter_stamps now clock' newID.val eventID tenantID deadLetterID clock).record s
      link .connection

theorem loopStep_stamps {cfg : WorkerConfig} {s s' : Cluster} {w : String} {a : LoopAct}
    (h : loopStep cfg s w a = some s') : Inserts s.store s'.store (a.stamps cfg s) := by
  cases loopStep_move h with
  | @recovered x locked link hloop =>
    exact stamps_loop (recoverJob_stamps { x with reason := leaseExpired }) s link .connection
  | @claimed x locked link rest hloop hrest =>
    exact stamps_loop (claimJob_stamps { x with workerID := w, lockTTL := cfg.lockTTL }) s link
      .connection
  | dispatched hloop hslot hi => exact .inl rfl
  | shutdown => exact .inl rfl
  | stopped hloop hctx => exact .inl rfl

theorem slotStep_stamps {cfg : WorkerConfig} {s s' : Cluster} {w : String} {i : ℕ} {a : SlotAct}
    (h : slotStep cfg s w i a = some s') : Inserts s.store s'.store (a.stamps s w i) := by
  obtain ⟨s₁, phase, hmove, rfl⟩ := slotStep_move h
  generalize hph : (s.workers w).slots i = before at hmove
  cases hmove with
  | @released j now link =>
    have htx : Stamps (releaseClaim now j.id w .retryScheduled) [] :=
      (updateJobs_stamps ..).bind fun _ => .require ..
    exact htx.record s link .connection
  | @attempted j attemptID now link phase hnil =>
    have htx : Stamps (createAttempt now attemptID.val j.id w (j.retryCount + 1)) [] :=
      (read_stamps _).bind fun _ => (Tx.Adds.orAbort ..).bind fun _ =>
        (insertAttempt_stamps _).bind fun _ => .pure _
    exact htx.record s link .connection
  | @extended j result now link renewal =>
    have htx : Stamps (extendLease now j.id w (cfg.leaseTTL j)) [] :=
      (updateJobs_stamps ..).bind fun _ => .pure _
    exact htx.record s link .connection
  | @completed j result eventID durationMS now link =>
    rw [SlotAct.stamps, hph]
    exact (completeExecution_stamps now eventID j w durationMS result).record s link .connection
  | @failed j err ids durationMS clock clock' now link =>
    rw [SlotAct.stamps, hph]
    exact (failExecution_stamps now ids j w durationMS _ _ _ _).record s link .connection
  | _ => exact .inl rfl

/-- **Step lemma.**  A step of the scheduler inserts no event, or those whose stamps it announced. -/
theorem step_stamps {cfg : Config} {s s' : Cluster} {x : Act} (h : step cfg s x = some s') :
    Inserts s.store s'.store (s.stamps cfg x) := by
  cases x with
  | api a =>
    rw [step_api] at h
    exact apiStep_stamps h
  | loop w a => exact loopStep_stamps h
  | slot w i a => exact slotStep_stamps h
  | crash w =>
    obtain rfl := Option.some.inj h
    exact .inl rfl
  | expireLock jobID =>
    obtain rfl := Option.some.inj h
    exact .inl rfl

/-- The inserted stamps. -/
theorem Inserts.stamps {s s' : Store} {l : List Stamp} (h : Inserts s s' l) :
    s'.stamps = s.stamps ∨ s'.stamps = s.stamps ++ l := by
  have hfst : ∀ t : Store, t.stamps = t.trace.map Prod.fst := by
    intro t
    rw [Store.stamps, Store.trace, List.map_map]
    rfl
  rw [hfst, hfst]
  refine h.imp (fun heq => by rw [heq]) fun heq => ?_
  rw [heq, List.map_append, List.map_map]
  congr 1
  exact List.map_id l

/-- An event after the step was there with the same outbox columns, or was inserted by it. -/
theorem Inserts.event_cases {s s' : Store} {l : List Stamp} (h : Inserts s s' l) {e' : Event}
    (he' : e' ∈ s'.events.rows) :
    (∃ e ∈ s.events.rows, e.stamp = e'.stamp ∧ e.outbox = e'.outbox) ∨
      (e'.stamp ∈ l ∧ (e'.stamp, e'.outbox) = e'.stamp.fresh) := by
  have hmem : (e'.stamp, e'.outbox) ∈ s'.trace := List.mem_map_of_mem he'
  have hold : (e'.stamp, e'.outbox) ∈ s.trace →
      ∃ e ∈ s.events.rows, e.stamp = e'.stamp ∧ e.outbox = e'.outbox := by
    intro hm
    obtain ⟨e, he, heq⟩ := List.mem_map.1 hm
    exact ⟨e, he, Prod.mk.inj heq⟩
  rcases h with heq | heq
  · exact .inl (hold (heq ▸ hmem))
  · rw [heq, List.mem_append] at hmem
    rcases hmem with hm | hm
    · exact .inl (hold hm)
    · obtain ⟨a, ha, heq'⟩ := List.mem_map.1 hm
      have hstamp : a = e'.stamp := congrArg Prod.fst heq'
      subst hstamp
      exact .inr ⟨ha, heq'.symm⟩

end JobScheduler
