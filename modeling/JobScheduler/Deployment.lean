import JobScheduler.Cluster
import JobScheduler.Outbox

/-!
# The whole deployment

The scheduler of `Cluster` together with any number of outbox relays and the operator's `Replay`, all
on one database.  What the relays do to Kafka is written to `deliveries`, newest first, with the
claims and the replays it has to be compared with; nothing reads it.

The relays write the outbox columns of `job_events` and nothing else, and no operation of the
scheduler reads those columns.  So the deployment runs inside the scheduler: seen with the outbox
columns as they were inserted (`Cluster.core`), its runs are runs of the scheduler alone
(`deployment_simulation`), and what holds of those holds of it.
-/

namespace JobScheduler

open KeyedTable Transaction TransitionSystem

/-! ### The system -/

/-- What the record of deliveries keeps. -/
inductive Delivery where
  /-- A committed `Claim`. -/
  | claimed (relayID : String) (ids : List UUID)
  /-- A `Publish` that returned without an error. -/
  | published (relayID : String) (id : UUID)
  /-- A `Publish` that returned an error after the broker had taken the message. -/
  | unacknowledged (relayID : String) (id : UUID)
  /-- A committed `Replay`. -/
  | replayed (id : UUID)

/-- The state of the deployment. -/
structure Deployment where
  cluster : Cluster
  relays : String → Relay
  deliveries : List Delivery

/-- The scheduler at its start, and idle relays. -/
def Deployment.initial : Deployment := ⟨Cluster.initial, fun _ => .publishing [], []⟩

/-- The settings of the processes. -/
structure DeploymentConfig where
  scheduler : Config
  relayBatch : String → Int

namespace Deployment

/-- The database. -/
abbrev store (s : Deployment) : Store := s.cluster.store

/-- Take over the outcome of an outbox statement; `entries` are what it adds to the record. -/
def record {α : Type} (s : Deployment) (o : Outcome Store OutboxError α)
    (entries : α → List Delivery) : Deployment :=
  { s with
    cluster := { s.cluster with store := o.state }
    deliveries :=
      match o.committed with
      | some a => entries a ++ s.deliveries
      | none => s.deliveries }

/-- Move a relay. -/
def setRelay (s : Deployment) (relayID : String) (relay : Relay) : Deployment :=
  { s with relays := Function.update s.relays relayID relay }

end Deployment

/-- The steps of a relay. -/
inductive RelayAct where
  | claim (now : Time) (locked : UUID → Bool) (scan : UUID → ℕ) (link : Link)
  /-- `Publish` returns: `none`, or the error of a message the broker has not taken. -/
  | publish (error : Option String)
  /-- `Publish` returns an error, and the broker has taken the message: the acknowledgement was lost, or
  came too late. -/
  | unacknowledged (error : String)
  | markFailed (now : Time) (link : Link)
  | markPublished (now : Time) (link : Link)

/-- One step of `publishBatch` of a relay. -/
def relayStep (batch : Int) (s : Deployment) (relayID : String) : RelayAct → Option Deployment
  | .claim now locked scan link =>
    match s.relays relayID with
    | .publishing [] =>
      let o := (claimEvents now locked scan relayID batch relayLease).commit link .connection s.store
      some ((s.record o fun items => [.claimed relayID (items.map fun e => e.eventID)]).setRelay
        relayID
        (match o.reply with
          | .ok items => .publishing items
          | .error _ => .publishing []))
    | _ => none
  | .publish error =>
    match s.relays relayID with
    | .publishing (event :: rest) =>
      match error with
      | none =>
        some ({ s with deliveries := .published relayID event.eventID :: s.deliveries }.setRelay
          relayID (.delivered event rest))
      | some message => some (s.setRelay relayID (.failing event message rest))
    | _ => none
  | .unacknowledged message =>
    match s.relays relayID with
    | .publishing (event :: rest) =>
      some ({ s with deliveries := .unacknowledged relayID event.eventID :: s.deliveries }.setRelay
        relayID (.failing event message rest))
    | _ => none
  | .markFailed now link =>
    match s.relays relayID with
    | .failing event message rest =>
      -- the error of `MarkFailed` is dropped
      let o := (markFailed now event.eventID relayID event.publishAttempts message).commit
        link .connection s.store
      some ((s.record o fun _ => []).setRelay relayID (.publishing rest))
    | _ => none
  | .markPublished now link =>
    match s.relays relayID with
    | .delivered event rest =>
      -- an error of `MarkPublished` ends the batch
      let o := (markPublished now event.eventID relayID).commit link .connection s.store
      some ((s.record o fun _ => []).setRelay relayID
        (match o.reply with
          | .ok () => .publishing rest
          | .error _ => .publishing []))
    | _ => none

/-- The steps of the deployment. -/
inductive DeploymentAct where
  | scheduler (x : Act)
  | relay (relayID : String) (a : RelayAct)
  /-- An operator's `Replay`. -/
  | replay (tenantID id : UUID) (now : Time) (link : Link)
  /-- A relay dies, with the rest of its batch. -/
  | crashRelay (relayID : String)

/-- The step of the scheduler a step of the deployment takes. -/
def DeploymentAct.scheduler? : DeploymentAct → Option Act
  | .scheduler x => some x
  | _ => none

/-- One step of the deployment. -/
def deploymentStep (cfg : DeploymentConfig) (s : Deployment) : DeploymentAct → Option Deployment
  | .scheduler x => (step cfg.scheduler s.cluster x).map fun c => { s with cluster := c }
  | .relay relayID a => relayStep (cfg.relayBatch relayID) s relayID a
  | .replay tenantID id now link =>
    let o := (replay now tenantID id).commit link .connection s.store
    some (s.record o fun _ => [.replayed id])
  | .crashRelay relayID => some (s.setRelay relayID (.publishing []))

/-- The deployment under a configuration. -/
def deployment (cfg : DeploymentConfig) : System Deployment DeploymentAct :=
  ⟨Deployment.initial, deploymentStep cfg⟩

theorem deploymentStep_scheduler {cfg : DeploymentConfig} {s s' : Deployment} {x : Act} :
    deploymentStep cfg s (.scheduler x) = some s' ↔
      ∃ c, step cfg.scheduler s.cluster x = some c ∧ s' = { s with cluster := c } := by
  simp [deploymentStep, eq_comm]

/-! ### The outbox columns -/

/-- The event as it was inserted: the outbox columns at their defaults. -/
def Event.inserted (e : Event) : Event :=
  { e with
    publishedAt := none, publishAttempts := 0, nextPublishAt := e.createdAt
    lastPublishError := none, claimedBy := none, claimedUntil := none }

@[simp] theorem Event.inserted_id (e : Event) : e.inserted.id = e.id := rfl

/-- The database without what the relays wrote. -/
def Store.core (s : Store) : Store :=
  { s with events := s.events.update (fun _ => True) Event.inserted Event.inserted_id }

/-- The scheduler without what the relays wrote. -/
def Cluster.core (s : Cluster) : Cluster := { s with store := s.store.core }

theorem Store.core_events (s : Store) : s.core.events.rows = s.events.rows.map Event.inserted := by
  simp [Store.core, Table.update]

/-- The transaction neither reads the outbox columns nor writes them, except by inserting events. -/
structure OutboxFree {α : Type} (tx : RepoTx α) : Prop where
  agrees : tx.Agrees (fun s t => t = s.core) (fun _ s t => t = s.core)

namespace OutboxFree

variable {α β : Type}

theorem of_map {tx : RepoTx α} (h : ∀ s, tx s.core = (tx s).map fun p => (p.1, p.2.core)) :
    OutboxFree tx := by
  constructor
  rintro s t rfl
  cases hx : tx s with
  | error e => exact .inl ⟨e, rfl, by rw [h, hx]; rfl⟩
  | ok p => exact .inr ⟨p.1, p.2, p.2.core, rfl, by rw [h, hx]; rfl, rfl⟩

theorem pure (a : α) : OutboxFree (Pure.pure a : RepoTx α) := ⟨.pure fun _ _ => id⟩

theorem bind {x : RepoTx α} {f : α → RepoTx β} (hx : OutboxFree x) (hf : ∀ a, OutboxFree (f a)) :
    OutboxFree (x >>= f) :=
  ⟨hx.agrees.bind fun a => (hf a).agrees⟩

theorem read {f : Store → α} (hf : ∀ s, f s.core = f s) : OutboxFree (Tx.read f : RepoTx α) :=
  ⟨.read (fun s t hst => by rw [hst, hf]) fun _ _ => id⟩

theorem require (c : Prop) [Decidable c] (e : AppError) : OutboxFree (Tx.require c e) :=
  ⟨.require fun _ _ _ => id⟩

theorem orAbort (o : Option α) (e : AppError) : OutboxFree (Tx.orAbort o e : RepoTx α) :=
  ⟨.orAbort fun _ _ _ _ => id⟩

theorem forEach {f : α → RepoTx β} (hf : ∀ a, OutboxFree (f a)) (as : List α) :
    OutboxFree (Tx.forEach f as) :=
  ⟨.forEach fun a _ => (hf a).agrees⟩

theorem insertJob (r : JobRow) : OutboxFree (insertJob r) := by
  refine .of_map fun s => ?_
  unfold JobScheduler.insertJob
  by_cases hk : s.KeyTaken r
  · rw [if_pos hk, if_pos (show s.core.KeyTaken r from hk)]
    rfl
  · rw [if_neg hk, if_neg (show ¬s.core.KeyTaken r from hk),
      show s.core.jobs.insert r = s.jobs.insert r from rfl]
    cases s.jobs.insert r <;> rfl

theorem insertAttempt (a : Attempt) : OutboxFree (insertAttempt a) := by
  refine .of_map fun s => ?_
  unfold JobScheduler.insertAttempt
  rw [show s.core.attempts.insert a = s.attempts.insert a from rfl]
  cases s.attempts.insert a <;> rfl

theorem insertDeadLetter (d : DeadLetterJob) : OutboxFree (insertDeadLetter d) := by
  refine .of_map fun s => ?_
  unfold JobScheduler.insertDeadLetter
  rw [show s.core.deadLetters.insert d = s.deadLetters.insert d from rfl]
  cases s.deadLetters.insert d <;> rfl

/-- The events of the repository are inserted with the defaults in their outbox columns. -/
theorem insertJobEvent (now : Time) (eventID jobID tenantID : UUID) (eventType : EventType)
    (source : String) (payload : List (String × FieldValue)) :
    OutboxFree (insertJobEvent now eventID jobID tenantID eventType source payload) := by
  refine (require ..).bind fun _ => .of_map fun s => ?_
  have hins := s.events.insert_update (fun _ => True) Event.inserted Event.inserted_id
    (jobEvent now eventID jobID tenantID eventType source payload)
  rw [if_pos trivial] at hins
  unfold insertEvent
  rw [show s.core.events.insert (jobEvent now eventID jobID tenantID eventType source payload) = _
    from hins]
  cases s.events.insert (jobEvent now eventID jobID tenantID eventType source payload) <;> rfl

theorem updateJobs (p : JobRow → Prop) [DecidablePred p] (f : JobRow → JobRow)
    (hf : ∀ r, (f r).id = r.id) : OutboxFree (updateJobs p f hf) :=
  .of_map fun _ => rfl

theorem updateAttempts (p : Attempt → Prop) [DecidablePred p] (f : Attempt → Attempt)
    (hf : ∀ a, (f a).id = a.id) : OutboxFree (updateAttempts p f hf) :=
  .of_map fun _ => rfl

theorem updateDeadLetters (p : DeadLetterJob → Prop) [DecidablePred p]
    (f : DeadLetterJob → DeadLetterJob) (hf : ∀ d, (f d).id = d.id) :
    OutboxFree (updateDeadLetters p f hf) :=
  .of_map fun _ => rfl

/-! ### The operations of the scheduler -/

theorem create (now : Time) (eventID : UUID) (j : Job) : OutboxFree (create now eventID j) :=
  (insertJob _).bind fun _ => (insertJobEvent ..).bind fun _ => pure _

theorem getByIdempotencyKey (tenantID : UUID) (idempotencyKey : String) :
    OutboxFree (getByIdempotencyKey tenantID idempotencyKey) :=
  (read fun _ => rfl).bind fun _ => (orAbort ..).bind fun _ => pure _

theorem getByID (tenantID id : UUID) : OutboxFree (getByID tenantID id) :=
  (read fun _ => rfl).bind fun _ => (orAbort ..).bind fun _ => pure _

theorem requeueDeadLetter (now clock : Time) (newID eventID tenantID deadLetterID : UUID)
    (runAt : Time) :
    OutboxFree (requeueDeadLetter now clock newID eventID tenantID deadLetterID runAt) :=
  (read fun _ => rfl).bind fun _ => (orAbort ..).bind fun _ => (insertJob _).bind fun _ =>
    (updateDeadLetters ..).bind fun _ => (insertJobEvent ..).bind fun _ => pure _

theorem claimDueJobs (x : ClaimArgs) (locked : UUID → Bool) (batchSize : Int) :
    OutboxFree (claimDueJobs x locked batchSize) :=
  (read fun _ => rfl).bind <| forEach fun _ => (updateJobs ..).bind fun _ =>
    (insertAttempt _).bind fun _ => (insertJobEvent ..).bind fun _ => pure _

theorem extendLease (now : Time) (jobID : UUID) (workerID : String) (ttl : Duration) :
    OutboxFree (extendLease now jobID workerID ttl) :=
  (updateJobs ..).bind fun _ => pure _

theorem createAttempt (now : Time) (attemptID jobID : UUID) (workerID : String)
    (attemptNumber : Int) : OutboxFree (createAttempt now attemptID jobID workerID attemptNumber) :=
  (read fun _ => rfl).bind fun _ => (orAbort ..).bind fun _ => (insertAttempt _).bind fun _ => pure _

theorem completeExecution (now : Time) (eventID : UUID) (j : ClaimedJob) (workerID : String)
    (durationMS : Int) (result : RawMessage) :
    OutboxFree (completeExecution now eventID j workerID durationMS result) :=
  (updateJobs ..).bind fun _ => (require ..).bind fun _ => (updateAttempts ..).bind fun _ =>
    (require ..).bind fun _ => insertJobEvent ..

theorem failExecution (now : Time) (ids : FailureIDs) (j : ClaimedJob) (workerID : String)
    (durationMS : Int) (outcome : ExecutionResult) (nextStatus : Status) (nextRetryCount : Int)
    (nextRunAt : Time) :
    OutboxFree (failExecution now ids j workerID durationMS outcome nextStatus nextRetryCount
      nextRunAt) := by
  refine (updateAttempts ..).bind fun _ => (require ..).bind fun _ =>
    (insertJobEvent ..).bind fun _ => ?_
  split
  · exact (updateJobs ..).bind fun _ => (require ..).bind fun _ => (insertDeadLetter _).bind fun _ =>
      insertJobEvent ..
  · exact (updateJobs ..).bind fun _ => (require ..).bind fun _ => insertJobEvent ..

theorem releaseClaim (now : Time) (jobID : UUID) (workerID : String) (status : Status) :
    OutboxFree (releaseClaim now jobID workerID status) :=
  (updateJobs ..).bind fun _ => require ..

theorem transitionJob (now : Time) (eventID tenantID id : UUID) (allowedFrom : List Status)
    (target : Status) : OutboxFree (transitionJob now eventID tenantID id allowedFrom target) := by
  refine (updateJobs ..).bind fun _ => (require ..).bind fun _ => ?_
  simp only
  split
  · exact (updateAttempts ..).bind fun _ => insertJobEvent ..
  · exact (pure 0).bind fun _ => insertJobEvent ..

theorem recoverJob (x : RecoverArgs) (j : JobRow) : OutboxFree (recoverJob x j) := by
  refine (updateAttempts ..).bind fun _ => ?_
  simp only
  split
  · exact (updateJobs ..).bind fun _ => (insertDeadLetter _).bind fun _ =>
      (insertJobEvent ..).bind fun _ => pure _
  · exact (updateJobs ..).bind fun _ => (insertJobEvent ..).bind fun _ => pure _

theorem recoverExpiredRunningJobs (x : RecoverArgs) (locked : UUID → Bool) :
    OutboxFree (recoverExpiredRunningJobs x locked) :=
  (read fun _ => rfl).bind <| forEach (recoverJob x)

/-- An outbox-free transaction does the same without what the relays wrote. -/
theorem commit {tx : RepoTx α} (h : OutboxFree tx) (link : Link) (io : AppError) (s : Store) :
    tx.commit link io s.core = ⟨(tx.commit link io s).state.core, (tx.commit link io s).committed,
      (tx.commit link io s).reply⟩ :=
  h.agrees.commit_map

end OutboxFree

/-! ### The simulation -/

variable {cfg : DeploymentConfig}

theorem apiStep_core (cfg : ServiceConfig) (s : Cluster) (a : ApiAct) :
    apiStep cfg s.core a = (apiStep cfg s a).map Cluster.core := by
  cases a with
  | create principal req jobID eventID clock now link =>
    simp only [apiStep]
    cases cfg.prepare principal req jobID clock with
    | error e => rfl
    | ok p =>
      simp only [show s.core.store = s.store.core from rfl, (OutboxFree.create now eventID p.2).commit]
      split
      · rfl
      · split <;> rfl
  | lookup n link =>
    simp only [apiStep, show s.core.lookups = s.lookups from rfl]
    split
    · rfl
    · split
      · rfl
      · simp only [show s.core.store = s.store.core from rfl,
          (OutboxFree.getByIdempotencyKey _ _).commit]
        split <;> rfl
  | readJob op tenantID id link =>
    simp only [apiStep, show s.core.store = s.store.core from rfl, (OutboxFree.getByID _ _).commit]
    split
    · rfl
    · split <;> rfl
  | writeJob n eventID now link =>
    simp only [apiStep, show s.core.operators = s.operators from rfl]
    split
    · rfl
    · simp only [show s.core.store = s.store.core from rfl, Operation.write,
        (OutboxFree.transitionJob _ _ _ _ _ _).commit]
      rfl
  | requeue tenantID deadLetterID newID eventID clock clock' now link =>
    simp only [apiStep, show s.core.store = s.store.core from rfl,
      (OutboxFree.requeueDeadLetter _ _ _ _ _ _ _).commit]
    rfl

theorem loopStep_core (cfg : WorkerConfig) (s : Cluster) (w : String) (a : LoopAct) :
    loopStep cfg s.core w a = (loopStep cfg s w a).map Cluster.core := by
  cases a with
  | recover x locked link =>
    simp only [loopStep, show s.core.workers = s.workers from rfl]
    split
    · split
      · simp only [show s.core.store = s.store.core from rfl,
          (OutboxFree.recoverExpiredRunningJobs _ _).commit]
        rfl
      · rfl
    · rfl
  | claim x locked link =>
    simp only [loopStep, show s.core.workers = s.workers from rfl]
    split
    · split
      · simp only [show s.core.store = s.store.core from rfl,
          (OutboxFree.claimDueJobs _ _ _).commit]
        rfl
      · rfl
    · rfl
  | dispatch i =>
    simp only [loopStep, show s.core.workers = s.workers from rfl]
    split
    · split
      · split <;> rfl
      · rfl
    · rfl
  | shutdown =>
    simp only [loopStep, show s.core.workers = s.workers from rfl]
    split <;> rfl
  | stop =>
    simp only [loopStep, show s.core.workers = s.workers from rfl]
    split
    · split <;> rfl
    · rfl

theorem slotStep_core (cfg : WorkerConfig) (s : Cluster) (w : String) (i : ℕ) (a : SlotAct) :
    slotStep cfg s.core w i a = (slotStep cfg s w i a).map Cluster.core := by
  have hstore : s.core.store = s.store.core := rfl
  cases a with
  | acquire link =>
    simp only [slotStep, show s.core.workers = s.workers from rfl]
    split
    · split <;> rfl
    · rfl
  | release now link =>
    simp only [slotStep, show s.core.workers = s.workers from rfl]
    split
    · simp only [hstore, (OutboxFree.releaseClaim _ _ _ _).commit]
      rfl
    · rfl
  | createAttempt attemptID now link =>
    simp only [slotStep, show s.core.workers = s.workers from rfl]
    split
    · split
      · simp only [hstore, (OutboxFree.createAttempt _ _ _ _ _).commit]
        rfl
      · rfl
    · rfl
  | execute =>
    simp only [slotStep, show s.core.workers = s.workers from rfl]
    split
    · split <;> rfl
    · rfl
  | extendLease now link =>
    simp only [slotStep, show s.core.workers = s.workers from rfl]
    split
    · simp only [hstore, (OutboxFree.extendLease _ _ _ _).commit]
      rfl
    · rfl
  | complete eventID durationMS now link =>
    simp only [slotStep, show s.core.workers = s.workers from rfl]
    split
    · simp only [hstore, (OutboxFree.completeExecution _ _ _ _ _ _).commit]
      rfl
    · rfl
  | fail ids durationMS clock clock' now link =>
    simp only [slotStep, show s.core.workers = s.workers from rfl]
    split
    · simp only [hstore, (OutboxFree.failExecution _ _ _ _ _ _ _ _ _).commit]
      rfl
    · rfl
  | unlock link =>
    simp only [slotStep, show s.core.workers = s.workers from rfl]
    split
    · split <;> rfl
    · rfl
  | exit =>
    simp only [slotStep, show s.core.workers = s.workers from rfl]
    split
    · split <;> rfl
    · rfl
  | _ =>
    -- no statement on the database
    simp only [slotStep, show s.core.workers = s.workers from rfl]
    split <;> rfl

/-- The scheduler steps in the same way without what the relays wrote. -/
theorem step_core (cfg : Config) (s : Cluster) (x : Act) :
    step cfg s.core x = (step cfg s x).map Cluster.core := by
  cases x with
  | api a => exact apiStep_core cfg.service s a
  | loop w a => exact loopStep_core (cfg.worker w) s w a
  | slot w i a => exact slotStep_core (cfg.worker w) s w i a
  | crash w => rfl
  | expireLock jobID => rfl

/-! ### What the relays write -/

/-- The rewriting of an event keeps all but its outbox columns. -/
theorem core_update (s : Store) (p : Event → Prop) [DecidablePred p] (f : Event → Event)
    (hf : ∀ e, (f e).id = e.id) (hins : ∀ e, (f e).inserted = e.inserted) :
    Store.core { s with events := s.events.update p f hf } = s.core := by
  have hrows : (s.events.update p f hf).rows.map Event.inserted
      = s.events.rows.map Event.inserted := by
    rw [Table.update, List.map_map]
    apply List.map_congr_left
    intro e _
    by_cases hp : p e
    · simp [hp, hins]
    · simp [hp]
  simp only [Store.core, Store.mk.injEq, true_and]
  apply Table.ext
  simpa [Table.update] using hrows

/-- The statement writes nothing but outbox columns. -/
structure OutboxOnly {α : Type} (tx : OutboxTx α) : Prop where
  core : ∀ {s a s'}, tx s = .ok (a, s') → s'.core = s.core

theorem claimEvents_outboxOnly (now : Time) (locked : UUID → Bool) (scan : UUID → ℕ)
    (relayID : String) (batch : Int) (lease : Duration) :
    OutboxOnly (claimEvents now locked scan relayID batch lease) where
  core h := by
    obtain ⟨rfl, -⟩ := claimEvents_spec h
    exact core_update _ _ _ _ fun _ => rfl

theorem markPublished_outboxOnly (now : Time) (id : UUID) (relayID : String) :
    OutboxOnly (markPublished now id relayID) where
  core h := by
    obtain ⟨-, -, -, rfl⟩ := markPublished_spec h
    exact core_update _ _ _ _ fun _ => rfl

theorem markFailed_outboxOnly (now : Time) (id : UUID) (relayID : String) (attempts : Int)
    (message : String) : OutboxOnly (markFailed now id relayID attempts message) where
  core h := by
    rcases markFailed_spec h with ⟨rfl, -⟩ | ⟨-, -, -, rfl⟩
    · rfl
    · exact core_update _ _ _ _ fun _ => rfl

theorem replay_outboxOnly (now : Time) (tenantID id : UUID) :
    OutboxOnly (replay now tenantID id) where
  core h := by
    obtain ⟨-, -, -, rfl⟩ := replay_spec h
    exact core_update _ _ _ _ fun _ => rfl

theorem OutboxOnly.record_core {α : Type} {tx : OutboxTx α} (h : OutboxOnly tx) (s : Deployment)
    (link : Link) (entries : α → List Delivery) :
    (s.record (tx.commit link .connection s.store) entries).cluster.core = s.cluster.core := by
  have hcore : (tx.commit link .connection s.store).state.core = s.store.core := by
    rcases tx.commit_cases link .connection s.store with ⟨-, hs⟩ | ⟨a, st, ht, -, hs⟩
    · rw [hs]
    · rw [hs]
      exact h.core ht
  simp only [Deployment.record, Cluster.core, hcore]

/-- A step of a relay is no step of the scheduler. -/
theorem relayStep_core {batch : Int} {s s' : Deployment} {relayID : String} {a : RelayAct}
    (h : relayStep batch s relayID a = some s') : s'.cluster.core = s.cluster.core := by
  cases a with
  | claim now locked scan link =>
    simp only [relayStep] at h
    split at h
    · obtain rfl := Option.some.inj h
      exact (claimEvents_outboxOnly now locked scan relayID batch relayLease).record_core s link
        fun items => [.claimed relayID (items.map fun e => e.eventID)]
    · cases h
  | publish error =>
    simp only [relayStep] at h
    split at h
    · split at h
      · obtain rfl := Option.some.inj h
        rfl
      · obtain rfl := Option.some.inj h
        rfl
    · cases h
  | unacknowledged message =>
    simp only [relayStep] at h
    split at h
    · obtain rfl := Option.some.inj h
      rfl
    · cases h
  | markFailed now link =>
    simp only [relayStep] at h
    split at h
    · obtain rfl := Option.some.inj h
      exact (markFailed_outboxOnly _ _ _ _ _).record_core s link fun _ => []
    · cases h
  | markPublished now link =>
    simp only [relayStep] at h
    split at h
    · obtain rfl := Option.some.inj h
      exact (markPublished_outboxOnly _ _ _).record_core s link fun _ => []
    · cases h

/-- **The deployment runs inside the scheduler.**  Without what the relays wrote, a run of the
deployment is the run of the scheduler that takes its scheduler steps. -/
theorem deployment_simulation (cfg : DeploymentConfig) :
    (deployment cfg).Simulation (cluster cfg.scheduler) (fun s => s.cluster.core)
      DeploymentAct.scheduler? where
  init := rfl
  step := by
    intro s x s' y h hy
    cases x with
    | scheduler x =>
      obtain rfl := Option.some.inj hy
      obtain ⟨c, hc, rfl⟩ := deploymentStep_scheduler.1 h
      show step cfg.scheduler s.cluster.core x = some c.core
      rw [step_core, hc, Option.map_some]
    | _ => cases hy
  silent := by
    intro s x s' h hy
    cases x with
    | scheduler x => cases hy
    | relay relayID a => exact relayStep_core h
    | replay tenantID id now link =>
      obtain rfl := Option.some.inj h
      exact (replay_outboxOnly now tenantID id).record_core s link fun _ => [.replayed id]
    | crashRelay relayID =>
      obtain rfl := Option.some.inj h
      rfl

/-- Without what the relays wrote, a reachable state of the deployment is one of the scheduler. -/
theorem reachable_core {s : Deployment} (hr : (deployment cfg).Reachable s) :
    (cluster cfg.scheduler).Reachable s.cluster.core :=
  (deployment_simulation cfg).reachable hr

/-- A step of the deployment is a step of the scheduler, or changes outbox columns only. -/
theorem deploymentStep_core {s s' : Deployment} {x : DeploymentAct}
    (h : deploymentStep cfg s x = some s') :
    (∃ y, x = .scheduler y ∧ step cfg.scheduler s.cluster.core y = some s'.cluster.core) ∨
      s'.cluster.core = s.cluster.core := by
  cases hx : x.scheduler? with
  | none => exact .inr ((deployment_simulation cfg).silent (x := x) h hx)
  | some y =>
    refine .inl ⟨y, ?_, (deployment_simulation cfg).step (x := x) h hx⟩
    cases x with
    | scheduler z => rw [Option.some.inj hx]
    | _ => cases hx

/-- A condition on the steps of the scheduler, as one on those of the deployment. -/
def OnScheduler (C : Cluster → Act → Prop) (p : Deployment) (x : DeploymentAct) : Prop :=
  ∀ y ∈ x.scheduler?, C p.cluster y

instance (C : Cluster → Act → Prop) [∀ s, DecidablePred (C s)] (p : Deployment) :
    DecidablePred (OnScheduler C p) :=
  fun x => Option.decidableForallMem x.scheduler?

/-! ### A small deployment -/

/-- The small scheduler with relays that claim up to fifty events. -/
def demoDeployment : DeploymentConfig := ⟨demo, fun _ => 50⟩

/-- A run of the scheduler alone. -/
def Demo.deployed (xs : List Act) : List DeploymentAct := xs.map .scheduler

end JobScheduler
