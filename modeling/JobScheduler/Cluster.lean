import JobScheduler.Library.TransitionSystem
import JobScheduler.Service
import JobScheduler.Worker
import Mathlib.Logic.Function.Basic

/-!
# The running system

One PostgreSQL store, one Redis, any number of API calls in flight and any number of worker
processes, as a transition system.  A step is one thing the outside can tell from the others: a
transaction, a Redis command, a hand-over on the channel, a call or a return of the executor, an
expiry.  The label of a step (`Act`) carries what the environment decides: the clocks, the drawn ids,
the rows other transactions hold locked, what the connection does, the executor's result.

Whatever commits is also written to `history`, newest first, whether or not the caller hears of it;
nothing reads the history.
-/

namespace JobScheduler

open Transaction

/-! ### Redis -/

/-- The value of the key `lock:job:<id>` for each job id. -/
abbrev Locks := UUID → Option String

/-- `SETNX` on the lock key of a job. -/
def setNX (jobID : UUID) (owner : String) : Tx Locks AppError Bool := fun locks =>
  if locks jobID = none then .ok (true, Function.update locks jobID (some owner))
  else .ok (false, locks)

/-- The compare-and-delete script of `RedisLock.Release`. -/
def compareAndDelete (jobID : UUID) (owner : String) : Tx Locks AppError Bool := fun locks =>
  if locks jobID = some owner then .ok (true, Function.update locks jobID none)
  else .ok (false, locks)

/-- The compare-and-expire script of `RedisLock.Extend`; the expiry itself is a step of its own. -/
def compareAndExpire (jobID : UUID) (owner : String) : Tx Locks AppError Bool := fun locks =>
  .ok (decide (locks jobID = some owner), locks)

/-! ### The state -/

/-- What the history records. -/
inductive Entry where
  | created (jobID : UUID)
  | requeued (jobID deadLetterID : UUID)
  | claimed (w : String) (c : ClaimedJob)
  | extended (w : String) (c : ClaimedJob)
  /-- `Execute` was called; the store is not involved. -/
  | executed (w : String) (c : ClaimedJob)
  | completed (w : String) (c : ClaimedJob)
  | failed (w : String) (c : ClaimedJob)
  | released (w : String) (c : ClaimedJob)
  | transitioned (jobID : UUID) (op : Operation)
  | recovered (jobID : UUID)

/-- The state of the whole system. -/
structure Cluster where
  store : Store
  locks : Locks
  workers : String → Worker
  /-- Create calls between their rejected insert and their lookup. -/
  lookups : List CreateCall
  /-- Operator calls between their read and their write. -/
  operators : List OperatorCall
  /-- What `Create` has returned. -/
  answers : List (CreateCall × Except AppError CreateResponse)
  history : List Entry

/-- An empty database, no keys, freshly started workers. -/
def Cluster.initial : Cluster :=
  ⟨Store.empty, fun _ => none, fun _ => Worker.initial, [], [], [], []⟩

/-- The settings of the processes. -/
structure Config where
  service : ServiceConfig
  worker : String → WorkerConfig

namespace Cluster

/-- Take over the outcome of a transaction; `entries` are what it adds to the history. -/
def record {α : Type} (s : Cluster) (o : Outcome Store AppError α) (entries : α → List Entry) :
    Cluster :=
  { s with
    store := o.state
    history :=
      match o.committed with
      | some a => entries a ++ s.history
      | none => s.history }

/-- `Create` returns. -/
def answer (s : Cluster) (call : CreateCall) (result : Except AppError CreateResponse) : Cluster :=
  { s with answers := (call, result) :: s.answers }

/-- Change the memory of one worker. -/
def setWorker (s : Cluster) (w : String) (wk : Worker) : Cluster :=
  { s with workers := Function.update s.workers w wk }

/-- Move the claim loop of a worker; its call, if one was under way, has returned. -/
def setLoop (s : Cluster) (w : String) (loop : Loop) : Cluster :=
  s.setWorker w { s.workers w with loop := loop, inFlight := false }

/-- Move a slot of a worker. -/
def setSlot (s : Cluster) (w : String) (i : ℕ) (phase : Phase) : Cluster :=
  s.setWorker w { s.workers w with slots := Function.update (s.workers w).slots i phase }

/-- A transaction either did not commit, and then the store and the history are as before, or it
computed the new store, and the history has its entries. -/
theorem record_cases {α : Type} (s : Cluster) (tx : RepoTx α) (link : Link) (io : AppError)
    (entries : α → List Entry) :
    ((tx.commit link io s.store).committed = none ∧
        (s.record (tx.commit link io s.store) entries).store = s.store ∧
        (s.record (tx.commit link io s.store) entries).history = s.history) ∨
      ∃ a, tx s.store = .ok (a, (s.record (tx.commit link io s.store) entries).store) ∧
        (tx.commit link io s.store).committed = some a ∧
        (s.record (tx.commit link io s.store) entries).history = entries a ++ s.history := by
  rcases tx.commit_cases link io s.store with ⟨hn, hs⟩ | ⟨a, st, ht, hc, hs⟩
  · exact .inl ⟨hn, hs, by simp [record, hn]⟩
  · exact .inr ⟨a, by rw [ht]; simp [record, hs], hc, by simp [record, hc]⟩

end Cluster

/-! ### The API -/

/-- The steps of API calls. -/
inductive ApiAct where
  /-- `Service.Create` up to the end of its insert transaction. -/
  | create (principal : Principal) (req : CreateRequest) (jobID : NewUUID) (eventID : UUID)
      (clock now : Time) (link : Link)
  /-- The lookup of the `n`th rejected create call. -/
  | lookup (n : ℕ) (link : Link)
  /-- The read of an operator call. -/
  | readJob (op : Operation) (tenantID id : UUID) (link : Link)
  /-- The write of the `n`th operator call. -/
  | writeJob (n : ℕ) (eventID : UUID) (now : Time) (link : Link)
  /-- `Service.RequeueDeadLetter`; it reads the clock for `run_at` and for the initial status. -/
  | requeue (tenantID deadLetterID : UUID) (newID : NewUUID) (eventID : UUID)
      (clock clock' now : Time) (link : Link)

/-- One step of an API call. -/
def apiStep (cfg : ServiceConfig) (s : Cluster) : ApiAct → Option Cluster
  | .create principal req jobID eventID clock now link =>
    match cfg.prepare principal req jobID clock with
    | .error _ => some s
    | .ok (call, j) =>
      let o := (create now eventID j).commit link .connection s.store
      let s' := s.record o fun _ => [.created j.id]
      match o.reply with
      | .ok inserted => some (s'.answer call (.ok (call.respond inserted)))
      | .error e =>
        if e.rejectsInsert = true ∧ call.idempotencyKey ≠ none then
          some { s' with lookups := s'.lookups ++ [call] }
        else some (s'.answer call (.error e))
  | .lookup n link =>
    match s.lookups[n]? with
    | none => none
    | some call =>
      match call.idempotencyKey with
      | none => none
      | some idempotencyKey =>
        let o := (getByIdempotencyKey call.tenantID idempotencyKey).commit link .connection s.store
        let s' := { s with lookups := s.lookups.eraseIdx n }
        match o.reply with
        | .error e => some (s'.answer call (.error e))
        | .ok existing => some (s'.answer call ((call.replay existing).map call.respond))
  | .readJob op tenantID id link =>
    match ((getByID tenantID id).commit link .connection s.store).reply with
    | .error _ => some s
    | .ok current =>
      match op.check current with
      | .error _ => some s
      | .ok () => some { s with operators := s.operators ++ [⟨op, tenantID, id⟩] }
  | .writeJob n eventID now link =>
    match s.operators[n]? with
    | none => none
    | some call =>
      let o := (call.op.write now eventID call.tenantID call.id).commit link .connection s.store
      some ({ s with operators := s.operators.eraseIdx n }.record o fun _ =>
        [.transitioned call.id call.op])
  | .requeue tenantID deadLetterID newID eventID clock clock' now link =>
    let o := (requeueDeadLetter now clock' newID.val eventID tenantID deadLetterID clock).commit
      link .connection s.store
    some (s.record o fun _ => [.requeued newID.val deadLetterID])

/-! ### The claim loop -/

/-- The reason the workers pass to the recovery. -/
def leaseExpired : String := "worker lease expired before completion"

/-- The steps of the claim loop of `Run`. -/
inductive LoopAct where
  | recover (x : RecoverArgs) (locked : UUID → Bool) (link : Link)
  | claim (x : ClaimArgs) (locked : UUID → Bool) (link : Link)
  /-- The head of the batch is received by a slot. -/
  | dispatch (i : ℕ)
  /-- The worker's context is cancelled. -/
  | shutdown
  /-- The loop sees the cancellation and returns. -/
  | stop

/-- One step of the claim loop of worker `w`. -/
def loopStep (cfg : WorkerConfig) (s : Cluster) (w : String) : LoopAct → Option Cluster
  | .recover x locked link =>
    match (s.workers w).loop with
    | .dispatching [] =>
      if (s.workers w).Permits link then
        let o := (recoverExpiredRunningJobs { x with reason := leaseExpired } locked).commit
          link .connection s.store
        some ((s.record o fun ids => (ids.map Entry.recovered).reverse).setLoop w .recovered)
      else none
    | _ => none
  | .claim x locked link =>
    match (s.workers w).loop with
    | .recovered =>
      if (s.workers w).Permits link then
        let o := (claimDueJobs { x with workerID := w, lockTTL := cfg.lockTTL } locked cfg.batch).commit
          link .connection s.store
        some ((s.record o fun items => (items.map (Entry.claimed w)).reverse).setLoop w
          (match o.reply with
            | .ok items => .dispatching items
            | .error _ => .dispatching []))
      else none
    | _ => none
  | .dispatch i =>
    match (s.workers w).loop with
    | .dispatching (j :: rest) =>
      match (s.workers w).slots i with
      | .idle =>
        if i < cfg.slots then some ((s.setLoop w (.dispatching rest)).setSlot w i (.received j))
        else none
      | _ => none
    | _ => none
  | .shutdown =>
    if (s.workers w).ctxDone then none
    else some (s.setWorker w
      { s.workers w with ctxDone := true, inFlight := (s.workers w).loop.calling })
  | .stop =>
    match (s.workers w).loop with
    | .dispatching _ => if (s.workers w).ctxDone then some (s.setLoop w .stopped) else none
    | _ => none

/-! ### The slots -/

/-- The steps of a slot. -/
inductive SlotAct where
  | acquire (link : Link)
  | release (now : Time) (link : Link)
  | createAttempt (attemptID : NewUUID) (now : Time) (link : Link)
  /-- `Execute` is called, and `renewLease` started. -/
  | execute
  | extendLease (now : Time) (link : Link)
  | extendLock (link : Link)
  /-- `renewLease` sees its context done. -/
  | stopRenewal
  /-- `Execute` returns. -/
  | finish (result : Except ExecError RawMessage)
  | complete (eventID : UUID) (durationMS : Int) (now : Time) (link : Link)
  | fail (ids : FailureIDs) (durationMS : Int) (clock clock' now : Time) (link : Link)
  | unlock (link : Link)
  /-- `consume` sees the cancelled context. -/
  | exit

/-- One step of slot `i` of worker `w`.  A call of a slot may be under way when the context is cancelled;
nothing here says which of them still get through. -/
def slotStep (cfg : WorkerConfig) (s : Cluster) (w : String) (i : ℕ) : SlotAct → Option Cluster
  | .acquire link =>
    match (s.workers w).slots i with
    | .received j =>
      match cfg.lockManager with
      | .noop => some (s.setSlot w i (.locked j))
      | .redis =>
        let o := (setNX j.id w).commit link .connection s.locks
        some ({ s with locks := o.state }.setSlot w i
          (match o.reply with
            | .ok true => .locked j
            | .ok false => .missed j
            | .error _ => .idle))
    | _ => none
  | .release now link =>
    match (s.workers w).slots i with
    | .missed j =>
      let o := (releaseClaim now j.id w .retryScheduled).commit link .connection s.store
      some ((s.record o fun _ => [.released w j]).setSlot w i .idle)
    | _ => none
  | .createAttempt attemptID now link =>
    match (s.workers w).slots i with
    | .locked j =>
      if j.activeAttemptID = UUID.nil then
        let o := (createAttempt now attemptID.val j.id w (j.retryCount + 1)).commit
          link .connection s.store
        some ((s.record o fun _ => []).setSlot w i
          (match o.reply with
            | .ok a => .locked { j with activeAttemptID := a, attemptNumber := j.retryCount + 1 }
            | .error _ => .finished j))
      else none
    | _ => none
  | .execute =>
    match (s.workers w).slots i with
    | .locked j =>
      if j.activeAttemptID = UUID.nil then none
      else some ({ s with history := .executed w j :: s.history }.setSlot w i
        (.executing j .waiting none))
    | _ => none
  | .extendLease now link =>
    match (s.workers w).slots i with
    | .executing j .waiting result =>
      let o := (extendLease now j.id w (cfg.leaseTTL j)).commit link .connection s.store
      some ((s.record o fun extended => if extended then [.extended w j] else []).setSlot w i
        (match o.reply with
          | .ok true =>
            match cfg.lockManager with
            | .noop => .executing j .waiting result
            | .redis => .executing j .extending result
          | _ => .executing j .stopped result))
    | _ => none
  | .extendLock link =>
    match (s.workers w).slots i with
    | .executing j .extending result =>
      let o := (compareAndExpire j.id w).commit link .connection s.locks
      some ({ s with locks := o.state }.setSlot w i
        (match o.reply with
          | .ok true => .executing j .waiting result
          | _ => .executing j .stopped result))
    | _ => none
  | .stopRenewal =>
    match (s.workers w).slots i with
    | .executing j .waiting result => some (s.setSlot w i (.executing j .stopped result))
    | _ => none
  | .finish result =>
    match (s.workers w).slots i with
    | .executing j renewal none => some (s.setSlot w i (.executing j renewal (some result)))
    | _ => none
  | .complete eventID durationMS now link =>
    match (s.workers w).slots i with
    | .executing j .stopped (some (.ok result)) =>
      let o := (completeExecution now eventID j w durationMS result).commit
        link .connection s.store
      some ((s.record o fun _ => [.completed w j]).setSlot w i (.finished j))
    | _ => none
  | .fail ids durationMS clock clock' now link =>
    match (s.workers w).slots i with
    | .executing j .stopped (some (.error err)) =>
      let f := decideOutcome clock clock' j err
      let o := (failExecution now ids j w durationMS f.outcome f.nextStatus f.nextRetryCount
        f.nextRunAt).commit link .connection s.store
      some ((s.record o fun _ => [.failed w j]).setSlot w i (.finished j))
    | _ => none
  | .unlock link =>
    match (s.workers w).slots i with
    | .finished j =>
      match cfg.lockManager with
      | .noop => some (s.setSlot w i .idle)
      | .redis =>
        let o := (compareAndDelete j.id w).commit link .connection s.locks
        some ({ s with locks := o.state }.setSlot w i .idle)
    | _ => none
  | .exit =>
    match (s.workers w).slots i with
    | .idle => if (s.workers w).ctxDone then some (s.setSlot w i .exited) else none
    | _ => none

/-! ### The system -/

/-- The steps of the system. -/
inductive Act where
  | api (a : ApiAct)
  | loop (w : String) (a : LoopAct)
  | slot (w : String) (i : ℕ) (a : SlotAct)
  /-- A worker process dies and is started again under its id. -/
  | crash (w : String)
  /-- A Redis key reaches its TTL. -/
  | expireLock (jobID : UUID)

/-- One step of the system. -/
def step (cfg : Config) (s : Cluster) : Act → Option Cluster
  | .api a => apiStep cfg.service s a
  | .loop w a => loopStep (cfg.worker w) s w a
  | .slot w i a => slotStep (cfg.worker w) s w i a
  | .crash w => some (s.setWorker w Worker.initial)
  | .expireLock jobID => some { s with locks := Function.update s.locks jobID none }

-- A proof that has `h : step cfg s (.api a) = some s'` rewrites with this before it hands `h` to a
-- lemma about `apiStep`: unification would unfold `apiStep` first.
theorem step_api (cfg : Config) (s : Cluster) (a : ApiAct) :
    step cfg s (.api a) = apiStep cfg.service s a := rfl

/-- The system under a configuration. -/
def cluster (cfg : Config) : TransitionSystem.System Cluster Act := ⟨Cluster.initial, step cfg⟩

/-! ### A small deployment

Two-slot workers with a lease of thirty seconds behind Redis, one job, and the pieces of its runs.
The ids are drawn so that no two coincide. -/

/-- The deployment. -/
def demo : Config where
  service := ⟨3, 30, 300, fun _ => true, fun req => req.name⟩
  worker := fun _ => ⟨2, 10, 30 * second, .redis⟩

namespace Demo

/-- The id `n` as a drawn one; the nil id, which is never drawn, stands for `1`. -/
def drawn (n : UUID) : NewUUID := if h : n = UUID.nil then ⟨1, by decide⟩ else ⟨n, h⟩

/-- The job `1` is created for tenant `7`. -/
def submit : Act :=
  .api (.create ⟨7, "client"⟩ ⟨"report", "CALL_WEBHOOK", "\x7b\x7d", 1, 0, 0, 0, 0, ""⟩
    (drawn 1) 1 10 10 .up)

/-- One poll of worker `w` at a given second: it recovers, then claims under the attempt id `a`. -/
def poll (w : String) (t : Int) (a : UUID) : List Act :=
  [.loop w (.recover ⟨t * second, t * second, "", fun _ => a, fun _ => a + 1000⟩
      (fun _ => false) .up),
    .loop w (.claim ⟨t * second, t * second, fun _ => drawn a, fun _ => a + 2000, "", 0⟩
      (fun _ => false) .up)]

/-- Slot `i` of `w` receives a job and acquires the lock. -/
def lock (w : String) (i : ℕ) : List Act := [.loop w (.dispatch i), .slot w i (.acquire .up)]

/-- Slot `i` of `w` calls the executor. -/
def execute (w : String) (i : ℕ) : List Act := [.slot w i .execute]

/-- The executor of slot `i` of `w` returns and `renewLease` ends. -/
def finish (w : String) (i : ℕ) (result : Except ExecError RawMessage) : List Act :=
  [.slot w i (.finish result), .slot w i .stopRenewal]

/-- Slot `i` of `w` completes its execution. -/
def complete (w : String) (i : ℕ) (t : Int) (eventID : UUID) : List Act :=
  finish w i (.ok "") ++ [.slot w i (.complete eventID 5 (t * second) .up)]

/-- Slot `i` of `w` fails its execution. -/
def fail (w : String) (i : ℕ) (t : Int) (err : ExecError) (eventID : UUID) : List Act :=
  finish w i (.error err) ++
    [.slot w i (.fail ⟨eventID, eventID, eventID + 1⟩ 5 (t * second) (t * second)
      (t * second) .up)]

end Demo

end JobScheduler
