import JobScheduler.Cluster

/-!
# The steps, read backwards

`apiStep`, `loopStep` and `slotStep` compute the next state.  Here the same steps are relations:
`ApiMove`, `LoopMove` and `SlotMove` have one constructor for each thing that can happen, with the
place it happens in, the place it leads to and what it does to the store, the keys and the history.
Most of what is shown of the steps is shown by cases on these (`apiStep_move`, `loopStep_move`,
`slotStep_move`); `step_slot` says what a step of the whole system can do to one slot, and
`step_control` which steps move a claim loop.
-/

namespace JobScheduler

open Transaction

variable {cfg : WorkerConfig} {s s' : Cluster} {w : String} {i : ℕ}

/-! ### Calls -/

/-- The `RecoverExpiredRunningJobs` call of a poll. -/
def Cluster.recovering (s : Cluster) (x : RecoverArgs) (locked : UUID → Bool) (link : Link) :
    Outcome Store AppError (List UUID) :=
  (recoverExpiredRunningJobs { x with reason := leaseExpired } locked).commit link .connection s.store

/-- The `ClaimDueJobs` call of a poll of worker `w`. -/
def Cluster.claiming (s : Cluster) (cfg : WorkerConfig) (w : String) (x : ClaimArgs)
    (locked : UUID → Bool) (link : Link) : Outcome Store AppError (List ClaimedJob) :=
  (claimDueJobs { x with workerID := w, lockTTL := cfg.lockTTL } locked cfg.batch).commit
    link .connection s.store

/-- The `FailExecution` call of a slot of worker `w`. -/
def Cluster.failing (s : Cluster) (w : String) (ids : FailureIDs) (durationMS : Int)
    (clock clock' now : Time) (link : Link) (j : ClaimedJob) (err : ExecError) :
    Outcome Store AppError Unit :=
  (failExecution now ids j w durationMS (decideOutcome clock clock' j err).outcome
    (decideOutcome clock clock' j err).nextStatus (decideOutcome clock clock' j err).nextRetryCount
    (decideOutcome clock clock' j err).nextRunAt).commit link .connection s.store

/-- The keys of Redis change. -/
def Cluster.withLocks (s : Cluster) (locks : Locks) : Cluster := { s with locks := locks }

/-- The create calls in flight, and the answers given, change. -/
def Cluster.withCalls (s : Cluster) (lookups : List CreateCall)
    (answers : List (CreateCall × Except AppError CreateResponse)) : Cluster :=
  { s with lookups := lookups, answers := answers }

/-- The operator calls in flight change. -/
def Cluster.withOperators (s : Cluster) (operators : List OperatorCall) : Cluster :=
  { s with operators := operators }

/-- `Execute` is called. -/
def Cluster.executing (s : Cluster) (w : String) (j : ClaimedJob) : Cluster :=
  { s with history := .executed w j :: s.history }

/-! ### The API -/

/-- What a step of an API call does to the database; which call waits for what is left open. -/
inductive ApiMove (cfg : ServiceConfig) (s : Cluster) : ApiAct → Cluster → Prop where
  | refused {principal : Principal} {req : CreateRequest} {jobID : NewUUID} {eventID : UUID}
      {clock now : Time} {link : Link} :
      ApiMove cfg s (.create principal req jobID eventID clock now link) s
  | created {principal : Principal} {req : CreateRequest} {jobID : NewUUID} {eventID : UUID}
      {clock now : Time} {link : Link} {call : CreateCall} {j : Job} {lookups : List CreateCall}
      {answers : List (CreateCall × Except AppError CreateResponse)}
      (hp : cfg.prepare principal req jobID clock = .ok (call, j)) :
      ApiMove cfg s (.create principal req jobID eventID clock now link)
        ((s.record ((create now eventID j).commit link .connection s.store) fun _ =>
          [.created j.id]).withCalls lookups answers)
  | looked {n : ℕ} {link : Link} {lookups : List CreateCall}
      {answers : List (CreateCall × Except AppError CreateResponse)} :
      ApiMove cfg s (.lookup n link) (s.withCalls lookups answers)
  | read {op : Operation} {tenantID id : UUID} {link : Link} {operators : List OperatorCall} :
      ApiMove cfg s (.readJob op tenantID id link) (s.withOperators operators)
  | written {n : ℕ} {eventID : UUID} {now : Time} {link : Link} {call : OperatorCall}
      {operators : List OperatorCall} (hcall : s.operators[n]? = some call) :
      ApiMove cfg s (.writeJob n eventID now link)
        ((s.record ((call.op.write now eventID call.tenantID call.id).commit link .connection s.store)
          fun _ => [.transitioned call.id call.op]).withOperators operators)
  | requeued {tenantID deadLetterID : UUID} {newID : NewUUID} {eventID : UUID}
      {clock clock' now : Time} {link : Link} :
      ApiMove cfg s (.requeue tenantID deadLetterID newID eventID clock clock' now link)
        (s.record ((requeueDeadLetter now clock' newID.val eventID tenantID deadLetterID clock).commit
          link .connection s.store) fun _ => [.requeued newID.val deadLetterID])

theorem apiStep_move {cfg : ServiceConfig} {a : ApiAct} (h : apiStep cfg s a = some s') :
    ApiMove cfg s a s' := by
  cases a with
  | create principal req jobID eventID clock now link =>
    simp only [apiStep] at h
    split at h
    · obtain rfl := Option.some.inj h
      exact .refused
    · rename_i call j hp
      split at h
      · obtain rfl := Option.some.inj h
        exact .created hp
      · split at h
        · obtain rfl := Option.some.inj h
          exact .created hp
        · obtain rfl := Option.some.inj h
          exact .created hp
  | lookup n link =>
    simp only [apiStep] at h
    split at h
    · cases h
    · split at h
      · cases h
      · split at h
        · obtain rfl := Option.some.inj h
          exact .looked
        · obtain rfl := Option.some.inj h
          exact .looked
  | readJob op tenantID id link =>
    simp only [apiStep] at h
    split at h
    · obtain rfl := Option.some.inj h
      exact .read
    · split at h
      · obtain rfl := Option.some.inj h
        exact .read
      · obtain rfl := Option.some.inj h
        exact .read
  | writeJob n eventID now link =>
    simp only [apiStep] at h
    split at h
    · cases h
    · rename_i call hcall
      obtain rfl := Option.some.inj h
      exact .written hcall
  | requeue tenantID deadLetterID newID eventID clock clock' now link =>
    obtain rfl := Option.some.inj h
    exact .requeued

theorem ApiMove.workers {cfg : ServiceConfig} {a : ApiAct} (h : ApiMove cfg s a s') :
    s'.workers = s.workers := by
  cases h <;> rfl

/-! ### The claim loop -/

/-- What a step of the claim loop of worker `w` does. -/
inductive LoopMove (cfg : WorkerConfig) (s : Cluster) (w : String) : LoopAct → Cluster → Prop where
  | recovered {x : RecoverArgs} {locked : UUID → Bool} {link : Link}
      (hloop : (s.workers w).loop = .dispatching []) (hlink : (s.workers w).Permits link) :
      LoopMove cfg s w (.recover x locked link)
        ((s.record (s.recovering x locked link) fun ids => (ids.map Entry.recovered).reverse).setLoop w
          .recovered)
  | claimed {x : ClaimArgs} {locked : UUID → Bool} {link : Link} {rest : List ClaimedJob}
      (hloop : (s.workers w).loop = .recovered)
      (hrest : (s.claiming cfg w x locked link).reply = .ok rest ∨
        (∃ e, (s.claiming cfg w x locked link).reply = .error e) ∧ rest = [])
      (hlink : (s.workers w).Permits link) :
      LoopMove cfg s w (.claim x locked link)
        ((s.record (s.claiming cfg w x locked link) fun items =>
          (items.map (Entry.claimed w)).reverse).setLoop w (.dispatching rest))
  | dispatched {i : ℕ} {j : ClaimedJob} {rest : List ClaimedJob}
      (hloop : (s.workers w).loop = .dispatching (j :: rest)) (hslot : (s.workers w).slots i = .idle)
      (hi : i < cfg.slots) :
      LoopMove cfg s w (.dispatch i) ((s.setLoop w (.dispatching rest)).setSlot w i (.received j))
  | shutdown (hctx : (s.workers w).ctxDone = false) :
      LoopMove cfg s w .shutdown (s.setWorker w
        { s.workers w with ctxDone := true, inFlight := (s.workers w).loop.calling })
  | stopped {rest : List ClaimedJob} (hloop : (s.workers w).loop = .dispatching rest)
      (hctx : (s.workers w).ctxDone = true) : LoopMove cfg s w .stop (s.setLoop w .stopped)

theorem loopStep_move {a : LoopAct} (h : loopStep cfg s w a = some s') : LoopMove cfg s w a s' := by
  cases a with
  | recover x locked link =>
    simp only [loopStep] at h
    split at h
    · rename_i hloop
      split at h
      · rename_i hlink
        obtain rfl := Option.some.inj h
        exact .recovered hloop hlink
      · cases h
    · cases h
  | claim x locked link =>
    simp only [loopStep] at h
    split at h
    · rename_i hloop
      split at h
      · rename_i hlink
        obtain rfl := Option.some.inj h
        split
        · rename_i items hreply
          exact .claimed hloop (.inl hreply) hlink
        · rename_i e hreply
          exact .claimed hloop (.inr ⟨⟨e, hreply⟩, rfl⟩) hlink
      · cases h
    · cases h
  | dispatch i =>
    simp only [loopStep] at h
    split at h
    · rename_i j rest hloop
      split at h
      · rename_i hslot
        split at h
        · rename_i hi
          obtain rfl := Option.some.inj h
          exact .dispatched hloop hslot hi
        · cases h
      · cases h
    · cases h
  | shutdown =>
    simp only [loopStep] at h
    split at h
    · cases h
    · rename_i hctx
      obtain rfl := Option.some.inj h
      exact .shutdown (Bool.eq_false_iff.2 hctx)
  | stop =>
    simp only [loopStep] at h
    split at h
    · rename_i rest hloop
      split at h
      · rename_i hctx
        obtain rfl := Option.some.inj h
        exact .stopped hloop hctx
      · cases h
    · cases h

theorem Cluster.setWorker_self (s : Cluster) (w : String) (wk : Worker) :
    (s.setWorker w wk).workers w = wk := by
  simp [setWorker]

theorem Cluster.setWorker_of_ne (s : Cluster) {w w' : String} (hne : w ≠ w') (wk : Worker) :
    (s.setWorker w' wk).workers w = s.workers w := by
  simp [setWorker, hne]

/-- The loop of a worker leaves the other workers alone. -/
theorem LoopMove.workers_of_ne {a : LoopAct} {w' : String} (h : LoopMove cfg s w' a s')
    (hne : w ≠ w') : s'.workers w = s.workers w := by
  cases h with
  | recovered hloop => exact Cluster.setWorker_of_ne _ hne _
  | claimed hloop hrest => exact Cluster.setWorker_of_ne _ hne _
  | dispatched hloop hslot hi =>
    rw [Cluster.setSlot, Cluster.setWorker_of_ne _ hne]
    exact Cluster.setWorker_of_ne _ hne _
  | shutdown => exact Cluster.setWorker_of_ne _ hne _
  | stopped hloop hctx => exact Cluster.setWorker_of_ne _ hne _

/-! ### The slots -/

/-- What a step of a slot of worker `w` does: the phase before, the system but for the slot, and the
phase after. -/
inductive SlotMove (cfg : WorkerConfig) (s : Cluster) (w : String) :
    Phase → SlotAct → Cluster → Phase → Prop where
  | unguarded {j : ClaimedJob} {link : Link} (hm : cfg.lockManager = .noop) :
      SlotMove cfg s w (.received j) (.acquire link) s (.locked j)
  | acquired {j : ClaimedJob} (hm : cfg.lockManager = .redis) (hfree : s.locks j.id = none) :
      SlotMove cfg s w (.received j) (.acquire .up)
        (s.withLocks (Function.update s.locks j.id (some w))) (.locked j)
  | missed {j : ClaimedJob} (hm : cfg.lockManager = .redis) (htaken : s.locks j.id ≠ none) :
      SlotMove cfg s w (.received j) (.acquire .up) s (.missed j)
  | unanswered {j : ClaimedJob} {link : Link} {locks : Locks} (hm : cfg.lockManager = .redis)
      (hlink : link ≠ .up) (hlocks : locks = s.locks ∨
        (s.locks j.id = none ∧ locks = Function.update s.locks j.id (some w))) :
      SlotMove cfg s w (.received j) (.acquire link) (s.withLocks locks) .idle
  | released {j : ClaimedJob} {now : Time} {link : Link} :
      SlotMove cfg s w (.missed j) (.release now link)
        (s.record ((releaseClaim now j.id w .retryScheduled).commit link .connection s.store) fun _ =>
          [.released w j]) .idle
  | attempted {j : ClaimedJob} {attemptID : NewUUID} {now : Time} {link : Link} {phase : Phase}
      (hnil : j.activeAttemptID = UUID.nil) :
      SlotMove cfg s w (.locked j) (.createAttempt attemptID now link)
        (s.record ((createAttempt now attemptID.val j.id w (j.retryCount + 1)).commit
          link .connection s.store) fun _ => []) phase
  | executed {j : ClaimedJob} (hnil : j.activeAttemptID ≠ UUID.nil) :
      SlotMove cfg s w (.locked j) .execute (s.executing w j) (.executing j .waiting none)
  | extended {j : ClaimedJob} {result : Option (Except ExecError RawMessage)} {now : Time}
      {link : Link} {renewal : Renewal} :
      SlotMove cfg s w (.executing j .waiting result) (.extendLease now link)
        (s.record ((extendLease now j.id w (cfg.leaseTTL j)).commit link .connection s.store)
          fun extended => if extended then [.extended w j] else []) (.executing j renewal result)
  | prolonged {j : ClaimedJob} {result : Option (Except ExecError RawMessage)} {link : Link}
      {renewal : Renewal} :
      SlotMove cfg s w (.executing j .extending result) (.extendLock link) s
        (.executing j renewal result)
  | renewalStopped {j : ClaimedJob} {result : Option (Except ExecError RawMessage)} :
      SlotMove cfg s w (.executing j .waiting result) .stopRenewal s (.executing j .stopped result)
  | returned {j : ClaimedJob} {renewal : Renewal} {result : Except ExecError RawMessage} :
      SlotMove cfg s w (.executing j renewal none) (.finish result) s
        (.executing j renewal (some result))
  | completed {j : ClaimedJob} {result : RawMessage} {eventID : UUID} {durationMS : Int} {now : Time}
      {link : Link} :
      SlotMove cfg s w (.executing j .stopped (some (.ok result)))
        (.complete eventID durationMS now link)
        (s.record ((completeExecution now eventID j w durationMS result).commit
          link .connection s.store) fun _ => [.completed w j]) (.finished j)
  | failed {j : ClaimedJob} {err : ExecError} {ids : FailureIDs} {durationMS : Int}
      {clock clock' now : Time} {link : Link} :
      SlotMove cfg s w (.executing j .stopped (some (.error err)))
        (.fail ids durationMS clock clock' now link)
        (s.record (s.failing w ids durationMS clock clock' now link j err) fun _ => [.failed w j])
        (.finished j)
  | unlocked {j : ClaimedJob} {link : Link} {locks : Locks} (hlocks : locks = s.locks ∨
        (s.locks j.id = some w ∧ locks = Function.update s.locks j.id none)) :
      SlotMove cfg s w (.finished j) (.unlock link) (s.withLocks locks) .idle
  | exited (hctx : (s.workers w).ctxDone = true) : SlotMove cfg s w .idle .exit s .exited

theorem setNX_move {j : ClaimedJob} {link : Link} (hm : cfg.lockManager = .redis) :
    SlotMove cfg s w (.received j) (.acquire link)
      (s.withLocks ((setNX j.id w).commit link .connection s.locks).state)
      (match ((setNX j.id w).commit link .connection s.locks).reply with
        | .ok true => .locked j
        | .ok false => .missed j
        | .error _ => .idle) := by
  by_cases hfree : s.locks j.id = none
  · have htx : setNX j.id w s.locks = .ok (true, Function.update s.locks j.id (some w)) := by
      simp [setNX, hfree]
    cases link with
    | up => simpa [Tx.commit, htx] using SlotMove.acquired hm hfree
    | down => exact .unanswered hm (by simp) (.inl rfl)
    | lost =>
      have hmove : SlotMove cfg s w (.received j) (.acquire .lost)
          (s.withLocks (Function.update s.locks j.id (some w))) .idle :=
        .unanswered hm (by simp) (.inr ⟨hfree, rfl⟩)
      simpa [Tx.commit, htx] using hmove
  · have htx : setNX j.id w s.locks = .ok (false, s.locks) := by simp [setNX, hfree]
    cases link with
    | up =>
      have hmove : SlotMove cfg s w (.received j) (.acquire .up) (s.withLocks s.locks) (.missed j) :=
        .missed hm hfree
      simpa [Tx.commit, htx] using hmove
    | down => exact .unanswered hm (by simp) (.inl rfl)
    | lost =>
      have hmove : SlotMove cfg s w (.received j) (.acquire .lost) (s.withLocks s.locks) .idle :=
        .unanswered hm (by simp) (.inl rfl)
      simpa [Tx.commit, htx] using hmove

theorem compareAndDelete_state (j : UUID) (link : Link) :
    ((compareAndDelete j w).commit link .connection s.locks).state = s.locks ∨
      (s.locks j = some w ∧ ((compareAndDelete j w).commit link .connection s.locks).state
        = Function.update s.locks j none) := by
  rcases (compareAndDelete j w).commit_cases link .connection s.locks with ⟨-, hst⟩ | ⟨b, l, ht, -, hst⟩
  · exact .inl hst
  · rw [hst]
    by_cases howner : s.locks j = some w
    · rw [compareAndDelete, if_pos howner] at ht
      exact .inr ⟨howner, (Prod.mk.inj (Except.ok.inj ht)).2.symm⟩
    · rw [compareAndDelete, if_neg howner] at ht
      exact .inl (Prod.mk.inj (Except.ok.inj ht)).2.symm

theorem compareAndExpire_state (j : UUID) (link : Link) :
    ((compareAndExpire j w).commit link .connection s.locks).state = s.locks := by
  cases link <;> rfl

theorem slotStep_move {a : SlotAct} (h : slotStep cfg s w i a = some s') :
    ∃ s₁ phase, SlotMove cfg s w ((s.workers w).slots i) a s₁ phase ∧ s' = s₁.setSlot w i phase := by
  cases a with
  | acquire link =>
    simp only [slotStep] at h
    split at h
    · rename_i j hphase
      rw [hphase]
      split at h
      · rename_i hm
        obtain rfl := Option.some.inj h
        exact ⟨_, _, .unguarded hm, rfl⟩
      · rename_i hm
        obtain rfl := Option.some.inj h
        exact ⟨_, _, setNX_move hm, rfl⟩
    · cases h
  | release now link =>
    simp only [slotStep] at h
    split at h
    · rename_i j hphase
      rw [hphase]
      obtain rfl := Option.some.inj h
      exact ⟨_, _, .released, rfl⟩
    · cases h
  | createAttempt attemptID now link =>
    simp only [slotStep] at h
    split at h
    · rename_i j hphase
      rw [hphase]
      split at h
      · rename_i hnil
        obtain rfl := Option.some.inj h
        exact ⟨_, _, .attempted hnil, rfl⟩
      · cases h
    · cases h
  | execute =>
    simp only [slotStep] at h
    split at h
    · rename_i j hphase
      rw [hphase]
      split at h
      · cases h
      · rename_i hnil
        obtain rfl := Option.some.inj h
        exact ⟨_, _, .executed hnil, rfl⟩
    · cases h
  | extendLease now link =>
    simp only [slotStep] at h
    split at h
    · rename_i j result hphase
      rw [hphase]
      obtain rfl := Option.some.inj h
      split
      · split
        · exact ⟨_, _, .extended, rfl⟩
        · exact ⟨_, _, .extended, rfl⟩
      · exact ⟨_, _, .extended, rfl⟩
    · cases h
  | extendLock link =>
    simp only [slotStep] at h
    split at h
    · rename_i j result hphase
      rw [hphase]
      obtain rfl := Option.some.inj h
      rw [compareAndExpire_state]
      split
      · exact ⟨_, _, .prolonged, rfl⟩
      · exact ⟨_, _, .prolonged, rfl⟩
    · cases h
  | stopRenewal =>
    simp only [slotStep] at h
    split at h
    · rename_i j result hphase
      rw [hphase]
      obtain rfl := Option.some.inj h
      exact ⟨_, _, .renewalStopped, rfl⟩
    · cases h
  | finish result =>
    simp only [slotStep] at h
    split at h
    · rename_i j renewal hphase
      rw [hphase]
      obtain rfl := Option.some.inj h
      exact ⟨_, _, .returned, rfl⟩
    · cases h
  | complete eventID durationMS now link =>
    simp only [slotStep] at h
    split at h
    · rename_i j result hphase
      rw [hphase]
      obtain rfl := Option.some.inj h
      exact ⟨_, _, .completed, rfl⟩
    · cases h
  | fail ids durationMS clock clock' now link =>
    simp only [slotStep] at h
    split at h
    · rename_i j err hphase
      rw [hphase]
      obtain rfl := Option.some.inj h
      exact ⟨_, _, .failed, rfl⟩
    · cases h
  | unlock link =>
    simp only [slotStep] at h
    split at h
    · rename_i j hphase
      rw [hphase]
      split at h
      · obtain rfl := Option.some.inj h
        exact ⟨_, _, .unlocked (.inl rfl), rfl⟩
      · obtain rfl := Option.some.inj h
        exact ⟨_, _, .unlocked (compareAndDelete_state j.id link), rfl⟩
    · cases h
  | exit =>
    simp only [slotStep] at h
    split at h
    · rename_i hphase
      rw [hphase]
      split at h
      · rename_i hctx
        obtain rfl := Option.some.inj h
        exact ⟨_, _, .exited hctx, rfl⟩
      · cases h
    · cases h

/-- A step of a slot changes the memory of its worker in that slot only. -/
theorem SlotMove.workers {phase phase' : Phase} {a : SlotAct} {s₁ : Cluster}
    (h : SlotMove cfg s w phase a s₁ phase') : s₁.workers = s.workers := by
  cases h <;> rfl

/-! ### One slot -/

theorem Cluster.slots_setSlot (s : Cluster) (w : String) (i : ℕ) (phase : Phase) :
    ((s.setSlot w i phase).workers w).slots i = phase := by
  simp [setSlot, setWorker]

theorem Cluster.slots_setSlot_of_ne (s : Cluster) {w w' : String} {i k : ℕ} (phase : Phase)
    (hne : ¬(w' = w ∧ k = i)) :
    ((s.setSlot w i phase).workers w').slots k = (s.workers w').slots k := by
  by_cases hw : w' = w
  · subst hw
    have hk : k ≠ i := fun hk => hne ⟨rfl, hk⟩
    simp [setSlot, setWorker, hk]
  · simp [setSlot, setWorker, hw]

/-- What a step of the system makes of slot `i` of worker `w`. -/
inductive SlotStep (cfg : Config) (s : Cluster) (w : String) (i : ℕ) : Act → Phase → Prop where
  | kept (x : Act) : SlotStep cfg s w i x ((s.workers w).slots i)
  | moved {a : SlotAct} {s₁ : Cluster} {phase : Phase}
      (h : SlotMove (cfg.worker w) s w ((s.workers w).slots i) a s₁ phase) :
      SlotStep cfg s w i (.slot w i a) phase
  | received {j : ClaimedJob} {rest : List ClaimedJob}
      (hloop : (s.workers w).loop = .dispatching (j :: rest)) (hslot : (s.workers w).slots i = .idle) :
      SlotStep cfg s w i (.loop w (.dispatch i)) (.received j)
  | crashed : SlotStep cfg s w i (.crash w) .idle

/-- A step moves a slot, hands it a job or ends its process; it leaves every other slot alone. -/
theorem step_slot {cfg : Config} {x : Act} (h : step cfg s x = some s') (w : String) (i : ℕ) :
    SlotStep cfg s w i x ((s'.workers w).slots i) := by
  have same : ((s'.workers w).slots i) = (s.workers w).slots i →
      SlotStep cfg s w i x ((s'.workers w).slots i) := fun heq => heq ▸ .kept x
  cases x with
  | api a =>
    rw [step_api] at h
    exact same (by rw [(apiStep_move h).workers])
  | loop w' a =>
    by_cases hw : w = w'
    · subst hw
      cases loopStep_move h with
      | recovered hloop => exact same (by simp [Cluster.setLoop, Cluster.setWorker, Cluster.record])
      | claimed hloop hrest => exact same (by simp [Cluster.setLoop, Cluster.setWorker, Cluster.record])
      | @dispatched k j rest hloop hslot hk =>
        by_cases hi : i = k
        · subst hi
          rw [Cluster.slots_setSlot]
          exact .received hloop hslot
        · refine same ?_
          rw [Cluster.slots_setSlot_of_ne _ _ fun heq => hi heq.2]
          simp [Cluster.setLoop, Cluster.setWorker]
      | shutdown => exact same (by simp [Cluster.setWorker])
      | stopped hloop hctx => exact same (by simp [Cluster.setLoop, Cluster.setWorker])
    · exact same (by rw [(loopStep_move h).workers_of_ne hw])
  | slot w' k a =>
    obtain ⟨s₁, phase, hmove, rfl⟩ := slotStep_move h
    by_cases hself : w = w' ∧ i = k
    · obtain ⟨rfl, rfl⟩ := hself
      rw [Cluster.slots_setSlot]
      exact .moved hmove
    · refine same ?_
      rw [Cluster.slots_setSlot_of_ne _ _ hself, hmove.workers]
  | crash w' =>
    obtain rfl := Option.some.inj h
    by_cases hw : w = w'
    · subst hw
      have hidle : ((s.setWorker w Worker.initial).workers w).slots i = .idle := by
        simp [Cluster.setWorker, Worker.initial]
      rw [hidle]
      exact .crashed
    · exact same (by rw [Cluster.setWorker_of_ne _ hw])
  | expireLock id =>
    obtain rfl := Option.some.inj h
    exact same rfl

/-! ### One claim loop -/

/-- Where the claim loop of a worker is, and what its context still lets it do. -/
def Worker.control (wk : Worker) : Loop × Bool × Bool := (wk.loop, wk.ctxDone, wk.inFlight)

/-- Only the loop itself moves the loop, and a crash starts it again. -/
theorem step_control {cfg : Config} {x : Act} (h : step cfg s x = some s')
    (hloop : ∀ a, x ≠ .loop w a) (hcrash : x ≠ .crash w) :
    (s'.workers w).control = (s.workers w).control := by
  cases x with
  | api a =>
    rw [step_api] at h
    rw [(apiStep_move h).workers]
  | loop w' a =>
    have hne : w ≠ w' := fun heq => hloop a (heq ▸ rfl)
    rw [(loopStep_move h).workers_of_ne hne]
  | slot w' k a =>
    obtain ⟨s₁, phase, hmove, rfl⟩ := slotStep_move h
    by_cases hne : w = w'
    · subst hne
      rw [Cluster.setSlot, Cluster.setWorker_self, hmove.workers]
      rfl
    · rw [Cluster.setSlot, s₁.setWorker_of_ne hne, hmove.workers]
  | crash w' =>
    obtain rfl := Option.some.inj h
    have hne : w ≠ w' := fun heq => hcrash (heq ▸ rfl)
    rw [s.setWorker_of_ne hne]
  | expireLock jobID =>
    obtain rfl := Option.some.inj h
    rfl

end JobScheduler
