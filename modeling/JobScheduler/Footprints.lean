import JobScheduler.Refinement
import JobScheduler.RowLocks

/-!
# The transactions keep to their locking statements

The lists of statements the row locks are modelled on, against the operations of the repository: an
operation that commits has gone through the locking statements of its call in their order, and each of
them changed only rows it locks.  Inserts come in between; they change no row that is there.

A worker finalizes an attempt of the job it names (`finalization_known`).
-/

namespace JobScheduler

open KeyedTable Transaction TransitionSystem

/-! ### What a statement may change -/

/-- Every row that is there stays as it is, or is locked by the statement. -/
structure Covers (o : Option Stmt) (s s' : Store) : Prop where
  jobs : ∀ r ∈ s.jobs.rows, r ∈ s'.jobs.rows ∨
    ∃ stmt ∈ o, stmt.Targets (fun _ => r.id) (.job r.id)
  attempts : ∀ a ∈ s.attempts.rows, a ∈ s'.attempts.rows ∨
    ∃ stmt ∈ o, stmt.Targets (fun _ => a.jobID) (.attempt a.id)
  deadLetters : ∀ d ∈ s.deadLetters.rows, d ∈ s'.deadLetters.rows ∨
    ∃ stmt ∈ o, stmt.Targets (fun _ => d.id) (.letter d.id)

theorem Covers.refl (o : Option Stmt) (s : Store) : Covers o s s :=
  ⟨fun _ hr => .inl hr, fun _ ha => .inl ha, fun _ hd => .inl hd⟩

theorem covering : Covering Covers where
  refl := Covers.refl none
  trans := by
    intro o s s₁ s₂ h h'
    refine ⟨fun r hr => ?_, fun a ha => ?_, fun d hd => ?_⟩
    · rcases h.jobs r hr with hr | ⟨_, hnone, -⟩
      · exact h'.jobs r hr
      · cases hnone
    · rcases h.attempts a ha with ha | ⟨_, hnone, -⟩
      · exact h'.attempts a ha
      · cases hnone
    · rcases h.deadLetters d hd with hd | ⟨_, hnone, -⟩
      · exact h'.deadLetters d hd
      · cases hnone

/-- The transaction goes through these locking statements. -/
abbrev Locking {α : Type} (tx : RepoTx α) (l : List Stmt) : Prop := Tx.Follows Covers tx l

theorem mem_update_of_not {R K : Type} [Keyed R K] {t : Table R} {p : R → Prop} [DecidablePred p]
    {f : R → R} (hf : ∀ r, key (f r) = key r) {r : R} (hr : r ∈ t.rows) (hp : ¬p r) :
    r ∈ (t.update p f hf).rows :=
  List.mem_map.2 ⟨r, hr, if_neg hp⟩

variable {s s' : Store}

theorem updateJobs_locking {p : JobRow → Prop} [DecidablePred p] {f : JobRow → JobRow}
    {hf : ∀ r, (f r).id = r.id} {id : UUID} (hp : ∀ r, p r → r.id = id) :
    Locking (updateJobs p f hf) [.updateJob id] := by
  refine .single covering fun h => ?_
  obtain ⟨-, rfl⟩ := updateJobs_eq_ok.1 h
  refine ⟨fun r hr => ?_, fun _ ha => .inl ha, fun _ hd => .inl hd⟩
  by_cases hpr : p r
  · exact .inr ⟨_, rfl, congrArg Row.job (hp r hpr)⟩
  · exact .inl (mem_update_of_not hf hr hpr)

theorem updateAttempts_locking {p : Attempt → Prop} [DecidablePred p] {f : Attempt → Attempt}
    {hf : ∀ a, (f a).id = a.id} {stmt : Stmt}
    (hp : ∀ a, p a → stmt.Targets (fun _ => a.jobID) (.attempt a.id)) :
    Locking (updateAttempts p f hf) [stmt] := by
  refine .single covering fun h => ?_
  obtain ⟨-, rfl⟩ := updateAttempts_eq_ok.1 h
  refine ⟨fun _ hr => .inl hr, fun a ha => ?_, fun _ hd => .inl hd⟩
  by_cases hpa : p a
  · exact .inr ⟨_, rfl, hp a hpa⟩
  · exact .inl (mem_update_of_not hf ha hpa)

theorem updateDeadLetters_locking {p : DeadLetterJob → Prop} [DecidablePred p]
    {f : DeadLetterJob → DeadLetterJob} {hf : ∀ d, (f d).id = d.id} {id : UUID}
    (hp : ∀ d, p d → d.id = id) : Locking (updateDeadLetters p f hf) [.updateLetter id] := by
  refine .single covering fun h => ?_
  obtain ⟨-, rfl⟩ := updateDeadLetters_eq_ok.1 h
  refine ⟨fun _ hr => .inl hr, fun _ ha => .inl ha, fun d hd => ?_⟩
  by_cases hpd : p d
  · exact .inr ⟨_, rfl, congrArg Row.letter (hp d hpd)⟩
  · exact .inl (mem_update_of_not hf hd hpd)

/-- A selection with `FOR UPDATE` changes nothing. -/
theorem select_locking {α : Type} (f : Store → α) (stmt : Stmt) : Locking (Tx.read f) [stmt] := by
  refine .single covering fun h => ?_
  obtain ⟨-, rfl⟩ := Tx.read_eq_ok.1 h
  exact Covers.refl _ _

theorem insertJob_locking (r : JobRow) : Locking (insertJob r) [] := by
  refine .quiet fun h => ?_
  obtain ⟨-, jobs, hins, rfl⟩ := insertJob_eq_ok.1 h
  exact ⟨fun _ hr => .inl ((Table.mem_insert hins).2 (.inl hr)), fun _ ha => .inl ha,
    fun _ hd => .inl hd⟩

theorem insertAttempt_locking (a : Attempt) : Locking (insertAttempt a) [] := by
  refine .quiet fun h => ?_
  obtain ⟨attempts, hins, rfl⟩ := insertAttempt_eq_ok.1 h
  exact ⟨fun _ hr => .inl hr, fun _ ha => .inl ((Table.mem_insert hins).2 (.inl ha)),
    fun _ hd => .inl hd⟩

theorem insertDeadLetter_locking (d : DeadLetterJob) : Locking (insertDeadLetter d) [] := by
  refine .quiet fun h => ?_
  obtain ⟨letters, hins, rfl⟩ := insertDeadLetter_eq_ok.1 h
  exact ⟨fun _ hr => .inl hr, fun _ ha => .inl ha,
    fun _ hd => .inl ((Table.mem_insert hins).2 (.inl hd))⟩

theorem insertJobEvent_locking (now : Time) (eventID jobID tenantID : UUID) (eventType : EventType)
    (source : String) (payload : List (String × FieldValue)) :
    Locking (insertJobEvent now eventID jobID tenantID eventType source payload) [] := by
  refine .quiet fun h => ?_
  obtain ⟨-, events, -, rfl⟩ := insertJobEvent_eq_ok.1 h
  exact ⟨fun _ hr => .inl hr, fun _ ha => .inl ha, fun _ hd => .inl hd⟩

/-! ### The operations -/

section

variable (now : Time) (eventID : UUID) (c : ClaimedJob) (w : String) (durationMS : Int)

theorem completeExecution_locking (result : RawMessage) :
    Locking (completeExecution now eventID c w durationMS result)
      (Call.completeExecution c.id c.activeAttemptID).stmts := by
  unfold completeExecution
  refine .next covering (updateJobs_locking fun _ h => h.1) fun n => ?_
  refine .skip covering (.require covering ..) fun _ => ?_
  refine .next covering (updateAttempts_locking fun _ h => congrArg Row.attempt h.1) fun m => ?_
  exact .skip covering (.require covering ..) fun _ => insertJobEvent_locking ..

theorem failExecution_locking (ids : FailureIDs) (outcome : ExecutionResult) (nextStatus : Status)
    (nextRetryCount : Int) (nextRunAt : Time) :
    Locking (failExecution now ids c w durationMS outcome nextStatus nextRetryCount nextRunAt)
      (Call.failExecution c.id c.activeAttemptID).stmts := by
  unfold failExecution
  refine .next covering (updateAttempts_locking fun _ h => congrArg Row.attempt h.1) fun n => ?_
  refine .skip covering (.require covering ..) fun _ => ?_
  refine .skip covering (insertJobEvent_locking ..) fun _ => ?_
  split
  · refine .next covering (updateJobs_locking fun _ h => h.1) fun m => ?_
    refine .skip covering (.require covering ..) fun _ => ?_
    exact .skip covering (insertDeadLetter_locking _) fun _ => insertJobEvent_locking ..
  · refine .next covering (updateJobs_locking fun _ h => h.1) fun m => ?_
    exact .skip covering (.require covering ..) fun _ => insertJobEvent_locking ..

theorem transitionJob_locking (tenantID id : UUID) (allowedFrom : List Status) (target : Status) :
    Locking (transitionJob now eventID tenantID id allowedFrom target)
      (Call.transitionJob id target).stmts := by
  unfold transitionJob
  refine .next covering (updateJobs_locking fun _ h => h.1) fun n => ?_
  refine .skip covering (.require covering ..) fun _ => ?_
  split
  · refine .next covering (updateAttempts_locking fun _ h => h.1) fun m => ?_
    exact insertJobEvent_locking ..
  · exact .skip covering (.pure covering 0) fun _ => insertJobEvent_locking ..

theorem requeueDeadLetter_locking (clock : Time) (newID tenantID deadLetterID : UUID)
    (runAt : Time) :
    Locking (requeueDeadLetter now clock newID eventID tenantID deadLetterID runAt)
      (Call.requeueDeadLetter deadLetterID).stmts := by
  unfold requeueDeadLetter
  refine .next covering (select_locking _ _) fun found => ?_
  refine .skip covering (.orAbort covering ..) fun dl => ?_
  refine .skip covering (insertJob_locking _) fun _ => ?_
  refine .next covering (updateDeadLetters_locking fun _ h => h) fun m => ?_
  exact .skip covering (insertJobEvent_locking ..) fun _ => .pure covering _

/-- The loop body of the recovery, for a job it selected. -/
theorem recoverJob_locking (x : RecoverArgs) (r : JobRow) :
    Locking (recoverJob x r) (Call.recoverExpiredRunningJobs.body r.id) := by
  unfold recoverJob expireAttempts
  refine .next covering (updateAttempts_locking fun _ h => h.1) fun n => ?_
  dsimp only
  split
  · refine .next covering (updateJobs_locking fun _ h => h.1) fun m => ?_
    refine .skip covering (insertDeadLetter_locking _) fun _ => ?_
    exact .skip covering (insertJobEvent_locking ..) fun _ => .pure covering _
  · refine .next covering (updateJobs_locking fun _ h => h.1) fun m => ?_
    exact .skip covering (insertJobEvent_locking ..) fun _ => .pure covering _

theorem claimJob_locking (x : ClaimArgs) (r : JobRow) :
    Locking (claimJob x r) (Call.claimDueJobs.body r.id) := by
  unfold claimJob
  refine .next covering (updateJobs_locking fun _ h => h) fun n => ?_
  refine .skip covering (insertAttempt_locking _) fun _ => ?_
  exact .skip covering (insertJobEvent_locking ..) fun _ => .pure covering _

/-- **The recovery** selects jobs nobody has locked, and goes through the body for each of them. -/
theorem recoverExpiredRunningJobs_locking {x : RecoverArgs} {locked : UUID → Bool} {ids : List UUID}
    (h : recoverExpiredRunningJobs x locked s = .ok (ids, s')) :
    ∃ jobs : List UUID, (∀ j ∈ jobs, locked j = false) ∧
      Chain Covers (.selectJobs :: jobs.flatMap Call.recoverExpiredRunningJobs.body) s s' := by
  obtain ⟨items, s₁, hread, hloop⟩ := Tx.bind_eq_ok.1 h
  obtain ⟨rfl, rfl⟩ := Tx.read_eq_ok.1 hread
  refine ⟨(s.jobs.rows.filter fun r => decide (r.ExpiredAt x.now) && !locked r.id).map fun r => r.id,
    ?_, s, Covers.refl _ s, ?_⟩
  · intro j hj
    obtain ⟨r, hr, rfl⟩ := List.mem_map.1 hj
    have hfree := (Bool.and_eq_true_iff.1 (List.mem_filter.1 hr).2).2
    rwa [Bool.not_eq_true'] at hfree
  · rw [List.flatMap_map]
    exact (Tx.Follows.forEach covering (recoverJob_locking x) _).chain hloop

/-- **The claims** are taken on jobs nobody has locked, one after the other. -/
theorem claimDueJobs_locking {x : ClaimArgs} {locked : UUID → Bool} {batchSize : Int}
    {cs : List ClaimedJob} (h : claimDueJobs x locked batchSize s = .ok (cs, s')) :
    ∃ jobs : List UUID, (∀ j ∈ jobs, locked j = false) ∧
      Chain Covers (.selectJobs :: jobs.flatMap Call.claimDueJobs.body) s s' := by
  obtain ⟨items, s₁, hread, hloop⟩ := Tx.bind_eq_ok.1 h
  obtain ⟨rfl, rfl⟩ := Tx.read_eq_ok.1 hread
  refine ⟨(dueJobs x.now locked batchSize s).map fun r => r.id, ?_, s, Covers.refl _ s, ?_⟩
  · intro j hj
    obtain ⟨r, hr, rfl⟩ := List.mem_map.1 hj
    exact (mem_dueJobs hr).2.2
  · rw [List.flatMap_map]
    exact (Tx.Follows.forEach covering (claimJob_locking x) _).chain hloop

end

/-! ### Finalizing calls -/

/-- The job of the attempt under the key. -/
def Store.jobOf (s : Store) (attemptID : UUID) : UUID :=
  ((s.attempts.find? attemptID).map fun a => a.jobID).getD UUID.nil

/-- What a slot finalizes is an attempt of the job it names. -/
theorem finalization_known {cfg : Config} {s : Cluster} (hs : (cluster cfg).Reachable s) {w : String}
    {i : ℕ} {c : ClaimedJob} (hc : ((s.workers w).slots i).claim? = some c) :
    (Call.completeExecution c.id c.activeAttemptID).Known s.store.jobOf ∧
      (Call.failExecution c.id c.activeAttemptID).Known s.store.jobOf := by
  have hsound := reachable_sound hs
  have hm : .claimed w c ∈ s.history := ((hsound.held w).slot i).claimed hc
  obtain ⟨a, ha, hof⟩ := hsound.log.attempt_of_claimed hm
  have hjob : s.store.jobOf c.activeAttemptID = c.id := by simp [Store.jobOf, ha, hof.jobID]
  exact ⟨hjob, hjob⟩

end JobScheduler
