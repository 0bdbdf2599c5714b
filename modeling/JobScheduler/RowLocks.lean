import JobScheduler.Library.KeyedTable
import JobScheduler.Library.RowLocks
import JobScheduler.Library.TransitionSystem
import JobScheduler.Repository

/-!
# The row locks of the repository's transactions

The transactions of the repository, statement by statement and row by row, as far as PostgreSQL's row
locks go.  An `UPDATE` and a `SELECT … FOR UPDATE` lock the rows their `WHERE` clause selects, one
after the other, and wait for a row another transaction has locked; `SKIP LOCKED` selects free rows
only and never waits; inserts lock nothing another transaction can see.  Locks are kept to the end of
the transaction.

All transactions but one lock a job before its attempts, so a job's row guards whatever they lock
later (`Ordered`).  `FailExecution` locks the attempt first.

* `NoCrossing` — the steps at which a `FailExecution` and another transaction do not get hold of an
  attempt and its job from both ends.
* `lock_order_no_deadlock` — in every run of such steps there is no deadlock.
* `fail_cancel_deadlock` — a failing worker and an operator's cancellation wait for each other.
-/

namespace JobScheduler

open KeyedTable RowLocks TransitionSystem

/-! ### Statements and calls -/

/-- A row that can be locked. -/
inductive Row where
  | job (id : UUID)
  | attempt (id : UUID)
  | letter (id : UUID)
  deriving DecidableEq

/-- A statement that locks rows. -/
inductive Stmt where
  /-- `UPDATE jobs … WHERE id=…`. -/
  | updateJob (id : UUID)
  /-- `UPDATE job_attempts … WHERE id=…`. -/
  | updateAttempt (id : UUID)
  /-- `UPDATE job_attempts … WHERE job_id=… AND status='RUNNING'`. -/
  | updateAttemptsOf (jobID : UUID)
  /-- `SELECT … FROM jobs … FOR UPDATE SKIP LOCKED`. -/
  | selectJobs
  /-- `SELECT … FROM dead_letter_jobs WHERE id=… FOR UPDATE`. -/
  | selectLetter (id : UUID)
  /-- `UPDATE dead_letter_jobs … WHERE id=…`. -/
  | updateLetter (id : UUID)
  deriving DecidableEq

/-- The transactions. -/
inductive Call where
  | completeExecution (jobID attemptID : UUID)
  | failExecution (jobID attemptID : UUID)
  | transitionJob (jobID : UUID) (target : Status)
  | recoverExpiredRunningJobs
  | claimDueJobs
  | requeueDeadLetter (deadLetterID : UUID)
  deriving DecidableEq

/-- The locking statements of a call, in their order. -/
def Call.stmts : Call → List Stmt
  | .completeExecution jobID attemptID => [.updateJob jobID, .updateAttempt attemptID]
  | .failExecution jobID attemptID => [.updateAttempt attemptID, .updateJob jobID]
  | .transitionJob jobID target =>
    .updateJob jobID :: if target = .cancelled then [.updateAttemptsOf jobID] else []
  | .recoverExpiredRunningJobs => [.selectJobs]
  | .claimDueJobs => [.selectJobs]
  | .requeueDeadLetter deadLetterID => [.selectLetter deadLetterID, .updateLetter deadLetterID]

/-- The locking statements of the loop body, for a job the call has selected. -/
def Call.body : Call → UUID → List Stmt
  | .recoverExpiredRunningJobs, jobID => [.updateAttemptsOf jobID, .updateJob jobID]
  | .claimDueJobs, jobID => [.updateJob jobID]
  | .completeExecution _ _, _ => []
  | .failExecution _ _, _ => []
  | .transitionJob _ _, _ => []
  | .requeueDeadLetter _, _ => []

/-- The call locks an attempt before its job. -/
def Call.fails : Call → Bool
  | .failExecution _ _ => true
  | _ => false

/-- The `UPDATE` of several attempts goes on when one of them turns out not to be RUNNING; where a
call names the one attempt, it is rolled back. -/
def Call.sweeps : Call → Bool
  | .transitionJob _ _ => true
  | .recoverExpiredRunningJobs => true
  | _ => false

section Attempts

/-! The job each attempt belongs to; it never changes. -/

variable (jobOf : UUID → UUID)

/-- A worker finalizes an attempt of its job. -/
def Call.Known : Call → Prop
  | .completeExecution jobID attemptID => jobOf attemptID = jobID
  | .failExecution jobID attemptID => jobOf attemptID = jobID
  | _ => True

instance : DecidablePred (Call.Known jobOf)
  | .completeExecution _ _ => inferInstanceAs (Decidable (_ = _))
  | .failExecution _ _ => inferInstanceAs (Decidable (_ = _))
  | .transitionJob _ _ => isTrue trivial
  | .recoverExpiredRunningJobs => isTrue trivial
  | .claimDueJobs => isTrue trivial
  | .requeueDeadLetter _ => isTrue trivial

/-- The rows a statement may lock. -/
def Stmt.Targets : Stmt → Row → Prop
  | .updateJob id, r => r = .job id
  | .updateAttempt id, r => r = .attempt id
  | .updateAttemptsOf jobID, .attempt id => jobOf id = jobID
  | .updateAttemptsOf _, _ => False
  | .selectJobs, _ => False
  | .selectLetter id, r => r = .letter id
  | .updateLetter id, r => r = .letter id

instance (stmt : Stmt) : DecidablePred (stmt.Targets jobOf) := fun r => by
  cases stmt <;> cases r <;> unfold Stmt.Targets <;> infer_instance

/-- The row a transaction that locks jobs first holds when it locks this one. -/
def Row.anchor : Row → Row
  | .job id => .job id
  | .attempt id => .job (jobOf id)
  | .letter id => .letter id

/-- The row such a transaction holds when the statement begins. -/
def Stmt.anchor : Stmt → Option Row
  | .updateJob id => some (.job id)
  | .updateAttempt id => some (.job (jobOf id))
  | .updateAttemptsOf jobID => some (.job jobID)
  | .selectJobs => none
  | .selectLetter id => some (.letter id)
  | .updateLetter id => some (.letter id)

end Attempts

/-- The rows a statement is going to lock; `attempts` are those it finds RUNNING. -/
def Stmt.rows (attempts : List UUID) : Stmt → List Row
  | .updateJob id => [.job id]
  | .updateAttempt id => [.attempt id]
  | .updateAttemptsOf _ => attempts.map .attempt
  | .selectJobs => []
  | .selectLetter id => [.letter id]
  | .updateLetter id => [.letter id]

/-! ### The system -/

/-- A transaction under way; once it is over it has nothing left to do and holds nothing. -/
structure Txn where
  id : ℕ
  call : Call
  /-- The statements that have not begun. -/
  todo : List Stmt
  /-- The rows the current statement still has to lock. -/
  want : List Row
  held : List Row

instance : Keyed Txn ℕ := ⟨fun x => x.id⟩

/-- Move a transaction on. -/
def Txn.move (todo : List Stmt) (want held : List Row) (x : Txn) : Txn :=
  { x with todo := todo, want := want, held := held }

@[simp] theorem Txn.move_id (todo : List Stmt) (want held : List Row) (x : Txn) :
    (x.move todo want held).id = x.id := rfl

/-- The steps of transactions. -/
inductive LockAct where
  | begin (t : ℕ) (call : Call)
  /-- The next statement begins; `attempts` are the RUNNING attempts it finds. -/
  | start (t : ℕ) (attempts : List UUID)
  /-- The selection that skips locked rows. -/
  | select (t : ℕ) (jobs : List UUID)
  /-- The next row is locked. -/
  | lock (t : ℕ)
  /-- The next row turns out not to match any more. -/
  | skip (t : ℕ)
  /-- Commit or rollback, at any point. -/
  | finish (t : ℕ)

/-- Nobody else holds the row. -/
def Free (s : Table Txn) (t : ℕ) (r : Row) : Prop := ∀ y ∈ s.rows, y.id ≠ t → r ∉ y.held

instance (s : Table Txn) (t : ℕ) : DecidablePred (Free s t) :=
  fun _ => inferInstanceAs (Decidable (∀ y ∈ s.rows, _))

/-- One step. -/
def lockStep (jobOf : UUID → UUID) (s : Table Txn) : LockAct → Option (Table Txn)
  | .begin t call => if call.Known jobOf then s.insert ⟨t, call, call.stmts, [], []⟩ else none
  | .start t attempts =>
    match s.find? t with
    | some ⟨_, _, stmt :: todo, [], held⟩ =>
      if stmt ≠ .selectJobs ∧ ∀ r ∈ stmt.rows attempts, stmt.Targets jobOf r then
        some (s.modify t (Txn.move todo (stmt.rows attempts) held) (Txn.move_id todo _ held))
      else none
    | _ => none
  | .select t jobs =>
    match s.find? t with
    | some ⟨_, call, .selectJobs :: todo, [], held⟩ =>
      if ∀ j ∈ jobs, Free s t (.job j) then
        some (s.modify t (Txn.move (jobs.flatMap call.body ++ todo) [] (jobs.map .job ++ held))
          (Txn.move_id _ [] _))
      else none
    | _ => none
  | .lock t =>
    match s.find? t with
    | some ⟨_, _, todo, r :: want, held⟩ =>
      if Free s t r then some (s.modify t (Txn.move todo want (r :: held)) (Txn.move_id todo want _))
      else none
    | _ => none
  | .skip t =>
    match s.find? t with
    | some ⟨_, call, todo, .attempt _ :: want, held⟩ =>
      if call.sweeps then some (s.modify t (Txn.move todo want held) (Txn.move_id todo want held))
      else none
    | _ => none
  | .finish t =>
    match s.find? t with
    | some _ => some (s.modify t (Txn.move [] [] []) (Txn.move_id [] [] []))
    | none => none

/-- The transactions of the repository, over any interleaving. -/
def locking (jobOf : UUID → UUID) : System (Table Txn) LockAct := ⟨Table.empty, lockStep jobOf⟩

/-- Who holds which row, and who asks for which. -/
def lockTable (s : Table Txn) : LockTable Row ℕ where
  Holds t r := ∃ x, s.find? t = some x ∧ r ∈ x.held
  Asks t r := ∃ x, s.find? t = some x ∧ x.want.head? = some r

/-! ### Steps, read backwards -/

section

variable {jobOf : UUID → UUID} {s s' : Table Txn} {x x' y : Txn} {act : LockAct} {r : Row}

/-- What a step does to the transaction it belongs to. -/
inductive TxnMove (jobOf : UUID → UUID) (s : Table Txn) (x : Txn) : LockAct → Txn → Prop where
  | started {stmt : Stmt} {todo : List Stmt} {attempts : List UUID} (htodo : x.todo = stmt :: todo)
      (hwant : x.want = []) (hsel : stmt ≠ .selectJobs)
      (hrows : ∀ r ∈ stmt.rows attempts, stmt.Targets jobOf r) :
      TxnMove jobOf s x (.start x.id attempts) (x.move todo (stmt.rows attempts) x.held)
  | selected {todo : List Stmt} {jobs : List UUID} (htodo : x.todo = .selectJobs :: todo)
      (hwant : x.want = []) (hfree : ∀ j ∈ jobs, Free s x.id (.job j)) :
      TxnMove jobOf s x (.select x.id jobs)
        (x.move (jobs.flatMap x.call.body ++ todo) [] (jobs.map .job ++ x.held))
  | locked {r : Row} {want : List Row} (hwant : x.want = r :: want) (hfree : Free s x.id r) :
      TxnMove jobOf s x (.lock x.id) (x.move x.todo want (r :: x.held))
  | skipped {a : UUID} {want : List Row} (hwant : x.want = .attempt a :: want)
      (hsweeps : x.call.sweeps = true) : TxnMove jobOf s x (.skip x.id) (x.move x.todo want x.held)
  | finished : TxnMove jobOf s x (.finish x.id) (x.move [] [] [])

theorem TxnMove.id_eq (h : TxnMove jobOf s x act x') : x'.id = x.id := by
  cases h <;> rfl

theorem TxnMove.call_eq (h : TxnMove jobOf s x act x') : x'.call = x.call := by
  cases h <;> rfl

/-- One transaction is replaced. -/
def Replaced (s : Table Txn) (x x' : Txn) (s' : Table Txn) : Prop :=
  ∀ y ∈ s'.rows, y = x' ∨ (y ∈ s.rows ∧ y.id ≠ x.id)

theorem replaced_modify {todo : List Stmt} {want held : List Row} (hx : x ∈ s.rows) :
    Replaced s x (x.move todo want held)
      (s.modify x.id (Txn.move todo want held) (Txn.move_id todo want held)) := by
  intro y hy
  rcases Table.mem_update _ _ hy with ⟨hmem, hne⟩ | ⟨x₀, hx₀, hid, rfl⟩
  · exact .inr ⟨hmem, hne⟩
  · rw [s.eq_of_key_eq hx₀ hx hid]
    exact .inl rfl

theorem lockStep_move (h : lockStep jobOf s act = some s') :
    (∃ t call, act = .begin t call ∧ call.Known jobOf ∧
        s.insert ⟨t, call, call.stmts, [], []⟩ = some s') ∨
      ∃ x ∈ s.rows, ∃ x', TxnMove jobOf s x act x' ∧ Replaced s x x' s' := by
  cases act with
  | begin t call =>
    simp only [lockStep] at h
    split at h
    · rename_i hk
      exact .inl ⟨t, call, rfl, hk, h⟩
    · cases h
  | start t attempts =>
    simp only [lockStep] at h
    split at h
    · rename_i id call stmt todo held hx
      obtain ⟨hmem, rfl⟩ := Table.find?_eq_some_iff.1 hx
      split at h
      · rename_i hc
        obtain rfl := Option.some.inj h
        exact .inr ⟨_, hmem, _, .started rfl rfl hc.1 hc.2, replaced_modify hmem⟩
      · cases h
    · cases h
  | select t jobs =>
    simp only [lockStep] at h
    split at h
    · rename_i id call todo held hx
      obtain ⟨hmem, rfl⟩ := Table.find?_eq_some_iff.1 hx
      split at h
      · rename_i hfree
        obtain rfl := Option.some.inj h
        exact .inr ⟨_, hmem, _, .selected rfl rfl hfree, replaced_modify hmem⟩
      · cases h
    · cases h
  | lock t =>
    simp only [lockStep] at h
    split at h
    · rename_i id call todo r want held hx
      obtain ⟨hmem, rfl⟩ := Table.find?_eq_some_iff.1 hx
      split at h
      · rename_i hfree
        obtain rfl := Option.some.inj h
        exact .inr ⟨_, hmem, _, .locked rfl hfree, replaced_modify hmem⟩
      · cases h
    · cases h
  | skip t =>
    simp only [lockStep] at h
    split at h
    · rename_i id call todo a want held hx
      obtain ⟨hmem, rfl⟩ := Table.find?_eq_some_iff.1 hx
      split at h
      · rename_i hsweeps
        obtain rfl := Option.some.inj h
        exact .inr ⟨_, hmem, _, .skipped rfl hsweeps, replaced_modify hmem⟩
      · cases h
    · cases h
  | finish t =>
    simp only [lockStep] at h
    split at h
    · rename_i x hx
      obtain ⟨hmem, rfl⟩ := Table.find?_eq_some_iff.1 hx
      obtain rfl := Option.some.inj h
      exact .inr ⟨x, hmem, _, .finished, replaced_modify hmem⟩
    · cases h

/-! ### Where a transaction is -/

theorem Stmt.Targets.anchor {stmt : Stmt} (h : stmt.Targets jobOf r) :
    stmt.anchor jobOf = some (r.anchor jobOf) := by
  cases stmt with
  | updateAttemptsOf jobID =>
    cases r with
    | attempt id => exact congrArg (fun j => some (Row.job j)) h.symm
    | job id => exact h.elim
    | letter id => exact h.elim
  | selectJobs => exact h.elim
  | updateJob id => rw [show r = .job id from h]; rfl
  | updateAttempt id => rw [show r = .attempt id from h]; rfl
  | selectLetter id => rw [show r = .letter id from h]; rfl
  | updateLetter id => rw [show r = .letter id from h]; rfl

/-- A transaction that locks jobs before attempts: it has not begun to lock, it asks for its first
row, or it holds the anchors of all it holds and is going to ask for. -/
inductive Ordered (jobOf : UUID → UUID) (x : Txn) : Prop where
  | fresh (hheld : x.held = []) (hwant : x.want = []) (htodo : x.todo = x.call.stmts)
  | first {r : Row} (hheld : x.held = []) (hwant : x.want = [r]) (hr : r.anchor jobOf = r)
      (htodo : ∀ stmt ∈ x.todo, stmt.anchor jobOf = some r)
  | running (hheld : ∀ r ∈ x.held, r.anchor jobOf ∈ x.held)
      (hwant : ∀ r ∈ x.want, r.anchor jobOf ∈ x.held)
      (htodo : ∀ stmt ∈ x.todo, ∃ r, stmt.anchor jobOf = some r ∧ r ∈ x.held)

/-- The first statement of a call that locks jobs first. -/
theorem Ordered.begin_stmt (hk : x.call.Known jobOf) (hf : x.call.fails = false) {stmt : Stmt}
    {todo : List Stmt} (hstmts : x.call.stmts = stmt :: todo) (hsel : stmt ≠ .selectJobs)
    (attempts : List UUID) :
    ∃ r, stmt.rows attempts = [r] ∧ r.anchor jobOf = r ∧
      ∀ stmt' ∈ todo, stmt'.anchor jobOf = some r := by
  cases hc : x.call with
  | failExecution jobID attemptID => rw [hc] at hf; cases hf
  | recoverExpiredRunningJobs =>
    rw [hc] at hstmts
    exact absurd (List.cons.inj hstmts).1.symm hsel
  | claimDueJobs =>
    rw [hc] at hstmts
    exact absurd (List.cons.inj hstmts).1.symm hsel
  | completeExecution jobID attemptID =>
    rw [hc] at hstmts hk
    obtain ⟨rfl, rfl⟩ := List.cons.inj hstmts
    refine ⟨.job jobID, rfl, rfl, ?_⟩
    simp only [List.mem_singleton, forall_eq]
    exact congrArg (fun j => some (Row.job j)) hk
  | transitionJob jobID target =>
    rw [hc] at hstmts
    obtain ⟨rfl, rfl⟩ := List.cons.inj hstmts
    refine ⟨.job jobID, rfl, rfl, ?_⟩
    intro stmt' hm
    split at hm
    · obtain rfl := List.mem_singleton.1 hm
      rfl
    · simp at hm
  | requeueDeadLetter deadLetterID =>
    rw [hc] at hstmts
    obtain ⟨rfl, rfl⟩ := List.cons.inj hstmts
    refine ⟨.letter deadLetterID, rfl, rfl, ?_⟩
    simp only [List.mem_singleton, forall_eq]
    rfl

/-- A selection that skips locked rows comes first. -/
theorem Ordered.of_select (ho : Ordered jobOf x) {todo : List Stmt}
    (htodo : x.todo = .selectJobs :: todo) : x.held = [] ∧ x.call.stmts = .selectJobs :: todo := by
  cases ho with
  | fresh hheld hwant hall => exact ⟨hheld, hall.symm.trans htodo⟩
  | first hheld hwant hr hall =>
    have hanchor := hall .selectJobs (by rw [htodo]; exact List.mem_cons_self)
    cases hanchor
  | running hheld hwant hall =>
    obtain ⟨r, hanchor, -⟩ := hall .selectJobs (by rw [htodo]; exact List.mem_cons_self)
    cases hanchor

theorem Call.todo_of_select {call : Call} {todo : List Stmt}
    (h : call.stmts = .selectJobs :: todo) : todo = [] := by
  cases call with
  | recoverExpiredRunningJobs => exact (List.cons.inj h).2.symm
  | claimDueJobs => exact (List.cons.inj h).2.symm
  | completeExecution jobID attemptID => cases (List.cons.inj h).1
  | failExecution jobID attemptID => cases (List.cons.inj h).1
  | transitionJob jobID target => cases (List.cons.inj h).1
  | requeueDeadLetter deadLetterID => cases (List.cons.inj h).1

theorem Call.anchor_of_body {call : Call} {jobID : UUID} {stmt : Stmt} (h : stmt ∈ call.body jobID) :
    stmt.anchor jobOf = some (.job jobID) := by
  cases call with
  | recoverExpiredRunningJobs =>
    rcases List.mem_cons.1 h with rfl | h
    · rfl
    · obtain rfl := List.mem_singleton.1 h
      rfl
  | claimDueJobs =>
    obtain rfl := List.mem_singleton.1 h
    rfl
  | _ => cases h

/-- A transaction that locks jobs first stays one. -/
theorem Ordered.move (ho : Ordered jobOf x) (hk : x.call.Known jobOf) (hf : x.call.fails = false)
    (h : TxnMove jobOf s x act x') : Ordered jobOf x' := by
  cases h with
  | @started stmt todo attempts htodo hwant hsel hrows =>
    cases ho with
    | fresh hheld _ hall =>
      obtain ⟨r, hr, hanchor, hrest⟩ :=
        Ordered.begin_stmt hk hf (hall.symm.trans htodo) hsel attempts
      exact .first hheld hr hanchor hrest
    | first hheld hasks hr hall =>
      rw [hwant] at hasks
      cases hasks
    | running hheld _ hall =>
      rw [htodo] at hall
      obtain ⟨r, hr, hmem⟩ := hall stmt List.mem_cons_self
      refine .running hheld ?_ fun stmt' hm => hall stmt' (List.mem_cons_of_mem _ hm)
      intro r' hr'
      obtain rfl := Option.some.inj (hr.symm.trans (hrows r' hr').anchor)
      exact hmem
  | @selected todo jobs htodo hwant hfree =>
    obtain ⟨hheld, hstmts⟩ := ho.of_select htodo
    obtain rfl := Call.todo_of_select hstmts
    refine .running ?_ (by simp [Txn.move]) ?_
    · intro r hr
      simp only [Txn.move, hheld, List.append_nil] at hr ⊢
      obtain ⟨j, -, rfl⟩ := List.mem_map.1 hr
      exact hr
    · intro stmt hm
      simp only [Txn.move, hheld, List.append_nil] at hm ⊢
      obtain ⟨j, hj, hstmt⟩ := List.mem_flatMap.1 hm
      exact ⟨.job j, Call.anchor_of_body hstmt, List.mem_map_of_mem hj⟩
  | @locked r want hwant hfree =>
    cases ho with
    | fresh hheld hnone _ =>
      rw [hwant] at hnone
      cases hnone
    | @first r' hheld hasks hr hall =>
      obtain ⟨rfl, rfl⟩ := List.cons.inj (hwant.symm.trans hasks)
      refine .running ?_ (by simp [Txn.move]) ?_
      · simp [Txn.move, hheld, hr]
      · intro stmt hm
        exact ⟨r, hall stmt hm, List.mem_cons_self⟩
    | running hheld hasks hall =>
      rw [hwant] at hasks
      refine .running ?_ ?_ ?_
      · intro r' hr'
        rcases List.mem_cons.1 hr' with rfl | hr'
        · exact List.mem_cons_of_mem _ (hasks r' List.mem_cons_self)
        · exact List.mem_cons_of_mem _ (hheld r' hr')
      · intro r' hr'
        exact List.mem_cons_of_mem _ (hasks r' (List.mem_cons_of_mem _ hr'))
      · intro stmt hm
        obtain ⟨r', hanchor, hmem⟩ := hall stmt hm
        exact ⟨r', hanchor, List.mem_cons_of_mem _ hmem⟩
  | @skipped a want hwant hsweeps =>
    cases ho with
    | fresh hheld hnone _ =>
      rw [hwant] at hnone
      cases hnone
    | first hheld hasks hr hall =>
      -- the first row is a job or a dead letter
      obtain ⟨rfl, -⟩ := List.cons.inj (hwant.symm.trans hasks)
      cases hr
    | running hheld hasks hall =>
      rw [hwant] at hasks
      exact .running hheld (fun r' hr' => hasks r' (List.mem_cons_of_mem _ hr')) hall
  | finished => exact .running (by simp [Txn.move]) (by simp [Txn.move]) (by simp [Txn.move])

/-- The stages of `FailExecution`. -/
inductive Failing (jobID attemptID : UUID) (x : Txn) : Prop where
  | begun (hheld : x.held = []) (hwant : x.want = [])
      (htodo : x.todo = [.updateAttempt attemptID, .updateJob jobID])
  | asking (hheld : x.held = []) (hwant : x.want = [.attempt attemptID])
      (htodo : x.todo = [.updateJob jobID])
  | marked (hheld : x.held = [.attempt attemptID]) (hwant : x.want = [])
      (htodo : x.todo = [.updateJob jobID])
  | waiting (hheld : x.held = [.attempt attemptID]) (hwant : x.want = [.job jobID])
      (htodo : x.todo = [])
  | done (hwant : x.want = []) (htodo : x.todo = [])

theorem Failing.move {jobID attemptID : UUID} (hp : Failing jobID attemptID x)
    (hc : x.call = .failExecution jobID attemptID) (h : TxnMove jobOf s x act x') :
    Failing jobID attemptID x' := by
  cases h with
  | @started stmt todo attempts htodo hwant hsel hrows =>
    cases hp with
    | begun hheld _ hall =>
      obtain ⟨rfl, rfl⟩ := List.cons.inj (htodo.symm.trans hall)
      exact .asking hheld rfl rfl
    | asking hheld hasks _ => rw [hwant] at hasks; cases hasks
    | marked hheld _ hall =>
      obtain ⟨rfl, rfl⟩ := List.cons.inj (htodo.symm.trans hall)
      exact .waiting hheld rfl rfl
    | waiting hheld hasks _ => rw [hwant] at hasks; cases hasks
    | done _ hall => rw [htodo] at hall; cases hall
  | @selected todo jobs htodo hwant hfree =>
    cases hp with
    | begun _ _ hall => cases (List.cons.inj (htodo.symm.trans hall)).1
    | asking _ _ hall => cases (List.cons.inj (htodo.symm.trans hall)).1
    | marked _ _ hall => cases (List.cons.inj (htodo.symm.trans hall)).1
    | waiting _ _ hall => rw [htodo] at hall; cases hall
    | done _ hall => rw [htodo] at hall; cases hall
  | @locked r want hwant hfree =>
    cases hp with
    | begun _ hnone _ => rw [hwant] at hnone; cases hnone
    | asking hheld hasks hall =>
      obtain ⟨rfl, rfl⟩ := List.cons.inj (hwant.symm.trans hasks)
      exact .marked (congrArg (List.cons (Row.attempt attemptID)) hheld) rfl hall
    | marked _ hnone _ => rw [hwant] at hnone; cases hnone
    | waiting _ hasks hall =>
      obtain ⟨-, rfl⟩ := List.cons.inj (hwant.symm.trans hasks)
      exact .done rfl hall
    | done hnone _ => rw [hwant] at hnone; cases hnone
  | skipped hwant hsweeps => rw [hc] at hsweeps; cases hsweeps
  | finished => exact .done rfl rfl

theorem Failing.todo_ne_select {jobID attemptID : UUID} {todo : List Stmt}
    (hp : Failing jobID attemptID x) : x.todo ≠ .selectJobs :: todo := by
  cases hp with
  | begun _ _ htodo => rw [htodo]; simp
  | asking _ _ htodo => rw [htodo]; simp
  | marked _ _ htodo => rw [htodo]; simp
  | waiting _ _ htodo => rw [htodo]; simp
  | done _ htodo => rw [htodo]; simp

theorem Call.eq_of_fails {call : Call} (h : call.fails = true) :
    ∃ jobID attemptID, call = .failExecution jobID attemptID := by
  cases call with
  | failExecution jobID attemptID => exact ⟨jobID, attemptID, rfl⟩
  | _ => cases h

/-! ### Crossing -/

/-- The transaction asks for the row, or may still come to ask for it. -/
def Txn.Needs (jobOf : UUID → UUID) (x : Txn) (r : Row) : Prop :=
  r ∈ x.want ∨ ∃ stmt ∈ x.todo, stmt.Targets jobOf r

instance (jobOf : UUID → UUID) (x : Txn) : DecidablePred (x.Needs jobOf) :=
  fun r => inferInstanceAs (Decidable (r ∈ x.want ∨ ∃ stmt ∈ x.todo, stmt.Targets jobOf r))

/-- The row is not locked across: if it is an attempt that a `FailExecution` locks, no transaction
that holds its job still needs it; if it is a job that another transaction locks, no `FailExecution`
holds an attempt of it that the transaction still needs. -/
def NotAcross (jobOf : UUID → UUID) (x : Txn) (r : Row) (y : Txn) : Prop :=
  (x.call.fails = true → y.call.fails = false → r.anchor jobOf ∈ y.held → ¬y.Needs jobOf r) ∧
    (x.call.fails = false → y.call.fails = true →
      ∀ r' ∈ y.held, r'.anchor jobOf = r → ¬x.Needs jobOf r')

/-- The conditions on a step, for locking a row and for selecting jobs. -/
def NoCrossing (jobOf : UUID → UUID) (s : Table Txn) : LockAct → Prop
  | .lock t => ∀ x ∈ s.find? t, ∀ r ∈ x.want.head?, ∀ y ∈ s.rows, NotAcross jobOf x r y
  | .select t jobs => ∀ x ∈ s.find? t, ∀ y ∈ s.rows, y.call.fails = true →
      ∀ r ∈ y.held, ∀ j ∈ jobs, ∀ stmt ∈ x.call.body j, ¬stmt.Targets jobOf r
  | .begin _ _ => True
  | .start _ _ => True
  | .skip _ => True
  | .finish _ => True

/-- What is needed after a step was needed before, or belongs to a job just selected. -/
theorem TxnMove.needs (h : TxnMove jobOf s x act x') (hn : x'.Needs jobOf r) :
    x.Needs jobOf r ∨ ∃ jobs, act = .select x.id jobs ∧
      ∃ j ∈ jobs, ∃ stmt ∈ x.call.body j, stmt.Targets jobOf r := by
  cases h with
  | @started stmt todo attempts htodo hwant hsel hrows =>
    left
    rcases hn with hr | ⟨stmt', hm, ht⟩
    · exact .inr ⟨stmt, by rw [htodo]; exact List.mem_cons_self, hrows r hr⟩
    · exact .inr ⟨stmt', by rw [htodo]; exact List.mem_cons_of_mem _ hm, ht⟩
  | @selected todo jobs htodo hwant hfree =>
    rcases hn with hr | ⟨stmt, hm, ht⟩
    · simp [Txn.move] at hr
    · rcases List.mem_append.1 hm with hm | hm
      · obtain ⟨j, hj, hstmt⟩ := List.mem_flatMap.1 hm
        exact .inr ⟨jobs, rfl, j, hj, stmt, hstmt, ht⟩
      · exact .inl (.inr ⟨stmt, by rw [htodo]; exact List.mem_cons_of_mem _ hm, ht⟩)
  | locked hwant hfree =>
    left
    rcases hn with hr | hstmt
    · exact .inl (by rw [hwant]; exact List.mem_cons_of_mem _ hr)
    · exact .inr hstmt
  | skipped hwant hsweeps =>
    left
    rcases hn with hr | hstmt
    · exact .inl (by rw [hwant]; exact List.mem_cons_of_mem _ hr)
    · exact .inr hstmt
  | finished => simp [Txn.Needs, Txn.move] at hn

/-- What is held after a step was held before, or has just been locked. -/
theorem TxnMove.held (h : TxnMove jobOf s x act x') (hr : r ∈ x'.held) :
    r ∈ x.held ∨ (act = .lock x.id ∧ x.want.head? = some r ∧ Free s x.id r) ∨
      ∃ jobs todo, act = .select x.id jobs ∧ x.want = [] ∧ x.todo = .selectJobs :: todo ∧
        Free s x.id r := by
  cases h with
  | started htodo hwant hsel hrows => exact .inl hr
  | @selected todo jobs htodo hwant hfree =>
    rcases List.mem_append.1 hr with hr | hr
    · obtain ⟨j, hj, rfl⟩ := List.mem_map.1 hr
      exact .inr (.inr ⟨jobs, todo, rfl, hwant, htodo, hfree j hj⟩)
    · exact .inl hr
  | @locked r' want hwant hfree =>
    rcases List.mem_cons.1 hr with rfl | hr
    · exact .inr (.inl ⟨rfl, by rw [hwant]; rfl, hfree⟩)
    · exact .inl hr
  | skipped hwant hsweeps => exact .inl hr
  | finished => simp [Txn.move] at hr

/-! ### The invariant -/

/-- The transactions are where they can be, rows are locked once, and no attempt and its job are
locked across. -/
structure LockSound (jobOf : UUID → UUID) (s : Table Txn) : Prop where
  known : ∀ x ∈ s.rows, x.call.Known jobOf
  exclusive : ∀ x ∈ s.rows, ∀ y ∈ s.rows, ∀ r ∈ x.held, r ∈ y.held → x.id = y.id
  ordered : ∀ x ∈ s.rows, x.call.fails = false → Ordered jobOf x
  failing : ∀ x ∈ s.rows, ∀ jobID attemptID, x.call = .failExecution jobID attemptID →
    Failing jobID attemptID x
  uncrossed : ∀ f ∈ s.rows, ∀ y ∈ s.rows, f.call.fails = true → y.call.fails = false →
    ∀ r ∈ f.held, r.anchor jobOf ∈ y.held → ¬y.Needs jobOf r

theorem LockSound.begin {t : ℕ} {call : Call} (hs : LockSound jobOf s) (hk : call.Known jobOf)
    (h : s.insert ⟨t, call, call.stmts, [], []⟩ = some s') : LockSound jobOf s' := by
  have hmem : ∀ {x}, x ∈ s'.rows ↔ x ∈ s.rows ∨ x = ⟨t, call, call.stmts, [], []⟩ :=
    Table.mem_insert h
  refine ⟨?_, ?_, ?_, ?_, ?_⟩
  · intro x hx
    rcases hmem.1 hx with hx | rfl
    · exact hs.known x hx
    · exact hk
  · intro x hx y hy r hr hr'
    rcases hmem.1 hx with hx | rfl
    · rcases hmem.1 hy with hy | rfl
      · exact hs.exclusive x hx y hy r hr hr'
      · simp at hr'
    · simp at hr
  · intro x hx hf
    rcases hmem.1 hx with hx | rfl
    · exact hs.ordered x hx hf
    · exact .fresh rfl rfl rfl
  · intro x hx jobID attemptID hc
    rcases hmem.1 hx with hx | rfl
    · exact hs.failing x hx jobID attemptID hc
    · have hc : call = .failExecution jobID attemptID := hc
      exact .begun rfl rfl (by rw [hc]; rfl)
  · intro f hf y hy hff hyf r hr hanchor
    rcases hmem.1 hf with hf | rfl
    · rcases hmem.1 hy with hy | rfl
      · exact hs.uncrossed f hf y hy hff hyf r hr hanchor
      · simp at hanchor
    · simp at hr

/-- A row that was just locked is held by nobody else. -/
theorem LockSound.exclusive_move (hs : LockSound jobOf s) (hx : x ∈ s.rows)
    (h : TxnMove jobOf s x act x') (hy : y ∈ s.rows) (hne : y.id ≠ x.id) (hr : r ∈ x'.held) :
    r ∉ y.held := by
  intro hr'
  rcases h.held hr with hold | ⟨-, -, hfree⟩ | ⟨_, _, -, -, -, hfree⟩
  · exact hne (hs.exclusive x hx y hy r hold hr').symm
  · exact hfree y hy hne hr'
  · exact hfree y hy hne hr'

/-- A moved `FailExecution` does not cross another transaction. -/
theorem LockSound.fail_uncrossed (hs : LockSound jobOf s) (hx : x ∈ s.rows)
    (hc : NoCrossing jobOf s act) (h : TxnMove jobOf s x act x') (hf : x.call.fails = true)
    (hy : y ∈ s.rows) (hyf : y.call.fails = false) (hr : r ∈ x'.held)
    (hanchor : r.anchor jobOf ∈ y.held) : ¬y.Needs jobOf r := by
  have hfind : s.find? x.id = some x := Table.find?_key hx
  rcases h.held hr with hold | ⟨rfl, hwant, -⟩ | ⟨jobs, todo, rfl, -, htodo, -⟩
  · exact hs.uncrossed x hx y hy hf hyf r hold hanchor
  · exact (hc x hfind r hwant y hy).1 hf hyf hanchor
  · -- `FailExecution` selects nothing
    obtain ⟨jobID, attemptID, hcall⟩ := Call.eq_of_fails hf
    exact absurd htodo (hs.failing x hx jobID attemptID hcall).todo_ne_select

/-- A moved transaction of the others does not cross a `FailExecution`. -/
theorem LockSound.ordered_uncrossed (hs : LockSound jobOf s) (hx : x ∈ s.rows)
    (hc : NoCrossing jobOf s act) (h : TxnMove jobOf s x act x') (hf : x.call.fails = false)
    (hy : y ∈ s.rows) (hyf : y.call.fails = true) (hr : r ∈ y.held)
    (hanchor : r.anchor jobOf ∈ x'.held) : ¬x'.Needs jobOf r := by
  have hfind : s.find? x.id = some x := Table.find?_key hx
  intro hn
  rcases h.needs hn with hn | ⟨jobs, rfl, j, hj, stmt, hstmt, ht⟩
  · rcases h.held hanchor with hold | ⟨rfl, hwant, -⟩ | ⟨jobs, todo, rfl, hwant, htodo, -⟩
    · exact hs.uncrossed y hy x hx hyf hf r hr hold hn
    · exact (hc x hfind _ hwant y hy).2 hf hyf r hr rfl hn
    · -- before the selection nothing but the selection is needed
      obtain rfl := Call.todo_of_select ((hs.ordered x hx hf).of_select htodo).2
      rcases hn with hw | ⟨stmt, hm, ht⟩
      · rw [hwant] at hw
        simp at hw
      · rw [htodo] at hm
        obtain rfl := List.mem_singleton.1 hm
        exact ht
  · exact hc x hfind y hy hyf r hr j hj stmt hstmt ht

theorem LockSound.move (hs : LockSound jobOf s) (hx : x ∈ s.rows) (hc : NoCrossing jobOf s act)
    (h : TxnMove jobOf s x act x') (hs' : Replaced s x x' s') : LockSound jobOf s' := by
  have hcall := h.call_eq
  refine ⟨?_, ?_, ?_, ?_, ?_⟩
  · intro y hy
    rcases hs' y hy with rfl | ⟨hy, -⟩
    · rw [hcall]
      exact hs.known x hx
    · exact hs.known y hy
  · intro y hy z hz r hr hr'
    rcases hs' y hy with rfl | ⟨hy, hyne⟩
    · rcases hs' z hz with rfl | ⟨hz, hzne⟩
      · rfl
      · exact absurd hr' (hs.exclusive_move hx h hz hzne hr)
    · rcases hs' z hz with rfl | ⟨hz, hzne⟩
      · exact absurd hr (hs.exclusive_move hx h hy hyne hr')
      · exact hs.exclusive y hy z hz r hr hr'
  · intro y hy hf
    rcases hs' y hy with rfl | ⟨hy, -⟩
    · rw [hcall] at hf
      exact (hs.ordered x hx hf).move (hs.known x hx) hf h
    · exact hs.ordered y hy hf
  · intro y hy jobID attemptID hfail
    rcases hs' y hy with rfl | ⟨hy, -⟩
    · rw [hcall] at hfail
      exact (hs.failing x hx jobID attemptID hfail).move hfail h
    · exact hs.failing y hy jobID attemptID hfail
  · intro f hf y hy hff hyf r hr hanchor
    rcases hs' f hf with rfl | ⟨hf, -⟩
    · rcases hs' y hy with rfl | ⟨hy, -⟩
      · rw [hff] at hyf
        cases hyf
      · rw [hcall] at hff
        exact hs.fail_uncrossed hx hc h hff hy hyf hr hanchor
    · rcases hs' y hy with rfl | ⟨hy, -⟩
      · rw [hcall] at hyf
        exact hs.ordered_uncrossed hx hc h hyf hf hff hr hanchor
      · exact hs.uncrossed f hf y hy hff hyf r hr hanchor

/-- **Run lemma.** -/
theorem lockSound_always {acts : List LockAct}
    (h : (locking jobOf).EachStep (NoCrossing jobOf) acts) :
    (locking jobOf).Always (LockSound jobOf) acts := by
  refine System.always_of_eachStep ?_ ?_ h
  · constructor <;> simp [locking, Table.empty]
  · intro s act s' _ hs hc hstep
    rcases lockStep_move hstep with ⟨t, call, rfl, hk, hins⟩ | ⟨x, hx, x', hmove, hs'⟩
    · exact hs.begin hk hins
    · exact hs.move hx hc hmove hs'

/-! ### Waiting -/

theorem LockSound.lockTable_exclusive (hs : LockSound jobOf s) : (lockTable s).Exclusive := by
  rintro r t t' ⟨x, hx, hr⟩ ⟨y, hy, hr'⟩
  obtain ⟨hxm, rfl⟩ := Table.find?_eq_some_iff.1 hx
  obtain ⟨hym, rfl⟩ := Table.find?_eq_some_iff.1 hy
  exact hs.exclusive x hxm y hym r hr hr'

theorem Ordered.running_of_held (ho : Ordered jobOf x) (hr : r ∈ x.held) :
    (∀ r ∈ x.held, r.anchor jobOf ∈ x.held) ∧ ∀ r ∈ x.want, r.anchor jobOf ∈ x.held := by
  cases ho with
  | fresh hheld _ _ => rw [hheld] at hr; simp at hr
  | first hheld _ _ _ => rw [hheld] at hr; simp at hr
  | running hheld hwant _ => exact ⟨hheld, hwant⟩

/-- A transaction that locks jobs first and holds something does not wait. -/
theorem LockSound.ordered_not_waiting (hs : LockSound jobOf s) (hx : x ∈ s.rows)
    (hf : x.call.fails = false) (hr : r ∈ x.held) (t : ℕ) : ¬(lockTable s).WaitsFor x.id t := by
  rintro ⟨hne, r', ⟨x₀, hx₀, hasks⟩, y, hy, hheld⟩
  obtain rfl := Option.some.inj (hx₀.symm.trans (Table.find?_key hx))
  obtain ⟨hym, rfl⟩ := Table.find?_eq_some_iff.1 hy
  have hwant : r' ∈ x₀.want := List.mem_of_mem_head? hasks
  have hanchor := ((hs.ordered x₀ hx hf).running_of_held hr).2 r' hwant
  cases hyf : y.call.fails with
  | true => exact hs.uncrossed y hym x₀ hx hyf hf r' hheld hanchor (.inl hwant)
  | false =>
    have hyanchor : (lockTable s).Anchored (Row.anchor jobOf) y.id := by
      rintro r'' ⟨y₀, hy₀, hr''⟩
      obtain rfl := Option.some.inj (hy₀.symm.trans hy)
      exact ⟨y₀, hy₀, ((hs.ordered y₀ hym hyf).running_of_held hr'').1 r'' hr''⟩
    exact hs.lockTable_exclusive.not_held_of_anchored ⟨x₀, hx₀, hanchor⟩ hyanchor hne ⟨y, hy, hheld⟩

theorem LockSound.not_deadlocked (hs : LockSound jobOf s) : ¬(lockTable s).Deadlocked := by
  refine LockTable.not_deadlocked ?_
  rintro t r t' ⟨x, hx, hr⟩ hwait t''
  obtain ⟨hxm, rfl⟩ := Table.find?_eq_some_iff.1 hx
  cases hf : x.call.fails with
  | false => exact absurd hwait (hs.ordered_not_waiting hxm hf hr t')
  | true =>
    -- a `FailExecution` that holds its attempt asks for the job, whose holder has all it needs
    obtain ⟨hne, r', ⟨x₀, hx₀, hasks⟩, y, hy, hheld⟩ := hwait
    obtain rfl := Option.some.inj (hx₀.symm.trans hx)
    obtain ⟨hym, rfl⟩ := Table.find?_eq_some_iff.1 hy
    obtain ⟨jobID, attemptID, hcall⟩ := Call.eq_of_fails hf
    obtain rfl : r' = .job jobID := by
      cases hs.failing x₀ hxm jobID attemptID hcall with
      | begun hnone _ _ => rw [hnone] at hr; simp at hr
      | asking hnone _ _ => rw [hnone] at hr; simp at hr
      | marked _ hwant _ => rw [hwant] at hasks; cases hasks
      | waiting _ hwant _ => rw [hwant] at hasks; exact (Option.some.inj hasks).symm
      | done hwant _ => rw [hwant] at hasks; cases hasks
    cases hyf : y.call.fails with
    | false => exact hs.ordered_not_waiting hym hyf hheld t''
    | true =>
      rintro ⟨-, r'', ⟨y₀, hy₀, hasks'⟩, -⟩
      obtain rfl := Option.some.inj (hy₀.symm.trans hy)
      obtain ⟨jobID', attemptID', hcall'⟩ := Call.eq_of_fails hyf
      cases hs.failing y₀ hym jobID' attemptID' hcall' with
      | begun hnone _ _ => rw [hnone] at hheld; simp at hheld
      | asking hnone _ _ => rw [hnone] at hheld; simp at hheld
      | marked hone _ _ => rw [hone] at hheld; simp at hheld
      | waiting hone _ _ => rw [hone] at hheld; simp at hheld
      | done hwant _ => rw [hwant] at hasks'; cases hasks'

end

/-- **No deadlock** in any interleaving of the transactions in which no attempt and its job are locked
across. -/
theorem lock_order_no_deadlock (jobOf : UUID → UUID) (acts : List LockAct)
    (h : (locking jobOf).EachStep (NoCrossing jobOf) acts) :
    (locking jobOf).Always (fun s => ¬(lockTable s).Deadlocked) acts :=
  fun pre s hp hs => (lockSound_always h pre s hp hs).not_deadlocked

instance (jobOf : UUID → UUID) (x : Txn) (r : Row) (y : Txn) : Decidable (NotAcross jobOf x r y) :=
  inferInstanceAs (Decidable (_ ∧ _))

instance (jobOf : UUID → UUID) (s : Table Txn) : DecidablePred (NoCrossing jobOf s)
  | .lock t => Option.decidableForallMem (s.find? t)
  | .select t _ => Option.decidableForallMem (s.find? t)
  | .begin _ _ => isTrue trivial
  | .start _ _ => isTrue trivial
  | .skip _ => isTrue trivial
  | .finish _ => isTrue trivial

theorem waitsFor_of_find? {s : Table Txn} {t t' : ℕ} {r : Row} (hne : t ≠ t')
    (hasks : (s.find? t).bind (fun x => x.want.head?) = some r)
    (hheld : ((s.find? t').any fun y => decide (r ∈ y.held)) = true) :
    (lockTable s).WaitsFor t t' := by
  obtain ⟨x, hx, hhead⟩ := Option.bind_eq_some_iff.1 hasks
  obtain ⟨y, hy, hr⟩ := (Option.any_eq_true _ _).1 hheld
  exact ⟨hne, r, ⟨x, hx, hhead⟩, y, hy, of_decide_eq_true hr⟩

namespace Demo

/-- All attempts belong to the job `1`. -/
def oneJob : UUID → UUID := fun _ => 1

/-- An execution has failed and locked both rows; the cancellation of its job waits. -/
def cancelWaits : List LockAct :=
  [.begin 0 (.failExecution 1 11), .start 0 [], .lock 0, .start 0 [], .lock 0,
    .begin 1 (.transitionJob 1 .cancelled), .start 1 []]

/-- An execution has failed and locked its attempt; the cancellation of its job locks the job and
comes to the attempt, and the failure to the job. -/
def failMeetsCancel : List LockAct :=
  [.begin 0 (.failExecution 1 11), .start 0 [], .lock 0,
    .begin 1 (.transitionJob 1 .cancelled), .start 1 [], .lock 1, .start 1 [11], .start 0 []]

end Demo

theorem lock_order_no_deadlock_cancelWaits :
    ∃ s, (locking Demo.oneJob).exec Demo.cancelWaits = some s ∧ (lockTable s).WaitsFor 1 0 ∧
      ¬(lockTable s).Deadlocked := by
  have hacts : (locking Demo.oneJob).EachStep (NoCrossing Demo.oneJob) Demo.cancelWaits :=
    System.eachStep_of_check (by decide +kernel)
  obtain ⟨s, hs, hasks, hheld⟩ :
      ∃ s, (locking Demo.oneJob).exec Demo.cancelWaits = some s ∧
        (s.find? 1).bind (fun x => x.want.head?) = some (.job 1) ∧
        ((s.find? 0).any fun y => decide (.job 1 ∈ y.held)) = true :=
    System.exists_of_exec (by decide +kernel)
  exact ⟨s, hs, waitsFor_of_find? (by decide) hasks hheld,
    (lock_order_no_deadlock Demo.oneJob Demo.cancelWaits hacts).last hs⟩

/-- `FailExecution` holds the attempt and waits for the job, `TransitionJob` holds the job and waits
for the attempt. -/
theorem fail_cancel_deadlock :
    ∃ s, (locking Demo.oneJob).exec Demo.failMeetsCancel = some s ∧ (lockTable s).Deadlocked := by
  obtain ⟨s, hs, hasks, hheld, hasks', hheld'⟩ :
      ∃ s, (locking Demo.oneJob).exec Demo.failMeetsCancel = some s ∧
        (s.find? 0).bind (fun x => x.want.head?) = some (.job 1) ∧
        ((s.find? 1).any fun y => decide (.job 1 ∈ y.held)) = true ∧
        (s.find? 1).bind (fun x => x.want.head?) = some (.attempt 11) ∧
        ((s.find? 0).any fun y => decide (.attempt 11 ∈ y.held)) = true :=
    System.exists_of_exec (by decide +kernel)
  have hfail : (lockTable s).WaitsFor 0 1 := waitsFor_of_find? (by decide) hasks hheld
  have hcancel : (lockTable s).WaitsFor 1 0 := waitsFor_of_find? (by decide) hasks' hheld'
  exact ⟨s, hs, 0, .tail (.single hfail) hcancel⟩

end JobScheduler
