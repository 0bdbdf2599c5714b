import JobScheduler.Backoff
import JobScheduler.Shutdown
import JobScheduler.Timing
import Mathlib.Data.Set.Card

/-!
# The backlog can always be worked off

Whatever the workers have done so far, whoever died holding which claim, lease or lock: once the leases
are over, one restarted worker finishes every job that is neither final nor paused in its ordinary polls,
without an operator and without the others.

* `forEach_commits` — the loops of a recovery and of a claim get through when the ids they draw are not
  in use, and use no others (`recoverJob_commits`, `claimJob_commits`).
* `Takes` — what a list of steps does to all that one worker sees of the system, step by step
  (`takes_recover`, …, `takes_unlock`).
* `Continues` — a run of one worker alone; `sweep_spec`, `claimStep_spec`, `batch_spec` are its parts: a
  recovery that frees every RUNNING job, a claim, and the execution of its batch.
* `drain_spec` — each poll at a time when all waiting jobs are due leaves fewer of them.
* `backlog_drainable` — so the run exists from every reachable state.
-/

namespace JobScheduler

open KeyedTable Transaction TransitionSystem

variable {cfg : Config} {s s' : Cluster} {st st' : Store} {w : String} {k : UUID} {r : JobRow}

/-! ### Ids that are not in use -/

/-- The id is not in use. -/
structure Store.Unused (st : Store) (u : UUID) : Prop where
  attempts : st.attempts.find? u = none
  deadLetters : st.deadLetters.find? u = none
  events : st.events.find? u = none

instance (st : Store) (u : UUID) : Decidable (st.Unused u) :=
  decidable_of_iff (st.attempts.find? u = none ∧ st.deadLetters.find? u = none ∧
    st.events.find? u = none) ⟨fun h => ⟨h.1, h.2.1, h.2.2⟩, fun h => ⟨h.1, h.2, h.3⟩⟩

theorem Claims.unused {x : ClaimArgs} {u : UUID} (h : Claims x r st st') (hu : st.Unused u)
    (hattempt : u ≠ (x.attemptID r.id).val) (hevent : u ≠ x.eventID r.id) : st'.Unused u := by
  obtain ⟨payload, hevents⟩ := h.events
  refine ⟨?_, ?_, Table.find?_eq_none_of_append hevents hu.events hevent.symm⟩
  · rw [Table.find?_insert h.attempts]
    exact (if_neg hattempt).trans hu.attempts
  · rw [h.deadLetters]
    exact hu.deadLetters

theorem Recovers.unused {x : RecoverArgs} {u : UUID} (h : Recovers x r st st') (hu : st.Unused u)
    (hletters : st'.deadLetters.find? u = none) (hevent : u ≠ x.eventID r.id) : st'.Unused u := by
  obtain ⟨payload, hevents⟩ := h.events
  refine ⟨?_, hletters, Table.find?_eq_none_of_append hevents hu.events hevent.symm⟩
  rw [h.attempts, Table.find?_update, hu.attempts, Option.map_none]

theorem Completes.unused {now : Time} {durationMS : Int} {result : RawMessage} {c : ClaimedJob}
    {a : Attempt} {u : UUID} (h : Completes now durationMS result w c r a st st') (hu : st.Unused u)
    (hevents : st'.events.find? u = none) : st'.Unused u := by
  refine ⟨?_, ?_, hevents⟩
  · rw [h.attempts, Table.find?_modify, hu.attempts]
    split <;> rfl
  · rw [h.deadLetters]
    exact hu.deadLetters

/-! ### Loops that get through -/

/-- The rows a loop has left, each with an id drawn for it: the ids are distinct, not in use and none of
those to `keep`. -/
structure Supplied (draw : UUID → UUID) (guard : JobRow → Store → Prop) (keep : UUID → Prop)
    (items : List JobRow) (st : Store) : Prop where
  nodup : (items.map fun r => r.id).Nodup
  distinct : ∀ r ∈ items, ∀ r' ∈ items, draw r.id = draw r'.id → r.id = r'.id
  spared : ∀ r ∈ items, ¬keep (draw r.id)
  unused : ∀ r ∈ items, st.Unused (draw r.id)
  guarded : ∀ r ∈ items, guard r st
  kept : ∀ u, keep u → st.Unused u

theorem forEach_commits {β : Type} {f : JobRow → RepoTx β} {draw : UUID → UUID}
    {guard : JobRow → Store → Prop} {keep : UUID → Prop}
    (hf : ∀ r st, guard r st → st.Unused (draw r.id) → (f r).Commits st fun _ st' =>
      (∀ u ≠ draw r.id, st.Unused u → st'.Unused u) ∧
        ∀ r', r'.id ≠ r.id → guard r' st → guard r' st')
    {items : List JobRow} (h : Supplied draw guard keep items st) :
    (Tx.forEach f items).Commits st fun _ st' => ∀ u, keep u → st'.Unused u := by
  refine (Tx.Commits.forEach (I := Supplied draw guard keep) ?_ h).mono fun _ _ h' => h'.kept
  intro r rest st h
  have hmem : ∀ {r'}, r' ∈ rest → r' ∈ r :: rest := List.mem_cons_of_mem _
  have hnodup := h.nodup
  rw [List.map_cons, List.nodup_cons] at hnodup
  have hne : ∀ r' ∈ rest, r'.id ≠ r.id := fun r' hr' he => hnodup.1 (he ▸ List.mem_map_of_mem hr')
  refine (hf r st (h.guarded r List.mem_cons_self) (h.unused r List.mem_cons_self)).mono ?_
  rintro - st' ⟨hspare, hguard⟩
  refine ⟨hnodup.2, fun r₁ h₁ r₂ h₂ => h.distinct r₁ (hmem h₁) r₂ (hmem h₂),
    fun r' hr' => h.spared r' (hmem hr'), fun r' hr' => ?_,
    fun r' hr' => hguard r' (hne r' hr') (h.guarded r' (hmem hr')), fun u hu => ?_⟩
  · refine hspare _ (fun he => hne r' hr' ?_) (h.unused r' (hmem hr'))
    exact h.distinct r' (hmem hr') r List.mem_cons_self he
  · exact hspare u (fun he => h.spared r List.mem_cons_self (he ▸ hu)) (h.kept u hu)

theorem insertAttempt_commits {a : Attempt} (ha : st.attempts.find? a.id = none) :
    (insertAttempt a).Commits st fun _ st' => st'.events = st.events := by
  obtain ⟨attempts, hins⟩ := Table.exists_insert (r := a) ha
  exact ⟨(), _, insertAttempt_eq_ok.2 ⟨attempts, hins, rfl⟩, rfl⟩

theorem claimJob_commits {x : ClaimArgs} {u : UUID} (hattempt : (x.attemptID r.id).val = u)
    (hevent : x.eventID r.id = u) (hu : st.Unused u) :
    (claimJob x r).Commits st fun _ st' => ∀ v ≠ u, st.Unused v → st'.Unused v := by
  have hcommits : (claimJob x r).Commits st fun _ _ => True := by
    refine .bind (updateJobs_commits _ _ _ st) ?_
    rintro n st₁ ⟨-, hattempts, -, hevents⟩
    have hfree : st₁.attempts.find? (x.attempt r).id = none := by
      have hid : (x.attempt r).id = u := hattempt
      rw [hattempts, hid]
      exact hu.attempts
    refine .bind (insertAttempt_commits hfree) ?_
    rintro - st₂ hevents₂
    have hfree₂ : st₂.events.find? (x.eventID r.id) = none := by
      rw [hevents₂, hevents, hevent]
      exact hu.events
    refine .bind (insertJobEvent_commits hfree₂ (by simp [FieldValue.Marshals])) ?_
    rintro - st₃ -
    exact ⟨_, _, rfl, trivial⟩
  obtain ⟨c, st', hok, -⟩ := hcommits
  refine ⟨c, st', hok, fun v hne hv => ?_⟩
  exact (claimJob_spec hok).1.unused hv (hattempt.symm ▸ hne) (hevent.symm ▸ hne)

/-- The last time at which every retry that is decided can still be written into its event. -/
def retryHorizon : Time := 244000000000 * second

theorem decideFailure_marshals {now : Int} (h₀ : 0 ≤ now) (h : now ≤ 244000000000 * 1000000000)
    (retryCount maxRetries retryBackoffSeconds : Int) :
    (FieldValue.time
      (decideFailure now retryCount maxRetries retryBackoffSeconds).nextRunAt).Marshals := by
  simp only [decideFailure]
  split
  · exact (by decide : (FieldValue.time Time.zero).Marshals)
  · have hnear := nextRetryAt_bounds now retryBackoffSeconds (retryCount + 1)
    refine ⟨Int.le_trans ?_ hnear.1, Int.lt_of_lt_of_le hnear.2 ?_⟩
    · show (-62167219200 * 1000000000 : Int) ≤ now + -2 ^ 63
      omega
    · show (now + 2 ^ 63 : Int) ≤ 253402300800 * 1000000000
      omega

theorem recoverJob_commits {x : RecoverArgs} {u : UUID} (hletter : x.deadLetterID r.id = u)
    (hevent : x.eventID r.id = u) (h₀ : 0 ≤ x.clock) (hclock : x.clock ≤ retryHorizon)
    (hr : st.jobs.find? r.id = some r) (hrun : r.status = .running) (hu : st.Unused u) :
    (recoverJob x r).Commits st fun _ st' => (∀ v ≠ u, st.Unused v → st'.Unused v) ∧
      ∀ k ≠ r.id, st'.jobs.find? k = st.jobs.find? k := by
  have hcommits : (recoverJob x r).Commits st fun _ st' =>
      ∀ v ≠ u, st.deadLetters.find? v = none → st'.deadLetters.find? v = none := by
    refine .bind (updateAttempts_commits _ _ _ st) ?_
    rintro n st₁ ⟨-, -, hletters, hevents⟩
    simp only
    split
    · refine .bind (updateJobs_commits _ _ _ st₁) ?_
      rintro m st₂ ⟨-, -, hletters₂, hevents₂⟩
      have hfree : st₂.deadLetters.find? (x.deadLetterID r.id) = none := by
        rw [hletters₂, hletters, hletter]
        exact hu.deadLetters
      refine .bind (insertDeadLetter_commits hfree) ?_
      rintro - st₃ ⟨hevents₃, hletters₃⟩
      have hfree₃ : st₃.events.find? (x.eventID r.id) = none := by
        rw [hevents₃, hevents₂, hevents, hevent]
        exact hu.events
      refine .bind (insertJobEvent_commits hfree₃ (by simp [FieldValue.Marshals])) ?_
      rintro - st₄ ⟨-, hletters₄, -⟩
      refine ⟨_, _, rfl, fun v hne hv => ?_⟩
      rw [hletters₄, hletters₃ v (hletter.symm ▸ hne), hletters₂, hletters]
      exact hv
    · refine .bind (updateJobs_commits _ _ _ st₁) ?_
      rintro m st₂ ⟨-, -, hletters₂, hevents₂⟩
      have hfree : st₂.events.find? (x.eventID r.id) = none := by
        rw [hevents₂, hevents, hevent]
        exact hu.events
      have hmarshals : (FieldValue.time (x.decision r).nextRunAt).Marshals :=
        decideFailure_marshals h₀ hclock _ _ _
      refine .bind (insertJobEvent_commits hfree (by simpa [FieldValue.Marshals] using hmarshals)) ?_
      rintro - st₃ ⟨-, hletters₃, -⟩
      refine ⟨_, _, rfl, fun v hne hv => ?_⟩
      rw [hletters₃, hletters₂, hletters]
      exact hv
  obtain ⟨id, st', hok, hletters⟩ := hcommits
  refine ⟨id, st', hok, fun v hne hv => ?_, fun k hne => ?_⟩
  · exact (recoverJob_spec hr hrun hok).1.unused hv (hletters v hne hv.deadLetters) (hevent.symm ▸ hne)
  · exact congrArg JobView.row (recoverJob_other hr hrun hok hne)

/-- Without a RUNNING job, a recovery finds nothing to do. -/
theorem recoverExpiredRunningJobs_none {x : RecoverArgs} {locked : UUID → Bool}
    (h : ∀ r ∈ st.jobs.rows, r.status ≠ .running) :
    recoverExpiredRunningJobs x locked st = .ok ([], st) := by
  have hnone : (st.jobs.rows.filter fun r => decide (r.ExpiredAt x.now) && !locked r.id) = [] := by
    refine List.filter_eq_nil_iff.2 fun r hr => ?_
    simp [show ¬r.ExpiredAt x.now from fun hex => h r hr hex.1]
  simp only [recoverExpiredRunningJobs, Tx.bind_eq_ok, Tx.read_eq_ok]
  exact ⟨_, st, ⟨rfl, rfl⟩, by rw [hnone]; exact Tx.forEach_nil_eq_ok.2 ⟨rfl, rfl⟩⟩

/-! ### What one worker sees -/

/-- What the run of one worker depends on: its loop, its first slot, its context, the store, the keys, the
history. -/
structure Seat where
  loop : Loop
  phase : Phase
  ctxDone : Bool
  store : Store
  locks : Locks
  history : List Entry

/-- The system as worker `w` sees it. -/
def Cluster.seat (s : Cluster) (w : String) : Seat :=
  ⟨(s.workers w).loop, (s.workers w).slots 0, (s.workers w).ctxDone, s.store, s.locks, s.history⟩

@[simp] theorem Cluster.seat_setLoop (s : Cluster) (w : String) (loop : Loop) :
    (s.setLoop w loop).seat w = { s.seat w with loop := loop } := by
  simp [seat, setLoop, setWorker]

@[simp] theorem Cluster.seat_setSlot (s : Cluster) (w : String) (phase : Phase) :
    (s.setSlot w 0 phase).seat w = { s.seat w with phase := phase } := by
  simp [seat, setSlot, setWorker]

/-- From every state that `w` sees as `v`, the steps are enabled and lead to one it sees as `v'`. -/
def Takes (cfg : Config) (w : String) (v : Seat) (ys : List Act) (v' : Seat) : Prop :=
  ∀ s : Cluster, s.seat w = v → ∃ s', (cluster cfg).execFrom s ys = some s' ∧ s'.seat w = v'

section Takes

variable {v v₁ v' : Seat} {ys zs : List Act} {c : ClaimedJob}

theorem Takes.append (h : Takes cfg w v ys v₁) (h' : Takes cfg w v₁ zs v') :
    Takes cfg w v (ys ++ zs) v' := by
  intro s hs
  obtain ⟨s₁, hys, hs₁⟩ := h s hs
  obtain ⟨s', hzs, hs'⟩ := h' s₁ hs₁
  refine ⟨s', ?_, hs'⟩
  rw [System.execFrom_append, hys]
  exact hzs

theorem Takes.cons {x : Act} (h : Takes cfg w v [x] v₁) (h' : Takes cfg w v₁ ys v') :
    Takes cfg w v (x :: ys) v' := h.append h'

/-- One step, computed. -/
theorem Takes.single {x : Act}
    (h : ∀ s : Cluster, s.seat w = v → ∃ s', step cfg s x = some s' ∧ s'.seat w = v') :
    Takes cfg w v [x] v' := by
  intro s hs
  obtain ⟨s', hstep, hs'⟩ := h s hs
  exact ⟨s', System.execFrom_single hstep, hs'⟩

theorem takes_restart :
    Takes cfg w v [.crash w] { v with loop := .dispatching [], phase := .idle, ctxDone := false } := by
  refine .single ?_
  rintro s rfl
  exact ⟨_, rfl, by simp [Cluster.seat, Cluster.setWorker, Worker.initial]⟩

variable (cfg) in
/-- The keys of some jobs expire. -/
theorem takes_expireLocks (ks : List UUID) :
    ∃ locks, Takes cfg w v (ks.map Act.expireLock) { v with locks := locks } ∧
      (∀ k ∈ ks, locks k = none) ∧ ∀ k, v.locks k = none → locks k = none := by
  induction ks generalizing v with
  | nil => exact ⟨v.locks, fun s hs => ⟨s, rfl, hs⟩, by simp, fun _ hk => hk⟩
  | cons k ks ih =>
    have hfirst : Takes cfg w v [.expireLock k] { v with locks := Function.update v.locks k none } := by
      refine .single ?_
      rintro s rfl
      exact ⟨_, rfl, rfl⟩
    obtain ⟨locks, hrest, hgone, hkept⟩ := ih (v := { v with locks := Function.update v.locks k none })
    refine ⟨locks, hfirst.cons hrest, ?_, fun k' hk' => hkept k' ?_⟩
    · intro k' hk'
      rcases List.mem_cons.1 hk' with rfl | hk'
      · exact hkept _ (Function.update_self _ _ _)
      · exact hgone k' hk'
    · by_cases heq : k' = k
      · subst heq
        exact Function.update_self _ _ _
      · exact (Function.update_of_ne heq _ _).trans hk'

variable (cfg) in
theorem takes_recover {x : RecoverArgs} {locked : UUID → Bool} {ids : List UUID}
    (hloop : v.loop = .dispatching []) (hlive : v.ctxDone = false)
    (htx : recoverExpiredRunningJobs { x with reason := leaseExpired } locked v.store = .ok (ids, st')) :
    Takes cfg w v [.loop w (.recover x locked .up)]
      { v with
        loop := .recovered, store := st'
        history := (ids.map Entry.recovered).reverse ++ v.history } := by
  refine .single ?_
  rintro s rfl
  replace hloop : (s.workers w).loop = .dispatching [] := hloop
  have hpermits : (s.workers w).Permits .up := .inl hlive
  replace htx : recoverExpiredRunningJobs { x with reason := leaseExpired } locked s.store
      = .ok (ids, st') := htx
  refine ⟨_, by simp only [step, loopStep, hloop, hpermits, if_true]; rfl, ?_⟩
  rw [Cluster.seat_setLoop]
  simp [Cluster.record, Tx.commit, htx, Cluster.seat]

variable (cfg) in
theorem takes_claim {x : ClaimArgs} {locked : UUID → Bool} {items : List ClaimedJob}
    (hloop : v.loop = .recovered) (hlive : v.ctxDone = false)
    (htx : claimDueJobs { x with workerID := w, lockTTL := (cfg.worker w).lockTTL } locked
      (cfg.worker w).batch v.store = .ok (items, st')) :
    Takes cfg w v [.loop w (.claim x locked .up)]
      { v with
        loop := .dispatching items, store := st'
        history := (items.map (Entry.claimed w)).reverse ++ v.history } := by
  refine .single ?_
  rintro s rfl
  replace hloop : (s.workers w).loop = .recovered := hloop
  have hpermits : (s.workers w).Permits .up := .inl hlive
  replace htx : claimDueJobs { x with workerID := w, lockTTL := (cfg.worker w).lockTTL } locked
      (cfg.worker w).batch s.store = .ok (items, st') := htx
  refine ⟨_, by simp only [step, loopStep, hloop, hpermits, if_true]; rfl, ?_⟩
  rw [Cluster.seat_setLoop]
  simp [Cluster.record, Tx.commit, htx, Cluster.seat]

theorem takes_dispatch {rest : List ClaimedJob} (hloop : v.loop = .dispatching (c :: rest))
    (hphase : v.phase = .idle) :
    Takes cfg w v [.loop w (.dispatch 0)]
      { v with loop := .dispatching rest, phase := .received c } := by
  refine .single ?_
  rintro s rfl
  replace hloop : (s.workers w).loop = .dispatching (c :: rest) := hloop
  replace hphase : (s.workers w).slots 0 = .idle := hphase
  have hslots : 0 < (cfg.worker w).slots := by
    unfold WorkerConfig.slots
    split <;> omega
  refine ⟨(s.setLoop w (.dispatching rest)).setSlot w 0 (.received c), ?_, ?_⟩
  · simp only [step, loopStep, hloop, hphase, hslots, if_true]
  · rw [Cluster.seat_setSlot, Cluster.seat_setLoop]

/-- The keys while `w` holds the lock of the job `k`. -/
def lockedKeys (wcfg : WorkerConfig) (w : String) (k : UUID) (locks : Locks) : Locks :=
  match wcfg.lockManager with
  | .noop => locks
  | .redis => Function.update locks k (some w)

theorem takes_acquire (hphase : v.phase = .received c) (hfree : v.locks c.id = none) :
    Takes cfg w v [.slot w 0 (.acquire .up)]
      { v with phase := .locked c, locks := lockedKeys (cfg.worker w) w c.id v.locks } := by
  refine .single ?_
  rintro s rfl
  replace hphase : (s.workers w).slots 0 = .received c := hphase
  replace hfree : s.locks c.id = none := hfree
  cases hm : (cfg.worker w).lockManager with
  | noop =>
    refine ⟨s.setSlot w 0 (.locked c), by simp only [step, slotStep, hphase, hm], ?_⟩
    rw [Cluster.seat_setSlot]
    simp [lockedKeys, hm, Cluster.seat]
  | redis =>
    refine ⟨(s.withLocks (Function.update s.locks c.id (some w))).setSlot w 0 (.locked c), ?_, ?_⟩
    · simp [step, slotStep, hphase, hm, Tx.commit, setNX, hfree, Cluster.withLocks]
    · rw [Cluster.seat_setSlot]
      simp [lockedKeys, hm, Cluster.seat, Cluster.withLocks]

/-- The key is gone when the slot is idle again. -/
theorem takes_unlock {locks : Locks} (hphase : v.phase = .finished c)
    (hkeys : v.locks = lockedKeys (cfg.worker w) w c.id locks) (hfree : locks c.id = none) :
    Takes cfg w v [.slot w 0 (.unlock .up)] { v with phase := .idle, locks := locks } := by
  refine .single ?_
  rintro s rfl
  replace hphase : (s.workers w).slots 0 = .finished c := hphase
  replace hkeys : s.locks = lockedKeys (cfg.worker w) w c.id locks := hkeys
  cases hm : (cfg.worker w).lockManager with
  | noop =>
    simp only [lockedKeys, hm] at hkeys
    refine ⟨s.setSlot w 0 .idle, by simp only [step, slotStep, hphase, hm], ?_⟩
    rw [Cluster.seat_setSlot]
    simp [Cluster.seat, hkeys]
  | redis =>
    simp only [lockedKeys, hm] at hkeys
    have hdeleted : Function.update s.locks c.id none = locks := by
      rw [hkeys, Function.update_idem, ← hfree, Function.update_eq_self]
    refine ⟨(s.withLocks locks).setSlot w 0 .idle, ?_, by rw [Cluster.seat_setSlot]; rfl⟩
    have hheld : s.locks c.id = some w := by rw [hkeys, Function.update_self]
    simp [step, slotStep, hphase, hm, Tx.commit, compareAndDelete, hheld, hdeleted, Cluster.withLocks]

theorem takes_execute (hphase : v.phase = .locked c) (hnil : c.activeAttemptID ≠ UUID.nil) :
    Takes cfg w v [.slot w 0 .execute]
      { v with phase := .executing c .waiting none, history := .executed w c :: v.history } := by
  refine .single ?_
  rintro s rfl
  replace hphase : (s.workers w).slots 0 = .locked c := hphase
  refine ⟨(s.executing w c).setSlot w 0 (.executing c .waiting none), ?_, ?_⟩
  · simp only [step, slotStep, hphase, hnil, if_false]
    rfl
  · rw [Cluster.seat_setSlot]
    rfl

theorem takes_finish (hphase : v.phase = .executing c .waiting none)
    (result : Except ExecError RawMessage) :
    Takes cfg w v [.slot w 0 (.finish result), .slot w 0 .stopRenewal]
      { v with phase := .executing c .stopped (some result) } := by
  have hreturn : Takes cfg w v [.slot w 0 (.finish result)]
      { v with phase := .executing c .waiting (some result) } := by
    refine .single ?_
    rintro s rfl
    replace hphase : (s.workers w).slots 0 = .executing c .waiting none := hphase
    exact ⟨s.setSlot w 0 (.executing c .waiting (some result)), by simp only [step, slotStep, hphase],
      by simp⟩
  refine hreturn.cons (.single ?_)
  intro s hs
  have hphase' : (s.workers w).slots 0 = .executing c .waiting (some result) := congrArg Seat.phase hs
  refine ⟨s.setSlot w 0 (.executing c .stopped (some result)), by simp only [step, slotStep, hphase'], ?_⟩
  rw [Cluster.seat_setSlot, hs]

theorem takes_complete {result : RawMessage} {eventID : UUID} {durationMS : Int} {now : Time}
    (hphase : v.phase = .executing c .stopped (some (.ok result)))
    (htx : completeExecution now eventID c w durationMS result v.store = .ok ((), st')) :
    Takes cfg w v [.slot w 0 (.complete eventID durationMS now .up)]
      { v with phase := .finished c, store := st', history := .completed w c :: v.history } := by
  refine .single ?_
  rintro s rfl
  replace hphase : (s.workers w).slots 0 = .executing c .stopped (some (.ok result)) := hphase
  replace htx : completeExecution now eventID c w durationMS result s.store = .ok ((), st') := htx
  refine ⟨_, by simp only [step, slotStep, hphase]; rfl, ?_⟩
  rw [Cluster.seat_setSlot]
  simp [Cluster.record, Tx.commit, htx, Cluster.seat]

end Takes

/-! ### Runs of one worker -/

/-- The stages of a job at which an id is drawn for it. -/
inductive Stage where
  | recovery
  | claim
  | completion
  deriving DecidableEq

instance {P : Stage → Prop} [DecidablePred P] : Decidable (∀ i, P i) :=
  decidable_of_iff (P .recovery ∧ P .claim ∧ P .completion) ⟨fun h i => by
    obtain ⟨hrecovery, hclaim, hcompletion⟩ := h
    cases i <;> assumption, fun h => ⟨h _, h _, h _⟩⟩

/-- The ids that are drawn for each job. -/
abbrev Draws := Stage → UUID → NewUUID

/-- A step of worker `w` that finds no row held by another transaction, the restart of `w`, or the expiry
of a Redis key. -/
def Act.Alone (w : String) : Act → Prop
  | .loop w' (.recover _ locked _) => w' = w ∧ ∀ k, locked k = false
  | .loop w' (.claim _ locked _) => w' = w ∧ ∀ k, locked k = false
  | .loop w' _ => w' = w
  | .slot w' _ _ => w' = w
  | .crash w' => w' = w
  | .expireLock _ => True
  | .api _ => False

/-- The run goes on from `s` to `s'` by steps of `w` alone, in transactions whose times lie between `T`
and `T'` and do not go back. -/
structure Continues (cfg : Config) (w : String) (T T' : Time) (s : Cluster) (ys : List Act)
    (s' : Cluster) : Prop where
  exec : (cluster cfg).execFrom s ys = some s'
  steps : ∀ y ∈ ys, y.Alone w
  ordered : (times ys).Pairwise fun t t' => t ≤ t'
  window : T ≤ T' ∧ ∀ t ∈ times ys, T ≤ t ∧ t ≤ T'

theorem Continues.refl (t : Time) (s : Cluster) : Continues cfg w t t s [] s :=
  ⟨rfl, by simp, .nil, le_rfl, by simp [times]⟩

/-- Steps of `w` whose transactions all run at `t`. -/
theorem Continues.of_times {t : Time} {ys : List Act} (h : (cluster cfg).execFrom s ys = some s')
    (hsteps : ∀ y ∈ ys, y.Alone w) {n : ℕ} (htimes : times ys = List.replicate n t) :
    Continues cfg w t t s ys s' := by
  refine ⟨h, hsteps, ?_, le_rfl, fun t' ht' => ?_⟩
  · rw [htimes]
    exact List.pairwise_replicate.2 (.inr le_rfl)
  · rw [htimes] at ht'
    obtain rfl := List.eq_of_mem_replicate ht'
    exact ⟨le_rfl, le_rfl⟩

theorem Continues.append {T T₁ T₂ T' : Time} {ys zs : List Act} {s₁ : Cluster}
    (h : Continues cfg w T T₁ s ys s₁) (hT : T₁ ≤ T₂) (h' : Continues cfg w T₂ T' s₁ zs s') :
    Continues cfg w T T' s (ys ++ zs) s' := by
  have htimes : times (ys ++ zs) = times ys ++ times zs := List.filterMap_append
  refine ⟨?_, ?_, ?_, h.window.1.trans (hT.trans h'.window.1), ?_⟩
  · rw [System.execFrom_append, h.exec]
    exact h'.exec
  · exact fun y hy => (List.mem_append.1 hy).elim (h.steps y) (h'.steps y)
  · rw [htimes]
    refine List.pairwise_append.2 ⟨h.ordered, h'.ordered, fun t ht t' ht' => ?_⟩
    exact (h.window.2 t ht).2.trans (hT.trans (h'.window.2 t' ht').1)
  · rw [htimes]
    intro t ht
    rcases List.mem_append.1 ht with ht | ht
    · exact ⟨(h.window.2 t ht).1, (h.window.2 t ht).2.trans (hT.trans h'.window.1)⟩
    · exact ⟨h.window.1.trans (hT.trans (h'.window.2 t ht).1), (h'.window.2 t ht).2⟩

section Rounds

variable {t : Time} {d : Draws} {result : RawMessage}

/-- The recovery of a poll of `w` at the time `t`. -/
def recoverStep (w : String) (d : Draws) (t : Time) : Act :=
  .loop w (.recover ⟨t, t, "", fun k => (d .recovery k).val, fun k => (d .recovery k).val⟩
    (fun _ => false) .up)

/-- The claim of a poll of `w` at the time `t`. -/
def claimStep (w : String) (d : Draws) (t : Time) : Act :=
  .loop w (.claim ⟨t, t, d .claim, fun k => (d .claim k).val, "", 0⟩ (fun _ => false) .up)

/-- The next job of the batch is executed and completed. -/
def executionRun (w : String) (t : Time) (u : NewUUID) (result : RawMessage) : List Act :=
  [.loop w (.dispatch 0), .slot w 0 (.acquire .up), .slot w 0 .execute,
    .slot w 0 (.finish (.ok result)), .slot w 0 .stopRenewal, .slot w 0 (.complete u.val 0 t .up),
    .slot w 0 (.unlock .up)]

/-! ### A batch -/

/-- The batch `cs` of `w` is claimed and waits to be dispatched; the first slot is idle, no Redis key is in
the way, and the events of the completions can be written. -/
structure Batch (w : String) (d : Draws) (cs : List ClaimedJob) (s : Cluster) : Prop where
  loop : (s.workers w).loop = .dispatching cs
  idle : (s.workers w).slots 0 = .idle
  live : (s.workers w).ctxDone = false
  nodup : (cs.map fun c => c.id).Nodup
  unlocked : ∀ c ∈ cs, s.locks c.id = none
  owned : ∀ c ∈ cs, owner c.id s.history = some (w, c)
  unused : ∀ c ∈ cs, s.store.Unused (d .completion c.id).val
  distinct : ∀ c ∈ cs, ∀ c' ∈ cs, d .completion c.id = d .completion c'.id → c.id = c'.id

/-- What the execution of the jobs `ks` leaves. -/
structure Executed (d : Draws) (ks : List UUID) (s s' : Cluster) : Prop where
  locks : s'.locks = s.locks
  others : ∀ k ∉ ks, s'.store.jobs.find? k = s.store.jobs.find? k
  succeeded : ∀ k ∈ ks, ∃ r', s'.store.jobs.find? k = some r' ∧ r'.status = .succeeded
  unused : ∀ u, s.store.Unused u → (∀ k ∈ ks, u ≠ (d .completion k).val) → s'.store.Unused u

variable (cfg) in
/-- The first job of a batch is executed and completed. -/
theorem executionRun_spec {c : ClaimedJob} {cs : List ClaimedJob} (hreach : (cluster cfg).Reachable s)
    (hb : Batch w d (c :: cs) s) (t : Time) (result : RawMessage) :
    ∃ s', Continues cfg w t t s (executionRun w t (d .completion c.id) result) s' ∧
      Batch w d cs s' ∧ Executed d [c.id] s s' := by
  have howner := hb.owned c List.mem_cons_self
  have hlog := (reachable_sound hreach).log
  have hnil := hlog.activeAttemptID_ne_nil (owner_eq_some howner).1
  obtain ⟨_, st', hcomplete, hevents⟩ := completeExecution_commits hlog howner
    (hb.unused c List.mem_cons_self).events t 0 result
  obtain ⟨r', a, hcompletes⟩ := completeExecution_spec hcomplete
  have hfree := hb.unlocked c List.mem_cons_self
  have htakes : Takes cfg w (s.seat w) (executionRun w t (d .completion c.id) result) _ :=
    (takes_dispatch hb.loop hb.idle).cons <| (takes_acquire rfl hfree).cons <|
      (takes_execute rfl hnil).cons <| (takes_finish rfl (.ok result)).append <|
      (takes_complete rfl hcomplete).cons (takes_unlock rfl rfl hfree)
  obtain ⟨s', hexec, hseat⟩ := htakes s rfl
  have hstore : s'.store = st' := congrArg Seat.store hseat
  have hlocks : s'.locks = s.locks := congrArg Seat.locks hseat
  have hhistory : s'.history = .completed w c :: .executed w c :: s.history :=
    congrArg Seat.history hseat
  have hnodup := hb.nodup
  rw [List.map_cons, List.nodup_cons] at hnodup
  have hne : ∀ c' ∈ cs, c'.id ≠ c.id := fun c' hc' he => hnodup.1 (he ▸ List.mem_map_of_mem hc')
  have hspared : ∀ u, s.store.Unused u → u ≠ (d .completion c.id).val → s'.store.Unused u := by
    intro u hu hu'
    rw [hstore]
    exact hcompletes.unused hu ((hevents u hu').trans hu.events)
  refine ⟨s', .of_times hexec (by simp [executionRun, Act.Alone]) (n := 1) rfl, ⟨?_, ?_, ?_, hnodup.2,
    fun c' hc' => ?_, fun c' hc' => ?_, fun c' hc' => ?_, fun c₁ h₁ c₂ h₂ => ?_⟩,
    hlocks, fun k hk => ?_, fun k hk => ?_, fun u hu hne' => ?_⟩
  · exact congrArg Seat.loop hseat
  · exact congrArg Seat.phase hseat
  · exact (congrArg Seat.ctxDone hseat).trans hb.live
  · rw [hlocks]
    exact hb.unlocked c' (List.mem_cons_of_mem _ hc')
  · have hother : ∀ e ∈ [Entry.completed w c, .executed w c], e.jobID ≠ c'.id := by
      simpa [Entry.jobID] using (hne c' hc').symm
    rw [hhistory]
    refine (owner_append_of_ne hother).trans ?_
    exact hb.owned c' (List.mem_cons_of_mem _ hc')
  · refine hspared _ (hb.unused c' (List.mem_cons_of_mem _ hc')) fun he => hne c' hc' ?_
    exact hb.distinct c' (List.mem_cons_of_mem _ hc') c List.mem_cons_self (Subtype.ext he)
  · exact hb.distinct c₁ (List.mem_cons_of_mem _ h₁) c₂ (List.mem_cons_of_mem _ h₂)
  · rw [hstore, hcompletes.jobs]
    exact Table.find?_modify_ne _ (by simpa using hk) _ _
  · obtain rfl := List.mem_singleton.1 hk
    refine ⟨succeededRow t r', ?_, rfl⟩
    rw [hstore, hcompletes.jobs]
    exact Table.find?_modify_self hcompletes.row _ _
  · exact hspared u hu (hne' c.id (List.mem_singleton_self _))

theorem Executed.cons {ks : List UUID} {s₁ : Cluster} (h : Executed d [k] s s₁)
    (h' : Executed d ks s₁ s') (hk : k ∉ ks) : Executed d (k :: ks) s s' where
  locks := h'.locks.trans h.locks
  others := by
    intro j hj
    rw [List.mem_cons, not_or] at hj
    exact (h'.others j hj.2).trans (h.others j (by simpa using hj.1))
  succeeded := by
    intro j hj
    rcases List.mem_cons.1 hj with rfl | hj
    · rw [h'.others j hk]
      exact h.succeeded j (List.mem_singleton_self j)
    · exact h'.succeeded j hj
  unused := by
    intro u hu hne
    refine h'.unused u (h.unused u hu ?_) fun j hj => hne j (List.mem_cons_of_mem _ hj)
    intro j hj
    obtain rfl := List.mem_singleton.1 hj
    exact hne j List.mem_cons_self

variable (cfg) in
/-- A whole batch is executed and completed. -/
theorem batch_spec {cs : List ClaimedJob} (hreach : (cluster cfg).Reachable s) (hb : Batch w d cs s)
    (t : Time) (result : RawMessage) :
    ∃ ys s', Continues cfg w t t s ys s' ∧ Batch w d [] s' ∧
      Executed d (cs.map fun c => c.id) s s' := by
  induction cs generalizing s with
  | nil => exact ⟨[], s, .refl t s, hb, rfl, fun _ _ => rfl, by simp, fun _ hu _ => hu⟩
  | cons c cs ih =>
    obtain ⟨s₁, hfirst, hb₁, hdone⟩ := executionRun_spec cfg hreach hb t result
    obtain ⟨ys, s', hrest, hb', hdone'⟩ := ih (hreach.execFrom hfirst.exec) hb₁
    have hnodup := hb.nodup
    rw [List.map_cons, List.nodup_cons] at hnodup
    exact ⟨_, s', hfirst.append le_rfl hrest, hb', hdone.cons hdone' hnodup.1⟩

/-! ### A claim and its batch -/

/-- The job waits to be claimed. -/
def JobRow.Waits (r : JobRow) : Prop := r.status ∈ [Status.pending, .scheduled, .retryScheduled]

/-- The ids drawn for the jobs of the table are all distinct. -/
def Draws.Distinct (d : Draws) (st : Store) : Prop :=
  ∀ i j, ∀ r ∈ st.jobs.rows, ∀ r' ∈ st.jobs.rows, d i r.id = d j r'.id → i = j ∧ r.id = r'.id

/-- Between the polls of `w`, or within one (`loop`): nothing is RUNNING, no Redis key is in the way, and
there are ids for the claims and the completions of the jobs that wait. -/
structure Ready (w : String) (d : Draws) (loop : Loop) (s : Cluster) : Prop where
  loop : (s.workers w).loop = loop
  idle : (s.workers w).slots 0 = .idle
  live : (s.workers w).ctxDone = false
  unlocked : ∀ r ∈ s.store.jobs.rows, s.locks r.id = none
  calm : ∀ r ∈ s.store.jobs.rows, r.status ≠ .running
  unused : ∀ r ∈ s.store.jobs.rows, r.Waits →
    s.store.Unused (d .claim r.id).val ∧ s.store.Unused (d .completion r.id).val
  distinct : d.Distinct s.store

/-- Some of the jobs that wait have SUCCEEDED, and no other row has changed. -/
structure Drains (st st' : Store) : Prop where
  row : ∀ r ∈ st.jobs.rows, ∃ r', st'.jobs.find? r.id = some r' ∧
    (r' = r ∨ r.Waits ∧ r'.status = .succeeded)
  none : ∀ k, st.jobs.find? k = none → st'.jobs.find? k = none

theorem Drains.refl (st : Store) : Drains st st :=
  ⟨fun r hr => ⟨r, Table.find?_key hr, .inl rfl⟩, fun _ hk => hk⟩

theorem JobRow.Waits.ne_succeeded (h : r.Waits) : r.status ≠ .succeeded := by
  intro he
  rw [JobRow.Waits, he] at h
  exact absurd h (by decide)

theorem Drains.trans {st₁ : Store} (h : Drains st st₁) (h' : Drains st₁ st') : Drains st st' := by
  refine ⟨fun r hr => ?_, fun k hk => h'.none k (h.none k hk)⟩
  obtain ⟨r₁, hr₁, hcase⟩ := h.row r hr
  obtain ⟨hm₁, hid⟩ := Table.find?_eq_some_iff.1 hr₁
  replace hid : r₁.id = r.id := hid
  obtain ⟨r', hr', hcase'⟩ := h'.row r₁ hm₁
  rw [hid] at hr'
  refine ⟨r', hr', ?_⟩
  rcases hcase with rfl | ⟨hwaits, hdone⟩
  · exact hcase'
  · rcases hcase' with rfl | ⟨hwaits₁, -⟩
    · exact .inr ⟨hwaits, hdone⟩
    · exact absurd hdone hwaits₁.ne_succeeded

/-- Every row becomes another one, and none is new: then a row afterwards was there before. -/
theorem row_before {R : JobRow → JobRow → Prop}
    (hrow : ∀ r ∈ st.jobs.rows, ∃ r', st'.jobs.find? r.id = some r' ∧ R r r')
    (hnone : ∀ k, st.jobs.find? k = none → st'.jobs.find? k = none) {r' : JobRow}
    (hr' : r' ∈ st'.jobs.rows) : ∃ r ∈ st.jobs.rows, r.id = r'.id ∧ R r r' := by
  have hfind' : st'.jobs.find? r'.id = some r' := Table.find?_key hr'
  cases hfind : st.jobs.find? r'.id with
  | none =>
    rw [hnone _ hfind] at hfind'
    cases hfind'
  | some r =>
    obtain ⟨hr, hid⟩ := Table.find?_eq_some_iff.1 hfind
    replace hid : r.id = r'.id := hid
    obtain ⟨r₁, hr₁, hcase⟩ := hrow r hr
    rw [hid] at hr₁
    obtain rfl := Option.some.inj (hr₁.symm.trans hfind')
    exact ⟨r, hr, hid, hcase⟩

theorem Drains.row_of {r' : JobRow} (h : Drains st st') (hr' : r' ∈ st'.jobs.rows) :
    ∃ r ∈ st.jobs.rows, r.id = r'.id ∧ (r' = r ∨ r.Waits ∧ r'.status = .succeeded) :=
  row_before h.row h.none hr'

theorem Draws.Distinct.of_drains (hd : d.Distinct st) (h : Drains st st') : d.Distinct st' := by
  intro i j r hr r' hr' heq
  obtain ⟨r₁, hr₁, hid, -⟩ := h.row_of hr
  obtain ⟨r₂, hr₂, hid', -⟩ := h.row_of hr'
  rw [← hid, ← hid'] at heq ⊢
  exact hd i j r₁ hr₁ r₂ hr₂ heq

/-- What a claim commits is owned by its worker. -/
theorem owner_of_claims {h : List Entry} {c : ClaimedJob} {cs : List ClaimedJob}
    (hnodup : (cs.map fun c => c.id).Nodup) (hc : c ∈ cs) :
    owner c.id ((cs.map (Entry.claimed w)).reverse ++ h) = some (w, c) := by
  induction cs generalizing h with
  | nil => exact absurd hc List.not_mem_nil
  | cons c₀ cs ih =>
    rw [List.map_cons, List.nodup_cons] at hnodup
    rw [List.map_cons, List.reverse_cons, List.append_assoc]
    rcases List.mem_cons.1 hc with rfl | hc
    · rw [owner_append_of_ne, List.singleton_append]
      · simp [owner]
      · intro e he heq
        obtain ⟨c', hc', rfl⟩ := List.mem_map.1 (List.mem_reverse.1 he)
        exact hnodup.1 (List.mem_map.2 ⟨c', hc', heq⟩)
    · exact ih hnodup.2 hc

theorem claimDueJobs_row {x : ClaimArgs} {locked : UUID → Bool} {batchSize : Int}
    {cs : List ClaimedJob} (h : claimDueJobs x locked batchSize st = .ok (cs, st'))
    (hk : k ∉ cs.map fun c => c.id) : st'.jobs.find? k = st.jobs.find? k := by
  obtain ⟨hpath, -, hnodup⟩ := claimDueJobs_path (h := []) h
  have hjobs : ((cs.map (Entry.claimed x.workerID)).reverse.map Entry.jobID).Nodup := by
    simpa [Function.comp_def, Entry.jobID] using hnodup
  rcases hpath.job_cases hjobs k with hsame | ⟨-, -, -, e, he, rfl, -⟩
  · exact hsame
  · obtain ⟨c, hc, rfl⟩ := List.mem_map.1 (List.mem_reverse.1 he)
    exact absurd (List.mem_map_of_mem hc) hk

/-- What a claim of the rows `due` leaves. -/
structure Claimed (d : Draws) (due : List JobRow) (s s' : Cluster) : Prop where
  locks : s'.locks = s.locks
  others : ∀ k ∉ due.map (fun r => r.id), s'.store.jobs.find? k = s.store.jobs.find? k
  unused : ∀ u, s.store.Unused u → (∀ r ∈ due, u ≠ (d .claim r.id).val) → s'.store.Unused u

variable (cfg) in
/-- A poll of `w` claims a batch. -/
theorem claimStep_spec (hs : Ready w d .recovered s) (t : Time) :
    ∃ cs s', Continues cfg w t t s [claimStep w d t] s' ∧ Batch w d cs s' ∧
      (cs.map fun c => c.id)
        = (dueJobs t (fun _ => false) (cfg.worker w).batch s.store).map (fun r => r.id) ∧
      Claimed d (dueJobs t (fun _ => false) (cfg.worker w).batch s.store) s s' := by
  let x : ClaimArgs := ⟨t, t, d .claim, fun k => (d .claim k).val, w, (cfg.worker w).lockTTL⟩
  let due := dueJobs t (fun _ => false) (cfg.worker w).batch s.store
  have hdue : ∀ r ∈ due, r ∈ s.store.jobs.rows ∧ r.Waits := fun r hr =>
    ⟨(mem_dueJobs hr).1, (mem_dueJobs hr).2.1.1⟩
  have hsupplied : Supplied (fun k => (d .claim k).val) (fun _ _ => True)
      (fun u => s.store.Unused u ∧ ∀ r ∈ due, u ≠ (d .claim r.id).val) due s.store :=
    { nodup := nodup_of_sublist_perm List.filter_sublist (dueJobs_subperm _ _ _ _)
      distinct := fun r hr r' hr' he =>
        (hs.distinct _ _ r (hdue r hr).1 r' (hdue r' hr').1 (Subtype.ext he)).2
      spared := fun r hr hk => hk.2 r hr rfl
      unused := fun r hr => (hs.unused r (hdue r hr).1 (hdue r hr).2).1
      guarded := fun _ _ => trivial
      kept := fun _ hu => hu.1 }
  obtain ⟨cs, st', hloop, hkept⟩ := forEach_commits (f := claimJob x)
    (fun r st _ hu => (claimJob_commits rfl rfl hu).mono fun _ _ h => ⟨h, fun _ _ _ => trivial⟩) hsupplied
  have hclaim : claimDueJobs x (fun _ => false) (cfg.worker w).batch s.store = .ok (cs, st') := by
    simp only [claimDueJobs, Tx.bind_eq_ok, Tx.read_eq_ok]
    exact ⟨_, _, ⟨rfl, rfl⟩, hloop⟩
  obtain ⟨-, hids, hnodup⟩ := claimDueJobs_path (h := s.history) hclaim
  obtain ⟨s', hexec, hseat⟩ := takes_claim cfg (w := w)
    (x := ⟨t, t, d .claim, fun k => (d .claim k).val, "", 0⟩) hs.loop hs.live hclaim s rfl
  have hstore : s'.store = st' := congrArg Seat.store hseat
  have hclaimed : Claimed d due s s' := by
    refine ⟨congrArg Seat.locks hseat, fun k hk => ?_, fun u hu hne => hstore ▸ hkept u ⟨hu, hne⟩⟩
    rw [hstore]
    exact claimDueJobs_row hclaim (hids ▸ hk)
  have hrow : ∀ c ∈ cs, ∃ r ∈ due, r.id = c.id := by
    intro c hc
    have hmem : c.id ∈ due.map fun r => r.id := hids ▸ List.mem_map_of_mem hc
    obtain ⟨r, hr, hid⟩ := List.mem_map.1 hmem
    exact ⟨r, hr, hid⟩
  refine ⟨cs, s', .of_times hexec (by simp [claimStep, Act.Alone]) (n := 1) rfl,
    ⟨congrArg Seat.loop hseat, (congrArg Seat.phase hseat).trans hs.idle,
      (congrArg Seat.ctxDone hseat).trans hs.live, hnodup, fun c hc => ?_, fun c hc => ?_,
      fun c hc => ?_, fun c hc c' hc' he => ?_⟩, hids, hclaimed⟩
  · obtain ⟨r, hr, hid⟩ := hrow c hc
    rw [hclaimed.locks, ← hid]
    exact hs.unlocked r (hdue r hr).1
  · rw [show s'.history = _ from congrArg Seat.history hseat]
    exact owner_of_claims hnodup hc
  · obtain ⟨r, hr, hid⟩ := hrow c hc
    rw [← hid]
    refine hclaimed.unused _ (hs.unused r (hdue r hr).1 (hdue r hr).2).2 fun r' hr' he => ?_
    cases (hs.distinct _ _ r (hdue r hr).1 r' (hdue r' hr').1 (Subtype.ext he)).1
  · obtain ⟨r, hr, hid⟩ := hrow c hc
    obtain ⟨r', hr', hid'⟩ := hrow c' hc'
    rw [← hid, ← hid'] at he ⊢
    exact (hs.distinct _ _ r (hdue r hr).1 r' (hdue r' hr').1 he).2

/-- The jobs of `due` have SUCCEEDED, all others are as they were. -/
theorem Drains.of_due {due : List JobRow} (hdue : ∀ r ∈ due, r ∈ st.jobs.rows ∧ r.Waits)
    (hothers : ∀ k ∉ due.map (fun r => r.id), st'.jobs.find? k = st.jobs.find? k)
    (hsucceeded : ∀ r ∈ due, ∃ r', st'.jobs.find? r.id = some r' ∧ r'.status = .succeeded) :
    Drains st st' := by
  refine ⟨fun r hr => ?_, fun k hk => ?_⟩
  · by_cases hd : r.id ∈ due.map fun r => r.id
    · obtain ⟨r₀, hr₀, hid⟩ := List.mem_map.1 hd
      obtain rfl : r₀ = r := st.jobs.eq_of_key_eq (hdue r₀ hr₀).1 hr hid
      obtain ⟨r', hr', hok⟩ := hsucceeded r₀ hr₀
      exact ⟨r', hr', .inr ⟨(hdue r₀ hr₀).2, hok⟩⟩
    · exact ⟨r, (hothers _ hd).trans (Table.find?_key hr), .inl rfl⟩
  · rw [hothers k fun hmem => ?_]
    · exact hk
    · obtain ⟨r, hr, hid⟩ := List.mem_map.1 hmem
      have hfind : st.jobs.find? r.id = some r := Table.find?_key (hdue r hr).1
      rw [hid, hk] at hfind
      cases hfind

/-- A poll of `w` claims a batch and executes it. -/
theorem claimRound_spec (hreach : (cluster cfg).Reachable s) (hs : Ready w d .recovered s) (t : Time)
    (result : RawMessage) :
    ∃ ys s', Continues cfg w t t s ys s' ∧ Ready w d (.dispatching []) s' ∧
      Drains s.store s'.store ∧
      ∀ r ∈ dueJobs t (fun _ => false) (cfg.worker w).batch s.store, ∃ r',
        s'.store.jobs.find? r.id = some r' ∧ r'.status = .succeeded := by
  obtain ⟨cs, s₁, hcont, hb, hids, hclaimed⟩ := claimStep_spec cfg hs t
  obtain ⟨ys, s', hrest, hb', hdone⟩ := batch_spec cfg (hreach.execFrom hcont.exec) hb t result
  generalize hd : dueJobs t (fun _ => false) (cfg.worker w).batch s.store = due at hids hclaimed ⊢
  have hdue : ∀ r ∈ due, r ∈ s.store.jobs.rows ∧ r.Waits := by
    rintro r hr
    rw [← hd] at hr
    exact ⟨(mem_dueJobs hr).1, (mem_dueJobs hr).2.1.1⟩
  rw [hids] at hdone
  have hsucceeded : ∀ r ∈ due, ∃ r', s'.store.jobs.find? r.id = some r' ∧ r'.status = .succeeded :=
    fun r hr => hdone.succeeded _ (List.mem_map_of_mem hr)
  have hdrains : Drains s.store s'.store := .of_due hdue
    (fun k hk => (hdone.others k hk).trans (hclaimed.others k hk)) hsucceeded
  refine ⟨_, s', hcont.append le_rfl hrest, ⟨hb'.loop, hb'.idle, hb'.live, fun r' hr' => ?_,
    fun r' hr' => ?_, fun r' hr' hwaits => ?_, hs.distinct.of_drains hdrains⟩, hdrains, hsucceeded⟩
  · obtain ⟨r, hr, hid, -⟩ := hdrains.row_of hr'
    rw [hdone.locks, hclaimed.locks, ← hid]
    exact hs.unlocked r hr
  · obtain ⟨r, hr, -, rfl | ⟨-, hok⟩⟩ := hdrains.row_of hr'
    · exact hs.calm _ hr
    · simp [hok]
  · obtain ⟨r, hr, -, rfl | ⟨-, hok⟩⟩ := hdrains.row_of hr'
    swap
    · exact absurd hok hwaits.ne_succeeded
    -- a job that still waits was not in the batch, so its ids were not drawn
    have hout : ∀ r₀ ∈ due, ∀ i, ¬(d i r'.id).val = (d .claim r₀.id).val ∧
        ¬(d i r'.id).val = (d .completion r₀.id).val := by
      intro r₀ hr₀ i
      have hid : r'.id ≠ r₀.id := by
        intro hid
        obtain ⟨r₁, hr₁, hok⟩ := hsucceeded r₀ hr₀
        rw [← hid] at hr₁
        obtain rfl := Option.some.inj (hr₁.symm.trans (Table.find?_key hr'))
        exact hwaits.ne_succeeded hok
      exact ⟨fun he => hid (hs.distinct _ _ r' hr r₀ (hdue r₀ hr₀).1 (Subtype.ext he)).2,
        fun he => hid (hs.distinct _ _ r' hr r₀ (hdue r₀ hr₀).1 (Subtype.ext he)).2⟩
    have hkeep : ∀ i, s.store.Unused (d i r'.id).val → s'.store.Unused (d i r'.id).val := by
      intro i hu
      refine hdone.unused _ (hclaimed.unused _ hu fun r₀ hr₀ => (hout r₀ hr₀ i).1) fun k hk => ?_
      obtain ⟨r₀, hr₀, rfl⟩ := List.mem_map.1 hk
      exact (hout r₀ hr₀ i).2
    exact (hs.unused r' hr hwaits).imp (hkeep _) (hkeep _)

/-! ### All jobs that wait -/

/-- The jobs that wait. -/
def Store.waiting (st : Store) : Set UUID := { k | ∃ r ∈ st.jobs.rows, r.id = k ∧ r.Waits }

theorem Store.waiting_finite (st : Store) : st.waiting.Finite := by
  refine (st.jobs.rows.map fun r => r.id).finite_toSet.subset ?_
  rintro k ⟨r, hr, rfl, -⟩
  exact List.mem_map.2 ⟨r, hr, rfl⟩

theorem Drains.waiting_subset (h : Drains st st') : st'.waiting ⊆ st.waiting := by
  rintro k ⟨r', hr', rfl, hwaits⟩
  obtain ⟨r, hr, hid, rfl | ⟨-, hok⟩⟩ := h.row_of hr'
  · exact ⟨r', hr, rfl, hwaits⟩
  · exact absurd hok hwaits.ne_succeeded

/-- A job that waited and has SUCCEEDED is one less. -/
theorem Drains.ncard_waiting_lt {r' : JobRow} (h : Drains st st') (hr : r ∈ st.jobs.rows) (hw : r.Waits)
    (hr' : st'.jobs.find? r.id = some r') (hok : r'.status = .succeeded) :
    st'.waiting.ncard < st.waiting.ncard := by
  refine Set.ncard_lt_ncard ⟨h.waiting_subset, fun hsub => ?_⟩ st.waiting_finite
  obtain ⟨r₂, hr₂, hid, hw₂⟩ := hsub ⟨r, hr, rfl, hw⟩
  have hfind : st'.jobs.find? r₂.id = some r₂ := Table.find?_key hr₂
  rw [hid] at hfind
  obtain rfl := Option.some.inj (hr'.symm.trans hfind)
  exact hw₂.ne_succeeded hok

theorem dueJobs_ne_nil (wcfg : WorkerConfig) (hr : r ∈ st.jobs.rows) (hdue : r.ClaimableAt t) :
    dueJobs t (fun _ => false) wcfg.batch st ≠ [] := by
  have hbatch : wcfg.batch.toNat ≠ 0 := by
    unfold WorkerConfig.batch
    split <;> omega
  have hsel : r ∈ (st.jobs.rows.filter fun r => decide (r.ClaimableAt t) && !false).insertionSort
      claimsBefore := by
    rw [List.mem_insertionSort, List.mem_filter]
    exact ⟨hr, by simpa using hdue⟩
  intro hnil
  rcases List.take_eq_nil_iff.1 hnil with hzero | hempty
  · exact hbatch hzero
  · rw [hempty] at hsel
    exact absurd hsel List.not_mem_nil

/-- What the recovery of a poll at the time `t` draws. -/
def Draws.recovering (d : Draws) (t : Time) : RecoverArgs :=
  ⟨t, t, leaseExpired, fun k => (d .recovery k).val, fun k => (d .recovery k).val⟩

variable (cfg) in
/-- The recovery of a poll, given its transaction. -/
theorem recoverStep_spec {ids : List UUID} (hloop : (s.workers w).loop = .dispatching [])
    (hlive : (s.workers w).ctxDone = false)
    (htx : recoverExpiredRunningJobs (d.recovering t) (fun _ => false) s.store = .ok (ids, st')) :
    ∃ s', Continues cfg w t t s [recoverStep w d t] s' ∧ (s'.workers w).loop = .recovered ∧
      (s'.workers w).slots 0 = (s.workers w).slots 0 ∧ (s'.workers w).ctxDone = false ∧
      s'.store = st' ∧ s'.locks = s.locks := by
  obtain ⟨s', hexec, hseat⟩ := takes_recover cfg (v := s.seat w) (w := w)
    (x := ⟨t, t, "", fun k => (d .recovery k).val, fun k => (d .recovery k).val⟩) hloop hlive htx s rfl
  exact ⟨s', .of_times hexec (by simp [recoverStep, Act.Alone]) (n := 1) rfl, congrArg Seat.loop hseat,
    congrArg Seat.phase hseat, (congrArg Seat.ctxDone hseat).trans hlive, congrArg Seat.store hseat,
    congrArg Seat.locks hseat⟩

variable (cfg) in
/-- With nothing RUNNING, the recovery of a poll leaves everything as it is. -/
theorem recoverStep_idle (hs : Ready w d (.dispatching []) s) (t : Time) :
    ∃ s', Continues cfg w t t s [recoverStep w d t] s' ∧ Ready w d .recovered s' ∧
      s'.store = s.store := by
  obtain ⟨s', hcont, hloop, hphase, hlive, hstore, hlocks⟩ :=
    recoverStep_spec cfg hs.loop hs.live (recoverExpiredRunningJobs_none (x := d.recovering t) hs.calm)
  refine ⟨s', hcont, ⟨hloop, hphase.trans hs.idle, hlive, ?_, ?_, ?_, ?_⟩, hstore⟩
  · rw [hstore, hlocks]
    exact hs.unlocked
  · rw [hstore]
    exact hs.calm
  · rw [hstore]
    exact hs.unused
  · rw [hstore]
    exact hs.distinct

/-- Once all jobs that wait are due, the polls of `w` leave none of them. -/
theorem drain_spec (hreach : (cluster cfg).Reachable s) (hs : Ready w d (.dispatching []) s)
    (hdue : ∀ r ∈ s.store.jobs.rows, r.Waits → r.runAt ≤ t) (result : RawMessage) :
    ∃ ys s', Continues cfg w t t s ys s' ∧ Drains s.store s'.store ∧
      ∀ r ∈ s'.store.jobs.rows, ¬r.Waits := by
  -- by induction on the number of jobs that wait
  induction hn : s.store.waiting.ncard using Nat.strong_induction_on generalizing s with
  | _ n ih =>
    by_cases hwaits : ∃ r ∈ s.store.jobs.rows, r.Waits
    swap
    · exact ⟨[], s, .refl t s, .refl _, fun r hr hw => hwaits ⟨r, hr, hw⟩⟩
    obtain ⟨r₀, hr₀, hw₀⟩ := hwaits
    obtain ⟨s₁, hcont, hs₁, hstore⟩ := recoverStep_idle cfg hs t
    have hreach₁ := hreach.execFrom hcont.exec
    obtain ⟨ys, s₂, hround, hs₂, hdrains, hsucceeded⟩ := claimRound_spec hreach₁ hs₁ t result
    rw [hstore] at hdrains hsucceeded
    -- the batch is not empty, and its jobs do not wait any more
    have hclaimable := ((reachable_sound hreach).log.coherent (Table.find?_key hr₀)).claimableAt hw₀
      (hdue r₀ hr₀ hw₀)
    obtain ⟨r₁, hr₁⟩ := List.exists_mem_of_ne_nil _ (dueJobs_ne_nil (cfg.worker w) hr₀ hclaimable)
    obtain ⟨hm₁, hcl₁, -⟩ := mem_dueJobs hr₁
    obtain ⟨r', hr', hok⟩ := hsucceeded r₁ hr₁
    have hlt := hdrains.ncard_waiting_lt hm₁ hcl₁.1 hr' hok
    have hdue₂ : ∀ r ∈ s₂.store.jobs.rows, r.Waits → r.runAt ≤ t := by
      intro r' hr' hw'
      obtain ⟨r, hr, -, rfl | ⟨-, hok⟩⟩ := hdrains.row_of hr'
      · exact hdue _ hr hw'
      · exact absurd hok hw'.ne_succeeded
    obtain ⟨zs, s', hrest, hdrains', hdone⟩ := ih _ (hn ▸ hlt) (hreach₁.execFrom hround.exec) hs₂ hdue₂ rfl
    exact ⟨_, s', (hcont.append le_rfl hround).append le_rfl hrest, hdrains.trans hdrains', hdone⟩

/-! ### All jobs that are RUNNING -/

/-- For every job of the table, ids that are not in use. -/
structure Draws.Fresh (d : Draws) (st : Store) : Prop where
  unused : ∀ i, ∀ r ∈ st.jobs.rows, st.Unused (d i r.id).val
  distinct : d.Distinct st

instance (d : Draws) (st : Store) : Decidable (d.Distinct st) :=
  inferInstanceAs (Decidable (∀ i j, ∀ r ∈ st.jobs.rows, ∀ r' ∈ st.jobs.rows,
    d i r.id = d j r'.id → i = j ∧ r.id = r'.id))

instance (d : Draws) (st : Store) : Decidable (d.Fresh st) :=
  decidable_of_iff ((∀ i, ∀ r ∈ st.jobs.rows, st.Unused (d i r.id).val) ∧ d.Distinct st)
    ⟨fun h => ⟨h.1, h.2⟩, fun h => ⟨h.unused, h.distinct⟩⟩

/-- The recovery gets through, and the ids for the other stages stay free. -/
theorem recovery_commits (hfresh : d.Fresh st) (h₀ : 0 ≤ t) (ht : t ≤ retryHorizon) :
    (recoverExpiredRunningJobs (d.recovering t) fun _ => false).Commits st fun _ st' =>
      ∀ i ≠ Stage.recovery, ∀ r ∈ st.jobs.rows, st'.Unused (d i r.id).val := by
  let items := st.jobs.rows.filter fun r => decide (r.ExpiredAt t) && !false
  have hitems : ∀ r ∈ items, r ∈ st.jobs.rows ∧ r.status = .running := by
    intro r hr
    obtain ⟨hm, hsel⟩ := List.mem_filter.1 hr
    simp only [Bool.not_false, Bool.and_true, decide_eq_true_eq] at hsel
    exact ⟨hm, hsel.1⟩
  have hsupplied : Supplied (fun k => (d .recovery k).val)
      (fun r st => st.jobs.find? r.id = some r ∧ r.status = .running)
      (fun u => ∃ i ≠ Stage.recovery, ∃ r ∈ st.jobs.rows, u = (d i r.id).val) items st :=
    { nodup := nodup_of_sublist_perm List.filter_sublist (List.Subperm.refl _)
      distinct := fun r hr r' hr' he =>
        (hfresh.distinct _ _ r (hitems r hr).1 r' (hitems r' hr').1 (Subtype.ext he)).2
      spared := by
        rintro r hr ⟨i, hi, r', hr', he⟩
        exact hi (hfresh.distinct _ _ r (hitems r hr).1 r' hr' (Subtype.ext he)).1.symm
      unused := fun r hr => hfresh.unused _ r (hitems r hr).1
      guarded := fun r hr => ⟨Table.find?_key (hitems r hr).1, (hitems r hr).2⟩
      kept := by
        rintro u ⟨i, -, r, hr, rfl⟩
        exact hfresh.unused i r hr }
  obtain ⟨ids, st', hforEach, hkept⟩ := forEach_commits (f := recoverJob (d.recovering t))
    (fun r st hg hu => by
      refine (recoverJob_commits rfl rfl h₀ ht hg.1 hg.2 hu).mono fun _ st' h => ⟨h.1, ?_⟩
      rintro r' hne ⟨hr', hrun'⟩
      exact ⟨(h.2 _ hne).trans hr', hrun'⟩) hsupplied
  refine ⟨ids, st', ?_, fun i hi r hr => hkept _ ⟨i, hi, r, hr, rfl⟩⟩
  simp only [recoverExpiredRunningJobs, Tx.bind_eq_ok, Tx.read_eq_ok]
  exact ⟨_, _, ⟨rfl, rfl⟩, hforEach⟩

/-- Every RUNNING job is freed, and no other row has changed. -/
structure Swept (st st' : Store) : Prop where
  row : ∀ r ∈ st.jobs.rows, ∃ r', st'.jobs.find? r.id = some r' ∧
    (r.status = .running ∧ Freed r r' ∨ r.status ≠ .running ∧ r' = r)
  none : ∀ k, st.jobs.find? k = none → st'.jobs.find? k = none

theorem Swept.of_recovery {x : RecoverArgs} {ids : List UUID}
    (hexpired : ∀ r ∈ st.jobs.rows, r.status = .running → r.ExpiredAt x.now)
    (h : recoverExpiredRunningJobs x (fun _ => false) st = .ok (ids, st')) : Swept st st' := by
  refine ⟨fun r hr => ?_, fun k hk => ?_⟩
  · by_cases hrun : r.status = .running
    · obtain ⟨r', hr', hfreed, -⟩ := (recovery_rows hexpired h hr).1 hrun rfl
      exact ⟨r', hr', .inl ⟨hrun, hfreed⟩⟩
    · exact ⟨r, (recovery_rows hexpired h hr).2 (.inl hrun), .inr ⟨hrun, rfl⟩⟩
  · rcases recoverExpiredRunningJobs_row h k with hsame | ⟨r, hr, -⟩
    · exact hsame.trans hk
    · rw [hk] at hr
      cases hr

/-- A recovery after all leases frees every RUNNING job. -/
theorem sweep_spec (hreach : (cluster cfg).Reachable s) (hloop : (s.workers w).loop = .dispatching [])
    (hidle : (s.workers w).slots 0 = .idle) (hlive : (s.workers w).ctxDone = false)
    (hunlocked : ∀ r ∈ s.store.jobs.rows, s.locks r.id = none) (hfresh : d.Fresh s.store)
    (h₀ : 0 ≤ t) (ht : t ≤ retryHorizon)
    (hleases : ∀ r ∈ s.store.jobs.rows, ∀ u, r.lockedUntil = some u → u < t) :
    ∃ s', Continues cfg w t t s [recoverStep w d t] s' ∧ Ready w d .recovered s' ∧
      Swept s.store s'.store := by
  have hexpired : ∀ r ∈ s.store.jobs.rows, r.status = .running → r.ExpiredAt t := by
    intro r hr hrun
    obtain ⟨u, hu, hex⟩ := ((reachable_sound hreach).log.coherent (Table.find?_key hr)).expiredAt hrun
    exact hex t (hleases r hr u hu)
  obtain ⟨ids, st', hrecover, hkept⟩ := recovery_commits hfresh h₀ ht
  have hswept : Swept s.store st' := .of_recovery hexpired hrecover
  have hold : ∀ r' ∈ st'.jobs.rows, ∃ r ∈ s.store.jobs.rows, r.id = r'.id ∧
      (r.status = .running ∧ Freed r r' ∨ r.status ≠ .running ∧ r' = r) :=
    fun r' hr' => row_before hswept.row hswept.none hr'
  obtain ⟨s', hcont, hloop', hphase, hlive', rfl, hlocks⟩ := recoverStep_spec cfg hloop hlive hrecover
  refine ⟨s', hcont, ⟨hloop', hphase.trans hidle, hlive', fun r' hr' => ?_, fun r' hr' => ?_,
    fun r' hr' _ => ?_, fun i j r₁ h₁ r₂ h₂ he => ?_⟩, hswept⟩
  · obtain ⟨r, hr, hid, -⟩ := hold r' hr'
    rw [hlocks, ← hid]
    exact hunlocked r hr
  · obtain ⟨r, hr, -, ⟨-, hfreed⟩ | ⟨hrun, rfl⟩⟩ := hold r' hr'
    · rw [hfreed.status]
      split <;> decide
    · exact hrun
  · obtain ⟨r, hr, hid, -⟩ := hold r' hr'
    rw [← hid]
    exact ⟨hkept .claim (by decide) r hr, hkept .completion (by decide) r hr⟩
  · obtain ⟨r, hr, hid, -⟩ := hold r₁ h₁
    obtain ⟨r', hr', hid', -⟩ := hold r₂ h₂
    rw [← hid, ← hid'] at he ⊢
    exact hfresh.distinct i j r hr r' hr' he

variable (cfg w) in
/-- The worker is restarted, and the Redis keys of the jobs expire. -/
theorem restart_spec (t : Time) (s : Cluster) :
    ∃ ys s', Continues cfg w t t s ys s' ∧ (s'.workers w).loop = .dispatching [] ∧
      (s'.workers w).slots 0 = .idle ∧ (s'.workers w).ctxDone = false ∧ s'.store = s.store ∧
      ∀ r ∈ s.store.jobs.rows, s'.locks r.id = none := by
  obtain ⟨locks, hexpire, hgone, -⟩ := takes_expireLocks cfg (w := w)
    (v := ⟨.dispatching [], .idle, false, s.store, s.locks, s.history⟩)
    (s.store.jobs.rows.map fun r => r.id)
  obtain ⟨s', hexec, hseat⟩ := (takes_restart.cons hexpire) s rfl
  have hlocks : s'.locks = locks := congrArg Seat.locks hseat
  refine ⟨_, s', .of_times hexec (by simp [Act.Alone]) (n := 0) ?_, congrArg Seat.loop hseat,
    congrArg Seat.phase hseat, congrArg Seat.ctxDone hseat, congrArg Seat.store hseat, fun r hr => ?_⟩
  · simp [times, Act.now?, Function.comp_def]
  · rw [hlocks]
    exact hgone _ (List.mem_map_of_mem hr)

end Rounds

/-- How a job ends when the backlog is worked off: a final or paused job stays as it is; a RUNNING one in
its last try is dead-lettered; every other one SUCCEEDS. -/
def JobRow.EndsAs (r r' : JobRow) : Prop :=
  if r.status ∈ [Status.succeeded, .cancelled, .deadLettered, .paused] then r' = r
  else if r.status = .running ∧ r.maxRetries < r.retryCount + 1 then r'.status = .deadLettered
  else r'.status = .succeeded

/-- A job that the recovery frees or leaves alone, and that SUCCEEDS if it waits then. -/
theorem JobRow.endsAs_of_swept {r₁ r' : JobRow} (hfailed : r.status ≠ .failed)
    (hswept : r.status = .running ∧ Freed r r₁ ∨ r.status ≠ .running ∧ r₁ = r)
    (hends : r₁.Waits → r'.status = .succeeded) (hstays : ¬r₁.Waits → r' = r₁) : r.EndsAs r' := by
  unfold JobRow.EndsAs
  rcases hswept with ⟨hrun, hfreed⟩ | ⟨hrun, rfl⟩
  · rw [if_neg (by simp [hrun])]
    have hstatus := hfreed.status
    by_cases hlast : r.maxRetries < r.retryCount + 1
    · rw [if_pos ⟨hrun, hlast⟩]
      rw [if_pos hlast] at hstatus
      rw [hstays (by simp [JobRow.Waits, hstatus])]
      exact hstatus
    · rw [if_neg fun h => hlast h.2]
      rw [if_neg hlast] at hstatus
      exact hends (by simp [JobRow.Waits, hstatus])
  · by_cases hfinal : r₁.status ∈ [Status.succeeded, .cancelled, .deadLettered, .paused]
    · rw [if_pos hfinal]
      refine hstays fun hw => ?_
      revert hw hfinal
      unfold JobRow.Waits
      cases r₁.status <;> decide
    · rw [if_neg hfinal, if_neg fun h => hrun h.1]
      refine hends ?_
      revert hfinal hrun hfailed
      unfold JobRow.Waits
      cases r₁.status <;> decide

/-- From some time on, all of the jobs are due. -/
theorem exists_runAt_le (rows : List JobRow) (T : Time) : ∃ T', T ≤ T' ∧ ∀ r ∈ rows, r.runAt ≤ T' := by
  induction rows with
  | nil => exact ⟨T, le_rfl, by simp⟩
  | cons r rest ih =>
    obtain ⟨T', hle, hrest⟩ := ih
    refine ⟨max T' r.runAt, hle.trans (le_max_left _ _), ?_⟩
    intro r' hr'
    rcases List.mem_cons.1 hr' with rfl | hr'
    · exact le_max_right _ _
    · exact (hrest r' hr').trans (le_max_left _ _)

/-- **The backlog can be worked off.**  From every reachable state, for every worker and at every time `T`
after the leases of the RUNNING jobs: the worker, restarted, ends every job that is neither final nor
paused in steps of its own, once the Redis keys have expired.  No other worker and no operator takes
part, and no row is hidden from the polls. -/
theorem backlog_drainable (cfg : Config) (s : Cluster) (w : String) (T : Time) (d : Draws)
    (result : RawMessage) (hreach : (cluster cfg).Reachable s) (h₀ : 0 ≤ T) (hT : T ≤ retryHorizon)
    (hleases : ∀ r ∈ s.store.jobs.rows, ∀ t, r.lockedUntil = some t → t < T)
    (hfresh : d.Fresh s.store) :
    ∃ ys T' s', Continues cfg w T T' s ys s' ∧
      ∀ r ∈ s.store.jobs.rows, ∃ r', s'.store.jobs.find? r.id = some r' ∧ r.EndsAs r' := by
  obtain ⟨ys₀, s₀, hcont₀, hloop₀, hidle₀, hlive₀, hstore₀, hlocks₀⟩ := restart_spec cfg w T s
  have hreach₀ := hreach.execFrom hcont₀.exec
  -- the first poll frees what is RUNNING
  obtain ⟨s₁, hcont₁, hs₁, hswept⟩ := sweep_spec hreach₀ hloop₀ hidle₀ hlive₀
    (hstore₀ ▸ hlocks₀) (hstore₀ ▸ hfresh) h₀ hT (hstore₀ ▸ hleases)
  rw [hstore₀] at hswept
  have hreach₁ := hreach₀.execFrom hcont₁.exec
  obtain ⟨ys₂, s₂, hcont₂, hs₂, hdrains₂, -⟩ := claimRound_spec hreach₁ hs₁ T result
  -- the later ones wait until all retries are due
  obtain ⟨T', hTT', hdue⟩ := exists_runAt_le s₂.store.jobs.rows T
  obtain ⟨ys₃, s', hcont₃, hdrains₃, hdone⟩ := drain_spec (hreach₁.execFrom hcont₂.exec) hs₂
    (fun r hr _ => hdue r hr) result
  refine ⟨_, T', s', ((hcont₀.append le_rfl hcont₁).append le_rfl hcont₂).append hTT' hcont₃, ?_⟩
  intro r hr
  obtain ⟨r₁, hr₁, hcase₁⟩ := hswept.row r hr
  obtain ⟨hm₁, hid₁⟩ := Table.find?_eq_some_iff.1 hr₁
  replace hid₁ : r₁.id = r.id := hid₁
  obtain ⟨r', hr', hcase'⟩ := (hdrains₂.trans hdrains₃).row r₁ hm₁
  have hm' := (Table.find?_eq_some_iff.1 hr').1
  rw [hid₁] at hr'
  have hfailed := (reachable_sound hreach).log.not_failed (Table.find?_key hr)
  refine ⟨r', hr', JobRow.endsAs_of_swept hfailed hcase₁ (fun hw => ?_) fun hw => ?_⟩
  · rcases hcase' with rfl | ⟨-, hok⟩
    · exact absurd hw (hdone _ hm')
    · exact hok
  · exact hcase'.resolve_right fun h => hw h.1

namespace Demo

/-- Ids for the stages of the jobs of the deployment. -/
def spareIDs : Draws
  | .recovery, k => drawn (500 + k)
  | .claim, k => drawn (600 + k)
  | .completion, k => drawn (700 + k)

end Demo

open Demo in
/-- `a` is stuck in the executor with the job and its lock; `b` can still finish it. -/
theorem backlog_drainable_stuck :
    ∃ s ys T' s' r', (cluster demo).exec ([submit] ++ poll "a" 1 11 ++ lock "a" 0 ++ execute "a" 0)
        = some s ∧ s.locks 1 = some "a" ∧ Continues demo "b" (40 * second) T' s ys s' ∧
      s'.store.jobs.find? 1 = some r' ∧ r'.status = .succeeded := by
  obtain ⟨s, hs, hlock, ⟨r, hr, hid, hrun, hretries⟩, hleases, hfresh⟩ :
      ∃ s, (cluster demo).exec ([submit] ++ poll "a" 1 11 ++ lock "a" 0 ++ execute "a" 0) = some s ∧
        s.locks 1 = some "a" ∧
        (∃ r ∈ s.store.jobs.rows, r.id = 1 ∧ r.status = .running ∧ ¬r.maxRetries < r.retryCount + 1) ∧
        (∀ r ∈ s.store.jobs.rows, r.lockedUntil.all (fun t => decide (t < 40 * second)) = true) ∧
        spareIDs.Fresh s.store :=
    System.exists_of_exec (by decide +kernel)
  have hover : ∀ r ∈ s.store.jobs.rows, ∀ t, r.lockedUntil = some t → t < 40 * second := by
    intro r hr t ht
    simpa [ht] using hleases r hr
  obtain ⟨ys, T', s', hcont, hends⟩ := backlog_drainable demo s "b" (40 * second) spareIDs "" ⟨_, hs⟩
    (by decide) (by decide) hover hfresh
  obtain ⟨r', hr', hend⟩ := hends r hr
  unfold JobRow.EndsAs at hend
  rw [if_neg (by simp [hrun]), if_neg fun h => hretries h.2] at hend
  rw [hid] at hr'
  exact ⟨s, ys, T', s', r', hs, hlock, hcont, hr', hend⟩

end JobScheduler
