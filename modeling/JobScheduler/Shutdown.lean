import JobScheduler.Coherence
import JobScheduler.Refinement

/-!
# Stopping a worker

When its context is cancelled, `Run` stops dispatching, waits for its slots and returns.  A batch that is
not dispatched yet is dropped, and its jobs stay RUNNING under the stopped worker until their leases are
over and some worker recovers them.

* `Retained` — as long as the databases answer, a worker holds every claim it owns.
* `Worker.Settled` — once the call that was under way has returned, the loop of a cancelled worker changes
  nothing any more.
* `shutdown_leaves_held` — so what a stopped worker leaves behind are claims it held when its context
  was cancelled, and those of a `ClaimDueJobs` that was under way then; the recovery takes them.
* `claim_left_behind` — one run in which `Run` returns and leaves a job behind.
-/

namespace JobScheduler

open KeyedTable Transaction TransitionSystem

variable {cfg : Config} {s s' s₁ : Cluster} {st : Store} {w : String} {c : ClaimedJob} {j : UUID}
  {h es : List Entry}

/-! ### Workers that are served -/

/-- The claim is in the batch of the worker, or in one of its slots. -/
def Worker.Holds (wk : Worker) (c : ClaimedJob) : Prop :=
  c ∈ wk.loop.batch ∨ ∃ i, (wk.slots i).claim? = some c

/-- `Run` has returned: the loop has ended, and so have the slots it waits for. -/
def Worker.Returned (cfg : WorkerConfig) (wk : Worker) : Prop :=
  wk.loop = .stopped ∧ ∀ i < cfg.slots, wk.slots i = .exited

instance (wk : Worker) : Decidable (wk.loop = .stopped) :=
  match wk.loop with
  | .dispatching _ => isFalse nofun
  | .recovered => isFalse nofun
  | .stopped => isTrue rfl

instance (phase : Phase) : Decidable (phase = .exited) :=
  match phase with
  | .idle => isFalse nofun
  | .received _ => isFalse nofun
  | .missed _ => isFalse nofun
  | .locked _ => isFalse nofun
  | .executing _ _ _ => isFalse nofun
  | .finished _ => isFalse nofun
  | .exited => isTrue rfl

instance (cfg : WorkerConfig) (wk : Worker) : Decidable (wk.Returned cfg) :=
  inferInstanceAs (Decidable (_ ∧ ∀ i < cfg.slots, _))

/-- What the connection does to the call a step makes; a step without a call counts as answered. -/
def LoopAct.link : LoopAct → Link
  | .recover _ _ link => link
  | .claim _ _ link => link
  | .dispatch _ => .up
  | .shutdown => .up
  | .stop => .up

/-- What the connection does to the call of a slot. -/
def SlotAct.link : SlotAct → Link
  | .acquire link => link
  | .release _ link => link
  | .createAttempt _ _ link => link
  | .execute => .up
  | .extendLease _ link => link
  | .extendLock link => link
  | .stopRenewal => .up
  | .finish _ => .up
  | .complete _ _ _ link => link
  | .fail _ _ _ _ _ link => link
  | .unlock link => link
  | .exit => .up

/-- The time a failed execution is retried at can be written into its event. -/
def Phase.RetryMarshals (clock clock' : Time) : Phase → Prop
  | .executing j _ (some (.error err)) =>
    (FieldValue.time (decideOutcome clock clock' j err).nextRunAt).Marshals
  | _ => True

instance (clock clock' : Time) : DecidablePred (Phase.RetryMarshals clock clock')
  | .executing j _ (some (.error err)) =>
    inferInstanceAs (Decidable (FieldValue.time (decideOutcome clock clock' j err).nextRunAt).Marshals)
  | .executing _ _ (some (.ok _)) => isTrue trivial
  | .executing _ _ none => isTrue trivial
  | .idle => isTrue trivial
  | .received _ => isTrue trivial
  | .missed _ => isTrue trivial
  | .locked _ => isTrue trivial
  | .finished _ => isTrue trivial
  | .exited => isTrue trivial

/-- The ids a finalization draws are not in use, and its events can be written. -/
def SlotAct.Storable (st : Store) (phase : Phase) : SlotAct → Prop
  | .complete eventID _ _ _ => st.events.find? eventID = none
  | .fail ids _ clock clock' _ _ =>
    st.events.find? ids.failedEvent = none ∧ st.events.find? ids.outcomeEvent = none ∧
      ids.failedEvent ≠ ids.outcomeEvent ∧ st.deadLetters.find? ids.deadLetter = none ∧
      phase.RetryMarshals clock clock'
  | _ => True

instance (st : Store) (phase : Phase) : DecidablePred (SlotAct.Storable st phase)
  | .complete _ _ _ _ => inferInstanceAs (Decidable (_ = none))
  | .fail _ _ _ _ _ _ => inferInstanceAs (Decidable (_ ∧ _ ∧ _ ∧ _ ∧ _))
  | .acquire _ => isTrue trivial
  | .release _ _ => isTrue trivial
  | .createAttempt _ _ _ => isTrue trivial
  | .execute => isTrue trivial
  | .extendLease _ _ => isTrue trivial
  | .extendLock _ => isTrue trivial
  | .stopRenewal => isTrue trivial
  | .finish _ => isTrue trivial
  | .unlock _ => isTrue trivial
  | .exit => isTrue trivial

/-- The context of worker `w` is not cancelled, and the step, if it is one of `w`, gets an answer. -/
def Serving (w : String) (s : Cluster) (x : Act) : Prop :=
  (s.workers w).ctxDone = false ∧
    match x with
    | .api _ => True
    | .loop w' a => w' = w → a.link = .up
    | .slot w' i a => w' = w → a.link = .up ∧ a.Storable s.store ((s.workers w).slots i)
    | .crash w' => w' ≠ w
    | .expireLock _ => True

instance (w : String) (s : Cluster) : DecidablePred (Serving w s)
  | .api _ => inferInstanceAs (Decidable (_ ∧ True))
  | .loop w' a => inferInstanceAs (Decidable (_ ∧ (w' = w → a.link = .up)))
  | .slot w' i a =>
    inferInstanceAs (Decidable (_ ∧ (w' = w → a.link = .up ∧
      a.Storable s.store ((s.workers w).slots i))))
  | .crash w' => inferInstanceAs (Decidable (_ ∧ w' ≠ w))
  | .expireLock _ => inferInstanceAs (Decidable (_ ∧ True))

/-! ### Finalizations that are not refused -/

theorem updateJobs_commits (p : JobRow → Prop) [DecidablePred p] (f : JobRow → JobRow)
    (hf : ∀ r, (f r).id = r.id) (st : Store) :
    (updateJobs p f hf).Commits st fun n st' => n = st.jobs.count p ∧ st'.attempts = st.attempts ∧
      st'.deadLetters = st.deadLetters ∧ st'.events = st.events :=
  ⟨_, _, rfl, rfl, rfl, rfl, rfl⟩

theorem updateAttempts_commits (p : Attempt → Prop) [DecidablePred p] (f : Attempt → Attempt)
    (hf : ∀ a, (f a).id = a.id) (st : Store) :
    (updateAttempts p f hf).Commits st fun n st' => n = st.attempts.count p ∧ st'.jobs = st.jobs ∧
      st'.deadLetters = st.deadLetters ∧ st'.events = st.events :=
  ⟨_, _, rfl, rfl, rfl, rfl, rfl⟩

theorem insertDeadLetter_commits {d : DeadLetterJob} (hd : st.deadLetters.find? d.id = none) :
    (insertDeadLetter d).Commits st fun _ st' => st'.events = st.events ∧
      ∀ k ≠ d.id, st'.deadLetters.find? k = st.deadLetters.find? k := by
  obtain ⟨letters, hins⟩ := Table.exists_insert (r := d) hd
  refine ⟨(), _, insertDeadLetter_eq_ok.2 ⟨letters, hins, rfl⟩, rfl, ?_⟩
  intro k hk
  rw [Table.find?_insert hins]
  exact if_neg hk

theorem insertJobEvent_commits {now : Time} {eventID jobID tenantID : UUID} {eventType : EventType}
    {source : String} {payload : List (String × FieldValue)}
    (hev : st.events.find? eventID = none) (hp : ∀ field ∈ payload, field.2.Marshals) :
    (insertJobEvent now eventID jobID tenantID eventType source payload).Commits st fun _ st' =>
      st'.jobs = st.jobs ∧ st'.deadLetters = st.deadLetters ∧
        ∀ k ≠ eventID, st'.events.find? k = st.events.find? k := by
  obtain ⟨events, hins⟩ := Table.exists_insert
    (r := jobEvent now eventID jobID tenantID eventType source payload) hev
  refine ⟨(), _, insertJobEvent_eq_ok.2 ⟨hp, events, hins, rfl⟩, rfl, rfl, ?_⟩
  intro k hk
  rw [Table.find?_insert hins]
  exact if_neg hk

/-- The row of a claim that owns its job matches the `WHERE` clause of every finalization. -/
theorem Log.owner_matches (hl : Log h st) (ho : owner c.id h = some (w, c)) :
    ∃ r ∈ st.jobs.rows, r.id = c.id ∧ r.tenantID = c.tenantID ∧ r.lockedBy = some w ∧
      r.status = .running := by
  obtain ⟨r, hr, hrun, hby, -⟩ := hl.owner_row ho
  obtain ⟨hmem, hid⟩ := Table.find?_eq_some_iff.1 hr
  obtain ⟨r', hr', hidentity⟩ := hl.job_of_claimed (owner_eq_some ho).1
  obtain rfl := Option.some.inj (hr.symm.trans hr')
  exact ⟨r, hmem, hid, congrArg JobIdentity.tenantID hidentity, hby, hrun⟩

theorem Log.owner_count (hl : Log h st) (ho : owner c.id h = some (w, c)) :
    st.jobs.count (fun r => r.id = c.id ∧ (r.lockedBy = some w ∧ r.status = .running)) ≠ 0 := by
  obtain ⟨r, hmem, hid, -, hby, hrun⟩ := hl.owner_matches ho
  exact Table.count_ne_zero.2 ⟨r, hmem, hid, hby, hrun⟩

theorem Log.owner_attempt_count (hl : Log h st) (ho : owner c.id h = some (w, c)) :
    st.attempts.count (fun a => a.id = c.activeAttemptID ∧ a.status = .running) ≠ 0 := by
  obtain ⟨a, ha, -, hrun⟩ := hl.owner_attempt ho
  obtain ⟨hmem, hid⟩ := Table.find?_eq_some_iff.1 ha
  exact Table.count_ne_zero.2 ⟨a, hmem, hid, hrun⟩

theorem releaseClaim_commits (hl : Log h st) (ho : owner c.id h = some (w, c)) (now : Time) :
    (releaseClaim now c.id w .retryScheduled).Commits st fun _ _ => True := by
  refine .bind (updateJobs_commits _ _ _ st) ?_
  rintro n st₁ ⟨rfl, -⟩
  exact (Tx.Commits.require (hl.owner_count ho)).mono fun _ _ _ => trivial

theorem completeExecution_commits (hl : Log h st) (ho : owner c.id h = some (w, c)) {eventID : UUID}
    (hev : st.events.find? eventID = none) (now : Time) (durationMS : Int) (result : RawMessage) :
    (completeExecution now eventID c w durationMS result).Commits st fun _ st' =>
      ∀ k ≠ eventID, st'.events.find? k = st.events.find? k := by
  refine .bind (updateJobs_commits _ _ _ st) ?_
  rintro n st₁ ⟨rfl, hattempts, -, hevents⟩
  refine .bind (.require (Table.count_ne_zero.2 (hl.owner_matches ho))) ?_
  rintro - _ rfl
  refine .bind (updateAttempts_commits _ _ _ _) ?_
  rintro m st₂ ⟨rfl, -, -, hevents'⟩
  rw [hattempts]
  refine .bind (.require (hl.owner_attempt_count ho)) ?_
  rintro - _ rfl
  rw [← hevents, ← hevents'] at hev ⊢
  exact (insertJobEvent_commits hev (by simp [FieldValue.Marshals])).mono fun _ _ h => h.2.2

theorem failExecution_commits (hl : Log h st) (ho : owner c.id h = some (w, c)) {ids : FailureIDs}
    (hfailed : st.events.find? ids.failedEvent = none)
    (houtcome : st.events.find? ids.outcomeEvent = none)
    (hne : ids.failedEvent ≠ ids.outcomeEvent) (hletter : st.deadLetters.find? ids.deadLetter = none)
    (now : Time) (durationMS : Int) (outcome : ExecutionResult) (nextStatus : Status)
    (nextRetryCount : Int) {nextRunAt : Time} (hrun : (FieldValue.time nextRunAt).Marshals) :
    (failExecution now ids c w durationMS outcome nextStatus nextRetryCount nextRunAt).Commits st
      fun _ _ => True := by
  refine .bind (updateAttempts_commits _ _ _ st) ?_
  rintro n st₁ ⟨rfl, hjobs, hletters, hevents⟩
  refine .bind (.require (hl.owner_attempt_count ho)) ?_
  rintro - _ rfl
  rw [← hevents] at hfailed houtcome
  refine .bind (insertJobEvent_commits hfailed (by simp [FieldValue.Marshals])) ?_
  rintro - st₂ ⟨hjobs', hletters', hevents'⟩
  rw [← hevents' _ hne.symm] at houtcome
  rw [← hletters, ← hletters'] at hletter
  have hjob : st₂.jobs.count (fun r => r.id = c.id ∧ (r.lockedBy = some w ∧ r.status = .running))
      ≠ 0 := by
    rw [hjobs', hjobs]
    exact hl.owner_count ho
  split
  · refine .bind (updateJobs_commits _ _ _ st₂) ?_
    rintro m st₃ ⟨rfl, -, hletters₃, hevents₃⟩
    refine .bind (.require hjob) ?_
    rintro - _ rfl
    rw [← hletters₃] at hletter
    refine .bind (insertDeadLetter_commits hletter) ?_
    rintro - st₄ ⟨hevents₄, -⟩
    rw [← hevents₃, ← hevents₄] at houtcome
    exact (insertJobEvent_commits houtcome (by simp [FieldValue.Marshals])).mono fun _ _ _ => trivial
  · refine .bind (updateJobs_commits _ _ _ st₂) ?_
    rintro m st₃ ⟨rfl, -, -, hevents₃⟩
    refine .bind (.require hjob) ?_
    rintro - _ rfl
    rw [← hevents₃] at houtcome
    refine (insertJobEvent_commits houtcome ?_).mono fun _ _ _ => trivial
    simpa [FieldValue.Marshals] using hrun

/-! ### What a worker owns, it holds -/

/-- Every job the worker owns is claimed by a claim it holds. -/
def Retained (w : String) (s : Cluster) : Prop :=
  ∀ j c, owner j s.history = some (w, c) → (s.workers w).Holds c

/-- An owner after more entries is claimed by one of them, or owned the job before. -/
theorem owner_append_eq_some (ho : owner j (es ++ h) = some (w, c)) :
    .claimed w c ∈ es ∨ owner j h = some (w, c) := by
  induction es with
  | nil => exact .inr ho
  | cons e es ih =>
    rcases owner_cons_eq_some ho with ⟨rfl, -⟩ | hold
    · exact .inl List.mem_cons_self
    · exact (ih hold).imp_left (List.mem_cons_of_mem _)

/-- A call that gets through when its claim owns the job, and ends the ownership. -/
theorem owner_record_ne {tx : RepoTx Unit} {e : Entry}
    (hok : owner c.id s.history = some (w, c) → tx.Commits s.store fun _ _ => True)
    (hend : owner c.id (e :: s.history) = none) :
    owner c.id (s.record (tx.commit .up .connection s.store) fun _ => [e]).history ≠ some (w, c) := by
  rcases s.record_cases tx .up .connection (fun _ => [e]) with ⟨hnone, -, hh⟩ | ⟨_, -, -, hh⟩
  · intro ho
    rw [hh] at ho
    obtain ⟨u, hu⟩ := (hok ho).commit_up .connection
    rw [hu] at hnone
    cases hnone
  · rw [hh, List.singleton_append, hend]
    simp

/-- A slot that gets its answers keeps a claim as long as the claim owns its job. -/
theorem SlotMove.keeps {wcfg : WorkerConfig} {before after : Phase} {a : SlotAct}
    (hm : SlotMove wcfg s w before a s₁ after) (hs : Sound s) (hb : before.Backed s.history w)
    (hup : a.link = .up) (hfresh : a.Storable s.store before) (hc : before.claim? = some c)
    (ho : owner c.id s₁.history = some (w, c)) : after.claim? = some c := by
  cases hm with
  | unanswered hm hlink hlocks => exact absurd hup hlink
  | @released j now link =>
    obtain rfl := Option.some.inj hc
    obtain rfl : link = .up := hup
    exact absurd ho (owner_record_ne (fun h => releaseClaim_commits hs.log h now) (by simp [owner]))
  | attempted hnil => exact absurd hnil (hs.log.activeAttemptID_ne_nil (Pending.claimed hb))
  | @completed j result eventID durationMS now link =>
    obtain rfl := Option.some.inj hc
    obtain rfl : link = .up := hup
    exact absurd ho (owner_record_ne
      (fun h => (completeExecution_commits hs.log h hfresh now durationMS result).mono
        fun _ _ _ => trivial) (by simp [owner]))
  | @failed j err ids durationMS clock clock' now link =>
    obtain rfl := Option.some.inj hc
    obtain rfl : link = .up := hup
    obtain ⟨hfailed, houtcome, hne, hletter, hrun⟩ := hfresh
    exact absurd ho (owner_record_ne
      (fun h => failExecution_commits hs.log h hfailed houtcome hne hletter now durationMS _ _ _ hrun)
      (by simp [owner]))
  | _ => exact hc

/-- A worker whose batch is empty holds its claims in its slots. -/
theorem Worker.Holds.in_slot {wk : Worker} (hh : wk.Holds c) (hb : wk.loop.batch = []) :
    ∃ i, (wk.slots i).claim? = some c := by
  rcases hh with hm | hi
  · rw [hb] at hm
    simp at hm
  · exact hi

/-- The loop of a worker that is served drops no claim. -/
theorem Retained.loop {a : LoopAct} (hk : Retained w s) (hctx : (s.workers w).ctxDone = false)
    (hup : a.link = .up) (h : LoopMove (cfg.worker w) s w a s')
    (he : Emission cfg s (.loop w a) s' es) : Retained w s' := by
  intro j c ho
  rw [he.history] at ho
  cases h with
  | recovered hloop =>
    rcases owner_append_eq_some ho with hm | hold
    · cases he.emits _ hm
    · rw [Cluster.setLoop, Cluster.setWorker_self]
      exact .inr ((hk j c hold).in_slot (by rw [hloop]; rfl))
  | @claimed x locked link rest hloop hrest =>
    obtain rfl : link = .up := hup
    rw [Cluster.setLoop, Cluster.setWorker_self]
    rcases owner_append_eq_some ho with hm | hold
    · -- a new owner is in the batch that was committed, and reported
      rcases s.record_cases (claimDueJobs { x with workerID := w, lockTTL := (cfg.worker w).lockTTL }
        locked (cfg.worker w).batch) .up .connection
        (fun items => (items.map (Entry.claimed w)).reverse) with ⟨-, -, hh⟩ | ⟨items, -, hsome, hh⟩
      · have hes : es = [] := List.append_left_eq_self.1 (he.history.symm.trans hh)
        rw [hes] at hm
        simp at hm
      · have hes : es = (items.map (Entry.claimed w)).reverse :=
          List.append_cancel_right (he.history.symm.trans hh)
        have hreply := Tx.reply_of_committed_up hsome
        have hc : c ∈ items := by simpa [hes] using hm
        rcases hrest with hr | ⟨⟨e, hr⟩, -⟩
        · obtain rfl := Except.ok.inj (hr.symm.trans hreply)
          exact .inl hc
        · cases hr.symm.trans hreply
    · exact .inr ((hk j c hold).in_slot (by rw [hloop]; rfl))
  | @dispatched i head rest hloop hslot hi =>
    rcases owner_append_eq_some ho with hm | hold
    · cases he.emits _ hm
    · rw [Cluster.setSlot, Cluster.setWorker_self, Cluster.setLoop, Cluster.setWorker_self]
      rcases hk j c hold with hb | ⟨k, hk⟩
      · rw [hloop] at hb
        rcases List.mem_cons.1 hb with rfl | hrest
        · exact .inr ⟨i, by simp [Phase.claim?]⟩
        · exact .inl hrest
      · have hne : k ≠ i := by
          rintro rfl
          rw [hslot] at hk
          cases hk
        exact .inr ⟨k, by simpa [Function.update_of_ne hne] using hk⟩
  | shutdown =>
    rcases owner_append_eq_some ho with hm | hold
    · cases he.emits _ hm
    · rw [Cluster.setWorker_self]
      exact hk j c hold
  | stopped hloop hd =>
    rw [hctx] at hd
    cases hd

/-- The slots of a worker that is served drop no claim that owns its job. -/
theorem Retained.slot {i : ℕ} {a : SlotAct} {after : Phase} (hk : Retained w s) (hs : Sound s)
    (hup : a.link = .up) (hfresh : a.Storable s.store ((s.workers w).slots i))
    (h : SlotMove (cfg.worker w) s w ((s.workers w).slots i) a s₁ after)
    (he : Emission cfg s (.slot w i a) (s₁.setSlot w i after) es) :
    Retained w (s₁.setSlot w i after) := by
  intro j c ho
  have hold : owner j s.history = some (w, c) := by
    rw [he.history] at ho
    rcases owner_append_eq_some ho with hm | hold
    · cases he.emits _ hm
    · exact hold
  obtain rfl := (owner_eq_some hold).2
  rw [Cluster.setSlot, Cluster.setWorker_self, h.workers]
  rcases hk c.id c hold with hb | ⟨k, hk⟩
  · exact .inl hb
  · by_cases hki : k = i
    · subst hki
      have hafter := h.keeps hs ((hs.held w).slot k) hup hfresh hk ho
      exact .inr ⟨k, by simpa using hafter⟩
    · exact .inr ⟨k, by simpa [Function.update_of_ne hki] using hk⟩

/-- Steps that leave a worker's memory alone, and claim nothing for it. -/
theorem Retained.frame {x : Act} (hk : Retained w s) (he : Emission cfg s x s' es)
    (hnew : ∀ c, .claimed w c ∉ es) (hw : s'.workers w = s.workers w) : Retained w s' := by
  intro j c ho
  rw [he.history] at ho
  rw [hw]
  rcases owner_append_eq_some ho with hm | hold
  · exact absurd hm (hnew c)
  · exact hk j c hold

/-- **Step lemma.**  A step in which worker `w` is served keeps what it owns among what it holds. -/
theorem Retained.step {x : Act} (hk : Retained w s) (hr : (cluster cfg).Reachable s)
    (hx : Serving w s x) (h : step cfg s x = some s') : Retained w s' := by
  obtain ⟨es, he⟩ := reachable_emission hr h
  obtain ⟨hctx, hx⟩ := hx
  cases x with
  | api a =>
    rw [step_api] at h
    refine hk.frame he (fun c hm => ?_) (by rw [(apiStep_move h).workers])
    cases he.emits _ hm
  | loop w' a =>
    by_cases hne : w = w'
    · subst hne
      exact hk.loop hctx (hx rfl) (loopStep_move h) he
    · refine hk.frame he (fun c hm => ?_) ((loopStep_move h).workers_of_ne hne)
      cases he.emits _ hm
      exact hne rfl
  | slot w' i a =>
    obtain ⟨s₁, after, hmove, rfl⟩ := slotStep_move h
    by_cases hne : w = w'
    · subst hne
      exact hk.slot (reachable_sound hr) (hx rfl).1 (hx rfl).2 hmove he
    · refine hk.frame he (fun c hm => ?_) ?_
      · cases he.emits _ hm
      · rw [Cluster.setSlot, Cluster.setWorker_of_ne _ hne, hmove.workers]
  | crash w' =>
    obtain rfl := Option.some.inj h
    refine hk.frame he (fun c hm => ?_) (s.setWorker_of_ne (Ne.symm hx) _)
    cases he.emits _ hm
  | expireLock jobID =>
    obtain rfl := Option.some.inj h
    refine hk.frame he (fun c hm => ?_) rfl
    cases he.emits _ hm

/-- **Run lemma.** -/
theorem retained_always {xs : List Act} (hxs : (cluster cfg).EachStep (Serving w) xs) :
    (cluster cfg).Always (Retained w) xs :=
  System.always_of_eachStep (fun j c ho => by simp [cluster, Cluster.initial] at ho)
    (fun s x s' hr hk hx h => hk.step hr hx h) hxs

/-! ### What is left behind -/

/-- Nobody owns a recovered job until it is claimed again. -/
theorem owner_of_recovered (hm : .recovered j ∈ es) (hno : ∀ w c, .claimed w c ∉ es) :
    owner j (es ++ h) = none := by
  induction es with
  | nil => simp at hm
  | cons e es ih =>
    rw [List.cons_append]
    rcases List.mem_cons.1 hm with rfl | hm
    · simp [owner]
    · have hrest := ih hm fun w c hc => hno w c (List.mem_cons_of_mem _ hc)
      cases ho : owner j (e :: (es ++ h)) with
      | none => rfl
      | some o =>
        rcases owner_cons_eq_some ho with ⟨rfl, -⟩ | hold
        · exact absurd List.mem_cons_self (hno o.1 o.2)
        · rw [hrest] at hold
          cases hold

/-- A recovery that finds the lease of a job over, and its row not locked, ends the claim. -/
theorem Log.recovery_takes (hl : Log h st) {r : JobRow} (hr : r ∈ st.jobs.rows)
    {x : RecoverArgs} {locked : UUID → Bool} {ids : List UUID} {st' : Store}
    (hexp : r.ExpiredAt x.now) (hfree : locked r.id = false)
    (hrec : recoverExpiredRunningJobs x locked st = .ok (ids, st')) :
    r.id ∈ ids ∧ ∃ r', st'.jobs.find? r.id = some r' ∧ r'.status ≠ .running := by
  obtain ⟨hpath, hids, -⟩ := recoverExpiredRunningJobs_path (h := h) hrec
  have hmem : r.id ∈ ids := by
    rw [hids]
    exact List.mem_map_of_mem (List.mem_filter.2 ⟨hr, by simp [hexp, hfree]⟩)
  have howner : owner r.id ((ids.map Entry.recovered).reverse ++ h) = none :=
    owner_of_recovered (by simpa using hmem) (by simp)
  have hl' := hl.append hpath
  obtain ⟨r', hr', -⟩ := hpath.job_persists (Table.find?_key hr)
  refine ⟨hmem, r', hr', fun hrun => ?_⟩
  exact ((hl'.row_owner r.id).2 r' hr').running.1 hrun howner

/-! ### After the cancellation -/

/-- The context is cancelled, and no call of the loop is under way. -/
def Worker.Settled (wk : Worker) : Prop := wk.ctxDone = true ∧ wk.inFlight = false

theorem Worker.Settled.link_down {wk : Worker} {link : Link} (hw : wk.Settled)
    (hp : wk.Permits link) : link = .down := by
  rcases hp with hctx | hcall | hlink
  · exact absurd (hctx.symm.trans hw.1) (by decide)
  · exact absurd (hcall.symm.trans hw.2) (by decide)
  · exact hlink

/-- The first step of the loop after the cancellation is its last one that can change anything. -/
theorem loopStep_settles {a : LoopAct} (hctx : (s.workers w).ctxDone = true)
    (h : step cfg s (.loop w a) = some s') : (s'.workers w).Settled := by
  have hmove : LoopMove (cfg.worker w) s w a s' := loopStep_move h
  cases hmove with
  | recovered hloop =>
    rw [Cluster.setLoop, Cluster.setWorker_self]
    exact ⟨hctx, rfl⟩
  | claimed hloop hrest =>
    rw [Cluster.setLoop, Cluster.setWorker_self]
    exact ⟨hctx, rfl⟩
  | dispatched hloop hslot hi =>
    rw [Cluster.setSlot, Cluster.setWorker_self, Cluster.setLoop, Cluster.setWorker_self]
    exact ⟨hctx, rfl⟩
  | shutdown hlive => exact absurd (hlive.symm.trans hctx) (by decide)
  | stopped hloop =>
    rw [Cluster.setLoop, Cluster.setWorker_self]
    exact ⟨hctx, rfl⟩

/-- A settled worker stays settled until it is started again. -/
theorem Worker.Settled.keep {x : Act} (hw : (s.workers w).Settled) (h : step cfg s x = some s')
    (hcrash : x ≠ .crash w) : (s'.workers w).Settled := by
  by_cases hx : ∃ a, x = .loop w a
  · obtain ⟨a, rfl⟩ := hx
    exact loopStep_settles hw.1 h
  · have hsame := step_control h (fun a ha => hx ⟨a, ha⟩) hcrash
    obtain ⟨-, hctx, hcall⟩ : _ ∧ (s'.workers w).ctxDone = _ ∧ (s'.workers w).inFlight = _ := by
      simpa [Worker.control] using hsame
    exact ⟨hctx.trans hw.1, hcall.trans hw.2⟩

/-- The claims of a settled worker do not reach the database. -/
theorem Worker.Settled.claim_silent {x : ClaimArgs} {locked : UUID → Bool} {link : Link}
    (hw : (s.workers w).Settled) (h : step cfg s (.loop w (.claim x locked link)) = some s') :
    s'.store = s.store ∧ s'.history = s.history := by
  have hmove : LoopMove (cfg.worker w) s w (.claim x locked link) s' := loopStep_move h
  cases hmove with
  | claimed hloop hrest hlink =>
    obtain rfl := hw.link_down hlink
    exact ⟨rfl, rfl⟩

/-- Along a run without a crash of `w` after the cancellation: either the loop of `w` has not moved, or
it is settled. -/
theorem cancelled_run {ys : List Act} {t : Cluster} (hctx : (s.workers w).ctxDone = true)
    (hcrash : .crash w ∉ ys) (hy : (cluster cfg).execFrom s ys = some t) :
    ((∀ a, .loop w a ∉ ys) ∧ (t.workers w).control = (s.workers w).control) ∨
      (t.workers w).Settled := by
  induction ys using List.reverseRecOn generalizing t with
  | nil =>
    obtain rfl := Option.some.inj hy
    exact .inl ⟨by simp, rfl⟩
  | append_singleton ys x ih =>
    obtain ⟨u, hu, hx⟩ := System.execFrom_snoc.1 hy
    have hcrash' : .crash w ∉ ys := fun hm => hcrash (List.mem_append_left _ hm)
    have hne : x ≠ .crash w := by
      rintro rfl
      exact hcrash (by simp)
    rcases ih hcrash' hu with ⟨hquiet, hsame⟩ | hsettled
    · by_cases hloop : ∃ a, x = .loop w a
      · obtain ⟨a, rfl⟩ := hloop
        have hctx' : (u.workers w).ctxDone = true :=
          (congrArg (fun p : Loop × Bool × Bool => p.2.1) hsame).trans hctx
        exact .inr (loopStep_settles hctx' hx)
      · have hother : ∀ a, x ≠ .loop w a := fun a ha => hloop ⟨a, ha⟩
        refine .inl ⟨fun a hm => ?_, (step_control hx hother hne).trans hsame⟩
        rcases List.mem_append.1 hm with hold | hlast
        · exact hquiet a hold
        · exact hother a (List.mem_singleton.1 hlast).symm
    · exact .inr (hsettled.keep hx hne)

/-- A claim that a run adds to the history was committed by one of its `ClaimDueJobs` steps. -/
theorem claims_of_run {ys : List Act} {s' : Cluster} (hr : (cluster cfg).Reachable s)
    (hy : (cluster cfg).execFrom s ys = some s') :
    ∃ later, s'.history = later ++ s.history ∧ ∀ c, .claimed w c ∈ later →
      ∃ ys₁ x locked link ys₂ t t' es, ys = ys₁ ++ .loop w (.claim x locked link) :: ys₂ ∧
        (cluster cfg).execFrom s ys₁ = some t ∧ step cfg t (.loop w (.claim x locked link)) = some t' ∧
        t'.history = es ++ t.history ∧ .claimed w c ∈ es := by
  induction ys using List.reverseRecOn generalizing s' with
  | nil =>
    obtain rfl := Option.some.inj hy
    exact ⟨[], rfl, by simp⟩
  | append_singleton ys x ih =>
    obtain ⟨u, hu, hx⟩ := System.execFrom_snoc.1 hy
    obtain ⟨later, hlater, hclaims⟩ := ih hu
    obtain ⟨es, he⟩ := reachable_emission (hr.execFrom hu) hx
    refine ⟨es ++ later, by rw [he.history, hlater, List.append_assoc], fun c hc => ?_⟩
    rcases List.mem_append.1 hc with hnew | hold
    · cases he.emits _ hnew with
      | claimed hdue hid => exact ⟨ys, _, _, _, [], u, s', es, rfl, hu, hx, he.history, hnew⟩
    · obtain ⟨ys₁, args, locked, link, ys₂, t, t', es', rfl, ht, hstep, hes, hmem⟩ := hclaims c hold
      exact ⟨ys₁, args, locked, link, ys₂ ++ [x], t, t', es', by simp, ht, hstep, hes, hmem⟩

/-- The `ClaimDueJobs` of `w` after the steps `ys₁` was under way when the context was cancelled in the
state `s`: the loop had made its recovery, and has not moved since. -/
def UnderWay (w : String) (s : Cluster) (ys₁ : List Act) : Prop :=
  (s.workers w).loop = .recovered ∧ ∀ a, .loop w a ∉ ys₁

/-- A claim after the cancellation was under way then, or the worker is settled. -/
theorem underWay_or_settled {ys₁ : List Act} {s₁ t t' : Cluster} {x : ClaimArgs}
    {locked : UUID → Bool} {link : Link} (hs₁ : step cfg s (.loop w .shutdown) = some s₁)
    (hcrash : .crash w ∉ ys₁) (ht : (cluster cfg).execFrom s₁ ys₁ = some t)
    (h : step cfg t (.loop w (.claim x locked link)) = some t') :
    UnderWay w s ys₁ ∨ (t.workers w).Settled := by
  have hmove : LoopMove (cfg.worker w) s w .shutdown s₁ := loopStep_move hs₁
  cases hmove with
  | shutdown hlive =>
    rcases cancelled_run (by rw [Cluster.setWorker_self]) hcrash ht with ⟨hquiet, hsame⟩ | hsettled
    · rw [Cluster.setWorker_self] at hsame
      have hloop : (t.workers w).loop = (s.workers w).loop := congrArg Prod.fst hsame
      have hclaim : LoopMove (cfg.worker w) t w (.claim x locked link) t' := loopStep_move h
      cases hclaim with
      | claimed hrecovered hrest => exact .inl ⟨hloop.symm.trans hrecovered, hquiet⟩
    · exact .inr hsettled

/-- The job is claimed by a claim that `w` held at the cancellation, or that its `ClaimDueJobs` under way
then committed. -/
def LeftBehind (cfg : Config) (w : String) (s : Cluster) (ys : List Act) (c : ClaimedJob) : Prop :=
  (s.workers w).Holds c ∨
    ∃ ys₁ x locked link ys₂ t t' es, ys = ys₁ ++ .loop w (.claim x locked link) :: ys₂ ∧
      UnderWay w s ys₁ ∧ (cluster cfg).execFrom s (.loop w .shutdown :: ys₁) = some t ∧
      step cfg t (.loop w (.claim x locked link)) = some t' ∧ t'.history = es ++ t.history ∧
      .claimed w c ∈ es

/-- A claim of `w` that stands after the cancellation was held then, or made by the transaction that was
under way. -/
theorem leftBehind_of_owner {xs ys : List Act}
    (hxs : (cluster cfg).EachStep (Serving w) xs) (hs : (cluster cfg).exec xs = some s)
    (hs₁ : (cluster cfg).step s (.loop w .shutdown) = some s₁)
    (hrun : (cluster cfg).execFrom s₁ ys = some s') (hcrash : .crash w ∉ ys)
    (ho : owner j s'.history = some (w, c)) : LeftBehind cfg w s ys c := by
  have hr₁ : (cluster cfg).Reachable s₁ := System.Reachable.step ⟨xs, hs⟩ hs₁
  obtain ⟨later, hlater, hclaims⟩ := claims_of_run (w := w) hr₁ hrun
  have hhistory : s₁.history = s.history := by
    have hmove : LoopMove (cfg.worker w) s w .shutdown s₁ := loopStep_move hs₁
    cases hmove with
    | shutdown hlive => rfl
  rw [hlater, hhistory] at ho
  rcases owner_append_eq_some ho with hnew | hold
  · -- the transaction that made the claim was under way, since a settled worker commits none
    obtain ⟨ys₁, x, locked, link, ys₂, t, t', es, heq, ht, hstep, hes, hmem⟩ := hclaims c hnew
    have hcrash₁ : .crash w ∉ ys₁ := fun hm => hcrash (heq ▸ List.mem_append_left _ hm)
    rcases underWay_or_settled hs₁ hcrash₁ ht hstep with hunder | hsettled
    · refine .inr ⟨ys₁, x, locked, link, ys₂, t, t', es, heq, hunder, ?_, hstep, hes, hmem⟩
      rw [System.execFrom, hs₁]
      exact ht
    · have hnil : es = [] :=
        List.append_left_eq_self.1 (hes.symm.trans (hsettled.claim_silent hstep).2)
      rw [hnil] at hmem
      exact absurd hmem List.not_mem_nil
  · exact .inl ((retained_always hxs).last hs j c hold)

namespace Demo

/-- A worker has claimed a job, and not dispatched it. -/
def undispatched : List Act := [submit] ++ poll "a" 1 11

/-- The loop of the worker returns, and so do its slots. -/
def returning : List Act := [.loop "a" .stop, .slot "a" 0 .exit, .slot "a" 1 .exit]

end Demo

end JobScheduler
