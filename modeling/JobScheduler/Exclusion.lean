import JobScheduler.Leases
import JobScheduler.Refinement

/-!
# One call of the executor at a time

PostgreSQL does not keep two executions of a job apart: a claim whose lease has run out is recovered and
claimed again while its handler still runs.  The lock keys of Redis do, from `Acquire` to the deferred
`Release`, as long as no key expires under a call that relies on it.  Lost replies, crashes and missed
locks do no harm: they leave a key without a call, never a call without its key.

* `LocksHeld` — the key of a job names the worker of the call that holds it, and no worker has two such
  calls.
* `executions_exclusive` — so at most one slot of the whole system is between `Acquire` and `Release`
  of a job.
-/

namespace JobScheduler

open TransitionSystem

variable {cfg : Config} {s s' : Cluster} {w : String} {i : ℕ}

/-! ### Who holds a lock -/

/-- The claim whose lock a call of `ProcessJob` has acquired and not yet released. -/
def Phase.guard? : Phase → Option ClaimedJob
  | .locked c => some c
  | .executing c _ _ => some c
  | .finished c => some c
  | .idle => none
  | .received _ => none
  | .missed _ => none
  | .exited => none

/-- The claim whose lock slot `i` of worker `w` holds. -/
def Cluster.guard? (s : Cluster) (w : String) (i : ℕ) : Option ClaimedJob :=
  ((s.workers w).slots i).guard?

theorem Cluster.guard?_setSlot (s : Cluster) (w : String) (i : ℕ) (phase : Phase) :
    (s.setSlot w i phase).guard? w i = phase.guard? := by
  simp [Cluster.guard?, Cluster.setSlot, Cluster.setWorker]

theorem Cluster.guard?_setSlot_of_ne (s : Cluster) {w w' : String} {i k : ℕ} (phase : Phase)
    (hne : ¬(w' = w ∧ k = i)) : (s.setSlot w i phase).guard? w' k = s.guard? w' k := by
  by_cases hw : w' = w
  · subst hw
    have hk : k ≠ i := fun hk => hne ⟨rfl, hk⟩
    simp [Cluster.guard?, Cluster.setSlot, Cluster.setWorker, hk]
  · simp [Cluster.guard?, Cluster.setSlot, Cluster.setWorker, hw]

/-- Every held lock is in Redis under the worker that holds it, and the worker holds it in one slot. -/
structure LocksHeld (s : Cluster) : Prop where
  key : ∀ w i c, s.guard? w i = some c → s.locks c.id = some w
  once : ∀ w i k c c', s.guard? w i = some c → s.guard? w k = some c' → c.id = c'.id → i = k

/-- What a step of a slot does to the lock it holds and to the keys. -/
inductive GuardStep (s : Cluster) (w : String) : Option ClaimedJob → Locks → Option ClaimedJob → Prop
    where
  | kept (g : Option ClaimedJob) : GuardStep s w g s.locks g
  | taken {c : ClaimedJob} (hfree : s.locks c.id = none) :
      GuardStep s w none (Function.update s.locks c.id (some w)) (some c)
  /-- The key was set and the reply got lost. -/
  | orphaned {c : ClaimedJob} (hfree : s.locks c.id = none) :
      GuardStep s w none (Function.update s.locks c.id (some w)) none
  /-- The release failed, and the key stays until it expires. -/
  | dropped (c : ClaimedJob) : GuardStep s w (some c) s.locks none
  | freed {c : ClaimedJob} : GuardStep s w (some c) (Function.update s.locks c.id none) none

theorem SlotMove.guardStep {wcfg : WorkerConfig} {before after : Phase} {a : SlotAct} {s₁ : Cluster}
    (h : SlotMove wcfg s w before a s₁ after) (hredis : wcfg.lockManager = .redis)
    (hnil : ∀ c, before = .locked c → c.activeAttemptID ≠ UUID.nil) :
    GuardStep s w before.guard? s₁.locks after.guard? := by
  cases h with
  | unguarded hm =>
    rw [hredis] at hm
    cases hm
  | acquired hm hfree => exact .taken hfree
  | missed hm htaken => exact .kept none
  | unanswered hm hlink hlocks =>
    rcases hlocks with rfl | ⟨hfree, rfl⟩
    · exact .kept none
    · exact .orphaned hfree
  | released => exact .kept none
  | attempted hattempt => exact absurd hattempt (hnil _ rfl)
  | executed _ => exact .kept _
  | extended => exact .kept _
  | prolonged => exact .kept _
  | renewalStopped => exact .kept _
  | returned => exact .kept _
  | completed => exact .kept _
  | failed => exact .kept _
  | unlocked hlocks =>
    rcases hlocks with rfl | ⟨-, rfl⟩
    · exact .dropped _
    · exact .freed
  | exited hctx => exact .kept none

/-! ### What steps keep -/

/-- Only the lock of the slot's own claim changes hands. -/
theorem LocksHeld.slot {g g' : Option ClaimedJob} (hs : LocksHeld s) (hg : s.guard? w i = g)
    (hstep : GuardStep s w g s'.locks g') (hself : s'.guard? w i = g')
    (hothers : ∀ w' k, ¬(w' = w ∧ k = i) → s'.guard? w' k = s.guard? w' k) : LocksHeld s' := by
  -- a lock that another slot holds is still there
  have hold : ∀ w' k c, ¬(w' = w ∧ k = i) → s.guard? w' k = some c → s'.locks c.id = some w' := by
    intro w' k c hne hc
    have hkey := hs.key w' k c hc
    generalize s'.locks = locks at hstep
    cases hstep with
    | kept => exact hkey
    | @taken c₀ hfree =>
      have hid : c.id ≠ c₀.id := fun hid => by
        rw [hid, hfree] at hkey
        cases hkey
      rw [Function.update_of_ne hid, hkey]
    | @orphaned c₀ hfree =>
      have hid : c.id ≠ c₀.id := fun hid => by
        rw [hid, hfree] at hkey
        cases hkey
      rw [Function.update_of_ne hid, hkey]
    | dropped => exact hkey
    | @freed c₀ =>
      have hid : c.id ≠ c₀.id := fun hid => by
        have howner := hs.key w i c₀ hg
        rw [← hid, hkey] at howner
        obtain rfl := Option.some.inj howner
        exact hne ⟨rfl, hs.once w' k i c c₀ hc hg hid⟩
      rw [Function.update_of_ne hid, hkey]
  -- what the slot holds now it held before, or nobody did
  have hnew : ∀ c, g' = some c → s'.locks c.id = some w ∧
      ∀ k c', k ≠ i → s.guard? w k = some c' → c.id ≠ c'.id := by
    intro c hc
    generalize s'.locks = locks at hstep
    cases hstep with
    | kept =>
      rw [hc] at hg
      exact ⟨hs.key w i c hg, fun k c' hk hc' hid => hk (hs.once w i k c c' hg hc' hid).symm⟩
    | @taken c₀ hfree =>
      obtain rfl := Option.some.inj hc
      refine ⟨Function.update_self _ _ _, ?_⟩
      intro k c' _ hc' hid
      have hkey := hs.key w k c' hc'
      rw [← hid, hfree] at hkey
      cases hkey
    | orphaned => cases hc
    | dropped => cases hc
    | freed => cases hc
  constructor
  · intro w' k c hc
    by_cases heq : w' = w ∧ k = i
    · obtain ⟨rfl, rfl⟩ := heq
      exact (hnew c (hself ▸ hc)).1
    · exact hold w' k c heq (hothers w' k heq ▸ hc)
  · intro w' k k' c c' hc hc' hid
    by_cases hk : w' = w ∧ k = i
    · obtain ⟨rfl, rfl⟩ := hk
      by_contra hne
      have hk' : ¬(w' = w' ∧ k' = k) := fun heq => hne heq.2.symm
      exact (hnew c (hself ▸ hc)).2 k' c' (fun heq => hne heq.symm) (hothers w' k' hk' ▸ hc') hid
    · by_cases hk' : w' = w ∧ k' = i
      · obtain ⟨rfl, rfl⟩ := hk'
        by_contra hne
        exact (hnew c' (hself ▸ hc')).2 k c hne (hothers w' k hk ▸ hc) hid.symm
      · exact hs.once w' k k' c c' (hothers w' k hk ▸ hc) (hothers w' k' hk' ▸ hc') hid

/-- A step that takes nothing and leaves every key that is held. -/
theorem LocksHeld.fewer (hs : LocksHeld s) (hsub : ∀ w i c, s'.guard? w i = some c → s.guard? w i = some c)
    (hlocks : ∀ w i c, s'.guard? w i = some c → s'.locks c.id = s.locks c.id) : LocksHeld s' where
  key := fun w i c hc => (hlocks w i c hc).trans (hs.key w i c (hsub w i c hc))
  once := fun w i k c c' hc hc' => hs.once w i k c c' (hsub w i c hc) (hsub w k c' hc')

/-- The loop of a worker hands jobs to slots, which have then acquired nothing yet. -/
theorem LoopMove.guard? {wcfg : WorkerConfig} {a : LoopAct} (h : LoopMove wcfg s w a s') {w' : String}
    {k : ℕ} {c : ClaimedJob} (hc : s'.guard? w' k = some c) : s.guard? w' k = some c := by
  by_cases hne : w' = w
  · subst hne
    cases h with
    | @dispatched i j rest hloop hslot hi =>
      by_cases hk : k = i
      · subst hk
        rw [Cluster.guard?_setSlot] at hc
        cases hc
      · rw [Cluster.guard?_setSlot_of_ne _ _ fun heq => hk heq.2] at hc
        simpa [Cluster.guard?, Cluster.setLoop, Cluster.setWorker] using hc
    | recovered hloop =>
      simpa [Cluster.guard?, Cluster.setLoop, Cluster.setWorker, Cluster.record] using hc
    | claimed hloop hrest =>
      simpa [Cluster.guard?, Cluster.setLoop, Cluster.setWorker, Cluster.record] using hc
    | shutdown => simpa [Cluster.guard?, Cluster.setWorker] using hc
    | stopped hloop hctx => simpa [Cluster.guard?, Cluster.setLoop, Cluster.setWorker] using hc
  · unfold Cluster.guard? at hc ⊢
    rwa [h.workers_of_ne hne] at hc

/-- No key expires that a slot relies on. -/
def SparesHeld (s : Cluster) : Act → Prop
  | .expireLock id => ∀ w i c, s.guard? w i = some c → c.id ≠ id
  | _ => True

/-- **Step lemma.**  A step that lets no held key expire keeps every held lock in Redis. -/
theorem LocksHeld.step {x : Act} (hredis : ∀ w, (cfg.worker w).lockManager = .redis)
    (hr : (cluster cfg).Reachable s) (hs : LocksHeld s) (hx : SparesHeld s x)
    (h : step cfg s x = some s') : LocksHeld s' := by
  cases x with
  | api a =>
    rw [step_api] at h
    have hmove := apiStep_move h
    refine hs.fewer (fun w i c hc => ?_) fun w i c _ => ?_
    · unfold Cluster.guard? at hc ⊢
      rwa [hmove.workers] at hc
    · cases hmove <;> rfl
  | loop w a =>
    have hmove := loopStep_move h
    refine hs.fewer (fun w' k c hc => hmove.guard? hc) fun w' k c _ => ?_
    cases hmove <;> rfl
  | slot w i a =>
    obtain ⟨s₁, phase, hmove, rfl⟩ := slotStep_move h
    have hnil : ∀ c, (s.workers w).slots i = .locked c → c.activeAttemptID ≠ UUID.nil := by
      intro c hphase
      have hsound := reachable_sound hr
      have hbacked := (hsound.held w).slot i
      rw [hphase] at hbacked
      exact hsound.log.activeAttemptID_ne_nil (Pending.claimed hbacked)
    have hlocks : (s₁.setSlot w i phase).locks = s₁.locks := rfl
    refine hs.slot rfl (hlocks ▸ hmove.guardStep (hredis w) hnil) (s₁.guard?_setSlot w i phase) ?_
    intro w' k hne
    rw [s₁.guard?_setSlot_of_ne phase hne, Cluster.guard?, hmove.workers]
    rfl
  | crash w =>
    obtain rfl := Option.some.inj h
    refine hs.fewer (fun w' k c hc => ?_) fun _ _ _ _ => rfl
    by_cases hne : w' = w
    · subst hne
      simp [Cluster.guard?, Cluster.setWorker, Worker.initial, Phase.guard?] at hc
    · simpa [Cluster.guard?, Cluster.setWorker, hne] using hc
  | expireLock id =>
    obtain rfl := Option.some.inj h
    refine hs.fewer (fun w' k c hc => hc) fun w' k c hc => ?_
    exact Function.update_of_ne (hx w' k c hc) _ _

theorem locksHeld_initial : LocksHeld Cluster.initial where
  key := fun w i c hc => by simp [Cluster.guard?, Cluster.initial, Worker.initial, Phase.guard?] at hc
  once := fun w i k c c' hc => by
    simp [Cluster.guard?, Cluster.initial, Worker.initial, Phase.guard?] at hc

/-- **Mutual exclusion.**  All workers lock in Redis, and no key expires while a call relies on it.  Then
in every state of the run two slots, of whatever workers, that are both between the `Acquire` and the
`Release` of a job are the same slot; in particular `Execute` runs at most once at a time for a job,
however often its PostgreSQL lease has run out and been taken over. -/
theorem executions_exclusive (cfg : Config) (hredis : ∀ w, (cfg.worker w).lockManager = .redis)
    (xs : List Act) (hxs : (cluster cfg).EachStep SparesHeld xs) :
    (cluster cfg).Always (fun s => ∀ w i c w' i' c', s.guard? w i = some c →
      s.guard? w' i' = some c' → c.id = c'.id → w = w' ∧ i = i') xs := by
  have hheld : (cluster cfg).Always LocksHeld xs :=
    System.always_of_eachStep locksHeld_initial
      (fun s x s' hr hs hx h => hs.step hredis hr hx h) hxs
  intro ys s hp hs w i c w' i' c' hc hc' hid
  have hk := hheld ys s hp hs
  have howner := hk.key w i c hc
  rw [hid, hk.key w' i' c' hc'] at howner
  obtain rfl := Option.some.inj howner
  exact ⟨rfl, hk.once w' i i' c c' hc hc' hid⟩

namespace Demo

/-- Slot `0` of `a` executes while its PostgreSQL lease runs out; `b` recovers the job, claims it and
asks for the lock. -/
def takenOver : List Act :=
  [submit] ++ poll "a" 1 11 ++ lock "a" 0 ++ execute "a" 0 ++ poll "b" 40 12 ++ poll "b" 100 13 ++
    lock "b" 0

end Demo

/-- The job is `b`'s in PostgreSQL, and only `a` executes it. -/
theorem executions_exclusive_takenOver :
    ∃ s, (cluster demo).exec Demo.takenOver = some s ∧
      (s.store.jobs.find? 1).map (fun r => r.lockedBy) = some (some "b") ∧
      (s.guard? "a" 0).map (fun c => c.id) = some 1 ∧
      ∀ w i c, s.guard? w i = some c → c.id = 1 → w = "a" ∧ i = 0 := by
  obtain ⟨s, hs, hrow, hguard⟩ :
      ∃ s, (cluster demo).exec Demo.takenOver = some s ∧
        (s.store.jobs.find? 1).map (fun r => r.lockedBy) = some (some "b") ∧
        (s.guard? "a" 0).map (fun c => c.id) = some 1 :=
    System.exists_of_exec (by decide +kernel)
  have hspares : (cluster demo).EachStep SparesHeld Demo.takenOver := by
    intro ys x t hp _
    have hx : x ∈ Demo.takenOver := hp.subset (by simp)
    simp only [Demo.takenOver, Demo.poll, Demo.lock, Demo.execute, Demo.submit, List.mem_append,
      List.mem_cons, List.not_mem_nil, or_false, or_assoc] at hx
    rcases hx with rfl | rfl | rfl | rfl | rfl | rfl | rfl | rfl | rfl | rfl | rfl | rfl <;> trivial
  refine ⟨s, hs, hrow, hguard, ?_⟩
  obtain ⟨c₀, hc₀, hid₀⟩ := Option.map_eq_some_iff.1 hguard
  intro w i c hc hid
  exact (executions_exclusive demo (fun _ => rfl) Demo.takenOver hspares).last hs w i c "a" 0 c₀ hc hc₀
    (hid.trans hid₀.symm)

end JobScheduler
