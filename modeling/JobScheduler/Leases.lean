import JobScheduler.Moves

/-!
# Who set a lock key

The value of the key `lock:job:<id>` is the id of a worker.  It does not say which call of
`ProcessJob` set it, and a worker can run two of them for one job: the first one's lease is lost and
the worker claims the job again.  Here the system is run with a note, for every key, of the call that
set it; nothing reads the note (`tracked_exec`).

`Release` and `Extend` compare the worker id, so they act on keys of their own worker only
(`leases_kept_per_worker`).  Whether the key is the caller's own they cannot tell
(`later_lease_touched`).
-/

namespace JobScheduler

open Transaction TransitionSystem

variable {cfg : Config} {s s' : Cluster} {w : String} {i : ℕ} {id : UUID}

/-! ### The noted system -/

/-- A call of `ProcessJob`: its worker and the claim it is called with. -/
structure Invocation where
  worker : String
  claim : ClaimedJob

/-- The state of the system, and the calls that set the keys. -/
structure Tracked where
  cluster : Cluster
  setBy : UUID → Option Invocation

/-- The call that is about to acquire its lock. -/
def Act.acquirer (s : Cluster) : Act → Option Invocation
  | .slot w i (.acquire _) => ((s.workers w).slots i).claim?.map fun c => ⟨w, c⟩
  | _ => none

/-- The note after a step: a key that appears was set by the call that acquires. -/
def Tracked.note (q : Tracked) (x : Act) (s' : Cluster) (id : UUID) : Option Invocation :=
  if s'.locks id = q.cluster.locks id then q.setBy id
  else if s'.locks id = none then none
  else x.acquirer q.cluster

/-- One step of the system, noted. -/
def trackStep (cfg : Config) (q : Tracked) (x : Act) : Option Tracked :=
  (step cfg q.cluster x).map fun s' => ⟨s', q.note x s'⟩

/-- The noted system. -/
def tracked (cfg : Config) : System Tracked Act := ⟨⟨Cluster.initial, fun _ => none⟩, trackStep cfg⟩

theorem trackStep_eq_some {q q' : Tracked} {x : Act} :
    trackStep cfg q x = some q' ↔
      ∃ s', step cfg q.cluster x = some s' ∧ q' = ⟨s', q.note x s'⟩ := by
  rw [trackStep, Option.map_eq_some_iff]
  simp only [eq_comm]

/-- The note changes nothing: the runs are those of the system. -/
theorem tracked_exec {xs : List Act} :
    (cluster cfg).exec xs = some s ↔ ∃ q, (tracked cfg).exec xs = some q ∧ q.cluster = s := by
  induction xs using List.reverseRecOn generalizing s with
  | nil =>
    constructor
    · intro h
      obtain rfl := Option.some.inj h
      exact ⟨_, rfl, rfl⟩
    · rintro ⟨q, h, rfl⟩
      obtain rfl := Option.some.inj h
      rfl
  | append_singleton xs x ih =>
    rw [System.exec_snoc]
    constructor
    · rintro ⟨s₀, h₀, hstep⟩
      obtain ⟨q, hq, rfl⟩ := ih.1 h₀
      exact ⟨⟨s, q.note x s⟩, System.exec_snoc.2 ⟨q, hq, trackStep_eq_some.2 ⟨s, hstep, rfl⟩⟩, rfl⟩
    · rintro ⟨q, hq, rfl⟩
      obtain ⟨q₀, h₀, hstep⟩ := System.exec_snoc.1 hq
      obtain ⟨s', hs', rfl⟩ := trackStep_eq_some.1 hstep
      exact ⟨q₀.cluster, ih.2 ⟨q₀, h₀, rfl⟩, hs'⟩

/-! ### What steps do to keys -/

/-- What can happen to a key in a step. -/
inductive KeyStep (s : Cluster) (id : UUID) : Act → Option String → Prop where
  | kept (x : Act) : KeyStep s id x (s.locks id)
  | acquired {w : String} {i : ℕ} {link : Link} {c : ClaimedJob}
      (hslot : (s.workers w).slots i = .received c) (hid : c.id = id) (hfree : s.locks id = none) :
      KeyStep s id (.slot w i (.acquire link)) (some w)
  | released {w : String} {i : ℕ} {link : Link} {c : ClaimedJob}
      (hslot : (s.workers w).slots i = .finished c) (hid : c.id = id)
      (howner : s.locks id = some w) : KeyStep s id (.slot w i (.unlock link)) none
  | expired : KeyStep s id (.expireLock id) none

theorem slotStep_key {wcfg : WorkerConfig} {a : SlotAct} (h : slotStep wcfg s w i a = some s') :
    KeyStep s id (.slot w i a) (s'.locks id) := by
  obtain ⟨s₁, after, hmove, rfl⟩ := slotStep_move h
  show KeyStep s id (.slot w i a) (s₁.locks id)
  generalize hslot : (s.workers w).slots i = before at hmove
  -- the only keys that change are those of the slot's own job
  have hset : ∀ {c : ClaimedJob} {v : Option String} {a : SlotAct},
      (c.id = id → KeyStep s id (.slot w i a) v) →
        KeyStep s id (.slot w i a) (Function.update s.locks c.id v id) := by
    intro c v a hv
    by_cases hid : id = c.id
    · rw [hid, Function.update_self]
      exact hid ▸ hv hid.symm
    · rw [Function.update_of_ne hid]
      exact .kept _
  cases hmove with
  | @acquired c hm hfree => exact hset fun hid => .acquired hslot hid (hid ▸ hfree)
  | @unanswered c link locks hm hlink hlocks =>
    rcases hlocks with rfl | ⟨hfree, rfl⟩
    · exact .kept _
    · exact hset fun hid => .acquired hslot hid (hid ▸ hfree)
  | @unlocked c link locks hlocks =>
    rcases hlocks with rfl | ⟨howner, rfl⟩
    · exact .kept _
    · exact hset fun hid => .released hslot hid (hid ▸ howner)
  | _ => exact .kept _

/-- **Keys.**  A key appears when a slot acquires it, and disappears when a slot of its owner releases
it or its time is over. -/
theorem step_key {x : Act} (h : step cfg s x = some s') (id : UUID) :
    KeyStep s id x (s'.locks id) := by
  cases x with
  | api a =>
    rw [step_api] at h
    cases apiStep_move h <;> exact .kept _
  | loop w a =>
    cases loopStep_move h <;> exact .kept _
  | slot w i a => exact slotStep_key h
  | crash w =>
    obtain rfl := Option.some.inj h
    exact .kept _
  | expireLock jobID =>
    obtain rfl := Option.some.inj h
    by_cases hid : id = jobID
    · subst hid
      simp only [Function.update_self]
      exact .expired
    · simp only [Function.update_of_ne hid]
      exact .kept _

/-! ### The note is right -/

/-- Every key is noted, with the worker it names and a claim of its job. -/
structure Noted (q : Tracked) : Prop where
  value : ∀ id, q.cluster.locks id = (q.setBy id).map fun v => v.worker
  job : ∀ id v, q.setBy id = some v → v.claim.id = id

theorem Noted.step {q q' : Tracked} {x : Act} (hq : Noted q) (h : trackStep cfg q x = some q') :
    Noted q' := by
  obtain ⟨s', hs', rfl⟩ := trackStep_eq_some.1 h
  have key : ∀ id, s'.locks id = (q.note x s' id).map (fun v => v.worker) ∧
      ∀ v, q.note x s' id = some v → v.claim.id = id := by
    intro id
    unfold Tracked.note
    have hk := step_key hs' id
    generalize s'.locks id = after at hk
    cases hk with
    | kept x =>
      rw [if_pos rfl]
      exact ⟨hq.value id, hq.job id⟩
    | @acquired w i link c hslot hid hfree =>
      have hacq : Act.acquirer q.cluster (.slot w i (.acquire link)) = some ⟨w, c⟩ := by
        simp [Act.acquirer, hslot, Phase.claim?]
      rw [hfree, if_neg (by simp), if_neg (by simp), hacq]
      refine ⟨rfl, ?_⟩
      intro v hv
      obtain rfl := Option.some.inj hv
      exact hid
    | released hslot hid howner =>
      rw [howner, if_neg (by simp), if_pos rfl]
      exact ⟨rfl, by simp⟩
    | expired =>
      split
      · rename_i hnone
        exact ⟨hnone.trans (hq.value id), hq.job id⟩
      · exact ⟨rfl, by simp⟩
  exact ⟨fun id => (key id).1, fun id => (key id).2⟩

/-- **The note is right** in every reachable state. -/
theorem reachable_noted {q : Tracked} (hq : (tracked cfg).Reachable q) : Noted q := by
  refine hq.invariant ⟨fun _ => rfl, fun id v hv => ?_⟩ fun q x q' hn h => hn.step h
  cases hv

/-! ### Keys and their workers -/

/-- The `Extend` call of a slot finds its owner value, and renews the key. -/
def Cluster.Renews (s : Cluster) (w : String) (i : ℕ) (link : Link) (id : UUID) : Prop :=
  ∃ c result, (s.workers w).slots i = .executing c .extending result ∧ c.id = id ∧
    ((compareAndExpire c.id w).commit link .connection s.locks).committed = some true

/-- What the slot may do to keys from here: it deletes and renews keys that calls of its own worker
set, and leaves those of other workers alone. -/
structure OwnWorkerOnly (cfg : Config) (q : Tracked) (w : String) (i : ℕ) : Prop where
  release : ∀ link id q', trackStep cfg q (.slot w i (.unlock link)) = some q' →
    q.cluster.locks id ≠ none → q'.cluster.locks id = none →
    ∃ v, q.setBy id = some v ∧ v.worker = w ∧ v.claim.id = id
  extend : ∀ link id, q.cluster.Renews w i link id →
    ∃ v, q.setBy id = some v ∧ v.worker = w ∧ v.claim.id = id
  others : ∀ a id v q', trackStep cfg q (.slot w i a) = some q' → q.setBy id = some v →
    v.worker ≠ w → q'.cluster.locks id = q.cluster.locks id ∧ q'.setBy id = some v ∧
      ∀ link, ¬q.cluster.Renews w i link id

theorem Noted.setBy_of_owner {q : Tracked} (hq : Noted q) (hown : q.cluster.locks id = some w) :
    ∃ v, q.setBy id = some v ∧ v.worker = w ∧ v.claim.id = id := by
  rw [hq.value] at hown
  obtain ⟨v, hv, hw⟩ := Option.map_eq_some_iff.1 hown
  exact ⟨v, hv, hw, hq.job id v hv⟩

theorem Cluster.Renews.owner {link : Link} (h : s.Renews w i link id) : s.locks id = some w := by
  obtain ⟨c, result, -, rfl, hc⟩ := h
  cases link with
  | down => cases hc
  | up =>
    have htrue := Option.some.inj hc
    exact of_decide_eq_true htrue
  | lost =>
    have htrue := Option.some.inj hc
    exact of_decide_eq_true htrue

/-- **Leases are kept per worker.**  In every state any run reaches, whatever has expired and been
acquired again: a `Release` deletes, and an `Extend` renews, only a key that an `Acquire` of the same
worker set, and no call touches a lease of another worker. -/
theorem leases_kept_per_worker (cfg : Config) (xs : List Act) (q : Tracked)
    (hq : (tracked cfg).exec xs = some q) (w : String) (i : ℕ) : OwnWorkerOnly cfg q w i := by
  have hn : Noted q := reachable_noted ⟨xs, hq⟩
  refine ⟨?_, ?_, ?_⟩
  · intro link id q' h hsome hnone
    obtain ⟨s', hs', rfl⟩ := trackStep_eq_some.1 h
    have hnone : s'.locks id = none := hnone
    have hk := step_key hs' id
    generalize s'.locks id = after at hk hnone
    cases hk with
    | kept x => exact absurd hnone hsome
    | released hslot hid howner => exact hn.setBy_of_owner howner
  · intro link id hr
    exact hn.setBy_of_owner hr.owner
  · intro a id v q' h hv hne
    have hown : q.cluster.locks id = some v.worker := by rw [hn.value, hv]; rfl
    obtain ⟨s', hs', rfl⟩ := trackStep_eq_some.1 h
    have hkept : s'.locks id = q.cluster.locks id := by
      have hk := step_key hs' id
      generalize s'.locks id = after at hk
      cases hk with
      | kept x => rfl
      | acquired hslot hid hfree => rw [hfree] at hown; cases hown
      | released hslot hid howner => exact absurd (Option.some.inj (hown.symm.trans howner)) hne
    refine ⟨hkept, ?_, ?_⟩
    · show q.note _ s' id = some v
      rw [Tracked.note, if_pos hkept, hv]
    · intro link hr
      exact hne (Option.some.inj (hown.symm.trans hr.owner))

namespace Demo

/-- Worker `a` releases the key of the job it has completed. -/
def ownLease : List Act :=
  [submit] ++ poll "a" 1 11 ++ lock "a" 0 ++ execute "a" 0 ++ complete "a" 0 5 3001

/-- Slot `0` of `a` executes while its leases run out; `a` recovers the job, claims it again, and slot
`1` acquires the lock for the second claim. -/
def leaseLost : List Act :=
  [submit] ++ poll "a" 1 11 ++ lock "a" 0 ++ execute "a" 0 ++ [.expireLock 1] ++
    poll "a" 40 12 ++ poll "a" 100 13 ++ lock "a" 1

/-- Slot `0` renews the lease of the job. -/
def renewing : List Act := [.slot "a" 0 (.extendLease (101 * second) .up)]

/-- The execution of slot `0` comes to its end. -/
def ending : List Act := complete "a" 0 102 3001

end Demo

theorem leases_kept_per_worker_ownLease :
    ∃ q q', (tracked demo).exec Demo.ownLease = some q ∧
      trackStep demo q (.slot "a" 0 (.unlock .up)) = some q' ∧ q'.cluster.locks 1 = none ∧
      ∃ v, q.setBy 1 = some v ∧ v.worker = "a" ∧ v.claim.id = 1 := by
  obtain ⟨q, hq, hsome, hstep⟩ :
      ∃ q, (tracked demo).exec Demo.ownLease = some q ∧ q.cluster.locks 1 ≠ none ∧
        (trackStep demo q (.slot "a" 0 (.unlock .up))).any
          (fun q' => decide (q'.cluster.locks 1 = none)) = true :=
    System.exists_of_exec (by decide +kernel)
  obtain ⟨q', hq', hnone⟩ := (Option.any_eq_true _ _).1 hstep
  have hnone := of_decide_eq_true hnone
  exact ⟨q, q', hq, hq', hnone,
    (leases_kept_per_worker demo Demo.ownLease q hq "a" 0).release .up 1 q' hq' hsome hnone⟩

/-- The claim of a slot that is about to call `Extend`. -/
def Phase.extending? : Phase → Option ClaimedJob
  | .executing c .extending _ => some c
  | _ => none

/-- The claim of a slot that is about to call `Release`. -/
def Phase.finished? : Phase → Option ClaimedJob
  | .finished c => some c
  | _ => none

theorem Phase.extending?_eq_some {phase : Phase} {c : ClaimedJob} (h : phase.extending? = some c) :
    ∃ result, phase = .executing c .extending result := by
  unfold Phase.extending? at h
  split at h
  · obtain rfl := Option.some.inj h
    exact ⟨_, rfl⟩
  · cases h

theorem Phase.finished?_eq_some {phase : Phase} {c : ClaimedJob} (h : phase.finished? = some c) :
    phase = .finished c := by
  unfold Phase.finished? at h
  split at h
  · obtain rfl := Option.some.inj h
    rfl
  · cases h

/-- Both calls are of worker `a`: that of the first claim, whose lease is lost, renews and deletes the
key the second one has set. -/
theorem later_lease_touched :
    (∃ q c v, (tracked demo).exec (Demo.leaseLost ++ Demo.renewing) = some q ∧
      ((q.cluster.workers "a").slots 0).claim? = some c ∧ q.cluster.Renews "a" 0 .up 1 ∧
      q.setBy 1 = some v ∧ v.claim.activeAttemptID ≠ c.activeAttemptID) ∧
    ∃ q q' c v, (tracked demo).exec (Demo.leaseLost ++ Demo.ending) = some q ∧
      (q.cluster.workers "a").slots 0 = .finished c ∧
      trackStep demo q (.slot "a" 0 (.unlock .up)) = some q' ∧ q'.cluster.locks 1 = none ∧
      q.setBy 1 = some v ∧ v.claim.activeAttemptID ≠ c.activeAttemptID := by
  constructor
  · obtain ⟨q, hq, hslot, hset, hown⟩ :
        ∃ q, (tracked demo).exec (Demo.leaseLost ++ Demo.renewing) = some q ∧
          ((q.cluster.workers "a").slots 0).extending?.map (fun c => (c.id, c.activeAttemptID))
            = some (1, 11) ∧
          (q.setBy 1).map (fun v => v.claim.activeAttemptID) = some 13 ∧
          q.cluster.locks 1 = some "a" :=
      System.exists_of_exec (by decide +kernel)
    obtain ⟨c, hc, hid⟩ := Option.map_eq_some_iff.1 hslot
    obtain ⟨hjob, hattempt⟩ := Prod.mk.inj hid
    obtain ⟨v, hv, hlater⟩ := Option.map_eq_some_iff.1 hset
    obtain ⟨result, hphase⟩ := Phase.extending?_eq_some hc
    refine ⟨q, c, v, hq, by rw [hphase]; rfl, ⟨c, result, hphase, hjob, ?_⟩, hv, ?_⟩
    · rw [hjob]
      exact congrArg some (decide_eq_true hown)
    · rw [hlater, hattempt]
      decide
  · obtain ⟨q, hq, hslot, hset, hstep⟩ :
        ∃ q, (tracked demo).exec (Demo.leaseLost ++ Demo.ending) = some q ∧
          ((q.cluster.workers "a").slots 0).finished?.map (fun c => c.activeAttemptID) = some 11 ∧
          (q.setBy 1).map (fun v => v.claim.activeAttemptID) = some 13 ∧
          (trackStep demo q (.slot "a" 0 (.unlock .up))).any
            (fun q' => decide (q'.cluster.locks 1 = none)) = true :=
      System.exists_of_exec (by decide +kernel)
    obtain ⟨c, hc, hattempt⟩ := Option.map_eq_some_iff.1 hslot
    obtain ⟨v, hv, hlater⟩ := Option.map_eq_some_iff.1 hset
    obtain ⟨q', hq', hnone⟩ := (Option.any_eq_true _ _).1 hstep
    refine ⟨q, q', c, v, hq, Phase.finished?_eq_some hc, hq', of_decide_eq_true hnone, hv, ?_⟩
    rw [hlater, hattempt]
    decide

end JobScheduler
