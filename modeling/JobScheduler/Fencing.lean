import JobScheduler.Refinement

/-!
# Fencing of outcomes

`CompleteExecution` and `FailExecution` check that the job is RUNNING under the caller's worker id,
and that the caller's own attempt is RUNNING.  That fences stale executions off as long as a claim
that loses its job loses its attempt with it.  Recovery, cancellation and finalization see to that;
`ReleaseClaim` does not touch the attempt, and finds the job by the worker id alone.

* `Fenced` — a RUNNING attempt whose claim was not given back belongs to the owner of its job, and
  every outcome in the history was committed by the owner.  Every commit keeps it, a release only if
  it gives back the owner's claim (`Commit.fenced`).
* `outcomes_fenced` — so outcomes are fenced in every run in which each effective release comes from
  a slot whose own attempt is RUNNING.
* `stale_outcome_commits` — without that a stale execution commits: the worker claims the job three
  times, and the slot of the first claim gives back the second.
-/

namespace JobScheduler

open KeyedTable Transaction TransitionSystem

variable {h es : List Entry} {s s' : Store} {e : Entry} {w : String} {c : ClaimedJob}

/-! ### Owners, spelled out -/

/-- The entry ends whatever claim of the job `j` was current. -/
def Entry.Ends (e : Entry) (j : UUID) : Prop :=
  match e with
  | .claimed _ c => c.id = j
  | .completed _ c => c.id = j
  | .failed _ c => c.id = j
  | .released _ c => c.id = j
  | .transitioned id .cancel => id = j
  | .recovered id => id = j
  | _ => False

theorem owner_cons_of_not_ends {j : UUID} (he : ¬e.Ends j) : owner j (e :: h) = owner j h := by
  cases e with
  | transitioned id op => cases op <;> simp_all [owner, Entry.Ends]
  | _ => simp_all [owner, Entry.Ends]

/-- After an entry that ends the current claim, the owner is the claim it made, if any. -/
theorem owner_cons_of_ends {j : UUID} (he : e.Ends j) (ho : owner j (e :: h) = some (w, c)) :
    e = .claimed w c := by
  cases e with
  | claimed w' c' =>
    have hid : c'.id = j := he
    rw [owner, if_pos hid] at ho
    obtain ⟨rfl, rfl⟩ := Prod.mk.inj (Option.some.inj ho)
    rfl
  | transitioned id op => cases op <;> simp_all [owner, Entry.Ends]
  | _ => simp_all [owner, Entry.Ends]

/-- **Who owns a job.**  The claim `c` of worker `w` owns its job exactly when nothing after the
transaction that made it ended it. -/
theorem owner_eq_some_iff :
    owner c.id h = some (w, c) ↔
      ∃ between before, h = between ++ .claimed w c :: before ∧ ∀ e ∈ between, ¬e.Ends c.id := by
  constructor
  · intro ho
    induction h with
    | nil => simp at ho
    | cons e h ih =>
      by_cases he : e.Ends c.id
      · obtain rfl := owner_cons_of_ends he ho
        exact ⟨[], h, rfl, by simp⟩
      · rw [owner_cons_of_not_ends he] at ho
        obtain ⟨between, before, rfl, hb⟩ := ih ho
        refine ⟨e :: between, before, rfl, ?_⟩
        intro e' hm
        rcases List.mem_cons.1 hm with rfl | hm
        · exact he
        · exact hb e' hm
  · rintro ⟨between, before, rfl, hb⟩
    induction between with
    | nil => simp [owner]
    | cons e between ih =>
      rw [List.cons_append, owner_cons_of_not_ends (hb e List.mem_cons_self)]
      exact ih fun e' hm => hb e' (List.mem_cons_of_mem _ hm)

/-! ### The invariant -/

/-- The entry commits an outcome for the claim `c` of worker `w`. -/
def Entry.Finalizes (e : Entry) (w : String) (c : ClaimedJob) : Prop :=
  e = .completed w c ∨ e = .failed w c

/-- RUNNING attempts belong to owners, and outcomes were committed by owners. -/
structure Fenced (h : List Entry) (s : Store) : Prop where
  current : ∀ w c a, .claimed w c ∈ h → .released w c ∉ h →
    s.attempts.find? c.activeAttemptID = some a → a.status = .running →
    owner c.id h = some (w, c)
  outcomes : ∀ newer e older w c, h = newer ++ e :: older → e.Finalizes w c →
    owner c.id older = some (w, c)

/-- What a commit of an outcome finds. -/
theorem Commit.of_finalizes (hc : Commit h s e s') (he : e.Finalizes w c) :
    Executing h w c ∧ ∃ a, s.attempts.find? c.activeAttemptID = some a ∧ a.status = .running := by
  rcases he with rfl | rfl
  · cases hc with
    | completed hp hc => exact ⟨hp, _, hc.attempt, hc.attemptRunning⟩
  · cases hc with
    | failed hp hc => exact ⟨hp, _, hc.attempt, hc.attemptRunning⟩

/-- An outcome is committed by the owner. -/
theorem Fenced.owner_of_finalizes (hf : Fenced h s) (hc : Commit h s e s') (he : e.Finalizes w c) :
    owner c.id h = some (w, c) := by
  obtain ⟨hp, a, ha, hrun⟩ := hc.of_finalizes he
  exact hf.current w c a hp.claimed hp.notReleased ha hrun

/-- An entry that ends the owner's claim closes its attempt or gives it back. -/
theorem Fenced.closes_of_ends (hf : Fenced h s) (hl : Log h s) (hc : Commit h s e s')
    (ho : owner c.id h = some (w, c)) {a : Attempt} (ha : AttemptOf w c a)
    (hrel : ∀ w' c', e = .released w' c' → owner c'.id h = some (w', c')) (hends : e.Ends c.id) :
    e.Closes a ∨ e = .released w c := by
  -- whoever else owns the job is the same claim
  have same : ∀ {w' c'}, c'.id = c.id → owner c'.id h = some (w', c') → w' = w ∧ c' = c := by
    intro w' c' hid ho'
    rw [hid, ho] at ho'
    obtain ⟨rfl, rfl⟩ := Prod.mk.inj (Option.some.inj ho')
    exact ⟨rfl, rfl⟩
  cases e with
  | claimed w' c' =>
    -- an owned job is RUNNING, and so not claimable
    obtain ⟨-, -, -, r, now, hr, hcl, -⟩ := hc.of_claimed
    have hid : c'.id = c.id := hends
    rw [hid] at hr
    obtain ⟨r', hr', hrun, -⟩ := hl.owner_row ho
    obtain rfl := Option.some.inj (hr'.symm.trans hr)
    have hfrom := hcl.1
    rw [hrun] at hfrom
    exact absurd hfrom (by decide)
  | completed w' c' =>
    obtain ⟨-, rfl⟩ := same hends (hf.owner_of_finalizes hc (.inl rfl))
    exact .inl ha.id
  | failed w' c' =>
    obtain ⟨-, rfl⟩ := same hends (hf.owner_of_finalizes hc (.inr rfl))
    exact .inl ha.id
  | released w' c' =>
    obtain ⟨rfl, rfl⟩ := same hends (hrel w' c' rfl)
    exact .inr rfl
  | transitioned id op =>
    cases op with
    | cancel => exact .inl (ha.jobID.trans (Eq.symm hends))
    | _ => exact absurd hends not_false
  | recovered id => exact .inl (ha.jobID.trans (Eq.symm hends))
  | _ => exact absurd hends not_false

/-- **Step lemma.**  Every commit keeps the fence, provided a release gives back the owner's claim. -/
theorem Commit.fenced (hc : Commit h s e s') (hl : Log h s) (hf : Fenced h s)
    (hrel : ∀ w c, e = .released w c → owner c.id h = some (w, c)) : Fenced (e :: h) s' := by
  constructor
  · intro w c a hm hnr ha hrun
    rcases List.mem_cons.1 hm with rfl | hm
    · simp [owner]
    · obtain ⟨a₀, ha₀, hof⟩ := hl.attempt_of_claimed hm
      rcases hc.attempt_cases c.activeAttemptID with
        ⟨hk, hopen⟩ | ⟨hnone, -⟩ | ⟨a₁, a', -, -, hch, ha'⟩
      · -- the attempt was RUNNING before and is not closed, so its claim still owns the job
        have hsame : s.attempts.find? c.activeAttemptID = some a := hk.symm.trans ha
        obtain rfl := Option.some.inj (ha₀.symm.trans hsame)
        have ho := hf.current w c a₀ hm (fun hr => hnr (List.mem_cons_of_mem _ hr)) hsame hrun
        rw [owner_cons_of_not_ends, ho]
        intro hends
        rcases hf.closes_of_ends hl hc ho hof hrel hends with hcl | rfl
        · exact hopen a₀ hsame hrun hcl
        · exact hnr List.mem_cons_self
      · rw [hnone] at ha₀
        exact absurd ha₀ (by simp)
      · obtain rfl := Option.some.inj (ha'.symm.trans ha)
        exact absurd hrun hch.status_ne
  · intro newer e' older w c hsplit hfin
    cases newer with
    | nil =>
      obtain ⟨rfl, rfl⟩ := List.cons.inj hsplit
      exact hf.owner_of_finalizes hc hfin
    | cons e'' newer =>
      obtain ⟨-, rfl⟩ := List.cons.inj hsplit
      exact hf.outcomes newer e' older w c rfl hfin

/-- The entries of one step keep the fence: a step that releases a claim does nothing else. -/
theorem Path.fenced (hp : Path h s es s') (hl : Log h s) (hf : Fenced h s)
    (hrel : ∀ w c, .released w c ∈ es → es = [.released w c] ∧ owner c.id h = some (w, c)) :
    Fenced (es ++ h) s' := by
  induction hp with
  | nil => exact hf
  | @cons es s₁ s' e hp hc ih =>
    refine hc.fenced (hl.append hp) (ih ?_) ?_
    · intro w c hm
      have hone := (hrel w c (List.mem_cons_of_mem _ hm)).1
      rw [(List.cons.inj hone).2] at hm
      simp at hm
    · intro w c he
      obtain ⟨hone, ho⟩ := hrel w c (he ▸ List.mem_cons_self)
      rw [(List.cons.inj hone).2]
      exact ho

/-! ### Conflicts -/

/-- `CompleteExecution` of a claim whose attempt is not RUNNING. -/
theorem completeExecution_conflict
    (ha : ∀ a, s.attempts.find? c.activeAttemptID = some a → a.status ≠ .running) (now : Time)
    (eventID : UUID) (durationMS : Int) (result : RawMessage) :
    completeExecution now eventID c w durationMS result s = .error .conflict := by
  rw [completeExecution, Tx.bind_of_ok (updateJobs_eq_ok.2 ⟨rfl, rfl⟩)]
  by_cases hn : s.jobs.count (fun r => r.id = c.id ∧
      (r.tenantID = c.tenantID ∧ r.lockedBy = some w ∧ r.status = .running)) ≠ 0
  · rw [Tx.bind_of_ok ((Tx.require_eq_ok (u := ())).2 ⟨hn, rfl⟩),
      Tx.bind_of_ok (updateAttempts_eq_ok.2 ⟨rfl, rfl⟩)]
    refine Tx.bind_of_error (Tx.require_of_not ?_)
    rw [not_not]
    exact Table.count_key_eq_zero.2 ha
  · exact Tx.bind_of_error (Tx.require_of_not hn)

/-- `FailExecution` of a claim whose attempt is not RUNNING. -/
theorem failExecution_conflict
    (ha : ∀ a, s.attempts.find? c.activeAttemptID = some a → a.status ≠ .running) (now : Time)
    (ids : FailureIDs) (durationMS : Int) (outcome : ExecutionResult) (nextStatus : Status)
    (nextRetryCount : Int) (nextRunAt : Time) :
    failExecution now ids c w durationMS outcome nextStatus nextRetryCount nextRunAt s
      = .error .conflict := by
  rw [failExecution, Tx.bind_of_ok (updateAttempts_eq_ok.2 ⟨rfl, rfl⟩)]
  refine Tx.bind_of_error (Tx.require_of_not ?_)
  rw [not_not]
  exact Table.count_key_eq_zero.2 ha

/-! ### Releases -/

/-- The claim a step hands to `ReleaseClaim`, with its worker. -/
def Cluster.releasing (s : Cluster) : Act → Option (String × ClaimedJob)
  | .slot w i (.release _ _) =>
    match (s.workers w).slots i with
    | .missed c => some (w, c)
    | _ => none
  | _ => none

/-- The job is RUNNING with `locked_by` the worker: what `ReleaseClaim` asks for. -/
def Store.RunsUnder (s : Store) (w : String) (jobID : UUID) : Prop :=
  ∃ r ∈ s.jobs.rows, r.id = jobID ∧ r.status = .running ∧ r.lockedBy = some w

instance (s : Store) (w : String) (jobID : UUID) : Decidable (s.RunsUnder w jobID) :=
  inferInstanceAs (Decidable (∃ r ∈ s.jobs.rows, _))

/-- The attempt is RUNNING. -/
def Store.AttemptRuns (s : Store) (attemptID : UUID) : Prop :=
  ∃ a ∈ s.attempts.rows, a.id = attemptID ∧ a.status = .running

instance (s : Store) (attemptID : UUID) : Decidable (s.AttemptRuns attemptID) :=
  inferInstanceAs (Decidable (∃ a ∈ s.attempts.rows, _))

/-- If the step calls `ReleaseClaim` and the call will find the job under the worker, the attempt of
the claim that missed the lock is RUNNING. -/
def ReleasesOwn (s : Cluster) (x : Act) : Prop :=
  ∀ p ∈ s.releasing x, s.store.RunsUnder p.1 p.2.id → s.store.AttemptRuns p.2.activeAttemptID

instance (s : Cluster) : DecidablePred (ReleasesOwn s) :=
  fun x => inferInstanceAs (Decidable (∀ p ∈ s.releasing x, _))

/-- What a step that releases a claim finds. -/
theorem Emission.of_released {cfg : Config} {s s' : Cluster} {x : Act}
    (he : Emission cfg s x s' es) (hm : .released w c ∈ es) :
    es = [.released w c] ∧ s.releasing x = some (w, c) ∧ s.store.RunsUnder w c.id ∧
      Pending s.history w c := by
  have hone := he.eq_of_released hm
  have hpath := he.path
  rw [hone] at hpath
  refine ⟨hone, ?_⟩
  cases he.emits _ hm with
  | @released _ i _ now link hs =>
    cases hpath with
    | cons hp hc =>
      cases hp
      cases hc with
      | @released _ _ _ r _ hp hid hr =>
        refine ⟨by rw [Cluster.releasing, hs], ⟨r, ?_, hid, hr.running, hr.lockedBy⟩, hp⟩
        exact (Table.find?_eq_some_iff.1 hr.row).1

/-- **Step lemma for the system.** -/
theorem Fenced.step {cfg : Config} {s s' : Cluster} {x : Act} (hr : (cluster cfg).Reachable s)
    (hf : Fenced s.history s.store) (hown : ReleasesOwn s x) (hx : step cfg s x = some s') :
    Fenced s'.history s'.store := by
  have hlog := (reachable_sound hr).log
  obtain ⟨es, he⟩ := reachable_emission hr hx
  rw [he.history]
  refine he.path.fenced hlog hf ?_
  intro w c hm
  obtain ⟨hone, hcall, hunder, hp⟩ := he.of_released hm
  obtain ⟨a, ha, hid, hrun⟩ := hown (w, c) hcall hunder
  exact ⟨hone, hf.current w c a hp.claimed hp.notReleased
    (Table.find?_eq_some_iff.2 ⟨ha, hid⟩) hrun⟩

theorem fenced_initial : Fenced Cluster.initial.history Cluster.initial.store := by
  constructor
  · intro w c a hm
    exact absurd hm (by simp [Cluster.initial])
  · intro newer e older w c hsplit
    simp [Cluster.initial] at hsplit

/-! ### Outcomes along a run -/

/-- Outcomes are fenced in a state of the system. -/
structure OutcomesFenced (s : Cluster) : Prop where
  /-- Whenever an outcome for a claim was committed, nothing had claimed, finalized, released,
  recovered or cancelled the job since the transaction that made the claim. -/
  committed : ∀ newer e older w c, s.history = newer ++ e :: older → e.Finalizes w c →
    ∃ between before, older = between ++ .claimed w c :: before ∧ ∀ e ∈ between, ¬e.Ends c.id
  /-- An execution whose claim is no longer current can only get `ErrConflict`. -/
  stale : ∀ w i c renewal returned, (s.workers w).slots i = .executing c renewal returned →
    owner c.id s.history ≠ some (w, c) →
    (∀ now eventID durationMS result,
      completeExecution now eventID c w durationMS result s.store = .error .conflict) ∧
    ∀ now ids durationMS outcome nextStatus nextRetryCount nextRunAt,
      failExecution now ids c w durationMS outcome nextStatus nextRetryCount nextRunAt s.store
        = .error .conflict

/-- **Outcomes are fenced** throughout every run, of any number of workers and slots, in which each
`ReleaseClaim` that finds its job under the calling worker comes from a slot whose own attempt is
RUNNING. -/
theorem outcomes_fenced (cfg : Config) (xs : List Act)
    (hown : (cluster cfg).EachStep ReleasesOwn xs) : (cluster cfg).Always OutcomesFenced xs := by
  have hfenced : (cluster cfg).Always (fun s => Fenced s.history s.store) xs :=
    System.always_of_eachStep fenced_initial (fun s x s' hr hf hc hx => hf.step hr hc hx) hown
  intro ys s hp hs
  have hf := hfenced ys s hp hs
  have hsound := reachable_sound (s := s) ⟨ys, hs⟩
  constructor
  · intro newer e older w c hsplit hfin
    exact owner_eq_some_iff.1 (hf.outcomes newer e older w c hsplit hfin)
  · intro w i c renewal returned hslot ho
    have hex : Executing s.history w c := by
      have hb := (hsound.held w).slot i
      rw [hslot] at hb
      exact hb
    have hclosed : ∀ a, s.store.attempts.find? c.activeAttemptID = some a → a.status ≠ .running := by
      intro a ha hrun
      exact ho (hf.current w c a hex.claimed hex.notReleased ha hrun)
    exact ⟨completeExecution_conflict hclosed, failExecution_conflict hclosed⟩

namespace Demo

/-- Worker `a` executes under the lock while its lease runs out; `b` recovers the job, claims it and
gives it back, because the lock is still there. -/
def lockMiss : List Act :=
  [submit] ++ poll "a" 1 11 ++ lock "a" 0 ++ execute "a" 0 ++
    poll "b" 40 12 ++ poll "b" 100 13 ++ lock "b" 0 ++
    [.slot "b" 0 (.release (101 * second) .up)]

/-- Worker `a` claims the job for slot `0`, which does not get to run before the lease is over; it
recovers and claims the job again for slot `1`.  Slot `0` now misses the lock slot `1` holds and
gives the job back; `a` claims it a third time, and slot `1` finishes. -/
def staleSlot : List Act :=
  [submit] ++ poll "a" 1 11 ++ [.loop "a" (.dispatch 0)] ++
    poll "a" 40 12 ++ poll "a" 100 13 ++ lock "a" 1 ++ execute "a" 1 ++
    [.slot "a" 0 (.acquire .up), .slot "a" 0 (.release (101 * second) .up)] ++
    poll "a" 102 14 ++ complete "a" 1 105 3001

end Demo

/-- In the run with the lock miss, `b` gives back its own claim, and the late completion of `a` gets
`ErrConflict`. -/
theorem outcomes_fenced_lockMiss :
    ∃ s c renewal returned, (cluster demo).exec Demo.lockMiss = some s ∧
      (s.workers "a").slots 0 = .executing c renewal returned ∧
      completeExecution (110 * second) 3001 c "a" 5 "" s.store = .error .conflict := by
  have hown : (cluster demo).EachStep ReleasesOwn Demo.lockMiss :=
    System.eachStep_of_check (by decide +kernel)
  have hrun : ((cluster demo).exec Demo.lockMiss).any (fun s =>
      ((s.workers "a").slots 0).executing?.any fun c => (owner c.id s.history).isNone) = true := by
    decide +kernel
  obtain ⟨s, hs, hst⟩ := (Option.any_eq_true _ _).1 hrun
  obtain ⟨c, hexec, hnone⟩ := (Option.any_eq_true _ _).1 hst
  obtain ⟨renewal, returned, hslot⟩ := Phase.executing?_eq_some hexec
  have ho : owner c.id s.history ≠ some ("a", c) := by
    rw [Option.isNone_iff_eq_none.1 hnone]
    simp
  have hf := (outcomes_fenced demo Demo.lockMiss hown).last hs
  exact ⟨s, c, renewal, returned, hs, hslot,
    (hf.stale "a" 0 c renewal returned hslot ho).1 _ _ _ _⟩

/-- The completion that was committed last, and what was committed before it. -/
def lastCompleted : List Entry → Option (String × ClaimedJob × List Entry)
  | .completed w c :: older => some (w, c, older)
  | _ => none

theorem lastCompleted_eq_some {older : List Entry} (hl : lastCompleted h = some (w, c, older)) :
    h = .completed w c :: older := by
  unfold lastCompleted at hl
  split at hl
  · cases hl
    rfl
  · cases hl

/-- A stale execution commits: when slot `1` completes the second claim, the third one owns the
job. -/
theorem stale_outcome_commits :
    ∃ s older w c, (cluster demo).exec Demo.staleSlot = some s ∧
      s.history = .completed w c :: older ∧
      ∃ c', owner c.id older = some (w, c') ∧ c'.activeAttemptID ≠ c.activeAttemptID := by
  have hrun : ((cluster demo).exec Demo.staleSlot).any (fun s => (lastCompleted s.history).any
      fun p => (owner p.2.1.id p.2.2).any fun o =>
        decide (o.1 = p.1 ∧ o.2.activeAttemptID ≠ p.2.1.activeAttemptID)) = true := by
    decide +kernel
  obtain ⟨s, hs, hst⟩ := (Option.any_eq_true _ _).1 hrun
  obtain ⟨⟨w, c, older⟩, hlast, hst⟩ := (Option.any_eq_true _ _).1 hst
  obtain ⟨⟨w', c'⟩, ho, hne⟩ := (Option.any_eq_true _ _).1 hst
  obtain ⟨rfl, hid⟩ := of_decide_eq_true hne
  exact ⟨s, older, w', c, hs, lastCompleted_eq_some hlast, c', ho, hid⟩

end JobScheduler
