import JobScheduler.Changes

/-!
# Claims, their rows, and who owns a job

What the history says about the store, in every log:

* a claim in the history has its attempt row and its job row, with the columns the claim carries, and
  attempt ids identify claims (`Log.attempt_of_claimed`, `Log.job_of_claimed`, `Log.claimed_inj`);
* the job row follows `owner`: RUNNING exactly when some claim owns the job, and then locked by the
  owner's worker with the owner's retry count (`Log.row_owner`);
* the owner's attempt is RUNNING (`Log.owner_attempt`).
-/

namespace JobScheduler

open KeyedTable

variable {h : List Entry} {s s' : Store} {e : Entry} {w w' : String} {c c' : ClaimedJob}

/-! ### Rows persist -/

theorem NewRow.id_eq {r : JobRow} (hn : NewRow e r) : r.id = e.jobID := by
  cases hn <;> rfl

theorem RowChange.identity_eq {r r' : JobRow} (hc : RowChange h r e r') :
    r'.toJob.identity = r.toJob.identity := by
  cases hc with
  | failed _ _ _ hs _ => cases hs <;> rfl
  | recovered _ hs _ => cases hs <;> rfl
  | _ => rfl

/-- A job row stays, with its unchanging columns. -/
theorem Commit.job_persists (hc : Commit h s e s') {k : UUID} {r : JobRow}
    (hr : s.jobs.find? k = some r) :
    ∃ r', s'.jobs.find? k = some r' ∧ r'.toJob.identity = r.toJob.identity := by
  rcases hc.job_cases k with ⟨-, hk⟩ | ⟨-, hnone, -⟩ | ⟨-, r₀, r', hr₀, hch, hr'⟩
  · exact ⟨r, hk.trans hr, rfl⟩
  · rw [hnone] at hr
    exact absurd hr (by simp)
  · obtain rfl := Option.some.inj (hr₀.symm.trans hr)
    exact ⟨r', hr', hch.identity_eq⟩

theorem Path.job_persists {es : List Entry} (hp : Path h s es s') {k : UUID} {r : JobRow}
    (hr : s.jobs.find? k = some r) :
    ∃ r', s'.jobs.find? k = some r' ∧ r'.toJob.identity = r.toJob.identity := by
  induction hp with
  | nil => exact ⟨r, hr, rfl⟩
  | cons _ hc ih =>
    obtain ⟨r₁, hr₁, hid₁⟩ := ih
    obtain ⟨r', hr', hid'⟩ := hc.job_persists hr₁
    exact ⟨r', hr', hid'.trans hid₁⟩

/-- An attempt row stays, with its unchanging columns. -/
theorem Commit.attempt_persists (hc : Commit h s e s') {k : UUID} {a : Attempt}
    (ha : s.attempts.find? k = some a) :
    ∃ a', s'.attempts.find? k = some a' ∧ a'.identity = a.identity := by
  rcases hc.attempt_cases k with ⟨hk, -⟩ | ⟨hnone, -⟩ | ⟨a₀, a', ha₀, -, hch, ha'⟩
  · exact ⟨a, hk.trans ha, rfl⟩
  · rw [hnone] at ha
    exact absurd ha (by simp)
  · obtain rfl := Option.some.inj (ha₀.symm.trans ha)
    exact ⟨a', ha', hch.identity_eq⟩

/-! ### Claims and their rows -/

/-- The attempt row belongs to the claim `c` of worker `w`. -/
structure AttemptOf (w : String) (c : ClaimedJob) (a : Attempt) : Prop where
  id : a.id = c.activeAttemptID
  jobID : a.jobID = c.id
  workerID : a.workerID = w
  attemptNumber : a.attemptNumber = c.retryCount + 1

theorem AttemptOf.congr {a a' : Attempt} (ho : AttemptOf w c a) (he : a'.identity = a.identity) :
    AttemptOf w c a' := by
  simp only [Attempt.identity, AttemptIdentity.mk.injEq] at he
  obtain ⟨h₁, h₂, -, h₃, h₄, -⟩ := he
  exact ⟨h₁.trans ho.id, h₂.trans ho.jobID, h₃.trans ho.workerID, h₄.trans ho.attemptNumber⟩

/-- What a commit that claims a job finds and leaves. -/
theorem Commit.of_claimed (hc : Commit h s (.claimed w c) s') :
    s.attempts.find? c.activeAttemptID = none ∧ c.activeAttemptID ≠ UUID.nil ∧
      (∃ a, s'.attempts.find? c.activeAttemptID = some a ∧ AttemptOf w c a ∧
        a.status = .running) ∧
      ∃ r now, s.jobs.find? c.id = some r ∧ r.ClaimableAt now ∧ r.toJob.identity = c.toJob.identity ∧
        r.retryCount = c.retryCount := by
  cases hc with
  | @claimed x r _ hrow hr hc =>
    refine ⟨(Table.insert_eq_some hc.attempts).1, (x.attemptID r.id).property,
      ⟨_, Table.find?_insert_self hc.attempts, ⟨rfl, rfl, rfl, rfl⟩, rfl⟩, r, x.now, hrow, hr, rfl,
      rfl⟩

/-- **Attempts of claims.**  Every claim in the history has its attempt row. -/
theorem Log.attempt_of_claimed (hl : Log h s) (hm : .claimed w c ∈ h) :
    ∃ a, s.attempts.find? c.activeAttemptID = some a ∧ AttemptOf w c a := by
  induction hl with
  | nil => simp at hm
  | cons hl hc ih =>
    rcases List.mem_cons.1 hm with rfl | hm
    · obtain ⟨-, -, ⟨a, ha, ho, -⟩, -⟩ := hc.of_claimed
      exact ⟨a, ha, ho⟩
    · obtain ⟨a, ha, ho⟩ := ih hm
      obtain ⟨a', ha', hid⟩ := hc.attempt_persists ha
      exact ⟨a', ha', ho.congr hid⟩

/-- Attempt ids identify claims. -/
theorem Log.claimed_inj (hl : Log h s) (hm : .claimed w c ∈ h) (hm' : .claimed w' c' ∈ h)
    (hid : c.activeAttemptID = c'.activeAttemptID) : w = w' ∧ c = c' := by
  induction hl with
  | nil => simp at hm
  | @cons h s _ e hl hc ih =>
    -- the attempt id of a new claim is free, that of an older one is taken
    have fresh : ∀ {w w' : String} {c c' : ClaimedJob}, e = .claimed w c → .claimed w' c' ∈ h →
        c.activeAttemptID ≠ c'.activeAttemptID := by
      rintro w w' c c' rfl hm' hid
      obtain ⟨a, ha, -⟩ := hl.attempt_of_claimed hm'
      rw [← hid, hc.of_claimed.1] at ha
      exact absurd ha (by simp)
    rcases List.mem_cons.1 hm with he | hm
    · rcases List.mem_cons.1 hm' with he' | hm'
      · exact Entry.claimed.inj (he.trans he'.symm)
      · exact absurd hid (fresh he.symm hm')
    · rcases List.mem_cons.1 hm' with he' | hm'
      · exact absurd hid.symm (fresh he'.symm hm)
      · exact ih hm hm'

theorem Log.activeAttemptID_ne_nil (hl : Log h s) (hm : .claimed w c ∈ h) :
    c.activeAttemptID ≠ UUID.nil := by
  induction hl with
  | nil => simp at hm
  | cons hl hc ih =>
    rcases List.mem_cons.1 hm with rfl | hm
    · exact hc.of_claimed.2.1
    · exact ih hm

/-- **Jobs of claims.**  Every claim in the history has its job row, with the columns it carries. -/
theorem Log.job_of_claimed (hl : Log h s) (hm : .claimed w c ∈ h) :
    ∃ r, s.jobs.find? c.id = some r ∧ r.toJob.identity = c.toJob.identity := by
  induction hl with
  | nil => simp at hm
  | @cons h s _ e hl hc ih =>
    have hold : ∃ r, s.jobs.find? c.id = some r ∧ r.toJob.identity = c.toJob.identity := by
      rcases List.mem_cons.1 hm with rfl | hm
      · obtain ⟨-, -, -, r, now, hr, -, hid, -⟩ := hc.of_claimed
        exact ⟨r, hr, hid⟩
      · exact ih hm
    obtain ⟨r, hr, hid⟩ := hold
    obtain ⟨r', hr', hid'⟩ := hc.job_persists hr
    exact ⟨r', hr', hid'.trans hid⟩

/-- Every attempt row belongs to a claim in the history. -/
theorem Log.claim_of_attempt (hl : Log h s) {k : UUID} {a : Attempt}
    (ha : s.attempts.find? k = some a) :
    ∃ w c, .claimed w c ∈ h ∧ AttemptOf w c a := by
  induction hl generalizing a with
  | nil => simp [Store.empty] at ha
  | cons hl hc ih =>
    rcases hc.attempt_cases k with ⟨hk, -⟩ | ⟨-, x, r, rfl, -, rfl, hk⟩ | ⟨a₀, a', ha₀, -, hch, hk⟩
    · obtain ⟨w, c, hm, ho⟩ := ih (hk.symm.trans ha)
      exact ⟨w, c, List.mem_cons_of_mem _ hm, ho⟩
    · obtain rfl := Option.some.inj (hk.symm.trans ha)
      exact ⟨_, _, List.mem_cons_self, ⟨rfl, rfl, rfl, rfl⟩⟩
    · obtain rfl := Option.some.inj (hk.symm.trans ha)
      obtain ⟨w, c, hm, ho⟩ := ih ha₀
      exact ⟨w, c, List.mem_cons_of_mem _ hm, ho.congr hch.identity_eq⟩

/-! ### Owners -/

@[simp] theorem owner_nil (j : UUID) : owner j [] = none := rfl

/-- Only entries about the job change its owner. -/
theorem owner_cons_of_ne {j : UUID} (hj : e.jobID ≠ j) : owner j (e :: h) = owner j h := by
  cases e with
  | transitioned id op => cases op <;> simp_all [owner, Entry.jobID]
  | _ => simp_all [owner, Entry.jobID]

theorem owner_append_of_ne {j : UUID} {es : List Entry} (hne : ∀ e ∈ es, e.jobID ≠ j) :
    owner j (es ++ h) = owner j h := by
  induction es with
  | nil => rfl
  | cons e es ih =>
    rw [List.cons_append, owner_cons_of_ne (hne e List.mem_cons_self)]
    exact ih fun e' he' => hne e' (List.mem_cons_of_mem _ he')

/-- Of the operator's operations only a cancellation ends a claim. -/
theorem owner_transitioned_of_ne {j id : UUID} {op : Operation} (hop : op ≠ .cancel) :
    owner j (.transitioned id op :: h) = owner j h := by
  cases op with
  | cancel => exact absurd rfl hop
  | _ => rfl

theorem Operation.running_not_allowed (op : Operation) (hop : op ≠ .cancel) :
    Status.running ∉ op.allowedFrom := by
  cases op with
  | cancel => exact absurd rfl hop
  | _ => simp [Operation.allowedFrom]

theorem Operation.target_ne_running (op : Operation) : op.target ≠ .running := by
  cases op <;> simp [Operation.target]

/-- An owner has just claimed the job, or owned it before. -/
theorem owner_cons_eq_some {j : UUID} (ho : owner j (e :: h) = some (w, c)) :
    (e = .claimed w c ∧ c.id = j) ∨ owner j h = some (w, c) := by
  cases e with
  | claimed w' c' =>
    simp only [owner] at ho
    split at ho
    · obtain ⟨rfl, rfl⟩ := Prod.mk.inj (Option.some.inj ho)
      exact .inl ⟨rfl, by assumption⟩
    · exact .inr ho
  | transitioned id op => cases op <;> simp_all [owner]
  | _ => simp_all [owner]

/-- An owner is a claim of the history, of that job. -/
theorem owner_eq_some {j : UUID} (ho : owner j h = some (w, c)) : .claimed w c ∈ h ∧ c.id = j := by
  induction h with
  | nil => simp at ho
  | cons e h ih =>
    rcases owner_cons_eq_some ho with ⟨rfl, hid⟩ | hold
    · exact ⟨List.mem_cons_self, hid⟩
    · exact ⟨List.mem_cons_of_mem _ (ih hold).1, (ih hold).2⟩

/-- A job row agrees with the owner of its job. -/
structure RowOwner (o : Option (String × ClaimedJob)) (r : JobRow) : Prop where
  running : r.status = .running ↔ o ≠ none
  lockedBy : ∀ w c, o = some (w, c) → r.lockedBy = some w
  retryCount : ∀ w c, o = some (w, c) → r.retryCount = c.retryCount

theorem RowOwner.of_not_running {r : JobRow} (hr : r.status ≠ .running) : RowOwner none r :=
  ⟨by simp [hr], by simp, by simp⟩

theorem RowOwner.eq_none {o : Option (String × ClaimedJob)} {r : JobRow} (ho : RowOwner o r)
    (hr : r.status ≠ .running) : o = none := by
  by_contra hne
  exact hr (ho.running.2 hne)

theorem NewRow.status_cases {r : JobRow} (hn : NewRow e r) :
    r.status = .pending ∨ r.status = .scheduled := by
  cases hn with
  | created now hj => exact hj.status
  | requeued => exact initialStatus_cases _ _

section Settled

variable {now : Time} {n : Int} {message : String} {status : Status} {r r' : JobRow}

theorem Settled.status_eq (hs : Settled now n message r status r') : r'.status = status := by
  cases hs <;> rfl

theorem Settled.not_running (hs : Settled now n message r status r') : r'.status ≠ .running := by
  cases hs <;> exact fun he => by cases he

theorem Settled.retryCount_eq (hs : Settled now n message r status r') : r'.retryCount = n := by
  cases hs <;> rfl

theorem Settled.maxRetries_eq (hs : Settled now n message r status r') :
    r'.maxRetries = r.maxRetries := by
  cases hs <;> rfl

end Settled

/-- The step lemma of `Log.row_owner`. -/
theorem RowChange.row_owner {r r' : JobRow} (hc : RowChange h r e r')
    (ho : RowOwner (owner e.jobID h) r) : RowOwner (owner e.jobID (e :: h)) r' := by
  cases hc with
  | claimed x hr =>
    have hown : owner r.id (.claimed x.workerID (x.claimed r) :: h)
        = some (x.workerID, x.claimed r) := by
      simp [owner, ClaimArgs.claimed]
    show RowOwner (owner r.id (.claimed x.workerID (x.claimed r) :: h)) (x.lease r)
    rw [hown]
    refine ⟨by simp [ClaimArgs.lease], ?_, ?_⟩
    · intro w c he
      obtain ⟨rfl, rfl⟩ := Prod.mk.inj (Option.some.inj he)
      rfl
    · intro w c he
      obtain ⟨rfl, rfl⟩ := Prod.mk.inj (Option.some.inj he)
      rfl
  | extended now ttl _ _ _ => exact ⟨ho.running, ho.lockedBy, ho.retryCount⟩
  | completed now _ _ _ =>
    simp only [owner, Entry.jobID, if_true]
    exact .of_not_running (by simp [succeededRow])
  | failed _ _ _ hs _ =>
    simp only [owner, Entry.jobID, if_true]
    exact .of_not_running hs.not_running
  | released now _ _ _ =>
    simp only [owner, Entry.jobID, if_true]
    exact .of_not_running (by simp [releasedRow])
  | @transitioned now op hfrom =>
    have hnot : (operatorRow now op.target r).status ≠ .running := op.target_ne_running
    by_cases hop : op = .cancel
    · subst hop
      simp only [owner, Entry.jobID, if_true]
      exact .of_not_running hnot
    · -- the other operations find the job not RUNNING, so nobody owned it
      have hne : r.status ≠ .running := fun he => op.running_not_allowed hop (he ▸ hfrom)
      rw [owner_transitioned_of_ne hop, ho.eq_none hne]
      exact .of_not_running hnot
  | recovered _ hs _ =>
    simp only [owner, Entry.jobID, if_true]
    exact .of_not_running hs.not_running

/-- **The row follows the owner.**  In every log, a job row is RUNNING exactly when some claim owns
the job, and then it carries that claim's worker and retry count; a job without a row has no
owner. -/
theorem Log.row_owner (hl : Log h s) (k : UUID) :
    (s.jobs.find? k = none → owner k h = none) ∧
      ∀ r, s.jobs.find? k = some r → RowOwner (owner k h) r := by
  induction hl with
  | nil => simp [Store.empty]
  | @cons h s s' e hl hc ih =>
    by_cases hk : e.jobID = k
    · subst hk
      rcases hc.job_cases e.jobID with ⟨hx, he⟩ | ⟨-, hnone, r', hn, hr'⟩ | ⟨-, r₀, r', hr₀, hch, hr'⟩
      · obtain ⟨w, c, rfl⟩ := hx rfl
        rw [he]
        exact ih
      · refine ⟨fun hno => by rw [hno] at hr'; exact absurd hr' (by simp), fun r hr => ?_⟩
        obtain rfl := Option.some.inj (hr'.symm.trans hr)
        have hown : owner e.jobID (e :: h) = none := by
          cases hn <;> exact ih.1 hnone
        rw [hown]
        refine .of_not_running ?_
        rcases hn.status_cases with hs | hs <;> simp [hs]
      · refine ⟨fun hno => by rw [hno] at hr'; exact absurd hr' (by simp), fun r hr => ?_⟩
        obtain rfl := Option.some.inj (hr'.symm.trans hr)
        exact hch.row_owner (ih.2 r₀ hr₀)
    · rw [owner_cons_of_ne hk]
      rwa [hc.job_frame (Ne.symm hk)]

/-- The owner's job is RUNNING under the owner's worker. -/
theorem Log.owner_row (hl : Log h s) {j : UUID} (ho : owner j h = some (w, c)) :
    ∃ r, s.jobs.find? j = some r ∧ r.status = .running ∧ r.lockedBy = some w ∧
      r.retryCount = c.retryCount := by
  obtain ⟨hnone, hsome⟩ := hl.row_owner j
  cases hr : s.jobs.find? j with
  | none =>
    rw [hnone hr] at ho
    exact absurd ho (by simp)
  | some r =>
    have hrow := hsome r hr
    exact ⟨r, rfl, hrow.running.2 (by simp [ho]), hrow.lockedBy w c ho, hrow.retryCount w c ho⟩

/-- An entry that closes the attempt of a claim leaves the job without an owner. -/
theorem Log.owner_of_closes (hl : Log h s) (hc : Commit h s e s') (hm : .claimed w c ∈ h)
    {a : Attempt} (ha : AttemptOf w c a) (hcl : e.Closes a) : owner c.id (e :: h) = none := by
  -- a finalization closes its own claim's attempt, and attempt ids identify claims
  have same : ∀ {w' c'}, Executing h w' c' → a.id = c'.activeAttemptID → c'.id = c.id := by
    intro w' c' hp hid
    have := hl.claimed_inj hp.claimed hm (hid.symm.trans ha.id)
    rw [this.2]
  cases hc with
  | completed hp _ => simp [owner, same hp hcl]
  | failed hp _ => simp [owner, same hp hcl]
  | @transitioned _ _ op r _ _ =>
    cases op with
    | cancel =>
      have hid : r.id = c.id := hcl.symm.trans ha.jobID
      simp [owner, hid]
    | _ => exact absurd hcl id
  | @recovered _ r _ _ _ _ =>
    have hid : r.id = c.id := hcl.symm.trans ha.jobID
    simp [owner, hid]
  | _ => exact absurd hcl id

/-- **The owner's attempt is RUNNING.** -/
theorem Log.owner_attempt (hl : Log h s) {j : UUID} (ho : owner j h = some (w, c)) :
    ∃ a, s.attempts.find? c.activeAttemptID = some a ∧ AttemptOf w c a ∧ a.status = .running := by
  induction hl with
  | nil => simp at ho
  | @cons h s s' e hl hc ih =>
    rcases owner_cons_eq_some ho with ⟨rfl, -⟩ | hold
    · exact hc.of_claimed.2.2.1
    · obtain ⟨a, ha, hof, hrun⟩ := ih hold
      obtain ⟨hm, rfl⟩ := owner_eq_some hold
      rcases hc.attempt_cases c.activeAttemptID with ⟨hk, -⟩ | ⟨hnone, -⟩ | ⟨a₀, a', ha₀, -, hch, -⟩
      · exact ⟨a, hk.trans ha, hof, hrun⟩
      · rw [hnone] at ha
        exact absurd ha (by simp)
      · obtain rfl := Option.some.inj (ha₀.symm.trans ha)
        have hcl : e.Closes a₀ := by cases hch <;> assumption
        rw [hl.owner_of_closes hc hm hof hcl] at ho
        exact absurd ho (by simp)

end JobScheduler
