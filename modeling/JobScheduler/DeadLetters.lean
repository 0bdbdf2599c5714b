import JobScheduler.Lifecycle

/-!
# Dead letters

`FailExecution` and the recovery bury a job and write its dead letter in one transaction, the first
from the copy of the job its claim carries, the second from the row it locked.  The schema does not
keep two dead letters of one job apart; that a job is buried once follows from the status guard of
both, and from DEAD_LETTERED being final.

* `Commit.letters` — a commit either leaves the dead letters as they are, up to the two columns a
  requeue fills in, or buries a RUNNING job together with a fresh dead letter of it.
* `dead_letter_correspondence` — DEAD_LETTERED jobs and dead letters correspond.
-/

namespace JobScheduler

open KeyedTable TransitionSystem

variable {h : List Entry} {s s' : Store} {e : Entry} {r r' : JobRow}

/-! ### Letters -/

/-- What a dead letter says about its job. -/
structure Letter where
  originalJobID : UUID
  tenantID : UUID
  name : String
  jobType : String
  payload : RawMessage
  retryCount : Int

/-- The content of a dead letter; a requeue leaves it alone. -/
def DeadLetterJob.letter (d : DeadLetterJob) : Letter :=
  ⟨d.originalJobID, d.tenantID, d.name, d.jobType, d.payload, d.retryCount⟩

/-- The letter of a job. -/
def JobRow.letter (r : JobRow) : Letter :=
  ⟨r.id, r.tenantID, r.name, r.jobType, r.payload, r.retryCount⟩

/-- How many dead letters a job has. -/
def Store.lettersOf (s : Store) (jobID : UUID) : ℕ :=
  s.deadLetters.count fun d => d.originalJobID = jobID

/-- The dead letters are the same, up to what a requeue fills in. -/
structure SameLetters (s s' : Store) : Prop where
  count : ∀ j, s'.lettersOf j = s.lettersOf j
  back : ∀ d' ∈ s'.deadLetters.rows, ∃ d ∈ s.deadLetters.rows, d'.letter = d.letter

theorem SameLetters.of_eq (hd : s'.deadLetters = s.deadLetters) : SameLetters s s' where
  count := fun j => by rw [Store.lettersOf, Store.lettersOf, hd]
  back := fun d' hd' => ⟨d', hd ▸ hd', rfl⟩

/-- A requeue changes two columns of one dead letter. -/
theorem Requeues.sameLetters {now clock runAt : Time} {newID tenantID : UUID} {dl : DeadLetterJob}
    (hq : Requeues now clock newID tenantID dl runAt s s') : SameLetters s s' := by
  constructor
  · intro j
    rw [Store.lettersOf, hq.deadLetters]
    exact Table.count_update_congr fun d _ _ => Iff.rfl
  · intro d' hd'
    have hfind : s'.deadLetters.find? d'.id = some d' := Table.find?_key hd'
    rw [hq.deadLetters] at hfind
    rcases Table.find?_modify_cases hq.letter (requeuedLetter now newID)
      (requeuedLetter_id now newID) d'.id with ⟨-, hk⟩ | ⟨-, hk⟩
    · exact ⟨d', (Table.find?_eq_some_iff.1 (hk.symm.trans hfind)).1, rfl⟩
    · obtain rfl := Option.some.inj (hfind.symm.trans hk)
      exact ⟨dl, (Table.find?_eq_some_iff.1 hq.letter).1, rfl⟩

/-- The job under the key is buried, and its dead letter written. -/
structure Buries (s s' : Store) (k : UUID) : Prop where
  running : ∃ r, s.jobs.find? k = some r ∧ r.status = .running
  buried : ∃ r' d, s'.jobs.find? k = some r' ∧ r'.status = .deadLettered ∧
    s.deadLetters.insert d = some s'.deadLetters ∧ d.letter = r'.letter

/-! ### Letters across a commit -/

/-- Settling a failed attempt buries the job or leaves the dead letters alone.  The copy of the job
the transaction works from agrees with the row in the columns of the letter. -/
theorem Settles.letters {now : Time} {j : Job} {n : Int} {message : String} {status : Status}
    (hs : Settles now j n message s s' status) (hr : s.jobs.find? j.id = some r)
    (hrun : r.status = .running) (hid : r.toJob.identity = j.identity) :
    (SameLetters s s' ∧ ∀ k r', s'.jobs.find? k = some r' → r'.status = .deadLettered →
      s.jobs.find? k = some r') ∨ Buries s s' j.id := by
  cases hs with
  | buried deadLetterID hjobs hins =>
    refine .inr ⟨⟨r, hr, hrun⟩, buryRow now n message r, _, ?_, rfl, hins, ?_⟩
    · rw [hjobs]
      exact Table.find?_modify_self hr _ _
    · simp only [Job.identity, JobIdentity.mk.injEq] at hid
      obtain ⟨h₁, h₂, h₃, h₄, h₅, -⟩ := hid
      simp only [DeadLetterJob.letter, JobRow.letter, deadLetterRow, buryRow, h₁, h₂, h₃, h₄, h₅]
  | retried runAt hjobs hletters =>
    refine .inl ⟨.of_eq hletters, fun k r' hr' hd => ?_⟩
    rw [hjobs] at hr'
    rcases Table.find?_modify_cases hr (retryRow now n runAt message) (retryRow_id _ _ _ _) k with
      ⟨-, hk⟩ | ⟨-, hk⟩
    · exact hk.symm.trans hr'
    · obtain rfl := Option.some.inj (hk.symm.trans hr')
      cases hd

/-- A commit that neither fails nor recovers a job leaves no newly buried row. -/
theorem Commit.not_buried (hc : Commit h s e s') (hf : ∀ w c, e ≠ .failed w c)
    (hrec : ∀ id, e ≠ .recovered id) {k : UUID} (hr' : s'.jobs.find? k = some r')
    (hd : r'.status = .deadLettered) : s.jobs.find? k = some r' := by
  rcases hc.row_cases hr' with hold | ⟨-, -, hn⟩ | ⟨-, r₀, -, hch⟩
  · exact hold
  · rcases hn.status_cases with hs | hs <;> rw [hs] at hd <;> cases hd
  · rcases hch.of_buried hd with ⟨w, c, he⟩ | ⟨id, he⟩
    · exact absurd he (hf w c)
    · exact absurd he (hrec id)

/-- **Step lemma.**  A commit buries the job of its entry with a fresh dead letter, or keeps the dead
letters and buries nothing. -/
theorem Commit.letters (hc : Commit h s e s') (hl : Log h s) :
    (SameLetters s s' ∧ ∀ k r', s'.jobs.find? k = some r' → r'.status = .deadLettered →
      s.jobs.find? k = some r') ∨ Buries s s' e.jobID := by
  have keep : SameLetters s s' → (∀ w c, e ≠ .failed w c) → (∀ id, e ≠ .recovered id) →
      (SameLetters s s' ∧ ∀ k r', s'.jobs.find? k = some r' → r'.status = .deadLettered →
        s.jobs.find? k = some r') ∨ Buries s s' e.jobID :=
    fun hs hf hrec => .inl ⟨hs, fun k r' hr' hd => hc.not_buried hf hrec hr' hd⟩
  cases hc with
  | created _ hcr => exact keep (.of_eq hcr.deadLetters) (by simp) (by simp)
  | requeued hq => exact keep hq.sameLetters (by simp) (by simp)
  | claimed _ _ hcl => exact keep (.of_eq hcl.deadLetters) (by simp) (by simp)
  | extended _ _ hx => exact keep (.of_eq hx.deadLetters) (by simp) (by simp)
  | executed _ => exact keep (.of_eq rfl) (by simp) (by simp)
  | completed _ hcm => exact keep (.of_eq hcm.deadLetters) (by simp) (by simp)
  | failed hp hf =>
    -- the copy is the claim's
    obtain ⟨r, hr, hid⟩ := hl.job_of_claimed hp.claimed
    obtain rfl := Option.some.inj (hr.symm.trans hf.row)
    exact hf.settles.letters hr hf.running hid
  | released _ _ hrl => exact keep (.of_eq hrl.deadLetters) (by simp) (by simp)
  | transitioned ht => exact keep (.of_eq ht.deadLetters) (by simp) (by simp)
  | recovered hrow hexp hrec => exact hrec.settles.letters hrow hexp.1 rfl

/-! ### The correspondence -/

/-- The dead letters of a job agree with its row. -/
structure Filed (s : Store) (r : JobRow) : Prop where
  buried : r.status = .deadLettered → s.lettersOf r.id = 1
  live : r.status ≠ .deadLettered → s.lettersOf r.id = 0
  copies : ∀ d ∈ s.deadLetters.rows, d.originalJobID = r.id → d.letter = r.letter

/-- Every dead letter has its job. -/
def Store.LettersKnown (s : Store) : Prop :=
  ∀ d ∈ s.deadLetters.rows, ∃ r, s.jobs.find? d.originalJobID = some r

theorem Filed.of_same (hf : Filed s r) (hs : SameLetters s s') : Filed s' r where
  buried := fun hd => (hs.count r.id).trans (hf.buried hd)
  live := fun hd => (hs.count r.id).trans (hf.live hd)
  copies := by
    intro d' hd' hj
    obtain ⟨d, hd, hlet⟩ := hs.back d' hd'
    rw [hlet]
    exact hf.copies d hd ((congrArg Letter.originalJobID hlet).symm.trans hj)

/-- A job that was buried by nobody and has no dead letter. -/
theorem Filed.of_live (hd : r.status ≠ .deadLettered) (hzero : s.lettersOf r.id = 0) :
    Filed s r where
  buried := fun hb => absurd hb hd
  live := fun _ => hzero
  copies := fun d hm hj => absurd hj (Table.count_eq_zero.1 hzero d hm)

/-- Rows and dead letters after a commit that buries nothing. -/
theorem Commit.filed_of_same (hc : Commit h s e s') (hs : SameLetters s s')
    (hkeep : ∀ k r', s'.jobs.find? k = some r' → r'.status = .deadLettered →
      s.jobs.find? k = some r')
    (hknown : s.LettersKnown) (hfiled : ∀ k r, s.jobs.find? k = some r → Filed s r) {k : UUID}
    (hr' : s'.jobs.find? k = some r') : Filed s' r' := by
  by_cases hd : r'.status = .deadLettered
  · exact (hfiled k r' (hkeep k r' hr' hd)).of_same hs
  · have hid : r'.id = k := (Table.find?_eq_some_iff.1 hr').2
    refine .of_live hd ?_
    rw [hs.count, hid]
    rcases hc.row_cases hr' with hold | ⟨-, hnone, -⟩ | ⟨-, r, hr, hch⟩
    · have hlive := (hfiled k r' hold).live hd
      rwa [hid] at hlive
    · -- a job that was not there has no dead letter
      refine Table.count_eq_zero.2 fun d hm hj => ?_
      obtain ⟨r, hr⟩ := hknown d hm
      rw [hj, hnone] at hr
      cases hr
    · -- DEAD_LETTERED is final, so the row was not buried before either
      have hlive : r.status ≠ .deadLettered := by
        intro hb
        exact hch.not_final (by rw [hb]; decide)
      have hzero := (hfiled k r hr).live hlive
      rwa [show r.id = k from (Table.find?_eq_some_iff.1 hr).2] at hzero

/-- Rows and dead letters after a commit that buries the job `j`. -/
theorem Buries.filed {j : UUID} (hb : Buries s s' j)
    (hframe : ∀ k, k ≠ j → s'.jobs.find? k = s.jobs.find? k)
    (hfiled : ∀ k r, s.jobs.find? k = some r → Filed s r) {k : UUID}
    (hr' : s'.jobs.find? k = some r') : Filed s' r' := by
  obtain ⟨⟨r, hr, hrun⟩, r₁, d, hr₁, hd₁, hins, hlet⟩ := hb
  have hdj : d.originalJobID = r₁.id := congrArg Letter.originalJobID hlet
  have hjid : r₁.id = j := (Table.find?_eq_some_iff.1 hr₁).2
  have hid : r'.id = k := (Table.find?_eq_some_iff.1 hr').2
  have hcount : ∀ i, s'.lettersOf i = s.lettersOf i + if d.originalJobID = i then 1 else 0 :=
    fun i => Table.count_insert hins
  by_cases hk : k = j
  · subst hk
    obtain rfl := Option.some.inj (hr₁.symm.trans hr')
    have hzero := (hfiled k r hr).live (by simp [hrun])
    rw [show r.id = k from (Table.find?_eq_some_iff.1 hr).2] at hzero
    have hone : s'.lettersOf r₁.id = 1 := by
      rw [hcount, hjid, hzero, hdj, if_pos hjid]
    refine ⟨fun _ => hone, fun hne => absurd hd₁ hne, fun d' hd' hj => ?_⟩
    rcases (Table.mem_insert hins).1 hd' with hold | rfl
    · exact absurd (hj.trans hjid) (Table.count_eq_zero.1 hzero d' hold)
    · exact hlet
  · have hold := hfiled k r' ((hframe k hk).symm.trans hr')
    have hother : d.originalJobID ≠ r'.id := by
      rw [hdj, hjid, hid]
      exact Ne.symm hk
    have hsame : s'.lettersOf r'.id = s.lettersOf r'.id := by
      rw [hcount, if_neg hother, Nat.add_zero]
    refine ⟨fun hd => hsame.trans (hold.buried hd), fun hd => hsame.trans (hold.live hd), ?_⟩
    intro d' hd' hj
    rcases (Table.mem_insert hins).1 hd' with hm | rfl
    · exact hold.copies d' hm hj
    · exact absurd hj hother

/-- **Dead letters of a log.** -/
theorem Log.filed (hl : Log h s) :
    s.LettersKnown ∧ ∀ k r, s.jobs.find? k = some r → Filed s r := by
  induction hl with
  | nil => simp [Store.LettersKnown, Store.empty, Table.empty, Table.find?]
  | @cons h s s' e hl hc ih =>
    obtain ⟨hknown, hfiled⟩ := ih
    rcases hc.letters hl with ⟨hs, hkeep⟩ | hb
    · refine ⟨fun d' hd' => ?_, fun k r' hr' => hc.filed_of_same hs hkeep hknown hfiled hr'⟩
      obtain ⟨d, hd, hlet⟩ := hs.back d' hd'
      obtain ⟨r, hr⟩ := hknown d hd
      obtain ⟨r', hr', -⟩ := hc.job_persists hr
      rw [show d'.originalJobID = d.originalJobID from congrArg Letter.originalJobID hlet]
      exact ⟨r', hr'⟩
    · have hframe : ∀ k, k ≠ e.jobID → s'.jobs.find? k = s.jobs.find? k :=
        fun k hk => hc.job_frame hk
      refine ⟨fun d' hd' => ?_, fun k r' hr' => hb.filed hframe hfiled hr'⟩
      obtain ⟨-, r₁, d, hr₁, -, hins, hlet⟩ := hb
      rcases (Table.mem_insert hins).1 hd' with hold | rfl
      · obtain ⟨r, hr⟩ := hknown d' hold
        obtain ⟨r', hr', -⟩ := hc.job_persists hr
        exact ⟨r', hr'⟩
      · rw [show d'.originalJobID = r₁.id from congrArg Letter.originalJobID hlet]
        exact ⟨r₁, Table.find?_key (Table.find?_eq_some_iff.1 hr₁).1⟩

/-- **Dead-letter correspondence.**  In every reachable state a job is DEAD_LETTERED exactly when it
has exactly one dead letter, and has none otherwise; a dead letter carries the tenant, name, type,
payload and retry count of its job, and its job is there and DEAD_LETTERED. -/
theorem dead_letter_correspondence {cfg : Config} {s : Cluster} (hr : (cluster cfg).Reachable s) :
    (∀ r ∈ s.store.jobs.rows,
      (r.status = .deadLettered ↔ s.store.lettersOf r.id = 1) ∧
      (r.status ≠ .deadLettered → s.store.lettersOf r.id = 0) ∧
      ∀ d ∈ s.store.deadLetters.rows, d.originalJobID = r.id →
        d.tenantID = r.tenantID ∧ d.name = r.name ∧ d.jobType = r.jobType ∧
        d.payload = r.payload ∧ d.retryCount = r.retryCount) ∧
    ∀ d ∈ s.store.deadLetters.rows,
      ∃ r ∈ s.store.jobs.rows, r.id = d.originalJobID ∧ r.status = .deadLettered := by
  obtain ⟨hknown, hfiled⟩ := (reachable_sound hr).log.filed
  constructor
  · intro r hm
    have hf := hfiled r.id r (Table.find?_key hm)
    refine ⟨⟨hf.buried, fun hone => ?_⟩, hf.live, fun d hd hj => ?_⟩
    · by_contra hne
      have hzero := hf.live hne
      omega
    · have hlet := hf.copies d hd hj
      simp only [DeadLetterJob.letter, JobRow.letter, Letter.mk.injEq] at hlet
      exact hlet.2
  · intro d hd
    obtain ⟨r, hrow⟩ := hknown d hd
    obtain ⟨hm, hid⟩ := Table.find?_eq_some_iff.1 hrow
    refine ⟨r, hm, hid, ?_⟩
    by_contra hne
    exact Table.count_eq_zero.1 ((hfiled _ r hrow).live hne) d hd (Eq.symm hid)

open Demo in
/-- A job that failed for good, and its one dead letter. -/
theorem dead_letter_correspondence_buried :
    ∃ s r, (cluster demo).exec ([submit] ++ poll "a" 1 11 ++ lock "a" 0 ++
        execute "a" 0 ++ fail "a" 0 5 (.execution "INVALID_URL" "invalid URL" false 0 "") 3001)
        = some s ∧
      r ∈ s.store.jobs.rows ∧ r.status = .deadLettered ∧ s.store.lettersOf r.id = 1 := by
  obtain ⟨s, hs, r, hm, hd⟩ :
      ∃ s, (cluster demo).exec ([submit] ++ poll "a" 1 11 ++ lock "a" 0 ++ execute "a" 0 ++
          fail "a" 0 5 (.execution "INVALID_URL" "invalid URL" false 0 "") 3001) = some s ∧
        ∃ r ∈ s.store.jobs.rows, r.status = .deadLettered :=
    System.exists_of_exec (by decide +kernel)
  exact ⟨s, r, hs, hm, hd, (((dead_letter_correspondence ⟨_, hs⟩).1 r hm).1).1 hd⟩

end JobScheduler
