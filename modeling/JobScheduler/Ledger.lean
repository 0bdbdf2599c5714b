import JobScheduler.Fencing
import JobScheduler.Lifecycle

/-!
# The ledger of attempts

`retry_count` is written as an absolute value, computed from the snapshot of a claim or from the row
a recovery locked, and the attempt numbers are derived from it.  The ledger of a job is in order when
its attempts are numbered `1, …, n` and `retry_count` is the number of the FAILED ones.

The invariant behind it (`Ledger`): the attempts numbered up to `retry_count` are the FAILED ones,
and at most one more exists, which is RUNNING unless the job is SUCCEEDED or CANCELLED.  Every
commit keeps it except a claim of a job that still has a RUNNING attempt (`Commit.ledger`), and such
jobs exist because `ReleaseClaim` makes them.
-/

namespace JobScheduler

open KeyedTable TransitionSystem

variable {h h' es : List Entry} {s s' : Store} {e : Entry} {r r' : JobRow} {w : String}
  {c : ClaimedJob} {a a' : Attempt}

/-! ### Attempts of one job across a commit -/

theorem Attempt.jobID_of_identity (hid : a'.identity = a.identity) : a'.jobID = a.jobID :=
  congrArg AttemptIdentity.jobID hid

theorem Attempt.number_of_identity (hid : a'.identity = a.identity) :
    a'.attemptNumber = a.attemptNumber :=
  congrArg AttemptIdentity.attemptNumber hid

/-- An entry closes attempts of its own job only. -/
theorem AttemptChange.jobID_eq (hch : AttemptChange h a e a') (hl : Log h s)
    (ha : a ∈ s.attempts.rows) : a.jobID = e.jobID := by
  have claimed : ∀ {w c}, Executing h w c → a.id = c.activeAttemptID → a.jobID = c.id := by
    intro w c hp hid
    obtain ⟨a₁, ha₁, hof⟩ := hl.attempt_of_claimed hp.claimed
    have hfind : s.attempts.find? c.activeAttemptID = some a :=
      Table.find?_eq_some_iff.2 ⟨ha, hid⟩
    obtain rfl := Option.some.inj (ha₁.symm.trans hfind)
    exact hof.jobID
  cases hch with
  | completed _ _ _ hp hid => exact claimed hp hid
  | failed _ _ _ hp hid => exact claimed hp hid
  | cancelled _ hj => exact hj
  | recovered _ hj => exact hj

/-- Where the attempts after a commit come from. -/
theorem Commit.attempt_mem (hc : Commit h s e s') (ha' : a' ∈ s'.attempts.rows) :
    (a' ∈ s.attempts.rows ∧ (a'.status = .running → ¬e.Closes a')) ∨
      (∃ (x : ClaimArgs) (r : JobRow), e = .claimed x.workerID (x.claimed r) ∧ a' = x.attempt r) ∨
      ∃ a ∈ s.attempts.rows, a.status = .running ∧ AttemptChange h a e a' := by
  have hfind : s'.attempts.find? a'.id = some a' := Table.find?_key ha'
  rcases hc.attempt_cases a'.id with ⟨hk, hopen⟩ | ⟨-, x, r, he, -, -, hk⟩ | ⟨a, b, ha, hrun, hch, hk⟩
  · have hold : s.attempts.find? a'.id = some a' := hk.symm.trans hfind
    exact .inl ⟨(Table.find?_eq_some_iff.1 hold).1, hopen a' hold⟩
  · exact .inr (.inl ⟨x, r, he, Option.some.inj (hfind.symm.trans hk)⟩)
  · obtain rfl := Option.some.inj (hfind.symm.trans hk)
    exact .inr (.inr ⟨a, (Table.find?_eq_some_iff.1 ha).1, hrun, hch⟩)

theorem Commit.attempt_stays (hc : Commit h s e s') (ha : a ∈ s.attempts.rows) :
    ∃ a' ∈ s'.attempts.rows, a'.identity = a.identity := by
  obtain ⟨a', ha', hid⟩ := hc.attempt_persists (Table.find?_key ha)
  exact ⟨a', (Table.find?_eq_some_iff.1 ha').1, hid⟩

/-- A commit leaves the attempts of other jobs alone. -/
theorem Commit.attempt_frame (hc : Commit h s e s') (hl : Log h s) (ha' : a' ∈ s'.attempts.rows)
    (hne : a'.jobID ≠ e.jobID) : a' ∈ s.attempts.rows := by
  rcases hc.attempt_mem ha' with ⟨hm, -⟩ | ⟨x, r, rfl, rfl⟩ | ⟨a, ha, -, hch⟩
  · exact hm
  · exact absurd rfl hne
  · refine absurd ?_ hne
    rw [Attempt.jobID_of_identity hch.identity_eq]
    exact hch.jobID_eq hl ha

theorem Path.attempt_frame (hp : Path h s es s') (hl : Log h s) (ha' : a' ∈ s'.attempts.rows)
    (hne : a'.jobID ∉ es.map Entry.jobID) : a' ∈ s.attempts.rows := by
  induction hp with
  | nil => exact ha'
  | cons hp hc ih =>
    rw [List.map_cons, List.mem_cons, not_or] at hne
    exact ih (hc.attempt_frame (hl.append hp) ha' hne.1) hne.2

/-! ### The invariant -/

/-- The entry settles a failed attempt of the job `j`. -/
def Entry.isFailure (j : UUID) : Entry → Bool
  | .failed _ c => decide (c.id = j)
  | .recovered id => decide (id = j)
  | _ => false

/-- How many failures of the job `j` were committed. -/
def failures (j : UUID) (h : List Entry) : ℕ := h.countP (Entry.isFailure j)

theorem failures_cons_of_not {j : UUID} (he : e.isFailure j = false) :
    failures j (e :: h) = failures j h := by
  rw [failures, List.countP_cons, he]
  rfl

theorem failures_cons_of_isFailure {j : UUID} (he : e.isFailure j = true) :
    failures j (e :: h) = failures j h + 1 := by
  rw [failures, List.countP_cons, if_pos he]
  rfl

theorem Entry.isFailure_of_ne {j : UUID} (hj : e.jobID ≠ j) : e.isFailure j = false := by
  cases e with
  | failed w c => exact decide_eq_false hj
  | recovered id => exact decide_eq_false hj
  | _ => rfl

/-- The attempts of the row's job, against its retry count. -/
structure Ledger (h : List Entry) (s : Store) (r : JobRow) : Prop where
  range : ∀ a ∈ s.attempts.rows, a.jobID = r.id →
    1 ≤ a.attemptNumber ∧ a.attemptNumber ≤ r.retryCount + 1
  failed : ∀ a ∈ s.attempts.rows, a.jobID = r.id →
    (a.status = .failed ↔ a.attemptNumber ≤ r.retryCount)
  distinct : ∀ a ∈ s.attempts.rows, ∀ b ∈ s.attempts.rows, a.jobID = r.id → b.jobID = r.id →
    a.attemptNumber = b.attemptNumber → a = b
  covered : ∀ n, 1 ≤ n → n ≤ r.retryCount →
    ∃ a ∈ s.attempts.rows, a.jobID = r.id ∧ a.attemptNumber = n
  last : ∀ a ∈ s.attempts.rows, a.jobID = r.id → a.attemptNumber = r.retryCount + 1 →
    a.status = .running ∨ r.status ∈ [Status.succeeded, .cancelled]
  counted : r.retryCount = failures r.id h

/-- A RUNNING attempt carries the next number. -/
theorem Ledger.number_of_running (hL : Ledger h s r) (ha : a ∈ s.attempts.rows)
    (hj : a.jobID = r.id) (hrun : a.status = .running) : a.attemptNumber = r.retryCount + 1 := by
  have hrange := hL.range a ha hj
  have hnot : ¬a.attemptNumber ≤ r.retryCount := by
    rw [← hL.failed a ha hj, hrun]
    simp
  omega

/-- The attempt with the next number of a job that is not final is RUNNING. -/
theorem Ledger.running_of_number (hL : Ledger h s r) (hr : r.status ∉ Status.final)
    (ha : a ∈ s.attempts.rows) (hj : a.jobID = r.id)
    (hnum : a.attemptNumber = r.retryCount + 1) : a.status = .running := by
  rcases hL.last a ha hj hnum with hrun | hs
  · exact hrun
  · refine absurd ?_ hr
    revert hs
    cases r.status <;> decide

/-- Attempts that keep their identities keep their numbers distinct. -/
theorem Ledger.distinct_of_back (hL : Ledger h s r)
    (hback : ∀ a' ∈ s'.attempts.rows, a'.jobID = r.id →
      ∃ a ∈ s.attempts.rows, a'.identity = a.identity) :
    ∀ a ∈ s'.attempts.rows, ∀ b ∈ s'.attempts.rows, a.jobID = r.id → b.jobID = r.id →
      a.attemptNumber = b.attemptNumber → a = b := by
  intro a' ha' b' hb' hja hjb hnum
  obtain ⟨a, ha, hida⟩ := hback a' ha' hja
  obtain ⟨b, hb, hidb⟩ := hback b' hb' hjb
  rw [Attempt.jobID_of_identity hida] at hja
  rw [Attempt.jobID_of_identity hidb] at hjb
  rw [Attempt.number_of_identity hida, Attempt.number_of_identity hidb] at hnum
  obtain rfl := hL.distinct a ha b hb hja hjb hnum
  exact s'.attempts.eq_of_key_eq ha' hb' (congrArg AttemptIdentity.id (hida.trans hidb.symm))

/-- A change that keeps the retry count: attempts stay, or the RUNNING one is closed together with the
job, as SUCCEEDED or CANCELLED. -/
theorem Ledger.keep (hL : Ledger h s r) (hid : r'.id = r.id) (hrc : r'.retryCount = r.retryCount)
    (hst : r.status ∈ [Status.succeeded, .cancelled] → r'.status ∈ [Status.succeeded, .cancelled])
    (hback : ∀ a' ∈ s'.attempts.rows, a'.jobID = r.id → a' ∈ s.attempts.rows ∨
      ∃ a ∈ s.attempts.rows, a.status = .running ∧ a'.identity = a.identity ∧
        a'.status ≠ .failed ∧ r'.status ∈ [Status.succeeded, .cancelled])
    (hstay : ∀ a ∈ s.attempts.rows, ∃ a' ∈ s'.attempts.rows, a'.identity = a.identity)
    (hcount : failures r.id h' = failures r.id h) : Ledger h' s' r' := by
  have hfrom : ∀ a' ∈ s'.attempts.rows, a'.jobID = r.id →
      ∃ a ∈ s.attempts.rows, a'.identity = a.identity := by
    intro a' ha' hj
    rcases hback a' ha' hj with hm | ⟨a, ha, -, hida, -⟩
    · exact ⟨a', hm, rfl⟩
    · exact ⟨a, ha, hida⟩
  refine ⟨?_, ?_, ?_, ?_, ?_, ?_⟩ <;> rw [hid]
  · intro a' ha' hj
    obtain ⟨a, ha, hida⟩ := hfrom a' ha' hj
    rw [Attempt.jobID_of_identity hida] at hj
    rw [Attempt.number_of_identity hida, hrc]
    exact hL.range a ha hj
  · intro a' ha' hj
    rw [hrc]
    rcases hback a' ha' hj with hm | ⟨a, ha, hrun, hida, hnf, -⟩
    · exact hL.failed a' hm hj
    · rw [Attempt.jobID_of_identity hida] at hj
      have hnum := hL.number_of_running ha hj hrun
      rw [Attempt.number_of_identity hida, hnum]
      constructor
      · exact fun hf => absurd hf hnf
      · intro hle
        omega
  · exact hL.distinct_of_back hfrom
  · intro n h1 hn
    rw [hrc] at hn
    obtain ⟨a, ha, hj, hnum⟩ := hL.covered n h1 hn
    obtain ⟨a', ha', hida⟩ := hstay a ha
    exact ⟨a', ha', (Attempt.jobID_of_identity hida).trans hj,
      (Attempt.number_of_identity hida).trans hnum⟩
  · intro a' ha' hj hnum
    rw [hrc] at hnum
    rcases hback a' ha' hj with hm | ⟨-, -, -, -, -, hfin⟩
    · exact (hL.last a' hm hj hnum).imp_right hst
    · exact .inr hfin
  · rw [hrc, hcount]
    exact hL.counted

/-- A failure: the attempt with the next number exists, and is FAILED afterwards. -/
theorem Ledger.raise (hL : Ledger h s r) (hid : r'.id = r.id)
    (hrc : r'.retryCount = r.retryCount + 1) {b : Attempt} (hb : b ∈ s.attempts.rows)
    (hbj : b.jobID = r.id) (hbnum : b.attemptNumber = r.retryCount + 1)
    (hback : ∀ a' ∈ s'.attempts.rows, a'.jobID = r.id →
      (a' ∈ s.attempts.rows ∧ a'.attemptNumber ≠ r.retryCount + 1) ∨
      ∃ a ∈ s.attempts.rows, a.status = .running ∧ a'.identity = a.identity ∧ a'.status = .failed)
    (hstay : ∀ a ∈ s.attempts.rows, ∃ a' ∈ s'.attempts.rows, a'.identity = a.identity)
    (hcount : failures r.id h' = failures r.id h + 1) : Ledger h' s' r' := by
  have hfrom : ∀ a' ∈ s'.attempts.rows, a'.jobID = r.id →
      ∃ a ∈ s.attempts.rows, a'.identity = a.identity := by
    intro a' ha' hj
    rcases hback a' ha' hj with ⟨hm, -⟩ | ⟨a, ha, -, hida, -⟩
    · exact ⟨a', hm, rfl⟩
    · exact ⟨a, ha, hida⟩
  have hrange : ∀ a' ∈ s'.attempts.rows, a'.jobID = r.id →
      1 ≤ a'.attemptNumber ∧ a'.attemptNumber ≤ r.retryCount + 1 := by
    intro a' ha' hj
    obtain ⟨a, ha, hida⟩ := hfrom a' ha' hj
    rw [Attempt.jobID_of_identity hida] at hj
    rw [Attempt.number_of_identity hida]
    exact hL.range a ha hj
  refine ⟨?_, ?_, ?_, ?_, ?_, ?_⟩ <;> rw [hid]
  · intro a' ha' hj
    have hle := hrange a' ha' hj
    omega
  · intro a' ha' hj
    have hle := hrange a' ha' hj
    rw [hrc]
    rcases hback a' ha' hj with ⟨hm, hne⟩ | ⟨a, ha, hrun, hida, hf⟩
    · rw [hL.failed a' hm hj]
      omega
    · exact ⟨fun _ => hle.2, fun _ => hf⟩
  · exact hL.distinct_of_back hfrom
  · intro n h1 hn
    rw [hrc] at hn
    -- the new number is that of the attempt that failed
    have hold : ∃ a ∈ s.attempts.rows, a.jobID = r.id ∧ a.attemptNumber = n := by
      by_cases hlast : n = r.retryCount + 1
      · exact ⟨b, hb, hbj, hbnum.trans hlast.symm⟩
      · exact hL.covered n h1 (by omega)
    obtain ⟨a, ha, hj, hnum⟩ := hold
    obtain ⟨a', ha', hida⟩ := hstay a ha
    exact ⟨a', ha', (Attempt.jobID_of_identity hida).trans hj,
      (Attempt.number_of_identity hida).trans hnum⟩
  · intro a' ha' hj hnum
    have hle := hrange a' ha' hj
    omega
  · rw [hrc, hcount, hL.counted]
    push_cast
    rfl

/-- A claim of a job without a RUNNING attempt. -/
theorem Ledger.claim (hL : Ledger h s r) (hid : r'.id = r.id) (hrc : r'.retryCount = r.retryCount)
    (hfrom : r.status ∉ Status.final)
    (hclosed : ∀ a ∈ s.attempts.rows, a.jobID = r.id → a.status ≠ .running) (attemptID : UUID)
    (hback : ∀ a' ∈ s'.attempts.rows, a'.jobID = r.id → a' ∈ s.attempts.rows ∨
      (a'.id = attemptID ∧ a'.attemptNumber = r.retryCount + 1 ∧ a'.status = .running))
    (hstay : ∀ a ∈ s.attempts.rows, ∃ a' ∈ s'.attempts.rows, a'.identity = a.identity)
    (hcount : failures r.id h' = failures r.id h) : Ledger h' s' r' := by
  -- the number of the new attempt is free
  have hfree : ∀ a ∈ s.attempts.rows, a.jobID = r.id → a.attemptNumber ≠ r.retryCount + 1 := by
    intro a ha hj hnum
    exact hclosed a ha hj (hL.running_of_number hfrom ha hj hnum)
  have hnonneg := hL.counted
  refine ⟨?_, ?_, ?_, ?_, ?_, ?_⟩ <;> rw [hid]
  · intro a' ha' hj
    rw [hrc]
    rcases hback a' ha' hj with hm | ⟨-, hnum, -⟩
    · exact hL.range a' hm hj
    · omega
  · intro a' ha' hj
    rw [hrc]
    rcases hback a' ha' hj with hm | ⟨-, hnum, hrun⟩
    · exact hL.failed a' hm hj
    · rw [hrun, hnum]
      constructor
      · intro hf
        cases hf
      · intro hle
        omega
  · intro a' ha' b' hb' hja hjb heq
    rcases hback a' ha' hja with hma | ⟨hida, hnuma, -⟩
    · rcases hback b' hb' hjb with hmb | ⟨-, hnumb, -⟩
      · exact hL.distinct a' hma b' hmb hja hjb heq
      · exact absurd (heq.trans hnumb) (hfree a' hma hja)
    · rcases hback b' hb' hjb with hmb | ⟨hidb, -, -⟩
      · exact absurd (heq.symm.trans hnuma) (hfree b' hmb hjb)
      · exact s'.attempts.eq_of_key_eq ha' hb' (hida.trans hidb.symm)
  · intro n h1 hn
    rw [hrc] at hn
    obtain ⟨a, ha, hj, hnum⟩ := hL.covered n h1 hn
    obtain ⟨a', ha', hida⟩ := hstay a ha
    exact ⟨a', ha', (Attempt.jobID_of_identity hida).trans hj,
      (Attempt.number_of_identity hida).trans hnum⟩
  · intro a' ha' hj hlast
    rw [hrc] at hlast
    rcases hback a' ha' hj with hm | ⟨-, -, hrun⟩
    · exact absurd hlast (hfree a' hm hj)
    · exact .inl hrun
  · rw [hrc, hcount]
    exact hL.counted

/-- Every entry of the history is about a job in the table. -/
theorem Log.row_of_mem (hl : Log h s) (hm : e ∈ h) : ∃ r, s.jobs.find? e.jobID = some r := by
  induction hl with
  | nil => simp at hm
  | @cons h s s' e' hl hc ih =>
    rcases List.mem_cons.1 hm with rfl | hm
    · rcases hc.job_cases e.jobID with ⟨hx, hk⟩ | ⟨-, -, r', -, hr'⟩ | ⟨-, r₀, r', -, -, hr'⟩
      · obtain ⟨w, c, rfl⟩ := hx rfl
        cases hc with
        | executed hp =>
          obtain ⟨r, hr, -⟩ := hl.job_of_claimed hp.claimed
          exact ⟨r, hr⟩
      · exact ⟨r', hr'⟩
      · exact ⟨r', hr'⟩
    · obtain ⟨r, hr⟩ := ih hm
      obtain ⟨r', hr', -⟩ := hc.job_persists hr
      exact ⟨r', hr'⟩

/-- A new row has no attempts and no failures. -/
theorem Log.ledger_new (hl : Log h s) (hnone : s.jobs.find? r.id = none) (hrc : r.retryCount = 0)
    (hattempts : s'.attempts = s.attempts) (hcount : failures r.id h' = failures r.id h) :
    Ledger h' s' r := by
  have hno : ∀ a ∈ s'.attempts.rows, a.jobID ≠ r.id := by
    intro a ha hj
    rw [hattempts] at ha
    obtain ⟨w, c, hm, hof⟩ := hl.claim_of_attempt (Table.find?_key ha)
    obtain ⟨r₀, hr₀, -⟩ := hl.job_of_claimed hm
    rw [← hof.jobID, hj, hnone] at hr₀
    exact absurd hr₀ (by simp)
  have hzero : failures r.id h = 0 := by
    refine List.countP_eq_zero.2 ?_
    intro e he hf
    have hj : e.jobID = r.id := by
      by_contra hne
      rw [Entry.isFailure_of_ne hne] at hf
      cases hf
    obtain ⟨r₀, hr₀⟩ := hl.row_of_mem he
    rw [hj, hnone] at hr₀
    exact absurd hr₀ (by simp)
  refine ⟨fun a ha hj => absurd hj (hno a ha), fun a ha hj => absurd hj (hno a ha),
    fun a ha _ _ hj => absurd hj (hno a ha), ?_, fun a ha hj => absurd hj (hno a ha), ?_⟩
  · intro n h1 hn
    omega
  · rw [hrc, hcount, hzero]
    rfl

/-- The commits that keep the retry count, on their own row. -/
theorem Ledger.keep_commit (hL : Ledger h s r) (hc : Commit h s e s') (hid : r'.id = r.id)
    (hrc : r'.retryCount = r.retryCount) (hfrom : r.status ∉ Status.final)
    (hnew : ∀ w c, e ≠ .claimed w c)
    (hclose : ∀ a a', AttemptChange h a e a' →
      a'.status ≠ .failed ∧ r'.status ∈ [Status.succeeded, .cancelled])
    (hne : e.isFailure r.id = false) : Ledger (e :: h) s' r' := by
  refine hL.keep hid hrc ?_ ?_ (fun a ha => hc.attempt_stays ha) (failures_cons_of_not hne)
  · intro hs
    refine absurd ?_ hfrom
    revert hs
    cases r.status <;> decide
  · intro a' ha' hj
    rcases hc.attempt_mem ha' with ⟨hm, -⟩ | ⟨x, r, he, -⟩ | ⟨a, ha, hrun, hch⟩
    · exact .inl hm
    · exact absurd he (hnew _ _)
    · exact .inr ⟨a, ha, hrun, hch.identity_eq, hclose a a' hch⟩

/-- The commits that settle a failure, on their own row. -/
theorem Ledger.raise_commit (hL : Ledger h s r) (hc : Commit h s e s') (hid : r'.id = r.id)
    (hrc : r'.retryCount = r.retryCount + 1) (hnew : ∀ w c, e ≠ .claimed w c)
    (hfail : ∀ a a', AttemptChange h a e a' → a'.status = .failed) {b : Attempt}
    (hb : b ∈ s.attempts.rows) (hbj : b.jobID = r.id) (hbrun : b.status = .running)
    (hcloses : e.Closes b) (he : e.isFailure r.id = true) : Ledger (e :: h) s' r' := by
  have hbnum := hL.number_of_running hb hbj hbrun
  refine hL.raise hid hrc hb hbj hbnum ?_ (fun a ha => hc.attempt_stays ha)
    (failures_cons_of_isFailure he)
  intro a' ha' hj
  rcases hc.attempt_mem ha' with ⟨hm, hopen⟩ | ⟨x, r, he, -⟩ | ⟨a, ha, harun, hch⟩
  · -- an attempt with the next number would be the one that is closed
    refine .inl ⟨hm, fun hnum => ?_⟩
    obtain rfl := hL.distinct a' hm b hb hj hbj (hnum.trans hbnum.symm)
    exact hopen hbrun hcloses
  · exact absurd he (hnew _ _)
  · exact .inr ⟨a, ha, harun, hch.identity_eq, hfail a a' hch⟩

theorem Commit.attempts_of_new (hc : Commit h s e s') (hn : NewRow e r) :
    s'.attempts = s.attempts ∧ r.retryCount = 0 ∧ ∀ j, e.isFailure j = false := by
  have hrc : r.retryCount = 0 := by
    cases hn with
    | created now hj => exact hj.retryCount
    | requeued => rfl
  cases hc with
  | created _ hc => exact ⟨hc.attempts, hrc, fun _ => rfl⟩
  | requeued hc => exact ⟨hc.attempts, hrc, fun _ => rfl⟩
  | _ => cases hn

/-- **Step lemma.**  Every commit keeps the ledger of every job, provided a claim finds no RUNNING
attempt of its job. -/
theorem Commit.ledger (hc : Commit h s e s') (hl : Log h s)
    (hL : ∀ r ∈ s.jobs.rows, Ledger h s r)
    (hclaim : ∀ w c, e = .claimed w c → ∀ a ∈ s.attempts.rows, a.jobID = c.id →
      a.status ≠ .running) : ∀ r ∈ s'.jobs.rows, Ledger (e :: h) s' r := by
  intro r' hr'
  have hfind : s'.jobs.find? r'.id = some r' := Table.find?_key hr'
  rcases hc.job_cases r'.id with ⟨hx, hk⟩ | ⟨hk, hnone, r₁, hn, hr₁⟩ | ⟨hk, r, r₁, hr, hch, hr₁⟩
  · -- the row is untouched, and so are its attempts
    have hold := Table.find?_eq_some_iff.1 (hk.symm.trans hfind)
    by_cases hj : r'.id = e.jobID
    · obtain ⟨w, c, rfl⟩ := hx hj
      cases hc with
      | executed hp =>
        exact (hL r' hold.1).keep rfl rfl id (fun a' ha' _ => .inl ha')
          (fun a ha => ⟨a, ha, rfl⟩) (failures_cons_of_not rfl)
    · refine (hL r' hold.1).keep rfl rfl id ?_ (fun a ha => hc.attempt_stays ha)
        (failures_cons_of_not (Entry.isFailure_of_ne (Ne.symm hj)))
      intro a' ha' hja
      exact .inl (hc.attempt_frame hl ha' (hja ▸ hj))
  · obtain rfl := Option.some.inj (hr₁.symm.trans hfind)
    obtain ⟨hattempts, hrc, hne⟩ := hc.attempts_of_new hn
    exact hl.ledger_new hnone hrc hattempts (failures_cons_of_not (hne _))
  · obtain rfl := Option.some.inj (hr₁.symm.trans hfind)
    obtain ⟨hmem, hkey⟩ := Table.find?_eq_some_iff.1 hr
    have hid : r.id = r₁.id := hkey
    have hrow := hL r hmem
    have hfrom := hch.not_final
    cases hch with
    | claimed x hcl =>
      refine hrow.claim rfl rfl hfrom (hclaim _ _ rfl) (x.attemptID r.id).val ?_
        (fun a ha => hc.attempt_stays ha) (failures_cons_of_not rfl)
      intro a' ha' hj
      rcases hc.attempt_mem ha' with ⟨hm, -⟩ | ⟨x', r', he, rfl⟩ | ⟨a, -, -, hch⟩
      · exact .inl hm
      · obtain ⟨-, hclaimed⟩ := Entry.claimed.inj he
        have hnum : r.retryCount = r'.retryCount := congrArg (fun c => c.toJob.retryCount) hclaimed
        refine .inr ⟨(congrArg ClaimedJob.activeAttemptID hclaimed).symm, ?_, rfl⟩
        show r'.retryCount + 1 = r.retryCount + 1
        rw [hnum]
      · cases hch
    | extended now ttl _ hrun _ =>
      exact hrow.keep_commit hc rfl rfl hfrom (by simp) (fun a a' hch => by cases hch) rfl
    | completed now _ hrun _ =>
      refine hrow.keep_commit hc rfl rfl hfrom (by simp) ?_ rfl
      intro a a' hch
      cases hch with
      | completed => exact ⟨by simp [succeededAttempt], by simp [succeededRow]⟩
    | @failed _ _ _ _ w c _ hp hrun _ hs _ =>
      -- the attempt of the claim is RUNNING, so the claim has counted as the row does
      obtain ⟨-, b, hb, hbrun⟩ := hc.of_finalizes (.inr rfl)
      obtain ⟨b', hb', hof⟩ := hl.attempt_of_claimed hp.claimed
      obtain rfl := Option.some.inj (hb'.symm.trans hb)
      have hbm := (Table.find?_eq_some_iff.1 hb).1
      have hjob : c.id = r.id := hk.symm.trans hid.symm
      have hbnum := hrow.number_of_running hbm (hof.jobID.trans hjob) hbrun
      rw [hof.attemptNumber] at hbnum
      refine hrow.raise_commit hc hid.symm (hs.retryCount_eq.trans hbnum) (by simp) ?_ hbm
        (hof.jobID.trans hjob) hbrun hof.id (decide_eq_true hjob)
      intro a a' hch
      cases hch with
      | failed => rfl
    | released now _ hrun _ =>
      exact hrow.keep_commit hc rfl rfl hfrom (by simp) (fun a a' hch => by cases hch) rfl
    | @transitioned now op hallowed =>
      refine hrow.keep_commit hc rfl rfl hfrom (by simp) ?_ rfl
      intro a a' hch
      cases hch with
      | cancelled => exact ⟨by simp [cancelledAttempt], by simp [operatorRow, Operation.target]⟩
    | @recovered _ _ _ _ hrun hs _ =>
      -- a RUNNING job has an owner, whose attempt is RUNNING
      have hown := (hl.row_owner r.id).2 r (Table.find?_key hmem)
      obtain ⟨⟨w, c⟩, ho⟩ := Option.ne_none_iff_exists'.1 (hown.running.1 hrun)
      obtain ⟨b, hb, hof, hbrun⟩ := hl.owner_attempt ho
      have hbj : b.jobID = r.id := hof.jobID.trans (owner_eq_some ho).2
      refine hrow.raise_commit hc hid.symm hs.retryCount_eq (by simp) ?_
        (Table.find?_eq_some_iff.1 hb).1 hbj hbrun hbj (decide_eq_true rfl)
      intro a a' hch
      cases hch with
      | recovered => rfl

/-- The entries of one step are about distinct jobs, so a claim finds the attempts of its job as they
were before the step. -/
theorem Path.ledger (hp : Path h s es s') (hl : Log h s) (hnodup : (es.map Entry.jobID).Nodup)
    (hL : ∀ r ∈ s.jobs.rows, Ledger h s r)
    (hclaim : ∀ w c, .claimed w c ∈ es → ∀ a ∈ s.attempts.rows, a.jobID = c.id →
      a.status ≠ .running) : ∀ r ∈ s'.jobs.rows, Ledger (es ++ h) s' r := by
  induction hp with
  | nil => exact hL
  | @cons es s₁ s' e hp hc ih =>
    rw [List.map_cons, List.nodup_cons] at hnodup
    refine hc.ledger (hl.append hp)
      (ih hnodup.2 fun w c hm => hclaim w c (List.mem_cons_of_mem _ hm)) ?_
    rintro w c rfl a ha hj
    have hbefore : a ∈ s.attempts.rows := hp.attempt_frame hl ha (hj ▸ hnodup.1)
    exact hclaim w c List.mem_cons_self a hbefore hj

/-! ### Ledgers along a run -/

/-- The time at which a step calls `ClaimDueJobs`, and the rows it then has to skip. -/
def Act.claiming : Act → Option (Time × (UUID → Bool))
  | .loop _ (.claim x locked _) => some (x.now, locked)
  | _ => none

/-- If the step calls `ClaimDueJobs`, no job that is due and not skipped has a RUNNING attempt. -/
def ClaimsClosed (s : Cluster) (x : Act) : Prop :=
  ∀ p ∈ x.claiming, ∀ r ∈ s.store.jobs.rows, r.ClaimableAt p.1 → p.2 r.id = false →
    ∀ a ∈ s.store.attempts.rows, a.jobID = r.id → a.status ≠ .running

instance (s : Cluster) : DecidablePred (ClaimsClosed s) :=
  fun x => inferInstanceAs (Decidable (∀ p ∈ x.claiming, _))

theorem Ledger.step {cfg : Config} {s s' : Cluster} {x : Act} (hr : (cluster cfg).Reachable s)
    (hL : ∀ r ∈ s.store.jobs.rows, Ledger s.history s.store r) (hclosed : ClaimsClosed s x)
    (hx : step cfg s x = some s') : ∀ r ∈ s'.store.jobs.rows, Ledger s'.history s'.store r := by
  obtain ⟨es, he⟩ := reachable_emission hr hx
  rw [he.history]
  refine he.path.ledger (reachable_sound hr).log he.nodup hL ?_
  intro w c hm a ha hj
  cases he.emits _ hm with
  | claimed hdue hid =>
    obtain ⟨hmem, hcl, hlocked⟩ := mem_dueJobs hdue
    exact hclosed _ rfl _ hmem hcl hlocked a ha (hj.trans hid)

/-- The attempt numbers of a job. -/
def Store.attemptNumbers (s : Store) (jobID : UUID) : List Int :=
  (s.attempts.rows.filter fun a => a.jobID = jobID).map fun a => a.attemptNumber

/-- How many attempts of the job are FAILED. -/
def Store.failedAttempts (s : Store) (jobID : UUID) : ℕ :=
  s.attempts.count fun a => a.jobID = jobID ∧ a.status = .failed

/-- The numbers from `1` to `n`. -/
def oneTo (n : ℕ) : List Int := (List.range n).map fun i : ℕ => (i : Int) + 1

theorem mem_oneTo {n : ℕ} {x : Int} : x ∈ oneTo n ↔ 1 ≤ x ∧ x ≤ n := by
  rw [oneTo, List.mem_map]
  constructor
  · rintro ⟨i, hi, rfl⟩
    rw [List.mem_range] at hi
    omega
  · rintro ⟨h1, hn⟩
    refine ⟨(x - 1).toNat, ?_, ?_⟩
    · rw [List.mem_range]
      omega
    · omega

theorem perm_oneTo {l : List Int} (hnodup : l.Nodup) {n : ℕ} (hm : ∀ x, x ∈ l ↔ 1 ≤ x ∧ x ≤ n) :
    l.Perm (oneTo n) := by
  have hinj : Function.Injective fun i : ℕ => (i : Int) + 1 := by
    intro i j hij
    simpa using hij
  refine (List.perm_ext_iff_of_nodup hnodup (List.nodup_range.map hinj)).2 ?_
  intro x
  rw [hm, ← mem_oneTo]
  rfl

/-- The numbers of some of the job's attempts are distinct. -/
theorem Ledger.nodup_numbers (hL : Ledger h s r) (q : Attempt → Bool)
    (hq : ∀ a, q a = true → a.jobID = r.id) :
    ((s.attempts.rows.filter q).map fun a => a.attemptNumber).Nodup := by
  refine List.Nodup.map_on ?_ ((List.Nodup.of_map _ s.attempts.nodup).filter q)
  intro a ha b hb heq
  obtain ⟨ha, hqa⟩ := List.mem_filter.1 ha
  obtain ⟨hb, hqb⟩ := List.mem_filter.1 hb
  exact hL.distinct a ha b hb (hq a hqa) (hq b hqb) heq

/-- The attempts of a job are numbered from `1` on without a gap. -/
theorem Ledger.numbers_perm (hL : Ledger h s r) : ∃ n, (s.attemptNumbers r.id).Perm (oneTo n) := by
  have hnodup := hL.nodup_numbers (fun a => a.jobID = r.id) fun a ha => of_decide_eq_true ha
  have hcounted := hL.counted
  have hmem : ∀ x, x ∈ s.attemptNumbers r.id ↔
      ∃ a ∈ s.attempts.rows, a.jobID = r.id ∧ a.attemptNumber = x := by
    intro x
    simp [Store.attemptNumbers, and_assoc]
  by_cases hlast : ∃ a ∈ s.attempts.rows, a.jobID = r.id ∧ a.attemptNumber = r.retryCount + 1
  · refine ⟨failures r.id h + 1, perm_oneTo hnodup fun x => ?_⟩
    rw [← Store.attemptNumbers, hmem]
    constructor
    · rintro ⟨a, ha, hj, rfl⟩
      have hrange := hL.range a ha hj
      omega
    · rintro ⟨h1, hn⟩
      by_cases hx : x = r.retryCount + 1
      · exact hx ▸ hlast
      · exact hL.covered x h1 (by omega)
  · refine ⟨failures r.id h, perm_oneTo hnodup fun x => ?_⟩
    rw [← Store.attemptNumbers, hmem]
    constructor
    · rintro ⟨a, ha, hj, rfl⟩
      have hrange := hL.range a ha hj
      have hne : a.attemptNumber ≠ r.retryCount + 1 := fun heq => hlast ⟨a, ha, hj, heq⟩
      omega
    · rintro ⟨h1, hn⟩
      exact hL.covered x h1 (by omega)

/-- The retry count of a job is the number of its FAILED attempts. -/
theorem Ledger.retryCount_eq_failed (hL : Ledger h s r) : r.retryCount = s.failedAttempts r.id := by
  have hnodup := hL.nodup_numbers (fun a => a.jobID = r.id ∧ a.status = .failed)
    fun a ha => (of_decide_eq_true ha).1
  have hcounted := hL.counted
  have hperm := perm_oneTo (n := failures r.id h) hnodup fun x => by
    rw [List.mem_map]
    constructor
    · rintro ⟨a, ha, rfl⟩
      obtain ⟨ha, hq⟩ := List.mem_filter.1 ha
      obtain ⟨hj, hf⟩ := of_decide_eq_true hq
      have hle := (hL.failed a ha hj).1 hf
      have hrange := hL.range a ha hj
      omega
    · rintro ⟨h1, hn⟩
      obtain ⟨a, ha, hj, rfl⟩ := hL.covered x h1 (by omega)
      have hf := (hL.failed a ha hj).2 (by omega)
      exact ⟨a, List.mem_filter.2 ⟨ha, decide_eq_true ⟨hj, hf⟩⟩, rfl⟩
  have hlen := hperm.length_eq
  rw [List.length_map, ← List.countP_eq_length_filter, oneTo, List.length_map,
    List.length_range] at hlen
  rw [hcounted, ← hlen]
  rfl

/-- The ledger of every job is in order. -/
structure LedgersInOrder (s : Cluster) : Prop where
  /-- The attempts of a job are numbered `1, …, n`, each number once. -/
  numbers : ∀ r ∈ s.store.jobs.rows, ∃ n, (s.store.attemptNumbers r.id).Perm (oneTo n)
  /-- `retry_count` is the number of FAILED attempts. -/
  failed : ∀ r ∈ s.store.jobs.rows, r.retryCount = s.store.failedAttempts r.id
  /-- Each failure that was committed has raised `retry_count` by one, and nothing else has. -/
  counted : ∀ r ∈ s.store.jobs.rows, r.retryCount = failures r.id s.history

/-- **The attempt ledger** is in order throughout every run in which `ClaimDueJobs` is never called
while a job it may select still has a RUNNING attempt. -/
theorem ledgers_in_order (cfg : Config) (xs : List Act)
    (hclosed : (cluster cfg).EachStep ClaimsClosed xs) : (cluster cfg).Always LedgersInOrder xs := by
  have hinv : (cluster cfg).Always
      (fun s => ∀ r ∈ s.store.jobs.rows, Ledger s.history s.store r) xs := by
    refine System.always_of_eachStep ?_ (fun s x s' hr hL hx hs => Ledger.step hr hL hx hs) hclosed
    intro r hr
    simp [cluster, Cluster.initial, Store.empty, Table.empty] at hr
  intro ys s hp hs
  have hL := hinv ys s hp hs
  exact ⟨fun r hr => (hL r hr).numbers_perm, fun r hr => (hL r hr).retryCount_eq_failed,
    fun r hr => (hL r hr).counted⟩

namespace Demo

/-- A first attempt that fails and a second one that succeeds. -/
def secondTry : List Act :=
  [submit] ++ poll "a" 1 11 ++ lock "a" 0 ++ execute "a" 0 ++
    fail "a" 0 5 (.other "connection reset") 3001 ++ [.slot "a" 0 (.unlock .up)] ++
    poll "a" 100 12 ++ lock "a" 0 ++ execute "a" 0 ++ complete "a" 0 105 3003

/-- The job that was given back is claimed once more, and that lease runs out too. -/
def claimedTwice : List Act :=
  lockMiss ++ poll "b" 103 14 ++ [.loop "b" (.dispatch 0)] ++
    poll "b" 200 15

end Demo

/-- One failure, and the attempts `1` and `2`. -/
theorem ledgers_in_order_secondTry :
    ∃ s r, (cluster demo).exec Demo.secondTry = some s ∧ r ∈ s.store.jobs.rows ∧
      s.store.attemptNumbers r.id = [1, 2] ∧ r.retryCount = 1 ∧
      s.store.failedAttempts r.id = 1 := by
  have hclosed : (cluster demo).EachStep ClaimsClosed Demo.secondTry :=
    System.eachStep_of_check (by decide +kernel)
  obtain ⟨s, hs, r, hm, hnums, hone⟩ :
      ∃ s, (cluster demo).exec Demo.secondTry = some s ∧ ∃ r ∈ s.store.jobs.rows,
        s.store.attemptNumbers r.id = [1, 2] ∧ r.retryCount = 1 :=
    System.exists_of_exec (by decide +kernel)
  have hfailed := ((ledgers_in_order demo Demo.secondTry hclosed).last hs).failed r hm
  exact ⟨s, r, hs, hm, hnums, hone, by omega⟩

/-- Two attempts numbered `2`, and three FAILED ones for two retries. -/
theorem ledger_out_of_order :
    ∃ s r, (cluster demo).exec Demo.claimedTwice = some s ∧ r ∈ s.store.jobs.rows ∧
      s.store.attemptNumbers r.id = [1, 2, 2] ∧ r.retryCount = 2 ∧
      s.store.failedAttempts r.id = 3 := by
  obtain ⟨s, hs, r, hm, hnums, htwo, hthree⟩ :
      ∃ s, (cluster demo).exec Demo.claimedTwice = some s ∧ ∃ r ∈ s.store.jobs.rows,
        s.store.attemptNumbers r.id = [1, 2, 2] ∧ r.retryCount = 2 ∧
        s.store.failedAttempts r.id = 3 :=
    System.exists_of_exec (by decide +kernel)
  exact ⟨s, r, hs, hm, hnums, htwo, hthree⟩

end JobScheduler
