import JobScheduler.Deployment
import JobScheduler.Refinement

/-!
# Requeued dead letters

`RequeueDeadLetter` reads the dead letter under a row lock, inserts a fresh job that names it, and
writes the link back on the dead letter, in one transaction.  The guard `requeued_at IS NULL` is all
that keeps a second call from doing it again.

* `Commit.letter_cases` — what one commit does to one dead letter.
* `Linked` — jobs with a source and requeued dead letters point at each other.
* `requeue_at_most_once` — a dead letter is requeued at most once, and later calls find nothing.
-/

namespace JobScheduler

open KeyedTable Transaction TransitionSystem

variable {h : List Entry} {s s' : Store} {e : Entry}

/-! ### One dead letter across a commit -/

/-- The job row was made from the dead letter, and the dead letter points at it. -/
structure RequeuedAs (d : DeadLetterJob) (r : JobRow) : Prop where
  requeuedAt : d.requeuedAt ≠ none
  requeuedJobID : d.requeuedJobID = some r.id
  tenantID : r.tenantID = d.tenantID
  name : r.name = d.name
  jobType : r.jobType = d.jobType
  payload : r.payload = d.payload

/-- A requeue of the dead letter `k`, with the job it inserts. -/
structure RequeueOf (k newID : UUID) (s s' : Store) : Prop where
  pending : ∃ d, s.deadLetters.find? k = some d ∧ d.requeuedAt = none
  row : ∃ d' r', s'.deadLetters.find? k = some d' ∧ s'.jobs.find? newID = some r' ∧
    r'.sourceDeadLetterID = some k ∧ RequeuedAs d' r'

theorem Requeues.requeueOf {now clock runAt : Time} {newID tenantID : UUID} {dl : DeadLetterJob}
    (hq : Requeues now clock newID tenantID dl runAt s s') : RequeueOf dl.id newID s s' where
  pending := ⟨dl, hq.letter, hq.pending⟩
  row := by
    refine ⟨requeuedLetter now newID dl, _, ?_, Table.find?_insert_self hq.jobs, rfl, ?_⟩
    · rw [hq.deadLetters]
      exact Table.find?_modify_self hq.letter _ _
    · exact ⟨by simp [requeuedLetter], rfl, hq.tenant.symm, rfl, rfl, rfl⟩

/-- The dead letter under a key is the same, or it is new and not requeued. -/
def KeepsLetter (k : UUID) (s s' : Store) : Prop :=
  s'.deadLetters.find? k = s.deadLetters.find? k ∨
    (s.deadLetters.find? k = none ∧
      ∃ d, s'.deadLetters.find? k = some d ∧ d.requeuedAt = none)

theorem KeepsLetter.of_eq {k : UUID} (hd : s'.deadLetters = s.deadLetters) : KeepsLetter k s s' :=
  .inl (by rw [hd])

theorem Settles.keepsLetter {now : Time} {j : Job} {n : Int} {message : String} {status : Status}
    (hs : Settles now j n message s s' status) (k : UUID) : KeepsLetter k s s' := by
  cases hs with
  | buried deadLetterID _ hins =>
    rcases Table.find?_insert_cases hins k with ⟨-, hk⟩ | ⟨-, hnone, hsome⟩
    · exact .inl hk
    · exact .inr ⟨hnone, _, hsome, rfl⟩
  | retried _ _ hd => exact .of_eq hd

/-- **One letter per commit.**  A commit requeues the dead letter under a key, or keeps it; it is
requeued by no entry but its own. -/
theorem Commit.letter_cases (hc : Commit h s e s') (k : UUID) :
    (KeepsLetter k s s' ∧ ∀ id, e ≠ .requeued id k) ∨
      ∃ newID, e = .requeued newID k ∧ RequeueOf k newID s s' := by
  cases hc with
  | created _ hc => exact .inl ⟨.of_eq hc.deadLetters, by simp⟩
  | @requeued now _ _ newID _ dl _ hq =>
    by_cases hk : k = dl.id
    · subst hk
      exact .inr ⟨newID, rfl, hq.requeueOf⟩
    · refine .inl ⟨.inl ?_, ?_⟩
      · rw [hq.deadLetters]
        exact Table.find?_modify_ne _ hk _ _
      · intro id he
        exact hk (Entry.requeued.inj he).2.symm
  | claimed _ _ hc => exact .inl ⟨.of_eq hc.deadLetters, by simp⟩
  | extended _ _ hc => exact .inl ⟨.of_eq hc.deadLetters, by simp⟩
  | executed _ => exact .inl ⟨.of_eq rfl, by simp⟩
  | completed _ hc => exact .inl ⟨.of_eq hc.deadLetters, by simp⟩
  | failed _ hc => exact .inl ⟨hc.settles.keepsLetter k, by simp⟩
  | released _ _ hc => exact .inl ⟨.of_eq hc.deadLetters, by simp⟩
  | transitioned hc => exact .inl ⟨.of_eq hc.deadLetters, by simp⟩
  | recovered _ _ hc => exact .inl ⟨hc.settles.keepsLetter k, by simp⟩

/-! ### Links -/

theorem RowChange.source_eq {r r' : JobRow} (hc : RowChange h r e r') :
    r'.sourceDeadLetterID = r.sourceDeadLetterID := by
  cases hc with
  | failed _ _ _ hs _ => cases hs <;> rfl
  | recovered _ hs _ => cases hs <;> rfl
  | _ => rfl

/-- A link holds as long as the row keeps its unchanging columns. -/
theorem RequeuedAs.congr {d : DeadLetterJob} {r r' : JobRow} (hl : RequeuedAs d r)
    (hid : r'.toJob.identity = r.toJob.identity) : RequeuedAs d r' := by
  simp only [Job.identity, JobIdentity.mk.injEq] at hid
  obtain ⟨h₁, h₂, h₃, h₄, h₅, -⟩ := hid
  exact ⟨hl.requeuedAt, hl.requeuedJobID.trans (by rw [h₁]), h₂.trans hl.tenantID,
    h₃.trans hl.name, h₄.trans hl.jobType, h₅.trans hl.payload⟩

/-- Jobs with a source and requeued dead letters point at each other. -/
structure Linked (s : Store) : Prop where
  source : ∀ k r d, s.jobs.find? k = some r → r.sourceDeadLetterID = some d →
    ∃ dl, s.deadLetters.find? d = some dl ∧ RequeuedAs dl r
  target : ∀ d dl, s.deadLetters.find? d = some dl → dl.requeuedAt ≠ none →
    ∃ k r, s.jobs.find? k = some r ∧ r.sourceDeadLetterID = some d

/-- A dead letter that was requeued before a commit is the same after it. -/
theorem Commit.requeued_letter_kept (hc : Commit h s e s') {d : UUID} {dl : DeadLetterJob}
    (hd : s.deadLetters.find? d = some dl) (hq : dl.requeuedAt ≠ none) :
    s'.deadLetters.find? d = some dl := by
  rcases hc.letter_cases d with ⟨hk | ⟨hnone, -⟩, -⟩ | ⟨newID, -, ⟨dl₀, hd₀, hpending⟩, -⟩
  · exact hk.trans hd
  · rw [hnone] at hd
    cases hd
  · obtain rfl := Option.some.inj (hd₀.symm.trans hd)
    exact absurd hpending hq

/-- A row keeps its source. -/
theorem Commit.source_persists (hc : Commit h s e s') {k : UUID} {r : JobRow}
    (hr : s.jobs.find? k = some r) :
    ∃ r', s'.jobs.find? k = some r' ∧ r'.sourceDeadLetterID = r.sourceDeadLetterID := by
  rcases hc.job_cases k with ⟨-, hk⟩ | ⟨-, hnone, -⟩ | ⟨-, r₀, r', hr₀, hch, hr'⟩
  · exact ⟨r, hk.trans hr, rfl⟩
  · rw [hnone] at hr
    cases hr
  · obtain rfl := Option.some.inj (hr₀.symm.trans hr)
    exact ⟨r', hr', hch.source_eq⟩

/-- A job that a commit inserts with a source is the requeue of that source. -/
theorem Commit.requeueOf_new (hc : Commit h s e s') {r : JobRow} {d : UUID} (hn : NewRow e r)
    (hd : r.sourceDeadLetterID = some d) : RequeueOf d r.id s s' := by
  cases hn with
  | created => cases hd
  | requeued now clock newID tenantID dl runAt =>
    obtain rfl : dl.id = d := Option.some.inj hd
    rcases hc.letter_cases dl.id with ⟨-, hne⟩ | ⟨id, he, hq⟩
    · exact absurd rfl (hne newID)
    · obtain rfl := (Entry.requeued.inj he).1
      exact hq

/-- **Step lemma.** -/
theorem Linked.commit (hlink : Linked s) (hc : Commit h s e s') : Linked s' := by
  constructor
  · intro k r' d hr' hd
    rcases hc.row_cases hr' with hold | ⟨rfl, -, hn⟩ | ⟨-, r, hr, hch⟩
    · obtain ⟨dl, hdl, hl⟩ := hlink.source k r' d hold hd
      exact ⟨dl, hc.requeued_letter_kept hdl hl.requeuedAt, hl⟩
    · obtain ⟨dl, r₁, hdl, hr₁, -, hl⟩ := (hc.requeueOf_new hn hd).row
      rw [hn.id_eq, hr'] at hr₁
      obtain rfl := Option.some.inj hr₁
      exact ⟨dl, hdl, hl⟩
    · obtain ⟨dl, hdl, hl⟩ := hlink.source k r d hr (hch.source_eq.symm.trans hd)
      exact ⟨dl, hc.requeued_letter_kept hdl hl.requeuedAt, hl.congr hch.identity_eq⟩
  · intro d dl hdl hq
    rcases hc.letter_cases d with ⟨hk | ⟨-, dl₀, hd₀, hpending⟩, -⟩ | ⟨newID, -, -, hrow⟩
    · obtain ⟨k, r, hr, hd⟩ := hlink.target d dl (hk.symm.trans hdl) hq
      obtain ⟨r', hr', hd'⟩ := hc.source_persists hr
      exact ⟨k, r', hr', hd'.trans hd⟩
    · obtain rfl := Option.some.inj (hd₀.symm.trans hdl)
      exact absurd hpending hq
    · obtain ⟨-, r', -, hr', hd, -⟩ := hrow
      exact ⟨newID, r', hr', hd⟩

/-- **Links of a log.** -/
theorem Log.linked (hl : Log h s) : Linked s := by
  induction hl with
  | nil => exact ⟨by simp [Store.empty], by simp [Store.empty]⟩
  | cons _ hc ih => exact ih.commit hc

/-! ### At most once -/

/-- How many jobs were made from the dead letter. -/
def Store.requeuesOf (s : Store) (deadLetterID : UUID) : ℕ :=
  s.jobs.count fun r => r.sourceDeadLetterID = some deadLetterID

/-- At most one job is made from a dead letter: the dead letter points at it. -/
theorem Linked.requeuesOf_le_one (hl : Linked s) (d : UUID) : s.requeuesOf d ≤ 1 := by
  by_cases hex : ∃ r ∈ s.jobs.rows, r.sourceDeadLetterID = some d
  · obtain ⟨r, hr, hd⟩ := hex
    obtain ⟨dl, hdl, hlink⟩ := hl.source r.id r d (Table.find?_key hr) hd
    refine Nat.le_of_eq (Table.count_eq_one hr hd ?_)
    intro r' hr' hd'
    obtain ⟨dl', hdl', hlink'⟩ := hl.source r'.id r' d (Table.find?_key hr') hd'
    obtain rfl := Option.some.inj (hdl'.symm.trans hdl)
    have hid : r'.id = r.id :=
      Option.some.inj (hlink'.requeuedJobID.symm.trans hlink.requeuedJobID)
    exact s.jobs.eq_of_key_eq hr' hr hid
  · have hzero : s.requeuesOf d = 0 :=
      Table.count_eq_zero.2 fun r hr hd => hex ⟨r, hr, hd⟩
    omega

/-- A requeued dead letter is not found again. -/
theorem requeueDeadLetter_refused {d : DeadLetterJob} (hd : d ∈ s.deadLetters.rows)
    (hq : d.requeuedAt ≠ none) (now clock : Time) (newID eventID tenantID : UUID) (runAt : Time) :
    requeueDeadLetter now clock newID eventID tenantID d.id runAt s = .error .notFound := by
  have hnone : (s.deadLetters.rows.find? fun d' =>
      decide (d'.tenantID = tenantID ∧ d'.id = d.id ∧ d'.requeuedAt = none)) = none := by
    rw [List.find?_eq_none]
    intro d' hd' hsel
    simp only [decide_eq_true_eq] at hsel
    obtain rfl := s.deadLetters.eq_of_key_eq hd' hd hsel.2.1
    exact hq hsel.2.2
  simp only [requeueDeadLetter]
  rw [Tx.bind_of_ok (Tx.read_eq_ok.2 ⟨rfl, rfl⟩), hnone]
  rfl

theorem NewRow.retryCount_eq {r : JobRow} (hn : NewRow e r) : r.retryCount = 0 := by
  cases hn with
  | created _ hj => exact hj.retryCount
  | requeued => rfl

variable {cfg : DeploymentConfig}

/-- A job that a step of the deployment inserts has used none of its retries. -/
theorem retryCount_of_inserted {p p' : Deployment} {x : DeploymentAct} {r : JobRow}
    (hp : (deployment cfg).Reachable p) (hx : deploymentStep cfg p x = some p')
    (hr : r ∈ p'.store.jobs.rows) (hnew : ∀ r₀ ∈ p.store.jobs.rows, r₀.id ≠ r.id) :
    r.retryCount = 0 := by
  have hnone : p.store.jobs.find? r.id = none := Table.find?_eq_none_iff.2 hnew
  have hsome : p'.store.jobs.find? r.id = some r := Table.find?_key hr
  rcases deploymentStep_core hx with ⟨y, -, hy⟩ | hcore
  · obtain ⟨es, he⟩ := reachable_emission (reachable_core hp) hy
    rcases he.job_cases r.id with hk | ⟨-, e, r', hn, hr'⟩ | ⟨-, -, r₀, -, hr₀, -⟩
    · have hk : p'.store.jobs.find? r.id = p.store.jobs.find? r.id := hk
      rw [hnone, hsome] at hk
      cases hk
    · obtain rfl := Option.some.inj (hr'.symm.trans hsome)
      exact hn.retryCount_eq
    · have hr₀ : p.store.jobs.find? r.id = some r₀ := hr₀
      rw [hnone] at hr₀
      cases hr₀
  · have hjobs : p'.cluster.core.store.jobs = p.cluster.core.store.jobs := by rw [hcore]
    have hjobs : p'.store.jobs = p.store.jobs := hjobs
    rw [hjobs, hnone] at hsome
    cases hsome

/-- What is true of a dead letter and the jobs made from it. -/
structure RequeuedOnce (cfg : DeploymentConfig) (p : Deployment) (d : DeadLetterJob) : Prop where
  atMostOne : p.store.requeuesOf d.id ≤ 1
  requeuedAt : d.requeuedAt ≠ none ↔ ∃ r ∈ p.store.jobs.rows, r.sourceDeadLetterID = some d.id
  linked : ∀ r ∈ p.store.jobs.rows, r.sourceDeadLetterID = some d.id →
    d.requeuedJobID = some r.id ∧ r.tenantID = d.tenantID ∧ r.name = d.name ∧
      r.jobType = d.jobType ∧ r.payload = d.payload
  /-- The step that inserts the job inserts it with no retry used. -/
  inserted : ∀ x p' r, deploymentStep cfg p x = some p' → r ∈ p'.store.jobs.rows →
    r.sourceDeadLetterID = some d.id → (∀ r₀ ∈ p.store.jobs.rows, r₀.id ≠ r.id) → r.retryCount = 0
  /-- A further call, by any tenant, gets `ErrNotFound` … -/
  refused : d.requeuedAt ≠ none → ∀ now clock newID eventID tenantID runAt,
    requeueDeadLetter now clock newID eventID tenantID d.id runAt p.store = .error .notFound
  /-- … and its step changes nothing at all. -/
  unchanged : d.requeuedAt ≠ none → ∀ tenantID newID eventID clock clock' now link p',
    deploymentStep cfg p (.scheduler (.api
      (.requeue tenantID d.id newID eventID clock clock' now link))) = some p' → p' = p

/-- **Requeue at most once.**  In every reachable state of the deployment, whatever calls of whatever
tenants led to it: at most one job comes from a dead letter; the dead letter is marked exactly when
there is one, and then points at it; the job has the dead letter's tenant, name, type and payload
and was inserted with retry count zero; every further call for the dead letter is refused with
`ErrNotFound` and changes nothing. -/
theorem requeue_at_most_once {p : Deployment} {d : DeadLetterJob}
    (hp : (deployment cfg).Reachable p) (hd : d ∈ p.store.deadLetters.rows) :
    RequeuedOnce cfg p d := by
  have hlink : Linked p.store.core := (reachable_sound (reachable_core hp)).log.linked
  have hfind : p.store.deadLetters.find? d.id = some d := Table.find?_key hd
  refine ⟨hlink.requeuesOf_le_one d.id, ⟨?_, ?_⟩, ?_, ?_, ?_, ?_⟩
  · intro hq
    obtain ⟨k, r, hr, hsrc⟩ := hlink.target d.id d hfind hq
    exact ⟨r, (Table.find?_eq_some_iff.1 hr).1, hsrc⟩
  · rintro ⟨r, hr, hsrc⟩
    obtain ⟨dl, hdl, hl⟩ := hlink.source r.id r d.id (Table.find?_key hr) hsrc
    obtain rfl := Option.some.inj (hdl.symm.trans hfind)
    exact hl.requeuedAt
  · intro r hr hsrc
    obtain ⟨dl, hdl, hl⟩ := hlink.source r.id r d.id (Table.find?_key hr) hsrc
    obtain rfl := Option.some.inj (hdl.symm.trans hfind)
    exact ⟨hl.requeuedJobID, hl.tenantID, hl.name, hl.jobType, hl.payload⟩
  · intro x p' r hx hr _ hnew
    exact retryCount_of_inserted hp hx hr hnew
  · intro hq now clock newID eventID tenantID runAt
    exact requeueDeadLetter_refused hd hq now clock newID eventID tenantID runAt
  · intro hq tenantID newID eventID clock clock' now link p' hx
    obtain ⟨c, hc, rfl⟩ := deploymentStep_scheduler.1 hx
    obtain rfl := Option.some.inj hc
    have herr := requeueDeadLetter_refused hd hq now clock' newID.val eventID tenantID clock
    have hout : ((requeueDeadLetter now clock' newID.val eventID tenantID d.id clock).commit link
        .connection p.store).state = p.store ∧
        ((requeueDeadLetter now clock' newID.val eventID tenantID d.id clock).commit link
        .connection p.store).committed = none := by
      cases link <;> simp [Tx.commit, herr]
    simp only [Cluster.record, hout.1, hout.2]

namespace Demo

/-- Job `1` fails for good, and its dead letter `3001` is requeued as job `2`. -/
def requeued : List Act :=
  [submit] ++ poll "a" 1 11 ++ lock "a" 0 ++ execute "a" 0 ++
    fail "a" 0 5 (.execution "INVALID_URL" "invalid URL" false 0 "") 3001 ++
    [.api (.requeue 7 3001 (drawn 2) 4001 (6 * second) (6 * second) (6 * second) .up)]

end Demo

/-- The requeued dead letter has its one job, and another call for it is refused. -/
theorem requeue_at_most_once_twice :
    ∃ p d, (deployment demoDeployment).exec (Demo.deployed Demo.requeued) = some p ∧
      d ∈ p.store.deadLetters.rows ∧ d.requeuedJobID = some 2 ∧ p.store.requeuesOf d.id = 1 ∧
      requeueDeadLetter (7 * second) (7 * second) 3 4002 7 d.id (7 * second) p.store
        = .error .notFound := by
  obtain ⟨p, hp, d, hd, hq, hjob, hone⟩ :
      ∃ p, (deployment demoDeployment).exec (Demo.deployed Demo.requeued) = some p ∧
        ∃ d ∈ p.store.deadLetters.rows, d.requeuedAt ≠ none ∧ d.requeuedJobID = some 2 ∧
          p.store.requeuesOf d.id = 1 :=
    System.exists_of_exec (by decide +kernel)
  exact ⟨p, d, hp, hd, hjob, hone, (requeue_at_most_once ⟨_, hp⟩ hd).refused hq _ _ _ _ _ _⟩

end JobScheduler
