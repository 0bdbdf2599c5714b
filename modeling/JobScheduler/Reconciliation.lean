import JobScheduler.Narrative
import JobScheduler.DeadLetters

/-!
# The four tables reconcile

`jobs`, `job_attempts`, `dead_letter_jobs` and `job_events` are four accounts of the same jobs, kept
by different statements of the same transactions.  This module checks them against each other, the
way an auditor with read access to the database would: by counting.

* `Commit.told` — the event types a commit appends to the account of its job.
* `Commit.tally` — what a commit does to the number of attempts of its job, status by status.
* `tables_reconcile` — in every reachable state of the deployment, stale claims and releases
  included, the counts agree.
-/

namespace JobScheduler

open KeyedTable TransitionSystem

variable {h : List Entry} {s s' : Store} {e : Entry} {r r' : JobRow} {k : UUID}

/-- How many events of a type the job has. -/
def Store.eventsOf (s : Store) (jobID : UUID) (t : EventType) : ℕ :=
  ((s.timeline jobID).map Event.eventType).count t

/-- How many attempts the job has. -/
def Store.attemptCount (s : Store) (jobID : UUID) : ℕ := s.attempts.count fun a => a.jobID = jobID

/-- How many attempts of a status the job has. -/
def Store.attemptsOf (s : Store) (jobID : UUID) (status : AttemptStatus) : ℕ :=
  s.attempts.count fun a => a.jobID = jobID ∧ a.status = status

/-! ### Events -/

/-- The types of the events an entry writes when it leaves its job in `status`. -/
def Entry.told (e : Entry) (status : Status) : List EventType :=
  match e with
  | .created _ => [.created]
  | .requeued _ _ => [.requeued]
  | .claimed _ _ => [.started]
  | .completed _ _ => [.completed]
  | .failed _ _ => [.named .failed, .named status]
  | .transitioned _ _ => [.named status]
  | .recovered _ => [.named status]
  | .extended _ _ => []
  | .executed _ _ => []
  | .released _ _ => []

/-- **Step lemma for events.**  A commit appends the events its entry tells. -/
theorem Commit.told (hc : Commit h s e s') (hr' : s'.jobs.find? e.jobID = some r') :
    (s'.timeline e.jobID).map Event.eventType
      = (s.timeline e.jobID).map Event.eventType ++ e.told r'.status := by
  -- the new events, then their types
  have append : ∀ new : List Event, s'.events.rows = s.events.rows ++ new →
      (∀ ev ∈ new, ev.jobID = e.jobID) → new.map Event.eventType = e.told r'.status →
      (s'.timeline e.jobID).map Event.eventType
        = (s.timeline e.jobID).map Event.eventType ++ e.told r'.status := by
    intro new hrows hnew htypes
    rw [timeline_append hrows hnew, List.map_append, htypes]
  cases hc with
  | created _ hcr =>
    obtain ⟨eventID, payload, hev⟩ := hcr.events
    exact append _ hev (by simp [jobEvent, Entry.jobID]) rfl
  | requeued hq =>
    obtain ⟨eventID, hev⟩ := hq.events
    exact append _ hev (by simp [jobEvent, Entry.jobID]) rfl
  | claimed _ _ hcl =>
    obtain ⟨payload, hev⟩ := hcl.events
    exact append _ hev (by simp [jobEvent, Entry.jobID, ClaimArgs.claimed]) rfl
  | extended _ _ hx => exact append [] (by simp [hx.events]) (by simp) rfl
  | executed _ => exact append [] (by simp) (by simp) rfl
  | completed _ hcm =>
    obtain ⟨eventID, payload, hev⟩ := hcm.events
    exact append _ hev (by simp [jobEvent, Entry.jobID]) rfl
  | @failed _ _ _ _ _ w c r _ _ _ hf =>
    obtain ⟨failedEvent, outcomeEvent, payload, payload', hev⟩ := hf.events
    refine append _ hev (by simp [jobEvent, Entry.jobID]) ?_
    rcases hf.settles.find?_cases hf.row c.id with ⟨hne, -⟩ | ⟨-, r₁, hs, hr₁⟩
    · exact absurd rfl hne
    · obtain rfl := Option.some.inj (hr₁.symm.trans hr')
      simp only [List.map_cons, List.map_nil, jobEvent, Entry.told, hs.status_eq]
  | released _ _ hrl => exact append [] (by simp [hrl.events]) (by simp) rfl
  | @transitioned now _ op r _ ht =>
    obtain ⟨eventID, payload, hev⟩ := ht.events
    refine append _ hev (by simp [jobEvent, Entry.jobID]) ?_
    have hrow : s'.jobs.find? r.id = some (operatorRow now op.target r) := by
      rw [ht.jobs]
      exact Table.find?_modify_self ht.row _ _
    obtain rfl := Option.some.inj (hrow.symm.trans hr')
    rfl
  | @recovered x r _ hrow _ hrec =>
    obtain ⟨payload, hev⟩ := hrec.events
    refine append _ hev (by simp [jobEvent, Entry.jobID]) ?_
    rcases hrec.settles.find?_cases hrow r.id with ⟨hne, -⟩ | ⟨-, r₁, hs, hr₁⟩
    · exact absurd rfl hne
    · obtain rfl := Option.some.inj (hr₁.symm.trans hr')
      simp only [List.map_cons, List.map_nil, jobEvent, Entry.told, hs.status_eq]

theorem Commit.eventsOf (hc : Commit h s e s') (hr' : s'.jobs.find? e.jobID = some r')
    (t : EventType) :
    s'.eventsOf e.jobID t = s.eventsOf e.jobID t + (e.told r'.status).count t := by
  rw [Store.eventsOf, hc.told hr', List.count_append]
  rfl

theorem Commit.eventsOf_frame (hc : Commit h s e s') (hl : Log h s) (hk : k ≠ e.jobID)
    (t : EventType) : s'.eventsOf k t = s.eventsOf k t := by
  obtain ⟨new, hrows, hnew⟩ := hc.new_events hl
  have hother : ∀ ev ∈ new, ev.jobID ≠ k := fun ev hev => by rw [(hnew ev hev).1]; exact hk.symm
  rw [Store.eventsOf, timeline_frame hrows hother]
  rfl

/-! ### Attempts -/

/-- The status an entry closes attempts with. -/
def Entry.closing : Entry → Option AttemptStatus
  | .completed _ _ => some .succeeded
  | .failed _ _ => some .failed
  | .transitioned _ .cancel => some .cancelled
  | .recovered _ => some .failed
  | _ => none

/-- The attempts an entry adds. -/
def Entry.starts : Entry → ℕ
  | .claimed _ _ => 1
  | _ => 0

/-- What happened to the attempts of the job `k`: `added` are new, `n` were closed. -/
structure Tally (s s' : Store) (k : UUID) (added : ℕ) (closing : Option AttemptStatus) (n : ℕ) :
    Prop where
  all : s'.attemptCount k = s.attemptCount k + added
  closed : ∀ status ≠ .running,
    s'.attemptsOf k status = s.attemptsOf k status + if closing = some status then n else 0

theorem Tally.of_eq (ha : s'.attempts = s.attempts) (n : ℕ) : Tally s s' k 0 none n := by
  constructor <;> simp [Store.attemptCount, Store.attemptsOf, ha]

/-- Closing the RUNNING attempts of a job that `p` selects. -/
theorem Tally.of_update {p : Attempt → Prop} [DecidablePred p] {f : Attempt → Attempt}
    {hf : ∀ a, (f a).id = a.id} {status : AttemptStatus}
    (ha : s'.attempts = s.attempts.update p f hf)
    (hp : ∀ a ∈ s.attempts.rows, p a → a.jobID = k ∧ a.status = .running)
    (hjob : ∀ a, (f a).jobID = a.jobID) (hstatus : ∀ a, (f a).status = status)
    (hne : status ≠ .running) : Tally s s' k 0 (some status) (s.attempts.count p) where
  all := by
    rw [Store.attemptCount, ha, Table.count_update_congr fun a _ _ => by rw [hjob a]]
    rfl
  closed := by
    intro status' hne'
    rw [Store.attemptsOf, ha]
    by_cases heq : status = status'
    · subst heq
      rw [if_pos rfl]
      refine Table.count_update_add fun a ha hpa => ?_
      obtain ⟨hj, hrun⟩ := hp a ha hpa
      exact ⟨fun hq => hne (hq.2.symm.trans hrun), (hjob a).trans hj, hstatus a⟩
    · rw [if_neg (by simpa using heq), Nat.add_zero]
      refine Table.count_update_congr fun a ha hpa => ?_
      obtain ⟨-, hrun⟩ := hp a ha hpa
      have hbefore : ¬(a.jobID = k ∧ a.status = status') := fun hq => hne' (hq.2.symm.trans hrun)
      have hafter : ¬((f a).jobID = k ∧ (f a).status = status') :=
        fun hq => heq ((hstatus a).symm.trans hq.2)
      exact iff_of_false hafter hbefore

/-- A finalization closes its claim's attempt, and no other. -/
theorem Owned.tally {w : String} {c : ClaimedJob} {a : Attempt} (ho : Owned w c r a s)
    (hl : Log h s) (hm : .claimed w c ∈ h) {f : Attempt → Attempt} {hf : ∀ a, (f a).id = a.id}
    {status : AttemptStatus} (ha : s'.attempts = s.attempts.modify c.activeAttemptID f hf)
    (hjob : ∀ a, (f a).jobID = a.jobID) (hstatus : ∀ a, (f a).status = status)
    (hne : status ≠ .running) : Tally s s' c.id 0 (some status) 1 := by
  obtain ⟨a₁, ha₁, hof⟩ := hl.attempt_of_claimed hm
  obtain rfl := Option.some.inj (ha₁.symm.trans ho.attempt)
  obtain ⟨hmem, hkey⟩ := Table.find?_eq_some_iff.1 ho.attempt
  have same : ∀ b ∈ s.attempts.rows, b.id = c.activeAttemptID → b = a₁ :=
    fun b hb hid => s.attempts.eq_of_key_eq hb hmem (hid.trans hkey.symm)
  have hone : s.attempts.count (fun b => key b = c.activeAttemptID) = 1 :=
    Table.count_eq_one hmem hkey same
  rw [← hone]
  refine Tally.of_update ha (fun b hb hid => ?_) hjob hstatus hne
  obtain rfl := same b hb hid
  exact ⟨hof.jobID, ho.attemptRunning⟩

/-- **Step lemma for attempts.**  A claim adds one; a finalization closes one, a recovery at least
one. -/
theorem Commit.tally (hc : Commit h s e s') (hl : Log h s) :
    ∃ n, Tally s s' e.jobID e.starts e.closing n ∧
      ((∃ w c, e = .completed w c ∨ e = .failed w c) → n = 1) ∧
      ((∃ id, e = .recovered id) → 1 ≤ n) := by
  cases hc with
  | created _ hcr => exact ⟨0, .of_eq hcr.attempts 0, by simp, by simp⟩
  | requeued hq => exact ⟨0, .of_eq hq.attempts 0, by simp, by simp⟩
  | @claimed x r _ _ _ hcl =>
    refine ⟨0, ⟨?_, fun status hne => ?_⟩, by simp, by simp⟩
    · rw [Store.attemptCount, Table.count_insert hcl.attempts]
      simp [Store.attemptCount, ClaimArgs.attempt, Entry.jobID, ClaimArgs.claimed, Entry.starts]
    · rw [Store.attemptsOf, Table.count_insert hcl.attempts]
      simp [Store.attemptsOf, ClaimArgs.attempt, hne.symm]
  | extended _ _ hx => exact ⟨0, .of_eq hx.attempts 0, by simp, by simp⟩
  | executed _ => exact ⟨0, .of_eq rfl 0, by simp, by simp⟩
  | completed hp hcm =>
    exact ⟨1, hcm.toOwned.tally hl hp.claimed hcm.attempts (fun _ => rfl) (fun _ => rfl) (by simp),
      fun _ => rfl, fun _ => Nat.le_refl 1⟩
  | failed hp hf =>
    exact ⟨1, hf.toOwned.tally hl hp.claimed hf.attempts (fun _ => rfl) (fun _ => rfl) (by simp),
      fun _ => rfl, fun _ => Nat.le_refl 1⟩
  | released _ _ hrl => exact ⟨0, .of_eq hrl.attempts 0, by simp, by simp⟩
  | @transitioned now _ op r _ ht =>
    cases op with
    | cancel =>
      have ha : s'.attempts = s.attempts.update (fun a => a.jobID = r.id ∧ a.status = .running)
          (cancelledAttempt now) (cancelledAttempt_id now) := ht.attempts
      exact ⟨_, .of_update ha (fun _ _ hp => hp) (fun _ => rfl) (fun _ => rfl) (by simp),
        by simp, by simp⟩
    | _ => exact ⟨0, .of_eq ht.attempts 0, by simp, by simp⟩
  | @recovered x r _ hrow hexp hrec =>
    refine ⟨_, .of_update hrec.attempts (fun _ _ hp => hp) (fun _ => rfl) (fun _ => rfl) (by simp),
      by simp, fun _ => ?_⟩
    -- the owner's attempt is one of them
    obtain ⟨⟨w, c⟩, hown⟩ := Option.ne_none_iff_exists'.1
      (((hl.row_owner r.id).2 r hrow).running.1 hexp.1)
    obtain ⟨a, ha, hof, harun⟩ := hl.owner_attempt hown
    exact Table.count_pos.2 ⟨a, (Table.find?_eq_some_iff.1 ha).1,
      hof.jobID.trans (owner_eq_some hown).2, harun⟩

/-- Closing attempts of other jobs. -/
theorem Tally.of_update_frame {p : Attempt → Prop} [DecidablePred p] {f : Attempt → Attempt}
    {hf : ∀ a, (f a).id = a.id} (ha : s'.attempts = s.attempts.update p f hf)
    (hp : ∀ a ∈ s.attempts.rows, p a → a.jobID ≠ k) (hjob : ∀ a, (f a).jobID = a.jobID) :
    Tally s s' k 0 none 0 where
  all := by
    rw [Store.attemptCount, ha, Table.count_update_congr fun a _ _ => by rw [hjob a]]
    rfl
  closed := by
    intro status _
    rw [Store.attemptsOf, ha]
    refine Table.count_update_congr fun a ha hpa => ?_
    rw [hjob a]
    exact iff_of_false (fun hq => hp a ha hpa hq.1) fun hq => hp a ha hpa hq.1

/-- A finalization touches no attempt of another job. -/
theorem Log.tally_frame {w : String} {c : ClaimedJob} (hl : Log h s) (hm : .claimed w c ∈ h)
    {f : Attempt → Attempt} {hf : ∀ a, (f a).id = a.id}
    (ha : s'.attempts = s.attempts.modify c.activeAttemptID f hf)
    (hjob : ∀ a, (f a).jobID = a.jobID) (hk : k ≠ c.id) : Tally s s' k 0 none 0 := by
  obtain ⟨a₁, ha₁, hof⟩ := hl.attempt_of_claimed hm
  obtain ⟨hmem, hkey⟩ := Table.find?_eq_some_iff.1 ha₁
  refine .of_update_frame ha (fun b hb hid => ?_) hjob
  obtain rfl := s.attempts.eq_of_key_eq hb hmem (hid.trans hkey.symm)
  rw [hof.jobID]
  exact hk.symm

/-- A commit changes no attempts of other jobs. -/
theorem Commit.tally_frame (hc : Commit h s e s') (hl : Log h s) (hk : k ≠ e.jobID) :
    Tally s s' k 0 none 0 := by
  cases hc with
  | created _ hcr => exact .of_eq hcr.attempts 0
  | requeued hq => exact .of_eq hq.attempts 0
  | @claimed x r _ _ _ hcl =>
    have hne : (x.attempt r).jobID ≠ k := hk.symm
    constructor
    · rw [Store.attemptCount, Table.count_insert hcl.attempts, if_neg hne]
      rfl
    · intro status _
      rw [Store.attemptsOf, Table.count_insert hcl.attempts, if_neg fun hq => hne hq.1]
      rfl
  | extended _ _ hx => exact .of_eq hx.attempts 0
  | executed _ => exact .of_eq rfl 0
  | completed hp hcm =>
    exact hl.tally_frame hp.claimed hcm.attempts (fun _ => rfl) hk
  | failed hp hf => exact hl.tally_frame hp.claimed hf.attempts (fun _ => rfl) hk
  | released _ _ hrl => exact .of_eq hrl.attempts 0
  | @transitioned now _ op r _ ht =>
    cases op with
    | cancel =>
      have ha : s'.attempts = s.attempts.update (fun a => a.jobID = r.id ∧ a.status = .running)
          (cancelledAttempt now) (cancelledAttempt_id now) := ht.attempts
      exact .of_update_frame ha (fun a _ hp => hp.1 ▸ hk.symm) fun _ => rfl
    | _ => exact .of_eq ht.attempts 0
  | recovered _ _ hrec =>
    exact .of_update_frame hrec.attempts (fun a _ hp => hp.1 ▸ hk.symm) fun _ => rfl

/-! ### Reconciling one job -/

/-- The counts of a job agree.  A recovery closes the attempts of the job as FAILED without a
`job.failed` event, and closes several of them when claims were released: the two bounds at the end
are no equations. -/
structure Reconciled (s : Store) (r : JobRow) : Prop where
  born : s.eventsOf r.id .created + s.eventsOf r.id .requeued = 1
  started : s.eventsOf r.id .started = s.attemptCount r.id
  completed : s.eventsOf r.id .completed = s.attemptsOf r.id .succeeded
  succeeded : s.eventsOf r.id .completed = if r.status = .succeeded then 1 else 0
  cancelled : s.eventsOf r.id (.named .cancelled) = if r.status = .cancelled then 1 else 0
  buried : s.eventsOf r.id (.named .deadLettered) = if r.status = .deadLettered then 1 else 0
  failed : s.eventsOf r.id (.named .failed) ≤ s.attemptsOf r.id .failed
  outcomes : s.eventsOf r.id (.named .retryScheduled) + s.eventsOf r.id (.named .deadLettered)
    ≤ s.attemptsOf r.id .failed

/-- Counts and status are all that reconciling is about. -/
theorem Reconciled.congr (hrec : Reconciled s r) (hid : r'.id = r.id) (hstatus : r'.status = r.status)
    (hev : ∀ t, s'.eventsOf r.id t = s.eventsOf r.id t) (ht : Tally s s' r.id 0 none 0) :
    Reconciled s' r' := by
  have hall := ht.all
  have hsucc := ht.closed .succeeded (by simp)
  have hfail := ht.closed .failed (by simp)
  simp only [reduceCtorEq, if_false, Nat.add_zero] at hall hsucc hfail
  constructor <;> simp only [hid, hstatus, hev, hall, hsucc, hfail]
  · exact hrec.born
  · exact hrec.started
  · exact hrec.completed
  · exact hrec.succeeded
  · exact hrec.cancelled
  · exact hrec.buried
  · exact hrec.failed
  · exact hrec.outcomes

/-- A job that is not there yet has no account. -/
theorem Labelled.unknown (hl : Labelled s) (hnone : s.jobs.find? k = none) :
    (∀ t, s.eventsOf k t = 0) ∧ s.attemptCount k = 0 ∧ ∀ status, s.attemptsOf k status = 0 := by
  have hattempt : ∀ a ∈ s.attempts.rows, a.jobID ≠ k := by
    rintro a ha rfl
    obtain ⟨r, hr, -⟩ := hl.attempts a ha
    rw [hnone] at hr
    exact absurd hr (by simp)
  refine ⟨fun t => ?_, Table.count_eq_zero.2 hattempt, fun status => Table.count_eq_zero.2 ?_⟩
  · have hempty : s.timeline k = [] := by
      rw [Store.timeline, List.filter_eq_nil_iff]
      intro ev hev hj
      obtain ⟨r, hr, -⟩ := hl.events ev hev
      rw [of_decide_eq_true hj, hnone] at hr
      exact absurd hr (by simp)
    rw [Store.eventsOf, hempty]
    rfl
  · exact fun a ha hq => hattempt a ha hq.1

theorem NewRow.reconciled (hn : NewRow e r) (hl : Log h s) (hc : Commit h s e s')
    (hnone : s.jobs.find? e.jobID = none) (hr : s'.jobs.find? e.jobID = some r) :
    Reconciled s' r := by
  obtain ⟨hev, hall, hclosed⟩ := hl.labelled.unknown hnone
  have hid : r.id = e.jobID := hn.id_eq
  have hevents := hc.eventsOf hr
  obtain ⟨n, ht, -, -⟩ := hc.tally hl
  have hall' := ht.all
  have hsucc := ht.closed .succeeded (by simp)
  have hfail := ht.closed .failed (by simp)
  rw [hall] at hall'
  rw [hclosed] at hsucc hfail
  have hstatus := hn.status_cases
  constructor <;> rw [hid]
  all_goals simp only [hevents, hev, hall', hsucc, hfail]
  all_goals cases hn <;> rcases hstatus with hst | hst <;>
    simp [Entry.told, Entry.starts, Entry.closing, hst]

/-- The counts of a job before a change: nothing final has happened to it. -/
theorem RowChange.unfinished (hch : RowChange h r e r') (hrec : Reconciled s r) :
    s.eventsOf r.id .completed = 0 ∧ s.eventsOf r.id (.named .cancelled) = 0 ∧
      s.eventsOf r.id (.named .deadLettered) = 0 := by
  have hlive := hch.not_final
  simp only [Status.final, List.mem_cons, List.not_mem_nil, or_false, not_or] at hlive
  obtain ⟨hsucc, hcanc, hdead⟩ := hlive
  exact ⟨hrec.succeeded.trans (if_neg hsucc), hrec.cancelled.trans (if_neg hcanc),
    hrec.buried.trans (if_neg hdead)⟩

/-- What an entry adds to the account of its job is balanced, when it leaves the job in `status` and
closes `n` attempts. -/
structure Entry.Balanced (e : Entry) (status : Status) (n : ℕ) : Prop where
  born : (e.told status).count .created + (e.told status).count .requeued = 0
  started : (e.told status).count .started = e.starts
  completed : (e.told status).count .completed = if e.closing = some .succeeded then n else 0
  succeeded : (e.told status).count .completed = if status = .succeeded then 1 else 0
  cancelled : (e.told status).count (.named .cancelled) = if status = .cancelled then 1 else 0
  buried : (e.told status).count (.named .deadLettered) = if status = .deadLettered then 1 else 0
  failed : (e.told status).count (.named .failed) ≤ if e.closing = some .failed then n else 0
  outcomes : (e.told status).count (.named .retryScheduled) +
    (e.told status).count (.named .deadLettered) ≤ if e.closing = some .failed then n else 0

/-- Every rewriting of a row is balanced: a finalization closes one attempt, a recovery at least
one. -/
theorem RowChange.balanced (hch : RowChange h r e r') (hlive : r.status ≠ .failed) {n : ℕ}
    (hone : (∃ w c, e = .completed w c ∨ e = .failed w c) → n = 1)
    (hpos : (∃ id, e = .recovered id) → 1 ≤ n) : e.Balanced r'.status n := by
  cases hch with
  | claimed => constructor <;> simp [Entry.told, Entry.starts, Entry.closing, ClaimArgs.lease]
  | extended now ttl _ hrun _ =>
    have hstatus : (extendedRow now ttl r).status = .running := hrun
    constructor <;> simp [Entry.told, Entry.starts, Entry.closing, hstatus]
  | completed =>
    obtain rfl := hone ⟨_, _, .inl rfl⟩
    constructor <;> simp [Entry.told, Entry.starts, Entry.closing, succeededRow]
  | failed _ _ _ hs _ =>
    obtain rfl := hone ⟨_, _, .inr rfl⟩
    rw [hs.status_eq]
    cases hs <;> constructor <;> simp [Entry.told, Entry.starts, Entry.closing]
  | released => constructor <;> simp [Entry.told, Entry.starts, Entry.closing, releasedRow]
  | @transitioned now op hfrom =>
    cases op with
    | retry => exact absurd (List.mem_singleton.1 hfrom) hlive
    | _ =>
      constructor <;>
        simp [Entry.told, Entry.starts, Entry.closing, operatorRow, Operation.target]
  | recovered _ hs _ =>
    have hn := hpos ⟨_, rfl⟩
    rw [hs.status_eq]
    cases hs <;> constructor <;> simp [Entry.told, Entry.starts, Entry.closing, hn]

/-- The step lemma: a balanced entry keeps an unfinished account balanced. -/
theorem RowChange.reconciled (hch : RowChange h r e r') (hl : Log h s) (hc : Commit h s e s')
    (hr : s.jobs.find? e.jobID = some r) (hr' : s'.jobs.find? e.jobID = some r')
    (hrec : Reconciled s r) : Reconciled s' r' := by
  have hid : r.id = e.jobID := (Table.find?_eq_some_iff.1 hr).2
  have hid' : r'.id = e.jobID := (Table.find?_eq_some_iff.1 hr').2
  obtain ⟨hsucceeded, hcancelled, hburied⟩ := hch.unfinished hrec
  have hevents := hc.eventsOf hr'
  obtain ⟨n, ht, hone, hpos⟩ := hc.tally hl
  have hb := hch.balanced (hl.not_failed hr) hone hpos
  have hsucc := ht.closed .succeeded (by simp)
  have hfail := ht.closed .failed (by simp)
  rw [← hid] at hevents ht hsucc hfail
  constructor <;> rw [hid', ← hid]
  · have hold := hrec.born
    have hnew := hb.born
    rw [hevents, hevents]
    omega
  · rw [hevents, ht.all, hrec.started, hb.started]
  · rw [hevents, hsucc, hrec.completed, hb.completed]
  · rw [hevents, hsucceeded, hb.succeeded, Nat.zero_add]
  · rw [hevents, hcancelled, hb.cancelled, Nat.zero_add]
  · rw [hevents, hburied, hb.buried, Nat.zero_add]
  · rw [hevents, hfail]
    exact Nat.add_le_add hrec.failed hb.failed
  · have hold := hrec.outcomes
    have hnew := hb.outcomes
    rw [hevents, hevents, hfail]
    omega

/-- **Run lemma.**  In every log the account of every job reconciles. -/
theorem Log.reconciled (hl : Log h s) (hr : s.jobs.find? k = some r) : Reconciled s r := by
  induction hl generalizing r with
  | nil => simp [Store.empty] at hr
  | @cons h s s' e hl hc ih =>
    by_cases hk : k = e.jobID
    · subst hk
      rcases hc.job_cases e.jobID with ⟨hx, hsame⟩ | ⟨-, hnone, r', hn, hr'⟩ |
        ⟨-, r₀, r', hr₀, hch, hr'⟩
      · -- the start of an execution writes nothing
        obtain ⟨w, c, rfl⟩ := hx rfl
        cases hc
        exact ih hr
      · obtain rfl := Option.some.inj (hr'.symm.trans hr)
        exact hn.reconciled hl hc hnone hr
      · obtain rfl := Option.some.inj (hr'.symm.trans hr)
        exact hch.reconciled hl hc hr₀ hr (ih hr₀)
    · rw [hc.job_frame hk] at hr
      have hid : r.id = k := (Table.find?_eq_some_iff.1 hr).2
      rw [← hid] at hk
      exact (ih hr).congr rfl rfl (hc.eventsOf_frame hl hk) (hc.tally_frame hl hk)

/-! ### Reachable states -/

/-- The relays change no event's type. -/
theorem Store.core_eventsOf (s : Store) (jobID : UUID) (t : EventType) :
    s.core.eventsOf jobID t = s.eventsOf jobID t := by
  rw [eventsOf, Store.core_timeline, List.map_map]
  rfl

/-- **The tables reconcile.**  In every reachable state of the deployment, for every job: it was
created or requeued once; it has as many `job.started` events as attempts; as many `job.completed`
events as SUCCEEDED attempts, and one exactly when it is SUCCEEDED; one `job.cancelled` event exactly
when it is CANCELLED; as many `job.dead_lettered` events as dead letters; and at least as many FAILED
attempts as `job.failed` events, and as retries and burials together. -/
theorem tables_reconcile {cfg : DeploymentConfig} {p : Deployment}
    (hp : (deployment cfg).Reachable p) {r : JobRow} (hr : r ∈ p.store.jobs.rows) :
    Reconciled p.store r ∧
      p.store.eventsOf r.id (.named .deadLettered) = p.store.lettersOf r.id := by
  have hlog := (reachable_sound (reachable_core hp)).log
  have hrow : p.store.core.jobs.find? r.id = some r := Table.find?_key hr
  have hcore := hlog.reconciled hrow
  have hattempts : p.store.attempts = p.cluster.core.store.attempts := rfl
  have hrec : Reconciled p.store r :=
    hcore.congr rfl rfl (fun t => (p.store.core_eventsOf r.id t).symm) (.of_eq hattempts 0)
  refine ⟨hrec, ?_⟩
  have hf := hlog.filed.2 r.id r hrow
  rw [hrec.buried]
  split
  · rename_i hd
    exact (hf.buried hd).symm
  · rename_i hd
    exact (hf.live hd).symm

/-- The job of the lock miss: two claims, one of them given back, and two `job.started` events. -/
theorem tables_reconcile_lockMiss :
    ∃ p r, (deployment demoDeployment).exec (Demo.deployed Demo.lockMiss) = some p ∧
      r ∈ p.store.jobs.rows ∧ r.status = .retryScheduled ∧ p.store.attemptCount r.id = 2 ∧
      p.store.eventsOf r.id .started = 2 ∧ p.store.lettersOf r.id = 0 := by
  obtain ⟨p, hp, r, hr, hretry, htwo⟩ :
      ∃ p, (deployment demoDeployment).exec (Demo.deployed Demo.lockMiss) = some p ∧
        ∃ r ∈ p.store.jobs.rows, r.status = .retryScheduled ∧ p.store.attemptCount r.id = 2 :=
    System.exists_of_exec (by decide +kernel)
  obtain ⟨hrec, hletters⟩ := tables_reconcile ⟨_, hp⟩ hr
  refine ⟨p, r, hp, hr, hretry, htwo, hrec.started.trans htwo, ?_⟩
  rw [← hletters, hrec.buried, hretry]
  rfl

end JobScheduler
