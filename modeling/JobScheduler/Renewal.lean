import JobScheduler.Claiming
import JobScheduler.Cluster

/-!
# The lease and its renewal

One setting of a worker, the lock TTL, becomes three durations: the lease `ClaimDueJobs` writes and the
one `ExtendLease` writes, both in whole seconds, and the interval `renewLease` waits between two
renewals, a third of the TTL kept between one and five seconds.  `ProcessJob` puts the job's timeout and
a minute in the place of a TTL that is not positive; `ClaimDueJobs` does not.

* `lease_outlives_iff` — the leases outlive the interval, and an execution that is renewed on schedule is
  never found expired, if and only if the TTL is at least two seconds.
-/

namespace JobScheduler

open KeyedTable Transaction TransitionSystem

/-- The interval of `renewLease`. -/
def renewInterval (ttl : Duration) : Duration :=
  let interval := ttl.tdiv 3
  let interval := if interval < second then second else interval
  if interval > 5 * second then 5 * second else interval

/-- The interval in terms of the integers. -/
theorem renewInterval_eq (ttl : Int) :
    renewInterval ttl = min (max (ttl.tdiv 3) 1000000000) 5000000000 := by
  have hlow : (if ttl.tdiv 3 < 1000000000 then 1000000000 else ttl.tdiv 3)
      = max (ttl.tdiv 3) 1000000000 := by
    split <;> omega
  have hhigh : (if max (ttl.tdiv 3) 1000000000 > 5 * 1000000000 then 5 * 1000000000
      else max (ttl.tdiv 3) 1000000000) = min (max (ttl.tdiv 3) 1000000000) 5000000000 := by
    split <;> omega
  rw [← hhigh, ← hlow]
  rfl

theorem second_le_renewInterval (ttl : Int) : second ≤ renewInterval ttl := by
  rw [renewInterval_eq]
  exact le_min (le_max_right _ _) (by decide)

/-- A TTL of two seconds or more is longer in whole seconds than the interval. -/
theorem renewInterval_lt {ttl : Int} (h : 2 * second ≤ ttl) :
    renewInterval ttl < wholeSeconds ttl * second := by
  have hlong : (2000000000 : Int) ≤ ttl := h
  have hthird : ttl.tdiv 3 = ttl / 3 := Int.tdiv_eq_ediv_of_nonneg (by omega)
  have hwhole : ttl.tdiv 1000000000 = ttl / 1000000000 := Int.tdiv_eq_ediv_of_nonneg (by omega)
  rw [renewInterval_eq, hthird]
  show min (max (ttl / 3) 1000000000) 5000000000 < ttl.tdiv 1000000000 * 1000000000
  omega

/-- A shorter one is a second at most. -/
theorem wholeSeconds_le {ttl : Int} (h : ttl < 2 * second) : wholeSeconds ttl * second ≤ second := by
  have hshort : ttl < (2000000000 : Int) := h
  have hwhole : ttl.tdiv 1000000000 ≤ 1 := by
    by_cases hneg : ttl < 0
    · have hnonneg : 0 ≤ (-ttl).tdiv 1000000000 := Int.tdiv_nonneg (by omega) (by decide)
      rw [Int.neg_tdiv] at hnonneg
      omega
    · rw [Int.tdiv_eq_ediv_of_nonneg (by omega)]
      omega
  show ttl.tdiv 1000000000 * 1000000000 ≤ 1000000000
  omega

/-! ### An execution on schedule -/

section

variable (cfg : WorkerConfig) (workerID : String) (c : ClaimedJob) (start : Time)

/-- When the execution of a claim is renewed for the k-th time. -/
def renewalTime (k : ℕ) : Time := start + k * renewInterval (cfg.leaseTTL c)

/-- The store after a claim at `start` and `k` renewals on schedule; in between, others do what they do
to other jobs. -/
inductive OnTime : ℕ → Store → Prop where
  | claimed {x : ClaimArgs} {locked : UUID → Bool} {batchSize : Int} {s s' : Store}
      {items : List ClaimedJob} (hnow : x.now = start) (hworker : x.workerID = workerID)
      (httl : x.lockTTL = cfg.lockTTL) (hclaim : claimDueJobs x locked batchSize s = .ok (items, s'))
      (hc : c ∈ items) : OnTime 0 s'
  | others {k : ℕ} {s s' : Store} (hs : OnTime k s)
      (hrow : s'.jobs.find? c.id = s.jobs.find? c.id) : OnTime k s'
  | renewed {k : ℕ} {s s' : Store} (hs : OnTime k s)
      (hrenew : extendLease (renewalTime cfg c start (k + 1)) c.id workerID (cfg.leaseTTL c) s
        = .ok (true, s')) : OnTime (k + 1) s'

/-- The lease of the claim in a store: it is the worker's and it lasts until a time. -/
structure LeasedUntil (deadline : Time) (s : Store) : Prop where
  row : ∃ r, s.jobs.find? c.id = some r ∧ r.status = .running ∧ r.lockedBy = some workerID ∧
    r.lockedUntil = some deadline

end

/-- What a worker counts on: both leases are longer than the interval, and an execution on schedule is
renewed every time and expired at no time before the next renewal. -/
structure LeaseOutlives (cfg : WorkerConfig) (c : ClaimedJob) : Prop where
  claimed : renewInterval (cfg.leaseTTL c) < wholeSeconds cfg.lockTTL * second
  extended : renewInterval (cfg.leaseTTL c) < wholeSeconds (cfg.leaseTTL c) * second
  renewed : ∀ workerID start k s, OnTime cfg workerID c start k s →
    ∃ s', extendLease (renewalTime cfg c start (k + 1)) c.id workerID (cfg.leaseTTL c) s
      = .ok (true, s')
  unexpired : ∀ workerID start k s, OnTime cfg workerID c start k s →
    ∃ r, s.jobs.find? c.id = some r ∧
      ∀ now ≤ renewalTime cfg c start (k + 1), ¬r.ExpiredAt now

section

variable {cfg : WorkerConfig} {workerID : String} {c : ClaimedJob} {start : Time}

/-- The lease `ClaimDueJobs` writes. -/
theorem leased_of_claim {x : ClaimArgs} {locked : UUID → Bool} {batchSize : Int} {s s' : Store}
    {items : List ClaimedJob} (hclaim : claimDueJobs x locked batchSize s = .ok (items, s'))
    (hc : c ∈ items) :
    LeasedUntil x.workerID c (x.now + wholeSeconds x.lockTTL * second) s' := by
  obtain ⟨due, s₁, hread, hloop⟩ := Tx.bind_eq_ok.1 hclaim
  obtain ⟨rfl, rfl⟩ := Tx.read_eq_ok.1 hread
  have hfirst := dueJobs_first x.now locked batchSize s
  have hids : ((dueJobs x.now locked batchSize s).map fun r => r.id).Nodup :=
    List.pairwise_map.2 (hfirst.pairwise.imp fun h => h.2)
  obtain ⟨hleases, rfl⟩ := claimLoop_spec hids hloop
  obtain ⟨r, hr, rfl⟩ := List.mem_map.1 hc
  have hrow : s.jobs.find? r.id = some r := Table.find?_key (hfirst.mem hr).1
  have hselected : r.id ∈ (dueJobs x.now locked batchSize s).map fun r => r.id :=
    List.mem_map_of_mem hr
  have hfind : s'.jobs.find? r.id = some (x.lease r) := by
    rw [hleases.jobs, Table.find?_update, hrow]
    exact congrArg some (if_pos hselected)
  exact ⟨x.lease r, hfind, rfl, rfl, rfl⟩

/-- The lease `ExtendLease` writes. -/
theorem LeasedUntil.extend {deadline : Time} {s : Store} (h : LeasedUntil workerID c deadline s)
    (now : Time) (ttl : Duration) :
    ∃ s', extendLease now c.id workerID ttl s = .ok (true, s') ∧
      LeasedUntil workerID c (now + wholeSeconds ttl * second) s' := by
  obtain ⟨r, hr, hrunning, hby, -⟩ := h.row
  obtain ⟨hmem, hid⟩ := Table.find?_eq_some_iff.1 hr
  have hcount : s.jobs.count (fun r' => r'.id = c.id ∧
      (r'.lockedBy = some workerID ∧ r'.status = .running)) = 1 :=
    Table.count_eq_one hmem ⟨hid, hby, hrunning⟩ fun r' hr' hq =>
      s.jobs.eq_of_key_eq hr' hmem (hq.1.trans hid.symm)
  obtain ⟨extended, s', hs'⟩ : ∃ extended s', extendLease now c.id workerID ttl s
    = .ok (extended, s') := ⟨_, _, rfl⟩
  have hextended : extended = true := by
    simp only [extendLease, Tx.bind_eq_ok, updateJobs_eq_ok, Tx.pure_eq_ok, hcount] at hs'
    obtain ⟨n, -, ⟨rfl, -⟩, rfl, -⟩ := hs'
    rfl
  subst hextended
  refine ⟨s', hs', ?_⟩
  rcases extendLease_spec hs' with ⟨-, r', hid', hextends⟩ | ⟨hfalse, -⟩
  · have hfind : s'.jobs.find? c.id = some (extendedRow now ttl r') := by
      rw [hextends.jobs, ← hid']
      exact Table.find?_modify_self hextends.row _ (extendedRow_id now ttl)
    exact ⟨_, hfind, hextends.running, hextends.lockedBy, rfl⟩
  · cases hfalse

theorem renewalTime_succ (k : ℕ) : renewalTime cfg c start (k + 1)
    = renewalTime cfg c start k + renewInterval (cfg.leaseTTL c) := by
  simp only [renewalTime, Nat.cast_add, Nat.cast_one, add_mul, one_mul, add_assoc]

/-- On schedule, the lease after `k` renewals lasts past the next one. -/
theorem OnTime.leased (hfirst : renewInterval (cfg.leaseTTL c) < wholeSeconds cfg.lockTTL * second)
    (hlater : renewInterval (cfg.leaseTTL c) < wholeSeconds (cfg.leaseTTL c) * second) {k : ℕ}
    {s : Store} (h : OnTime cfg workerID c start k s) :
    ∃ deadline, LeasedUntil workerID c deadline s ∧ renewalTime cfg c start (k + 1) < deadline := by
  induction h with
  | @claimed x locked batchSize s s' items hnow hworker httl hclaim hc =>
    have hleased := leased_of_claim hclaim hc
    rw [hnow, hworker, httl] at hleased
    refine ⟨_, hleased, ?_⟩
    have hzero : renewalTime cfg c start 0 = start := by simp [renewalTime]
    rw [renewalTime_succ, hzero]
    exact Int.add_lt_add_left hfirst start
  | others hs hrow ih =>
    obtain ⟨deadline, ⟨r, hr, hlease⟩, hlt⟩ := ih
    exact ⟨deadline, ⟨r, hrow.trans hr, hlease⟩, hlt⟩
  | @renewed k s s' hs hrenew ih =>
    obtain ⟨deadline, hleased, -⟩ := ih
    obtain ⟨s'', hextend, hleased'⟩ :=
      hleased.extend (renewalTime cfg c start (k + 1)) (cfg.leaseTTL c)
    obtain ⟨-, rfl⟩ := Prod.mk.inj (Except.ok.inj (hextend.symm.trans hrenew))
    refine ⟨_, hleased', ?_⟩
    rw [renewalTime_succ]
    exact Int.add_lt_add_left hlater _

theorem LeasedUntil.not_expired {deadline : Time} {s : Store} (h : LeasedUntil workerID c deadline s) :
    ∃ r, s.jobs.find? c.id = some r ∧ ∀ now ≤ deadline, ¬r.ExpiredAt now := by
  obtain ⟨r, hr, -, -, huntil⟩ := h.row
  refine ⟨r, hr, fun now hle hexpired => ?_⟩
  have hbefore := hexpired.2
  rw [huntil, lockedBefore, decide_eq_true_iff] at hbefore
  exact absurd hbefore (not_lt.2 hle)

end

/-- For every worker and every claim, whatever the timeout of the job. -/
theorem lease_outlives_iff (cfg : WorkerConfig) (c : ClaimedJob) :
    LeaseOutlives cfg c ↔ 2 * second ≤ cfg.lockTTL := by
  constructor
  · intro h
    by_contra hshort
    have hle := wholeSeconds_le (not_le.1 hshort)
    have hlow := second_le_renewInterval (cfg.leaseTTL c)
    exact absurd (h.claimed.trans_le (hle.trans hlow)) (lt_irrefl _)
  · intro hlong
    have hpos : ¬cfg.lockTTL ≤ 0 := not_le.2 (lt_of_lt_of_le (by decide) hlong)
    have httl : cfg.leaseTTL c = cfg.lockTTL := if_neg hpos
    have hlt := renewInterval_lt hlong
    have hfirst : renewInterval (cfg.leaseTTL c) < wholeSeconds cfg.lockTTL * second := by rwa [httl]
    have hlater : renewInterval (cfg.leaseTTL c) < wholeSeconds (cfg.leaseTTL c) * second := by
      rwa [httl]
    refine ⟨hfirst, hlater, ?_, ?_⟩
    · intro workerID start k s hs
      obtain ⟨deadline, hleased, -⟩ := hs.leased hfirst hlater
      obtain ⟨s', hextend, -⟩ := hleased.extend (renewalTime cfg c start (k + 1)) (cfg.leaseTTL c)
      exact ⟨s', hextend⟩
    · intro workerID start k s hs
      obtain ⟨deadline, hleased, hnext⟩ := hs.leased hfirst hlater
      obtain ⟨r, hr, hfresh⟩ := hleased.not_expired
      exact ⟨r, hr, fun now hle => hfresh now (hle.trans hnext.le)⟩

namespace Demo

/-- The deployment with workers that have no TTL. -/
def untimed : Config where
  service := demo.service
  worker := fun _ => ⟨2, 10, 0, .redis⟩

end Demo

/-- Without a TTL the lease of a claim is over at once: the job that worker `a` executes is recovered by
`b` a second later, and the first renewal would come after five. -/
theorem lease_over_before_renewal :
    (∀ c, ¬LeaseOutlives (Demo.untimed.worker "a") c) ∧
      ∃ s c, (cluster Demo.untimed).exec ([Demo.submit] ++ Demo.poll "a" 1 11 ++ Demo.lock "a" 0
          ++ Demo.execute "a" 0 ++ Demo.poll "b" 2 12) = some s ∧
        ((s.workers "a").slots 0).executing? = some c ∧
        renewInterval ((Demo.untimed.worker "a").leaseTTL c) = 5 * second ∧
        (s.store.jobs.find? 1).map (fun r => r.status) = some .retryScheduled := by
  constructor
  · intro c h
    have hlow := second_le_renewInterval ((Demo.untimed.worker "a").leaseTTL c)
    exact absurd (hlow.trans_lt h.claimed) (by decide)
  · obtain ⟨s, hs, hphase, hstatus⟩ : ∃ s, (cluster Demo.untimed).exec ([Demo.submit]
        ++ Demo.poll "a" 1 11 ++ Demo.lock "a" 0 ++ Demo.execute "a" 0 ++ Demo.poll "b" 2 12) = some s ∧
        ((s.workers "a").slots 0).executing?.any (fun c =>
          decide (renewInterval ((Demo.untimed.worker "a").leaseTTL c) = 5 * second)) = true ∧
        (s.store.jobs.find? 1).map (fun r => r.status) = some .retryScheduled :=
      System.exists_of_exec (by decide +kernel)
    obtain ⟨c, hc, hinterval⟩ := (Option.any_eq_true _ _).1 hphase
    exact ⟨s, c, hs, hc, of_decide_eq_true hinterval, hstatus⟩

end JobScheduler
