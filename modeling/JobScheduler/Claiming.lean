import JobScheduler.Library.OrderBy
import JobScheduler.Lifecycle

/-!
# What a claim selects, writes and waits for

* `dueJobs_first` — the selection is the first `k` of the due and free rows, in the order of the
  statement; ids break the last tie, so there is one such order.
* `claimLoop_spec` — the loop leases the selected rows, gives each an attempt and an event, and
  touches nothing else.
* `Log.handedBack` — between two claims of a job it was failed, released or recovered: a claimed job
  is RUNNING, SUCCEEDED or CANCELLED until then, and none of these is claimable.
-/

namespace JobScheduler

open KeyedTable Transaction OrderBy

variable {h : List Entry} {s s' : Store} {e : Entry}

/-! ### The selection -/

/-- The sort key of `ClaimDueJobs`. -/
def JobRow.claimKey (r : JobRow) : ℤ ×ₗ ℤ ×ₗ ℤ ×ₗ ℕ :=
  toLex (-r.priority, toLex (r.runAt, toLex (r.createdAt, r.id.toNat)))

theorem claimsBefore_byKey : ByKey claimsBefore JobRow.claimKey := by
  constructor
  intro a b
  simp only [claimsBefore, JobRow.claimKey, Prod.Lex.le_iff, ofLex_toLex, neg_lt_neg_iff, neg_inj,
    BitVec.le_def]

theorem id_of_claimKey {a b : JobRow} (hk : a.claimKey = b.claimKey) : a.id = b.id := by
  have hid := congrArg (fun k => (ofLex (ofLex (ofLex k).2).2).2) hk
  exact BitVec.eq_of_toNat_eq hid

/-- `a` is claimed before `b`, another row. -/
def ClaimedFirst (a b : JobRow) : Prop := claimsBefore a b ∧ a.id ≠ b.id

/-- The first `k` of the rows that satisfy `P`, in the order in which they are claimed. -/
structure FirstOf (k : ℕ) (P : JobRow → Prop) (rows items : List JobRow) : Prop where
  first : ∃ due : List JobRow, (∀ r, r ∈ due ↔ r ∈ rows ∧ P r) ∧ due.Pairwise ClaimedFirst ∧
    items = due.take k ∧ items.length = min k due.length

/-- **The selection.**  `ClaimDueJobs` takes the first `k` of the rows that are due and free. -/
theorem dueJobs_first (now : Time) (locked : UUID → Bool) (k : Int) (s : Store) :
    FirstOf k.toNat (fun r => r.ClaimableAt now ∧ locked r.id = false) s.jobs.rows
      (dueJobs now locked k s) := by
  refine ⟨_, ?_, ?_, rfl, List.length_take⟩
  · intro r
    rw [(List.perm_insertionSort _ _).mem_iff, List.mem_filter, Bool.and_eq_true, decide_eq_true_eq,
      Bool.not_eq_true']
  · have hnodup : ((s.jobs.rows.filter fun r => decide (r.ClaimableAt now) && !locked r.id).map
        fun r => r.id).Nodup := s.jobs.nodup.sublist (List.filter_sublist.map _)
    have hids := ((List.perm_insertionSort claimsBefore _).map fun r : JobRow => r.id).nodup_iff.2
      hnodup
    exact (claimsBefore_byKey.pairwise _).and (List.pairwise_map.1 hids)

theorem FirstOf.mem {k : ℕ} {P : JobRow → Prop} {rows items : List JobRow}
    (hf : FirstOf k P rows items) {r : JobRow} (hr : r ∈ items) : r ∈ rows ∧ P r := by
  obtain ⟨due, hmem, -, rfl, -⟩ := hf.first
  exact (hmem r).1 (List.mem_of_mem_take hr)

theorem FirstOf.pairwise {k : ℕ} {P : JobRow → Prop} {rows items : List JobRow}
    (hf : FirstOf k P rows items) : items.Pairwise ClaimedFirst := by
  obtain ⟨due, -, hsorted, rfl, -⟩ := hf.first
  exact hsorted.sublist (List.take_sublist _ _)

theorem FirstOf.length_le {k : ℕ} {P : JobRow → Prop} {rows items : List JobRow}
    (hf : FirstOf k P rows items) : items.length ≤ k := by
  obtain ⟨due, -, -, -, hlen⟩ := hf.first
  omega

/-- Rows that are still in the table, due and in order are what a selection restricted to them
finds. -/
theorem dueJobs_eq_of_locked {now : Time} {k : Int} {items : List JobRow}
    (hrows : ∀ r ∈ items, s.jobs.find? r.id = some r ∧ r.ClaimableAt now)
    (hsorted : items.Pairwise ClaimedFirst) (hlen : items.length ≤ k.toNat) :
    dueJobs now (fun id => !decide (id ∈ items.map fun r => r.id)) k s = items := by
  have hids : (items.map fun r => r.id).Nodup := List.pairwise_map.2 (hsorted.imp fun hab => hab.2)
  have hperm : (s.jobs.rows.filter fun r => decide (r.ClaimableAt now) &&
      !!decide (r.id ∈ items.map fun r => r.id)).Perm items := by
    rw [List.perm_ext_iff_of_nodup (s.jobs.nodup.of_map.filter _) hids.of_map]
    intro r
    simp only [List.mem_filter, Bool.not_not, Bool.and_eq_true, decide_eq_true_eq]
    constructor
    · rintro ⟨hmem, -, hid⟩
      obtain ⟨r', hr', hid'⟩ := List.mem_map.1 hid
      have hfind := Table.find?_key hmem
      rw [key_jobRow, ← hid', (hrows r' hr').1] at hfind
      exact Option.some.inj hfind ▸ hr'
    · intro hr
      obtain ⟨hfind, hdue⟩ := hrows r hr
      exact ⟨(Table.find?_eq_some_iff.1 hfind).1, hdue, List.mem_map_of_mem hr⟩
  have hsort : (s.jobs.rows.filter fun r => decide (r.ClaimableAt now) &&
      !!decide (r.id ∈ items.map fun r => r.id)).insertionSort claimsBefore = items := by
    refine claimsBefore_byKey.eq_of_perm ?_ ((List.perm_insertionSort _ _).trans hperm)
      (claimsBefore_byKey.pairwise _) (hsorted.imp fun hab => hab.1)
    intro a ha b hb hkey
    have hmem : ∀ {r}, r ∈ List.insertionSort claimsBefore (s.jobs.rows.filter fun r =>
        decide (r.ClaimableAt now) && !!decide (r.id ∈ items.map fun r => r.id)) → r ∈ s.jobs.rows :=
      fun hr => (List.mem_filter.1 ((List.perm_insertionSort _ _).mem_iff.1 hr)).1
    exact s.jobs.eq_of_key_eq (hmem ha) (hmem hb) (id_of_claimKey hkey)
  rw [dueJobs, hsort]
  exact List.take_of_length_le hlen

/-! ### The loop -/

/-- The event the loop of `ClaimDueJobs` inserts. -/
def ClaimArgs.started (x : ClaimArgs) (r : JobRow) : Event :=
  jobEvent x.now (x.eventID r.id) r.id r.tenantID .started "worker"
    [("worker_id", .text x.workerID), ("attempt_number", .number (r.retryCount + 1))]

/-- The rows `items` were leased, each with one attempt and one event, and nothing else changed. -/
structure Leases (x : ClaimArgs) (items : List JobRow) (s s' : Store) : Prop where
  jobs : s'.jobs = s.jobs.update (fun r => r.id ∈ items.map fun r => r.id) x.lease x.lease_id
  attempts : s'.attempts.rows = s.attempts.rows ++ items.map x.attempt
  deadLetters : s'.deadLetters = s.deadLetters
  events : s'.events.rows = s.events.rows ++ items.map x.started

theorem claimJob_leases {x : ClaimArgs} {r : JobRow} {c : ClaimedJob}
    (hc : claimJob x r s = .ok (c, s')) : Leases x [r] s s' ∧ c = x.claimed r := by
  simp only [claimJob, Tx.bind_eq_ok, updateJobs_eq_ok, insertAttempt_eq_ok, Tx.pure_eq_ok] at hc
  obtain ⟨n, s₁, ⟨-, rfl⟩, _, s₂, ⟨attempts, hins, rfl⟩, _, s₃, hev, rfl, rfl⟩ := hc
  obtain ⟨hj, ha, hd, he⟩ := insertJobEvent_spec hev
  refine ⟨⟨?_, ?_, hd, he⟩, rfl⟩
  · rw [hj]
    apply Table.ext
    simp [Table.update]
  · rw [ha]
    exact (Table.insert_eq_some hins).2

/-- Leasing one row and then others is leasing them all. -/
theorem Leases.cons {x : ClaimArgs} {r : JobRow} {rest : List JobRow} {s₁ : Store}
    (hr : Leases x [r] s s₁) (hrest : Leases x rest s₁ s')
    (hne : r.id ∉ rest.map fun r => r.id) : Leases x (r :: rest) s s' where
  jobs := by
    rw [hrest.jobs, hr.jobs]
    apply Table.ext
    simp only [Table.update, List.map_map]
    apply List.map_congr_left
    intro r' _
    by_cases hk : r'.id = r.id
    · -- the row of `r`: leased here, and not again
      have hnot : ¬(x.lease r').id ∈ rest.map fun r => r.id := by
        rw [ClaimArgs.lease_id, hk]
        exact hne
      simp only [Function.comp_apply, List.map_cons, List.map_nil, List.mem_cons, List.not_mem_nil,
        or_false, hk, if_true, hnot, if_false, true_or]
    · simp [hk]
  attempts := by rw [hrest.attempts, hr.attempts, List.append_assoc]; rfl
  deadLetters := hrest.deadLetters.trans hr.deadLetters
  events := by rw [hrest.events, hr.events, List.append_assoc]; rfl

/-- **The loop.**  `ClaimDueJobs` leases what it selected and returns it. -/
theorem claimLoop_spec {x : ClaimArgs} {items : List JobRow} {out : List ClaimedJob}
    (hnodup : (items.map fun r => r.id).Nodup)
    (hloop : Tx.forEach (claimJob x) items s = .ok (out, s')) :
    Leases x items s s' ∧ out = items.map x.claimed := by
  induction items generalizing s out with
  | nil =>
    obtain ⟨rfl, rfl⟩ := Tx.forEach_nil_eq_ok.1 hloop
    refine ⟨⟨?_, by simp, rfl, by simp⟩, rfl⟩
    rw [Table.update_eq_self (by simp)]
  | cons r rest ih =>
    obtain ⟨c, s₁, cs, hc, hrest, rfl⟩ := Tx.forEach_cons_eq_ok.1 hloop
    rw [List.map_cons, List.nodup_cons] at hnodup
    obtain ⟨hlr, rfl⟩ := claimJob_leases hc
    obtain ⟨hls, rfl⟩ := ih hnodup.2 hrest
    exact ⟨hlr.cons hls hnodup.1, rfl⟩

/-! ### Between two claims -/

/-- The entry makes the job available again. -/
def Entry.HandsBack (jobID : UUID) : Entry → Prop
  | .failed _ c => c.id = jobID
  | .released _ c => c.id = jobID
  | .recovered id => id = jobID
  | _ => False

/-- The statuses of a job that was claimed and not handed back. -/
def Status.busy : List Status := [.running, .succeeded, .cancelled]

theorem not_claimable_of_busy {r : JobRow} {now : Time} (hb : r.status ∈ Status.busy) :
    ¬r.ClaimableAt now := by
  intro hr
  have hstatus := hr.1
  revert hb hstatus
  cases r.status <;> decide

theorem Operation.busy (op : Operation) {status : Status} (hs : status ∈ op.allowedFrom)
    (hb : status ∈ Status.busy) : op.target ∈ Status.busy := by
  revert hs hb
  cases op <;> cases status <;> decide

/-- A rewriting that does not hand the job back leaves it busy. -/
theorem RowChange.busy {r r' : JobRow} (hch : RowChange h r e r') (hback : ¬e.HandsBack e.jobID)
    (hb : r.status ∈ Status.busy) : r'.status ∈ Status.busy := by
  cases hch with
  | claimed x hr => exact absurd hr (not_claimable_of_busy hb)
  | extended => exact hb
  | completed => exact List.mem_cons_of_mem _ List.mem_cons_self
  | failed => exact absurd rfl hback
  | released => exact absurd rfl hback
  | @transitioned now op hfrom => exact op.busy hfrom hb
  | recovered => exact absurd rfl hback

/-- A claimed job stays busy until it is handed back. -/
theorem Log.busy {h₁ h₂ : List Entry} {w : String} {c : ClaimedJob}
    (hl : Log (h₁ ++ .claimed w c :: h₂) s) (hback : ∀ e ∈ h₁, ¬e.HandsBack c.id) :
    ∃ r, s.jobs.find? c.id = some r ∧ r.status ∈ Status.busy := by
  induction h₁ generalizing s with
  | nil =>
    cases hl with
    | cons hl hc =>
      cases hc with
      | @claimed x r _ hrow hr hcl =>
        refine ⟨x.lease r, ?_, List.mem_cons_self⟩
        rw [hcl.jobs]
        exact Table.find?_modify_self hrow _ _
  | cons e h₁ ih =>
    cases hl with
    | cons hl hc =>
      obtain ⟨r, hr, hb⟩ := ih hl fun e' he' => hback e' (List.mem_cons_of_mem _ he')
      rcases hc.job_cases c.id with ⟨-, hk⟩ | ⟨-, hnone, -⟩ | ⟨hk, r₀, r', hr₀, hch, hr'⟩
      · exact ⟨r, hk.trans hr, hb⟩
      · rw [hnone] at hr
        cases hr
      · obtain rfl := Option.some.inj (hr₀.symm.trans hr)
        refine ⟨r', hr', hch.busy ?_ hb⟩
        rw [← hk]
        exact hback e List.mem_cons_self

/-- What came before in a history has a log of its own. -/
theorem Log.earlier {h₁ h₂ : List Entry} (hl : Log (h₁ ++ h₂) s) : ∃ s₀, Log h₂ s₀ := by
  induction h₁ generalizing s with
  | nil => exact ⟨s, hl⟩
  | cons e h₁ ih =>
    cases hl with
    | cons hl _ => exact ih hl

/-- **Between two claims** of a job it was handed back. -/
theorem Log.handedBack {h₁ h₂ h₃ : List Entry} {w w' : String} {c c' : ClaimedJob}
    (hl : Log (h₁ ++ .claimed w c :: (h₂ ++ .claimed w' c' :: h₃)) s) (hid : c.id = c'.id) :
    ∃ e ∈ h₂, e.HandsBack c.id := by
  by_contra hno
  have hback : ∀ e ∈ h₂, ¬e.HandsBack c'.id := by
    intro e he hb
    exact hno ⟨e, he, hid ▸ hb⟩
  obtain ⟨s₁, hl₁⟩ := hl.earlier
  cases hl₁ with
  | cons hl₀ hc =>
    obtain ⟨r, hr, hbusy⟩ := hl₀.busy hback
    cases hc with
    | @claimed x r₀ _ hrow hr₀ _ =>
      have hr : _ = some r := hr
      rw [← hid] at hr
      obtain rfl := Option.some.inj (hrow.symm.trans hr)
      exact not_claimable_of_busy hbusy hr₀

end JobScheduler
