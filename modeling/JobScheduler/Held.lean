import JobScheduler.Ownership

/-!
# What workers hold

A worker may only act on claims it holds, and each claim it holds is held once: in its batch or in
one slot (`Held`).  That is what makes a claim's life in the history linear: it is released at most
once, executed at most once, and never both.

The loops of `ClaimDueJobs` and `RecoverExpiredRunningJobs` are taken apart here into one commit per
row (`Path.forEach`), and a claimed batch is shown to be new (`Held.claim`).
-/

namespace JobScheduler

open KeyedTable Transaction

variable {h es : List Entry} {s s' : Store} {w : String} {c : ClaimedJob}

/-! ### The life of a claim in the history -/

theorem Log.claimed_of_executed (hl : Log h s) (hm : .executed w c ∈ h) : .claimed w c ∈ h := by
  induction hl with
  | nil => simp at hm
  | cons hl hc ih =>
    rcases List.mem_cons.1 hm with rfl | hm
    · cases hc with
      | executed hp => exact List.mem_cons_of_mem _ hp.claimed
    · exact List.mem_cons_of_mem _ (ih hm)

theorem Log.claimed_of_released (hl : Log h s) (hm : .released w c ∈ h) : .claimed w c ∈ h := by
  induction hl with
  | nil => simp at hm
  | cons hl hc ih =>
    rcases List.mem_cons.1 hm with rfl | hm
    · cases hc with
      | released hp _ _ => exact List.mem_cons_of_mem _ hp.claimed
    · exact List.mem_cons_of_mem _ (ih hm)

/-- None of the entries releases or starts the claim. -/
def Untouched (es : List Entry) (w : String) (c : ClaimedJob) : Prop :=
  .released w c ∉ es ∧ .executed w c ∉ es

theorem Pending.append (hp : Pending h w c) (hu : Untouched es w c) : Pending (es ++ h) w c where
  claimed := List.mem_append_right _ hp.claimed
  notReleased := by simp [hu.1, hp.notReleased]
  notExecuted := by simp [hu.2, hp.notExecuted]

theorem Executing.append (hp : Executing h w c) (hu : .released w c ∉ es) :
    Executing (es ++ h) w c where
  claimed := List.mem_append_right _ hp.claimed
  notReleased := by simp [hu, hp.notReleased]
  executed := List.mem_append_right _ hp.executed

/-! ### What workers hold -/

/-- The claim in a phase is where the history says it is. -/
def Phase.Backed (h : List Entry) (w : String) : Phase → Prop
  | .received c => Pending h w c
  | .missed c => Pending h w c
  | .locked c => Pending h w c
  | .executing c _ _ => Executing h w c
  | .idle => True
  | .finished _ => True
  | .exited => True

/-- The claims of a worker are in the history, and no attempt is held twice. -/
structure Held (h : List Entry) (w : String) (wk : Worker) : Prop where
  batch : ∀ c ∈ wk.loop.batch, Pending h w c
  slot : ∀ i, (wk.slots i).Backed h w
  batchNodup : (wk.loop.batch.map fun c => c.activeAttemptID).Nodup
  apart : ∀ c ∈ wk.loop.batch, ∀ i c', (wk.slots i).claim? = some c' →
    c.activeAttemptID ≠ c'.activeAttemptID
  slotsInj : ∀ i k c c', (wk.slots i).claim? = some c → (wk.slots k).claim? = some c' →
    c.activeAttemptID = c'.activeAttemptID → i = k

theorem Phase.Backed.claimed {phase : Phase} (hb : phase.Backed h w) (hc : phase.claim? = some c) :
    .claimed w c ∈ h := by
  cases phase with
  | received j => obtain rfl := Option.some.inj hc; exact Pending.claimed hb
  | missed j => obtain rfl := Option.some.inj hc; exact Pending.claimed hb
  | locked j => obtain rfl := Option.some.inj hc; exact Pending.claimed hb
  | executing j _ _ => obtain rfl := Option.some.inj hc; exact Executing.claimed hb
  | idle => cases hc
  | finished j => cases hc
  | exited => cases hc

theorem Phase.Backed.append {phase : Phase} (hb : phase.Backed h w)
    (hu : ∀ c, phase.claim? = some c → Untouched es w c) : phase.Backed (es ++ h) w := by
  cases phase with
  | received j => exact Pending.append hb (hu j rfl)
  | missed j => exact Pending.append hb (hu j rfl)
  | locked j => exact Pending.append hb (hu j rfl)
  | executing j _ _ => exact Executing.append hb (hu j rfl).1
  | idle => trivial
  | finished j => trivial
  | exited => trivial

theorem Held.initial (h : List Entry) (w : String) : Held h w Worker.initial where
  batch := by simp [Worker.initial, Loop.batch]
  slot := fun _ => trivial
  batchNodup := by simp [Worker.initial, Loop.batch]
  apart := by simp [Worker.initial, Loop.batch]
  slotsInj := by simp [Worker.initial, Phase.claim?]

/-- Entries that touch none of a worker's claims leave it as it is. -/
theorem Held.append {wk : Worker} (hh : Held h w wk) (hu : ∀ c, Untouched es w c) :
    Held (es ++ h) w wk where
  batch := fun c hc => (hh.batch c hc).append (hu c)
  slot := fun i => (hh.slot i).append fun c _ => hu c
  batchNodup := hh.batchNodup
  apart := hh.apart
  slotsInj := hh.slotsInj

/-- Where a claim is after a slot moved on with its claim or dropped it, there it was before. -/
theorem claim?_of_update {slots : ℕ → Phase} {i : ℕ} {phase : Phase}
    (hc : ∀ c, phase.claim? = some c → (slots i).claim? = some c) {k : ℕ}
    (hs : (Function.update slots i phase k).claim? = some c) : (slots k).claim? = some c := by
  by_cases hk : k = i
  · subst hk
    rw [Function.update_self] at hs
    exact hc c hs
  · rwa [Function.update_of_ne hk] at hs

/-- A slot moves on with its claim, or drops it; only its own claim is touched. -/
theorem Held.setSlot {wk : Worker} {i : ℕ} {phase : Phase} (hh : Held h w wk)
    (hb : phase.Backed (es ++ h) w)
    (hc : ∀ c, phase.claim? = some c → (wk.slots i).claim? = some c)
    (hu : ∀ c, (wk.slots i).claim? ≠ some c → Untouched es w c) :
    Held (es ++ h) w { wk with slots := Function.update wk.slots i phase } where
  batch := fun c hm => (hh.batch c hm).append (hu c fun hs => hh.apart c hm i c hs rfl)
  slot := by
    intro k
    by_cases hk : k = i
    · subst hk
      simpa using hb
    · simp only [Function.update_of_ne hk]
      exact (hh.slot k).append fun c hs => hu c fun hi => hk (hh.slotsInj k i c c hs hi rfl)
  batchNodup := hh.batchNodup
  apart := fun c hm k c' hs => hh.apart c hm k c' (claim?_of_update hc hs)
  slotsInj := fun k l c c' hk hl =>
    hh.slotsInj k l c c' (claim?_of_update hc hk) (claim?_of_update hc hl)

/-- The head of the batch moves into a slot. -/
theorem Held.dispatch {wk : Worker} {i : ℕ} {rest : List ClaimedJob} (hh : Held h w wk)
    (hloop : wk.loop = .dispatching (c :: rest)) :
    Held h w { wk with
      loop := .dispatching rest, inFlight := false,
      slots := Function.update wk.slots i (.received c) } := by
  have hbatch : wk.loop.batch = c :: rest := by rw [hloop]; rfl
  have hnodup := hh.batchNodup
  rw [hbatch, List.map_cons, List.nodup_cons] at hnodup
  have hmem : ∀ {c'}, c' ∈ c :: rest → c' ∈ wk.loop.batch := fun hm => hbatch ▸ hm
  refine ⟨fun c' hm => hh.batch c' (hmem (List.mem_cons_of_mem _ hm)), ?_, hnodup.2, ?_, ?_⟩
  · intro k
    by_cases hk : k = i
    · subst hk
      simpa [Phase.Backed] using hh.batch c (hmem List.mem_cons_self)
    · simpa [Function.update_of_ne hk] using hh.slot k
  · intro c' hm k c'' hs
    by_cases hk : k = i
    · subst hk
      obtain rfl : c = c'' := by simpa [Phase.claim?] using hs
      intro heq
      exact hnodup.1 (heq ▸ List.mem_map_of_mem hm)
    · simp only [Function.update_of_ne hk] at hs
      exact hh.apart c' (hmem (List.mem_cons_of_mem _ hm)) k c'' hs
  · intro k l c' c'' hk hl heq
    by_cases hki : k = i
    · by_cases hli : l = i
      · exact hki.trans hli.symm
      · subst hki
        obtain rfl : c = c' := by simpa [Phase.claim?] using hk
        simp only [Function.update_of_ne hli] at hl
        exact absurd heq (hh.apart c (hmem List.mem_cons_self) l c'' hl)
    · simp only [Function.update_of_ne hki] at hk
      by_cases hli : l = i
      · subst hli
        obtain rfl : c = c'' := by simpa [Phase.claim?] using hl
        exact absurd heq.symm (hh.apart c (hmem List.mem_cons_self) k c' hk)
      · simp only [Function.update_of_ne hli] at hl
        exact hh.slotsInj k l c' c'' hk hl heq

/-! ### The loops of claiming and recovering -/

/-- A loop over distinct rows, each of whose iterations commits one entry about its row, runs along
the entries of its results. -/
theorem Path.forEach {β : Type} {s₀ : Store} {body : JobRow → RepoTx β} (f : β → Entry)
    (G : JobRow → Prop)
    (hbody : ∀ h s s' r b, s.jobs.find? r.id = some r → G r → body r s = .ok (b, s') →
      Commit h s (f b) s' ∧ (f b).jobID = r.id)
    {rows : List JobRow} {results : List β} (hp : Path h s₀ es s)
    (hrows : ∀ r ∈ rows, s.jobs.find? r.id = some r ∧ G r) (hnodup : (rows.map fun r => r.id).Nodup)
    (hloop : Tx.forEach body rows s = .ok (results, s')) :
    Path h s₀ ((results.map f).reverse ++ es) s' ∧
      results.map (fun b => (f b).jobID) = rows.map fun r => r.id := by
  induction rows generalizing es s results with
  | nil =>
    obtain ⟨rfl, rfl⟩ := Tx.forEach_nil_eq_ok.1 hloop
    exact ⟨hp, rfl⟩
  | cons r rows ih =>
    obtain ⟨b, s₁, bs, hb, hrest, rfl⟩ := Tx.forEach_cons_eq_ok.1 hloop
    obtain ⟨hr, hg⟩ := hrows r List.mem_cons_self
    obtain ⟨hc, hid⟩ := hbody (es ++ h) s s₁ r b hr hg hb
    rw [List.map_cons, List.nodup_cons] at hnodup
    have hrows' : ∀ r' ∈ rows, s₁.jobs.find? r'.id = some r' ∧ G r' := by
      intro r' hr'
      obtain ⟨hf, hg'⟩ := hrows r' (List.mem_cons_of_mem _ hr')
      -- the iteration touched the row of `r` only
      have hne : r'.id ≠ (f b).jobID := fun he =>
        hnodup.1 (hid ▸ he ▸ List.mem_map_of_mem hr')
      exact ⟨(hc.job_frame hne).trans hf, hg'⟩
    obtain ⟨hpath, hids⟩ := ih (.cons hp hc) hrows' hnodup.2 hrest
    refine ⟨?_, by rw [List.map_cons, List.map_cons, hid, hids]⟩
    simpa using hpath

/-- The rows a loop selects are in the table, and distinct. -/
theorem nodup_of_sublist_perm {t : Table JobRow} {rows rows' : List JobRow}
    (hs : rows'.Sublist t.rows) (hp : rows.Subperm rows') : (rows.map fun r => r.id).Nodup := by
  obtain ⟨l, hl, hsub⟩ := hp
  have hnodup : (rows'.map fun r => r.id).Nodup := t.nodup.sublist (hs.map _)
  exact (hl.map _).nodup_iff.1 (hnodup.sublist (hsub.map _))

theorem dueJobs_subperm (now : Time) (locked : UUID → Bool) (batchSize : Int) (s : Store) :
    (dueJobs now locked batchSize s).Subperm
      (s.jobs.rows.filter fun r => decide (r.ClaimableAt now) && !locked r.id) :=
  (List.take_sublist _ _).subperm.trans (List.perm_insertionSort _ _).subperm

/-- The rows `ClaimDueJobs` selects are due and not locked. -/
theorem mem_dueJobs {now : Time} {locked : UUID → Bool} {batchSize : Int} {r : JobRow}
    (hr : r ∈ dueJobs now locked batchSize s) :
    r ∈ s.jobs.rows ∧ r.ClaimableAt now ∧ locked r.id = false := by
  have hmem := List.mem_filter.1 ((dueJobs_subperm now locked batchSize s).subset hr)
  simpa only [Bool.and_eq_true, decide_eq_true_eq, Bool.not_eq_true'] using hmem

/-- `ClaimDueJobs` runs along the claims it returns, one for each job it selected. -/
theorem claimDueJobs_path {x : ClaimArgs} {locked : UUID → Bool} {batchSize : Int}
    {items : List ClaimedJob} (hc : claimDueJobs x locked batchSize s = .ok (items, s')) :
    Path h s (items.map (Entry.claimed x.workerID)).reverse s' ∧
      (items.map fun c => c.id) = (dueJobs x.now locked batchSize s).map (fun r => r.id) ∧
      (items.map fun c => c.id).Nodup := by
  simp only [claimDueJobs, Tx.bind_eq_ok, Tx.read_eq_ok] at hc
  obtain ⟨_, _, ⟨rfl, rfl⟩, hloop⟩ := hc
  have hrows : ∀ r ∈ dueJobs x.now locked batchSize s,
      s.jobs.find? r.id = some r ∧ r.ClaimableAt x.now := by
    intro r hr
    obtain ⟨hmem, hcl, -⟩ := mem_dueJobs hr
    exact ⟨Table.find?_key hmem, hcl⟩
  have hnodup := nodup_of_sublist_perm List.filter_sublist
    (dueJobs_subperm x.now locked batchSize s)
  obtain ⟨hpath, hids⟩ := Path.forEach (h := h) (Entry.claimed x.workerID)
    (fun r => r.ClaimableAt x.now)
    (fun h s s' r b hr hg hb => by
      obtain ⟨hcl, rfl⟩ := claimJob_spec hb
      exact ⟨.claimed hr hg hcl, rfl⟩) .nil hrows hnodup hloop
  rw [List.append_nil] at hpath
  have hids' : items.map (fun c => c.id) = (dueJobs x.now locked batchSize s).map (fun r => r.id) :=
    hids
  refine ⟨hpath, hids', ?_⟩
  rw [hids']
  exact hnodup

/-- `RecoverExpiredRunningJobs` runs along the recoveries it returns, one for each job it selected. -/
theorem recoverExpiredRunningJobs_path {x : RecoverArgs} {locked : UUID → Bool} {ids : List UUID}
    (hc : recoverExpiredRunningJobs x locked s = .ok (ids, s')) :
    Path h s (ids.map Entry.recovered).reverse s' ∧
      ids = (s.jobs.rows.filter fun r => decide (r.ExpiredAt x.now) && !locked r.id).map
        (fun r => r.id) ∧
      ids.Nodup := by
  simp only [recoverExpiredRunningJobs, Tx.bind_eq_ok, Tx.read_eq_ok] at hc
  obtain ⟨_, _, ⟨rfl, rfl⟩, hloop⟩ := hc
  have hrows : ∀ r ∈ s.jobs.rows.filter (fun r => decide (r.ExpiredAt x.now) && !locked r.id),
      s.jobs.find? r.id = some r ∧ r.ExpiredAt x.now := by
    intro r hr
    have hmem := List.mem_filter.1 hr
    simp only [Bool.and_eq_true, decide_eq_true_eq] at hmem
    exact ⟨Table.find?_key hmem.1, hmem.2.1⟩
  have hnodup : ((s.jobs.rows.filter fun r => decide (r.ExpiredAt x.now) && !locked r.id).map
      fun r => r.id).Nodup := nodup_of_sublist_perm List.filter_sublist (List.Subperm.refl _)
  obtain ⟨hpath, hids⟩ := Path.forEach (h := h) Entry.recovered (fun r => r.ExpiredAt x.now)
    (fun h s s' r b hr hg hb => by
      obtain ⟨hrec, rfl⟩ := recoverJob_spec hr hg.1 hb
      exact ⟨.recovered hr hg hrec, rfl⟩) .nil hrows hnodup hloop
  rw [List.append_nil] at hpath
  have hids' : ids.map (fun id => id) = _ := hids
  rw [List.map_id'] at hids'
  refine ⟨hpath, hids', ?_⟩
  rw [hids']
  exact hnodup

/-! ### New batches -/

/-- The attempt ids of new claims are new. -/
theorem Path.claimed_fresh (hp : Path h s es s') (hm : .claimed w c ∈ es) :
    s.attempts.find? c.activeAttemptID = none := by
  induction hp with
  | nil => simp at hm
  | @cons es s₁ s' e hp hc ih =>
    rcases List.mem_cons.1 hm with rfl | hm
    · have hnone := hc.of_claimed.1
      clear hc hm ih
      -- an attempt of the first store would still be there
      induction hp with
      | nil => exact hnone
      | cons hp hc ih =>
        apply ih
        by_contra hne
        obtain ⟨a, ha⟩ := Option.ne_none_iff_exists'.1 hne
        obtain ⟨a', ha', -⟩ := hc.attempt_persists ha
        rw [ha'] at hnone
        exact absurd hnone (by simp)
    · exact ih hm

theorem Held.setLoop {wk : Worker} (hh : Held h w wk) (loop : Loop) (hl : loop.batch = []) :
    Held h w { wk with loop := loop, inFlight := false } where
  batch := by simp [hl]
  slot := hh.slot
  batchNodup := by simp [hl]
  apart := by simp [hl]
  slotsInj := hh.slotsInj

/-- A new batch: its claims are pending, distinct, and none of them is in a slot. -/
theorem Held.claim {wk : Worker} {items : List ClaimedJob} (hl : Log h s) (hh : Held h w wk)
    (hp : Path h s (items.map (Entry.claimed w)).reverse s')
    (hids : (items.map fun c => c.id).Nodup) :
    Held ((items.map (Entry.claimed w)).reverse ++ h) w
      { wk with loop := .dispatching items, inFlight := false } := by
  have hmem : ∀ {c}, c ∈ items → .claimed w c ∈ (items.map (Entry.claimed w)).reverse :=
    fun hc => List.mem_reverse.2 (List.mem_map_of_mem hc)
  have hu : ∀ c, Untouched (items.map (Entry.claimed w)).reverse w c := by
    intro c
    simp [Untouched]
  have hfresh : ∀ {c}, c ∈ items → s.attempts.find? c.activeAttemptID = none :=
    fun hc => hp.claimed_fresh (hmem hc)
  -- a claim in the old history has its attempt in the old store
  have hold : ∀ {c c'}, c ∈ items → .claimed w c' ∈ h → c.activeAttemptID ≠ c'.activeAttemptID := by
    intro c c' hc hc' heq
    obtain ⟨a, ha, -⟩ := hl.attempt_of_claimed hc'
    rw [← heq, hfresh hc] at ha
    exact absurd ha (by simp)
  have happ := hh.append hu
  refine ⟨fun c hc => ⟨List.mem_append_left _ (hmem hc), ?_, ?_⟩, happ.slot, ?_, ?_, hh.slotsInj⟩
  · rw [List.mem_append, not_or]
    exact ⟨(hu c).1, fun hm => hold hc (hl.claimed_of_released hm) rfl⟩
  · rw [List.mem_append, not_or]
    exact ⟨(hu c).2, fun hm => hold hc (hl.claimed_of_executed hm) rfl⟩
  · refine List.Nodup.map_on ?_ (List.Nodup.of_map _ hids)
    intro c hc c' hc' heq
    have hl' := hl.append hp
    exact (hl'.claimed_inj (List.mem_append_left _ (hmem hc)) (List.mem_append_left _ (hmem hc'))
      heq).2
  · intro c hc i c' hs
    exact hold hc ((hh.slot i).claimed hs)

end JobScheduler
