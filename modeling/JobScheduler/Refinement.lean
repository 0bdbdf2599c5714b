import JobScheduler.Held
import JobScheduler.Moves

/-!
# The running system refines the log

Every step of the system adds entries to the history and moves the store along them
(`step_emission`), so in every reachable state the history leads to the store (`reachable_sound`).
`Emits` ties the entries to the step that adds them: which label, in which state of which slot.
-/

namespace JobScheduler

open KeyedTable Transaction TransitionSystem

variable {es : List Entry} {w : String} {c : ClaimedJob}

/-! ### Emissions -/

/-- The step labelled `x`, taken in the state `s`, may add the entry to the history. -/
inductive Emits (cfg : Config) (s : Cluster) : Act → Entry → Prop where
  | created (a : ApiAct) (id : UUID) : Emits cfg s (.api a) (.created id)
  | requeued (a : ApiAct) (id deadLetterID : UUID) : Emits cfg s (.api a) (.requeued id deadLetterID)
  | transitioned (a : ApiAct) (id : UUID) (op : Operation) :
      Emits cfg s (.api a) (.transitioned id op)
  | recovered {w : String} {x : RecoverArgs} {locked : UUID → Bool} {link : Link} {id : UUID}
      {r : JobRow} (hr : r ∈ s.store.jobs.rows) (hid : r.id = id) (hex : r.ExpiredAt x.now)
      (hfree : locked id = false) (hlink : link ≠ .down) :
      Emits cfg s (.loop w (.recover x locked link)) (.recovered id)
  | claimed {w : String} {x : ClaimArgs} {locked : UUID → Bool} {link : Link} {c : ClaimedJob}
      {r : JobRow} (hr : r ∈ dueJobs x.now locked (cfg.worker w).batch s.store) (hid : c.id = r.id) :
      Emits cfg s (.loop w (.claim x locked link)) (.claimed w c)
  | executed {w : String} {i : ℕ} {c : ClaimedJob} (hs : (s.workers w).slots i = .locked c) :
      Emits cfg s (.slot w i .execute) (.executed w c)
  | extended {w : String} {i : ℕ} {c : ClaimedJob} {result : Option (Except ExecError RawMessage)}
      (now : Time) (link : Link) (hs : (s.workers w).slots i = .executing c .waiting result) :
      Emits cfg s (.slot w i (.extendLease now link)) (.extended w c)
  | completed {w : String} {i : ℕ} {c : ClaimedJob} {result : RawMessage} (eventID : UUID)
      (durationMS : Int) (now : Time) (link : Link)
      (hs : (s.workers w).slots i = .executing c .stopped (some (.ok result))) :
      Emits cfg s (.slot w i (.complete eventID durationMS now link)) (.completed w c)
  | failed {w : String} {i : ℕ} {c : ClaimedJob} {err : ExecError} (ids : FailureIDs)
      (durationMS : Int) (clock clock' now : Time) (link : Link)
      (hs : (s.workers w).slots i = .executing c .stopped (some (.error err))) :
      Emits cfg s (.slot w i (.fail ids durationMS clock clock' now link)) (.failed w c)
  | released {w : String} {i : ℕ} {c : ClaimedJob} (now : Time) (link : Link)
      (hs : (s.workers w).slots i = .missed c) :
      Emits cfg s (.slot w i (.release now link)) (.released w c)

/-- The step labelled `x` from `s` to `s'` added the entries `es`, newest first: the store went along
them, they are about distinct jobs, and they are entries of that step. -/
structure Emission (cfg : Config) (s : Cluster) (x : Act) (s' : Cluster) (es : List Entry) :
    Prop where
  history : s'.history = es ++ s.history
  path : Path s.history s.store es s'.store
  nodup : (es.map Entry.jobID).Nodup
  emits : ∀ e ∈ es, Emits cfg s x e

section Emission

variable {cfg : Config} {s s' : Cluster} {x : Act} {e : Entry}

theorem Emission.silent (hh : s'.history = s.history) (hs : s'.store = s.store) :
    Emission cfg s x s' [] where
  history := hh
  path := hs ▸ .nil
  nodup := List.nodup_nil
  emits := by simp

theorem Emission.single (hh : s'.history = e :: s.history) (hc : Commit s.history s.store e s'.store)
    (he : Emits cfg s x e) : Emission cfg s x s' [e] where
  history := hh
  path := .single hc
  nodup := by simp
  emits := by simpa using he

theorem Emission.congr {s₁ s₂ : Cluster} (he : Emission cfg s x s₁ es)
    (hh : s₂.history = s₁.history) (hs : s₂.store = s₁.store) : Emission cfg s x s₂ es where
  history := hh.trans he.history
  path := hs ▸ he.path
  nodup := he.nodup
  emits := he.emits

/-- A transaction that commits at most one entry. -/
theorem record_emission {α : Type} (cfg : Config) (x : Act) (s : Cluster) (tx : RepoTx α)
    (link : Link) (entries : α → List Entry)
    (hc : ∀ a s', tx s.store = .ok (a, s') → (entries a = [] ∧ s' = s.store) ∨
      ∃ e, entries a = [e] ∧ Commit s.history s.store e s' ∧ Emits cfg s x e) :
    ∃ es, Emission cfg s x (s.record (tx.commit link .connection s.store) entries) es := by
  rcases s.record_cases tx link .connection entries with ⟨-, hs, hh⟩ | ⟨a, ht, -, hh⟩
  · exact ⟨[], .silent hh hs⟩
  · rcases hc a _ ht with ⟨he, hs⟩ | ⟨e, he, hc, hx⟩
    · exact ⟨[], .silent (by rw [hh, he]; rfl) hs⟩
    · exact ⟨[e], .single (by rw [hh, he]; rfl) hc hx⟩

/-- API steps touch no claim. -/
theorem Emission.untouched_api {a : ApiAct} (he : Emission cfg s (.api a) s' es) (w : String)
    (c : ClaimedJob) : Untouched es w c := by
  constructor <;> exact fun hm => by cases he.emits _ hm

/-- Steps of a claim loop touch no claim. -/
theorem Emission.untouched_loop {w' : String} {a : LoopAct}
    (he : Emission cfg s (.loop w' a) s' es) (w : String) (c : ClaimedJob) : Untouched es w c := by
  constructor <;> exact fun hm => by cases he.emits _ hm

/-- Steps of a slot touch no claim but the slot's own. -/
theorem Emission.untouched_slot {w' : String} {i : ℕ} {a : SlotAct}
    (he : Emission cfg s (.slot w' i a) s' es)
    (hne : w = w' → ((s.workers w').slots i).claim? ≠ some c) : Untouched es w c := by
  constructor
  · intro hm
    cases he.emits _ hm with
    | released now link hs => exact hne rfl (by rw [hs]; rfl)
  · intro hm
    cases he.emits _ hm with
    | executed hs => exact hne rfl (by rw [hs]; rfl)

/-- A step that releases a claim does nothing else. -/
theorem Emission.eq_of_released (he : Emission cfg s x s' es) (hm : .released w c ∈ es) :
    es = [.released w c] := by
  have hsame : ∀ e ∈ es, e = .released w c := by
    intro e hme
    cases he.emits _ hm with
    | released now link hs =>
      cases he.emits e hme with
      | released _ _ hs' => rw [Phase.missed.inj (hs'.symm.trans hs)]
  have hnodup := he.nodup
  match es, hm, hsame, hnodup with
  | [e], _, hsame, _ => rw [hsame e List.mem_cons_self]
  | e :: e' :: es, _, hsame, hnodup =>
    rw [hsame e List.mem_cons_self, hsame e' (by simp)] at hnodup
    simp at hnodup

end Emission

/-! ### The API -/

/-- The history leads to the store, and the workers hold what the history says they do. -/
structure Sound (s : Cluster) : Prop where
  log : Log s.history s.store
  held : ∀ w, Held s.history w (s.workers w)

theorem submitted_of_prepare {cfg : ServiceConfig} {principal : Principal} {req : CreateRequest}
    {jobID : NewUUID} {clock : Time} {call : CreateCall} {j : Job}
    (hp : cfg.prepare principal req jobID clock = .ok (call, j)) : Submitted j := by
  obtain ⟨hv, rfl, -⟩ := ServiceConfig.prepare_eq_ok hp
  exact ⟨initialStatus_cases _ _, rfl, ServiceConfig.maxRetries_nonneg hv⟩

variable {cfg : Config} {s s' : Cluster}

/-- API steps emit their commit. -/
theorem apiStep_emission {a : ApiAct} (h : apiStep cfg.service s a = some s') :
    ∃ es, Emission cfg s (.api a) s' es := by
  cases apiStep_move h with
  | refused => exact ⟨[], .silent rfl rfl⟩
  | @created principal req jobID eventID clock now link call j lookups answers hp =>
    obtain ⟨es, hem⟩ := record_emission cfg
      (.api (.create principal req jobID eventID clock now link)) s (create now eventID j) link
      (fun _ => [.created j.id]) fun out st hc =>
        .inr ⟨_, rfl, .created (submitted_of_prepare hp) (create_spec hc).1, .created _ _⟩
    exact ⟨es, hem.congr rfl rfl⟩
  | looked => exact ⟨[], .silent rfl rfl⟩
  | read => exact ⟨[], .silent rfl rfl⟩
  | @written n eventID now link call operators hcall =>
    obtain ⟨es, hem⟩ := record_emission cfg (.api (.writeJob n eventID now link)) s
      (call.op.write now eventID call.tenantID call.id) link
      (fun _ => [.transitioned call.id call.op]) fun _ st hc => by
        obtain ⟨r, hid, ht⟩ := transitionJob_spec hc
        exact .inr ⟨_, rfl, hid ▸ .transitioned ht, .transitioned _ _ _⟩
    exact ⟨es, hem.congr rfl rfl⟩
  | @requeued tenantID deadLetterID newID eventID clock clock' now link =>
    exact record_emission cfg
      (.api (.requeue tenantID deadLetterID newID eventID clock clock' now link)) s
      (requeueDeadLetter now clock' newID.val eventID tenantID deadLetterID clock) link
      (fun _ => [.requeued newID.val deadLetterID]) fun _ st hc => by
        obtain ⟨dl, rfl, hr⟩ := requeueDeadLetter_spec hc
        exact .inr ⟨_, rfl, .requeued hr, .requeued _ _ _⟩

/-! ### The claim loop -/

/-- One worker's memory changes, and no other worker's claims are touched. -/
theorem Sound.held_update {x : Act} {wk : Worker} (hs : Sound s) (he : Emission cfg s x s' es)
    (hw : s'.workers = Function.update s.workers w wk) (hself : Held (es ++ s.history) w wk)
    (hu : ∀ w', w' ≠ w → ∀ c, Untouched es w' c) (w' : String) :
    Held s'.history w' (s'.workers w') := by
  rw [he.history, hw]
  by_cases hww : w' = w
  · subst hww
    rwa [Function.update_self]
  · rw [Function.update_of_ne hww]
    exact (hs.held w').append (hu w' hww)

/-- The loop of worker `w` moves. -/
theorem Sound.held_loop {a : LoopAct} {wk : Worker} (hs : Sound s)
    (he : Emission cfg s (.loop w a) s' es) (hw : s'.workers = Function.update s.workers w wk)
    (hself : Held (es ++ s.history) w wk) :
    ∃ es, Emission cfg s (.loop w a) s' es ∧ ∀ w', Held s'.history w' (s'.workers w') :=
  ⟨es, he, hs.held_update he hw hself fun w' _ => he.untouched_loop w'⟩

/-- Steps of the claim loop. -/
theorem loopStep_emission {a : LoopAct} (hs : Sound s)
    (h : loopStep (cfg.worker w) s w a = some s') :
    ∃ es, Emission cfg s (.loop w a) s' es ∧ ∀ w', Held s'.history w' (s'.workers w') := by
  cases loopStep_move h with
  | @recovered x locked link hloop =>
    have hself := (hs.held w).setLoop .recovered rfl
    rcases s.record_cases (recoverExpiredRunningJobs { x with reason := leaseExpired } locked) link
      .connection (fun ids => (ids.map Entry.recovered).reverse) with
      ⟨-, hst, hh⟩ | ⟨ids, ht, hsome, hh⟩
    · exact hs.held_loop (.silent hh hst) rfl hself
    · obtain ⟨hpath, hids, hnodup⟩ := recoverExpiredRunningJobs_path (h := s.history) ht
      have hemits : ∀ e ∈ (ids.map Entry.recovered).reverse,
          Emits cfg s (.loop w (.recover x locked link)) e := by
        intro e he
        obtain ⟨id, hid, rfl⟩ := List.mem_map.1 (List.mem_reverse.1 he)
        rw [hids] at hid
        obtain ⟨r, hr, hrid⟩ := List.mem_map.1 hid
        simp only [List.mem_filter, Bool.and_eq_true, decide_eq_true_eq, Bool.not_eq_true'] at hr
        refine .recovered hr.1 hrid hr.2.1 (hrid ▸ hr.2.2) ?_
        rintro rfl
        cases hsome
      have hem := Emission.mk hh hpath
        (by simpa [Function.comp_def, Entry.jobID] using hnodup) hemits
      exact hs.held_loop (hem.congr rfl rfl) rfl (hself.append (hem.untouched_loop w))
  | @claimed x locked link rest hloop hrest =>
    rcases s.record_cases
      (claimDueJobs { x with workerID := w, lockTTL := (cfg.worker w).lockTTL } locked
        (cfg.worker w).batch) link .connection
      (fun items => (items.map (Entry.claimed w)).reverse) with
      ⟨hnone, hst, hh⟩ | ⟨items, ht, hsome, hh⟩
    · refine hs.held_loop (.silent hh hst) rfl ((hs.held w).setLoop _ ?_)
      rcases hrest with hrep | ⟨-, rfl⟩
      · rw [Tx.committed_of_reply_ok hrep] at hnone
        exact absurd hnone (by simp)
      · rfl
    · obtain ⟨hpath, hids, hnodup⟩ := claimDueJobs_path (h := s.history) ht
      have hemits : ∀ e ∈ (items.map (Entry.claimed w)).reverse,
          Emits cfg s (.loop w (.claim x locked link)) e := by
        intro e he
        obtain ⟨c, hc, rfl⟩ := List.mem_map.1 (List.mem_reverse.1 he)
        have hid : c.id ∈ (dueJobs x.now locked (cfg.worker w).batch s.store).map
            (fun r => r.id) := hids ▸ List.mem_map_of_mem hc
        obtain ⟨r, hr, hrc⟩ := List.mem_map.1 hid
        exact .claimed hr hrc.symm
      have hem := Emission.mk hh hpath
        (by simpa [Function.comp_def, Entry.jobID] using hnodup) hemits
      refine hs.held_loop (hem.congr rfl rfl) rfl ?_
      rcases hrest with hrep | ⟨-, rfl⟩
      · -- the batch the loop got is the one that was committed
        obtain rfl := Option.some.inj (hsome.symm.trans (Tx.committed_of_reply_ok hrep))
        exact (hs.held w).claim hs.log hpath hnodup
      · exact ((hs.held w).append (hem.untouched_loop w)).setLoop (.dispatching []) rfl
  | @dispatched i j rest hloop hslot hi =>
    refine hs.held_loop (.silent rfl rfl) ?_ ((hs.held w).dispatch (i := i) hloop)
    simp [Cluster.setSlot, Cluster.setLoop, Cluster.setWorker]
  | shutdown =>
    have hw := hs.held w
    exact hs.held_loop (.silent rfl rfl) rfl
      ⟨hw.batch, hw.slot, hw.batchNodup, hw.apart, hw.slotsInj⟩
  | stopped hloop hctx => exact hs.held_loop (.silent rfl rfl) rfl ((hs.held w).setLoop .stopped rfl)

/-! ### The slots -/

/-- A slot moves on with its claim, or drops it. -/
theorem Sound.held_slot {s₁ : Cluster} {i : ℕ} {phase : Phase} {a : SlotAct} (hs : Sound s)
    (he : Emission cfg s (.slot w i a) s₁ es) (hw : s₁.workers = s.workers)
    (hb : phase.Backed (es ++ s.history) w)
    (hc : ∀ c, phase.claim? = some c → ((s.workers w).slots i).claim? = some c) :
    ∃ es, Emission cfg s (.slot w i a) (s₁.setSlot w i phase) es ∧
      ∀ w', Held (s₁.setSlot w i phase).history w' ((s₁.setSlot w i phase).workers w') := by
  have hem : Emission cfg s (.slot w i a) (s₁.setSlot w i phase) es := he.congr rfl rfl
  refine ⟨es, hem, hs.held_update hem ?_ ((hs.held w).setSlot hb hc fun c hne => ?_) ?_⟩
  · rw [← hw]
    rfl
  · exact he.untouched_slot fun _ => hne
  · exact fun w' hne c => he.untouched_slot fun he => absurd he hne

/-- A slot moves on without a commit. -/
theorem Sound.held_slot_silent {s₁ : Cluster} {i : ℕ} {phase : Phase} {a : SlotAct} (hs : Sound s)
    (hh : s₁.history = s.history) (hst : s₁.store = s.store) (hw : s₁.workers = s.workers)
    (hb : phase.Backed s.history w)
    (hc : ∀ c, phase.claim? = some c → ((s.workers w).slots i).claim? = some c) :
    ∃ es, Emission cfg s (.slot w i a) (s₁.setSlot w i phase) es ∧
      ∀ w', Held (s₁.setSlot w i phase).history w' ((s₁.setSlot w i phase).workers w') :=
  hs.held_slot (.silent hh hst) hw hb hc

/-- A slot runs a transaction that commits the entry `e`, and drops its claim. -/
theorem Sound.held_slot_drop {α : Type} {i : ℕ} {phase : Phase} {a : SlotAct} (hs : Sound s)
    (tx : RepoTx α) (link : Link) {e : Entry}
    (hc : ∀ u s', tx s.store = .ok (u, s') → Commit s.history s.store e s')
    (he : Emits cfg s (.slot w i a) e) (hphase : phase.claim? = none) (hb : ∀ h, phase.Backed h w) :
    ∃ es, Emission cfg s (.slot w i a)
        ((s.record (tx.commit link .connection s.store) fun _ => [e]).setSlot w i phase) es ∧
      ∀ w', Held
        ((s.record (tx.commit link .connection s.store) fun _ => [e]).setSlot w i phase).history w'
        (((s.record (tx.commit link .connection s.store) fun _ => [e]).setSlot w i
          phase).workers w') := by
  obtain ⟨es, hem⟩ := record_emission cfg (.slot w i a) s tx link (fun _ => [e]) fun u s' ht =>
    .inr ⟨e, rfl, hc u s' ht, he⟩
  exact hs.held_slot hem rfl (hb _) (by simp [hphase])

/-- Steps of a slot. -/
theorem slotStep_emission {i : ℕ} {a : SlotAct} (hs : Sound s)
    (h : slotStep (cfg.worker w) s w i a = some s') :
    ∃ es, Emission cfg s (.slot w i a) s' es ∧ ∀ w', Held s'.history w' (s'.workers w') := by
  have hslot := (hs.held w).slot i
  obtain ⟨s₁, phase, hmove, rfl⟩ := slotStep_move h
  clear h
  generalize hph : (s.workers w).slots i = before at hmove hslot
  -- a claim that stays in the slot
  have keeps : ∀ {c : ClaimedJob}, before.claim? = some c →
      ∀ c', some c = some c' → ((s.workers w).slots i).claim? = some c' := by
    rintro c hc c' hcc
    rw [hph, hc, hcc]
  cases hmove with
  | unguarded hm => exact hs.held_slot_silent rfl rfl rfl hslot (keeps rfl)
  | acquired hm hfree => exact hs.held_slot_silent rfl rfl rfl hslot (keeps rfl)
  | missed hm htaken => exact hs.held_slot_silent rfl rfl rfl hslot (keeps rfl)
  | unanswered hm hlink hlocks =>
    exact hs.held_slot_silent rfl rfl rfl trivial (by simp [Phase.claim?])
  | released =>
    refine hs.held_slot_drop _ _ ?_ (.released _ _ hph) rfl fun _ => trivial
    intro u st ht
    obtain ⟨r, hid, hr⟩ := releaseClaim_spec ht
    exact .released hslot hid hr
  | attempted hnil =>
    -- a claimed job always carries its attempt
    exact absurd hnil (hs.log.activeAttemptID_ne_nil (Pending.claimed hslot))
  | @executed j hnil =>
    have hem : Emission cfg s (.slot w i .execute) (s.executing w j) [.executed w j] :=
      .single rfl (.executed hslot) (.executed hph)
    refine hs.held_slot hem rfl ?_ (keeps rfl)
    exact ⟨List.mem_cons_of_mem _ (Pending.claimed hslot),
      by simpa using Pending.notReleased hslot, List.mem_cons_self⟩
  | @extended j result now link renewal =>
    obtain ⟨es, hem⟩ := record_emission cfg (.slot w i (.extendLease now link)) s
      (extendLease now j.id w ((cfg.worker w).leaseTTL j)) link
      (fun extended => if extended then [Entry.extended w j] else []) (by
        intro extended st ht
        rcases extendLease_spec ht with ⟨rfl, r, hid, hx⟩ | ⟨rfl, rfl⟩
        · exact .inr ⟨_, rfl, .extended hslot hid hx, .extended now link hph⟩
        · exact .inl ⟨rfl, rfl⟩)
    have hnot : .released w j ∉ es := fun hm => by cases hem.emits _ hm
    exact hs.held_slot hem rfl (Executing.append hslot hnot) (keeps rfl)
  | prolonged => exact hs.held_slot_silent rfl rfl rfl hslot (keeps rfl)
  | renewalStopped => exact hs.held_slot_silent rfl rfl rfl hslot (keeps rfl)
  | returned => exact hs.held_slot_silent rfl rfl rfl hslot (keeps rfl)
  | completed =>
    refine hs.held_slot_drop _ _ ?_ (.completed _ _ _ _ hph) rfl fun _ => trivial
    intro u st ht
    obtain ⟨r, a, hc⟩ := completeExecution_spec ht
    exact .completed hslot hc
  | failed =>
    refine hs.held_slot_drop _ _ ?_ (.failed _ _ _ _ _ _ hph) rfl fun _ => trivial
    intro u st ht
    obtain ⟨r, a, hc⟩ := failExecution_spec ht
    exact .failed hslot hc
  | unlocked hlocks => exact hs.held_slot_silent rfl rfl rfl trivial (by simp [Phase.claim?])
  | exited hctx => exact hs.held_slot_silent rfl rfl rfl trivial (by simp [Phase.claim?])

/-! ### The whole system -/

/-- **Step lemma.**  A step from a sound state emits its entries and leads to a sound state. -/
theorem step_emission {x : Act} (hs : Sound s) (h : step cfg s x = some s') :
    ∃ es, Emission cfg s x s' es ∧ Sound s' := by
  have key : ∃ es, Emission cfg s x s' es ∧ ∀ w, Held s'.history w (s'.workers w) := by
    cases x with
    | api a =>
      rw [step_api] at h
      obtain ⟨es, he⟩ := apiStep_emission h
      refine ⟨es, he, fun w => ?_⟩
      rw [he.history, (apiStep_move h).workers]
      exact (hs.held w).append (he.untouched_api w)
    | loop w a => exact loopStep_emission hs h
    | slot w i a => exact slotStep_emission hs h
    | crash w =>
      obtain rfl := Option.some.inj h
      have he : Emission cfg s (.crash w) (s.setWorker w Worker.initial) [] := .silent rfl rfl
      exact ⟨[], he, hs.held_update he rfl (.initial _ w) fun _ _ _ => by simp [Untouched]⟩
    | expireLock jobID =>
      obtain rfl := Option.some.inj h
      exact ⟨[], .silent rfl rfl, hs.held⟩
  obtain ⟨es, he, hheld⟩ := key
  refine ⟨es, he, ?_, hheld⟩
  rw [he.history]
  exact hs.log.append he.path

/-- **Refinement.**  In every reachable state the history leads to the store, and the workers hold
what it says they hold. -/
theorem reachable_sound (hr : (cluster cfg).Reachable s) : Sound s := by
  refine hr.invariant ⟨.nil, fun w => .initial _ w⟩ ?_
  intro s x s' hs hx
  exact (step_emission hs hx).choose_spec.2

/-- The entries a step from a reachable state emits. -/
theorem reachable_emission {x : Act} (hr : (cluster cfg).Reachable s)
    (h : step cfg s x = some s') : ∃ es, Emission cfg s x s' es := by
  obtain ⟨es, he, -⟩ := step_emission (reachable_sound hr) h
  exact ⟨es, he⟩

/-! ### A step, seen from one row -/

/-- A step leaves the row of a job alone, inserts it, or rewrites it in one of the known ways. -/
theorem Emission.job_cases {x : Act} (he : Emission cfg s x s' es) (k : UUID) :
    s'.store.jobs.find? k = s.store.jobs.find? k ∨
      (s.store.jobs.find? k = none ∧ ∃ e r', NewRow e r' ∧ s'.store.jobs.find? k = some r') ∨
      ∃ h e r r', s.store.jobs.find? k = some r ∧ RowChange h r e r' ∧
        s'.store.jobs.find? k = some r' := by
  rcases he.path.job_cases he.nodup k with hk | ⟨h₁, s₁, s₂, e, -, -, hc, h₀, h₂⟩
  · exact .inl hk
  · rw [← h₀, h₂]
    rcases hc.job_cases k with ⟨-, hk⟩ | ⟨-, hnone, r', hn, hr'⟩ | ⟨-, r, r', hr, hch, hr'⟩
    · exact .inl hk
    · exact .inr (.inl ⟨hnone, e, r', hn, hr'⟩)
    · exact .inr (.inr ⟨h₁, e, r, r', hr, hch, hr'⟩)

end JobScheduler
