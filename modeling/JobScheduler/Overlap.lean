import JobScheduler.Claiming
import JobScheduler.Deployment
import Mathlib.Data.List.Pairwise

/-!
# Claims that overlap

In the deployment a claim is one step.  Here it is two: the selection, which locks the selected rows,
and the loop with the commit, which comes later, after any number of other steps.  In between no
other transaction can change a locked row, and another selection skips it.

The two levels agree: an overlapping claim commits what the single step commits, if that step finds
locked whatever the earlier selection did not take (`OverlapSound.finish_step`).  So what is known of
the deployment holds here, and `claims_disjoint_in_order` says the rest: what a selection takes, what
a commit writes, that open selections are disjoint, and what must have happened between two claims
of one job.
-/

namespace JobScheduler

open KeyedTable Transaction TransitionSystem

/-! ### The system -/

/-- A claim between its selection and its commit. -/
structure OpenClaim where
  args : ClaimArgs
  items : List JobRow

/-- The ids of the rows an open claim has locked. -/
def OpenClaim.ids (o : OpenClaim) : List UUID := o.items.map fun r => r.id

/-- The deployment, with the claims that are under way. -/
structure Overlap where
  deployment : Deployment
  claims : List OpenClaim

namespace Overlap

/-- The committed database. -/
abbrev store (q : Overlap) : Store := q.deployment.store

/-- The job is locked by an open claim. -/
def locked (q : Overlap) (id : UUID) : Bool := q.claims.any fun o => decide (id ∈ o.ids)

/-- The open claim of a worker. -/
def claimOf (q : Overlap) (w : String) : Option OpenClaim :=
  q.claims.find? fun o => decide (o.args.workerID = w)

/-- The claims of the other workers. -/
def without (q : Overlap) (w : String) : List OpenClaim :=
  q.claims.filter fun o => decide (o.args.workerID ≠ w)

end Overlap

/-- The steps of the system. -/
inductive OverlapAct where
  /-- `SELECT … FOR UPDATE SKIP LOCKED`; `locked` are the rows other transactions hold. -/
  | select (w : String) (x : ClaimArgs) (locked : UUID → Bool)
  /-- The loop over the selected rows, and the commit. -/
  | finish (w : String) (link : Link)
  /-- Any other step. -/
  | other (a : DeploymentAct)

/-- The step is a whole claim. -/
def DeploymentAct.claims : DeploymentAct → Bool
  | .scheduler (.loop _ (.claim _ _ _)) => true
  | _ => false

/-- The open claims after another step: a worker that dies takes its transaction with it. -/
def Overlap.remaining (q : Overlap) : DeploymentAct → List OpenClaim
  | .scheduler (.crash w) => q.without w
  | _ => q.claims

/-- One step. -/
def overlapStep (cfg : DeploymentConfig) (q : Overlap) : OverlapAct → Option Overlap
  | .select w x locked =>
    match (q.deployment.cluster.workers w).loop with
    | .recovered =>
      if (q.deployment.cluster.workers w).Permits .up ∧ q.claimOf w = none then
        let cw := cfg.scheduler.worker w
        let items := dueJobs x.now (fun id => locked id || q.locked id) cw.batch q.store
        some { q with claims := ⟨{ x with workerID := w, lockTTL := cw.lockTTL }, items⟩ :: q.claims }
      else none
    | _ => none
  | .finish w link =>
    match q.claimOf w with
    | none => none
    | some o =>
      let out := (Tx.forEach (claimJob o.args) o.items).commit link .connection q.store
      let cluster := (q.deployment.cluster.record out fun items =>
        (items.map (Entry.claimed w)).reverse).setLoop w
          (match out.reply with
            | .ok items => .dispatching items
            | .error _ => .dispatching [])
      some ⟨{ q.deployment with cluster := cluster }, q.without w⟩
  | .other a =>
    if a.claims then none
    else
      match deploymentStep cfg q.deployment a with
      | none => none
      | some p =>
        -- a statement that would change a locked row waits
        if ∀ o ∈ q.claims, ∀ r ∈ o.items, p.store.jobs.find? r.id = q.store.jobs.find? r.id then
          some ⟨p, q.remaining a⟩
        else none

/-- The system under a configuration. -/
def overlap (cfg : DeploymentConfig) : System Overlap OverlapAct :=
  ⟨⟨Deployment.initial, []⟩, overlapStep cfg⟩

/-! ### Whose memory a step changes -/

/-- The worker waits for the answer to its claim; a cancelled context does not take the call back. -/
def Worker.Claiming (wk : Worker) : Prop := wk.loop = .recovered ∧ wk.Permits .up

theorem Worker.Permits.all {wk : Worker} (h : wk.Permits .up) (link : Link) : wk.Permits link := by
  rcases h with hctx | hcall | hlink
  · exact .inl hctx
  · exact .inr (.inl hcall)
  · cases hlink

theorem Worker.Claiming.congr {wk wk' : Worker} (h : wk.Claiming) (hc : wk'.control = wk.control) :
    wk'.Claiming := by
  obtain ⟨hloop, hctx, hcall⟩ : wk'.loop = wk.loop ∧ wk'.ctxDone = wk.ctxDone ∧
      wk'.inFlight = wk.inFlight := by simpa [Worker.control] using hc
  rw [Worker.Claiming, Worker.Permits, hloop, hctx, hcall]
  exact h

theorem step_claiming {cfg : Config} {s s' : Cluster} {x : Act} {w : String}
    (h : step cfg s x = some s') (hw : (s.workers w).Claiming)
    (hclaim : ∀ y locked link, x ≠ .loop w (.claim y locked link)) (hcrash : x ≠ .crash w) :
    (s'.workers w).Claiming := by
  by_cases hx : ∃ a, x = .loop w a
  · obtain ⟨a, rfl⟩ := hx
    -- a loop between recovery and claim can only claim, or see its context cancelled
    cases loopStep_move h with
    | recovered hloop => simp [hw.1] at hloop
    | claimed hloop hrest => exact absurd rfl (hclaim _ _ _)
    | dispatched hloop hslot hi => simp [hw.1] at hloop
    | shutdown hctx =>
      rw [Worker.Claiming, Cluster.setWorker_self]
      exact ⟨hw.1, .inr (.inl (by rw [hw.1]; rfl))⟩
    | stopped hloop hctx => simp [hw.1] at hloop
  · exact hw.congr (step_control h (fun a ha => hx ⟨a, ha⟩) hcrash)

/-! ### Soundness -/

/-- What an open claim can rely on until it commits. -/
structure OpenClaim.Valid (cfg : Config) (s : Cluster) (o : OpenClaim) : Prop where
  claiming : (s.workers o.args.workerID).Claiming
  lockTTL : o.args.lockTTL = (cfg.worker o.args.workerID).lockTTL
  rows : ∀ r ∈ o.items, s.store.jobs.find? r.id = some r ∧ r.ClaimableAt o.args.now
  sorted : o.items.Pairwise ClaimedFirst
  length : o.items.length ≤ (cfg.worker o.args.workerID).batch.toNat

/-- Claims of different workers, on different jobs. -/
def OpenClaim.Apart (o o' : OpenClaim) : Prop :=
  o.args.workerID ≠ o'.args.workerID ∧ ∀ id ∈ o.ids, id ∉ o'.ids

/-- The deployment is in a state it can reach by itself, and the open claims are valid and apart. -/
structure OverlapSound (cfg : DeploymentConfig) (q : Overlap) : Prop where
  reachable : (deployment cfg).Reachable q.deployment
  valid : ∀ o ∈ q.claims, o.Valid cfg.scheduler q.deployment.cluster
  apart : q.claims.Pairwise OpenClaim.Apart

variable {cfg : DeploymentConfig} {q q' : Overlap} {o : OpenClaim} {w : String}

theorem OpenClaim.Valid.ids_nodup {cfg : Config} {s : Cluster} (hv : o.Valid cfg s) : o.ids.Nodup :=
  List.pairwise_map.2 (hv.sorted.imp fun hab => hab.2)

theorem Overlap.mem_of_claimOf (ho : q.claimOf w = some o) :
    o ∈ q.claims ∧ o.args.workerID = w :=
  ⟨List.mem_of_find?_eq_some ho, by simpa using List.find?_some ho⟩

theorem Overlap.locked_eq_false {id : UUID} :
    q.locked id = false ↔ ∀ o ∈ q.claims, id ∉ o.ids := by
  simp [Overlap.locked]

theorem Overlap.mem_without (ho : o ∈ q.without w) : o ∈ q.claims ∧ o.args.workerID ≠ w := by
  simpa [Overlap.without] using ho

/-- **The two levels agree.**  The loop over the rows an open claim has selected, run on the database
as it is now, does what the whole claim does when everything else is locked. -/
theorem OpenClaim.Valid.claimDueJobs_eq {cfg : Config} {s : Cluster} (hv : o.Valid cfg s) :
    claimDueJobs o.args (fun id => !decide (id ∈ o.ids)) (cfg.worker o.args.workerID).batch s.store
      = Tx.forEach (claimJob o.args) o.items s.store := by
  have hsel := dueJobs_eq_of_locked hv.rows hv.sorted hv.length
  show Tx.forEach (claimJob o.args) (dueJobs o.args.now (fun id => !decide (id ∈ o.ids))
    (cfg.worker o.args.workerID).batch s.store) s.store = _
  rw [OpenClaim.ids, hsel]

theorem commit_congr {α : Type} {tx tx' : RepoTx α} {s : Store} (h : tx s = tx' s) (link : Link)
    (io : AppError) : tx.commit link io s = tx'.commit link io s := by
  simp only [Tx.commit, h]

/-- The second half of an overlapping claim is a step of the deployment. -/
theorem OverlapSound.finish_step (hs : OverlapSound cfg q) (ho : q.claimOf w = some o) (link : Link)
    (h : overlapStep cfg q (.finish w link) = some q') :
    deploymentStep cfg q.deployment
      (.scheduler (.loop w (.claim o.args (fun id => !decide (id ∈ o.ids)) link)))
        = some q'.deployment := by
  obtain ⟨hmem, rfl⟩ := Overlap.mem_of_claimOf ho
  have hv := hs.valid o hmem
  have hargs : { o.args with
      workerID := o.args.workerID, lockTTL := (cfg.scheduler.worker o.args.workerID).lockTTL }
      = o.args := by rw [← hv.lockTTL]
  simp only [overlapStep, ho] at h
  obtain rfl := Option.some.inj h
  rw [deploymentStep_scheduler]
  refine ⟨_, ?_, rfl⟩
  simp only [step, loopStep, hv.claiming.1, if_pos (hv.claiming.2.all link), hargs]
  rewrite [commit_congr hv.claimDueJobs_eq]
  rfl

/-- The rows of a claim are not touched by the commit of another. -/
theorem Leases.find?_of_not_mem {x : ClaimArgs} {items : List JobRow} {s s' : Store}
    (hl : Leases x items s s') {id : UUID} (hid : id ∉ items.map fun r => r.id) :
    s'.jobs.find? id = s.jobs.find? id := by
  rw [hl.jobs]
  rcases Table.find?_update_cases s.jobs (fun r => r.id ∈ items.map fun r => r.id) x.lease x.lease_id
    id with ⟨hk, -⟩ | ⟨r, hr, hmem, -⟩
  · exact hk
  · obtain ⟨-, rfl⟩ := Table.find?_eq_some_iff.1 hr
    exact absurd hmem hid

/-- What the second half of a claim does to the database. -/
theorem OverlapSound.finish_spec (hs : OverlapSound cfg q) (ho : q.claimOf w = some o) {link : Link}
    (h : overlapStep cfg q (.finish w link) = some q') :
    (((Tx.forEach (claimJob o.args) o.items).commit link .connection q.store).committed = none ∧
        q'.store = q.store) ∨
      (((Tx.forEach (claimJob o.args) o.items).commit link .connection q.store).committed
          = some (o.items.map o.args.claimed) ∧ Leases o.args o.items q.store q'.store) := by
  have hv := hs.valid o (Overlap.mem_of_claimOf ho).1
  simp only [overlapStep, ho] at h
  obtain rfl := Option.some.inj h
  rcases Tx.commit_cases (Tx.forEach (claimJob o.args) o.items) link .connection q.store with
    ⟨hn, hst⟩ | ⟨items, st, ht, hc, hst⟩
  · exact .inl ⟨hn, hst⟩
  · obtain ⟨hl, rfl⟩ := claimLoop_spec hv.ids_nodup ht
    rw [← hst] at hl
    exact .inr ⟨hc, hl⟩

/-! ### Every step -/

theorem OverlapSound.select (hs : OverlapSound cfg q) {x : ClaimArgs} {locked : UUID → Bool}
    (h : overlapStep cfg q (.select w x locked) = some q') :
    OverlapSound cfg q' ∧ ∃ o, q'.claims = o :: q.claims ∧ q'.deployment = q.deployment ∧
      o.args.workerID = w ∧
      FirstOf (cfg.scheduler.worker w).batch.toNat
        (fun r => r.ClaimableAt x.now ∧ locked r.id = false ∧ q.locked r.id = false)
        q.store.jobs.rows o.items := by
  simp only [overlapStep] at h
  split at h
  · rename_i hloop
    split at h
    · rename_i hsel
      obtain ⟨hpermits, hnone⟩ := hsel
      obtain rfl := Option.some.inj h
      have hfirst := dueJobs_first x.now (fun id => locked id || q.locked id)
        (cfg.scheduler.worker w).batch q.store
      simp only [Bool.or_eq_false_iff] at hfirst
      refine ⟨⟨hs.reachable, ?_, ?_⟩, _, rfl, rfl, rfl, hfirst⟩
      · simp only [List.mem_cons, forall_eq_or_imp]
        refine ⟨⟨⟨hloop, hpermits⟩, rfl, ?_, hfirst.pairwise, hfirst.length_le⟩, hs.valid⟩
        intro r hr
        obtain ⟨hmem, hdue, -⟩ := hfirst.mem hr
        exact ⟨Table.find?_key hmem, hdue⟩
      · refine List.pairwise_cons.2 ⟨?_, hs.apart⟩
        intro o ho
        refine ⟨?_, ?_⟩
        · intro heq
          have hno := List.find?_eq_none.1 hnone o ho
          exact hno (decide_eq_true heq.symm)
        · intro id hid
          obtain ⟨r, hr, rfl⟩ := List.mem_map.1 hid
          exact Overlap.locked_eq_false.1 (hfirst.mem hr).2.2.2 o ho
    · cases h
  · cases h

/-- Open claims that stay open through a step that leaves their rows and their workers alone. -/
theorem OverlapSound.keep (hs : OverlapSound cfg q) {p : Deployment} {claims : List OpenClaim}
    (hp : (deployment cfg).Reachable p) (hsub : claims.Sublist q.claims)
    (hclaiming : ∀ o ∈ claims, (p.cluster.workers o.args.workerID).Claiming)
    (hrows : ∀ o ∈ claims, ∀ r ∈ o.items, p.store.jobs.find? r.id = q.store.jobs.find? r.id) :
    OverlapSound cfg ⟨p, claims⟩ where
  reachable := hp
  valid := by
    intro o ho
    have hv := hs.valid o (hsub.subset ho)
    refine ⟨hclaiming o ho, hv.lockTTL, ?_, hv.sorted, hv.length⟩
    intro r hr
    exact ⟨(hrows o ho r hr).trans (hv.rows r hr).1, (hv.rows r hr).2⟩
  apart := hs.apart.sublist hsub

theorem OverlapSound.apart_of_ne (hs : OverlapSound cfg q) {o o' : OpenClaim} (ho : o ∈ q.claims)
    (ho' : o' ∈ q.claims) (hne : o.args.workerID ≠ o'.args.workerID) : ∀ id ∈ o.ids, id ∉ o'.ids := by
  have hsymm : Std.Symm OpenClaim.Apart := by
    constructor
    intro a b hab
    exact ⟨hab.1.symm, fun id hb ha => hab.2 id ha hb⟩
  exact (hs.apart.forall ho ho' fun he => hne (he ▸ rfl)).2

theorem OverlapSound.finish (hs : OverlapSound cfg q) {link : Link}
    (h : overlapStep cfg q (.finish w link) = some q') : OverlapSound cfg q' := by
  cases ho : q.claimOf w with
  | none => simp [overlapStep, ho] at h
  | some o =>
    obtain ⟨hmem, hw⟩ := Overlap.mem_of_claimOf ho
    have hreach : (deployment cfg).Reachable q'.deployment := hs.reachable.step
      (x := .scheduler (.loop w (.claim o.args (fun id => !decide (id ∈ o.ids)) link)))
      (hs.finish_step ho link h)
    have hspec := hs.finish_spec ho h
    simp only [overlapStep, ho] at h
    obtain rfl := Option.some.inj h
    refine hs.keep hreach List.filter_sublist ?_ ?_
    · intro o' ho'
      obtain ⟨hmem', hne⟩ := Overlap.mem_without ho'
      rw [Cluster.setLoop, Cluster.setWorker_of_ne _ hne]
      exact (hs.valid o' hmem').claiming
    · intro o' ho' r hr
      obtain ⟨hmem', hne⟩ := Overlap.mem_without ho'
      rcases hspec with ⟨-, hst⟩ | ⟨-, hl⟩
      · exact congrArg (fun st : Store => st.jobs.find? r.id) hst
      · refine hl.find?_of_not_mem ?_
        exact hs.apart_of_ne hmem' hmem (hw ▸ hne) r.id (List.mem_map_of_mem hr)

theorem Overlap.remaining_sublist (q : Overlap) (a : DeploymentAct) :
    (q.remaining a).Sublist q.claims := by
  unfold Overlap.remaining
  split
  · exact List.filter_sublist
  · exact List.Sublist.refl _

/-- A claim that stays open through another step has its worker still waiting for it. -/
theorem OverlapSound.claiming_other (hs : OverlapSound cfg q) {a : DeploymentAct} {p : Deployment}
    (ha : a.claims = false) (h : deploymentStep cfg q.deployment a = some p)
    (ho : o ∈ q.remaining a) : (p.cluster.workers o.args.workerID).Claiming := by
  have hclaiming := (hs.valid o ((q.remaining_sublist a).subset ho)).claiming
  cases hx : a.scheduler? with
  | none =>
    have hcore := (deployment_simulation cfg).silent (x := a) h hx
    have hworkers : p.cluster.core.workers = q.deployment.cluster.core.workers := by rw [hcore]
    rw [show p.cluster.workers = q.deployment.cluster.workers from hworkers]
    exact hclaiming
  | some y =>
    cases a with
    | scheduler z =>
      obtain rfl := Option.some.inj hx
      obtain ⟨c, hc, rfl⟩ := deploymentStep_scheduler.1 h
      refine step_claiming hc hclaiming ?_ ?_
      · rintro x locked link rfl
        cases ha
      · rintro rfl
        exact absurd rfl (Overlap.mem_without ho).2
    | _ => cases hx

theorem OverlapSound.other (hs : OverlapSound cfg q) {a : DeploymentAct}
    (h : overlapStep cfg q (.other a) = some q') : OverlapSound cfg q' := by
  simp only [overlapStep] at h
  split at h
  · cases h
  · rename_i ha
    split at h
    · cases h
    · rename_i p hp
      split at h
      · rename_i hrows
        obtain rfl := Option.some.inj h
        have hsub := q.remaining_sublist a
        refine hs.keep (hs.reachable.step hp) hsub ?_ ?_
        · intro o ho
          exact hs.claiming_other (by simpa using ha) hp ho
        · exact fun o ho => hrows o (hsub.subset ho)
      · cases h

/-- **Soundness.**  In every reachable state the open claims are valid and apart, and the deployment
is in a state it can reach with claims in one step. -/
theorem overlap_sound (hq : (overlap cfg).Reachable q) : OverlapSound cfg q := by
  refine System.Reachable.invariant (P := OverlapSound cfg) ?_ ?_ hq
  · exact ⟨⟨[], rfl⟩, by simp [overlap], List.Pairwise.nil⟩
  · intro q₀ x q₁ hs h
    cases x with
    | select w y locked => exact (hs.select h).1
    | finish w link => exact hs.finish h
    | other a => exact hs.other h

/-! ### Claims are disjoint and in order -/

/-- The transaction of an open claim after its selection. -/
def OpenClaim.run (o : OpenClaim) (link : Link) (s : Store) : Outcome Store AppError (List ClaimedJob) :=
  (Tx.forEach (claimJob o.args) o.items).commit link .connection s

/-- What the second half of a claim does. -/
structure FinishesClaim (w : String) (o : OpenClaim) (link : Link) (q q' : Overlap) : Prop where
  /-- An error of one of its statements, or of the connection, changes nothing. -/
  error : ∀ e, Tx.forEach (claimJob o.args) o.items q.store = .error e → q'.store = q.store
  uncommitted : (o.run link q.store).committed = none → q'.store = q.store
  /-- A commit leases the selected rows, with one RUNNING attempt and one `job.started` event each, and
  changes no other row. -/
  committed : ∀ items, (o.run link q.store).committed = some items →
    items = o.items.map o.args.claimed ∧ Leases o.args o.items q.store q'.store
  /-- What is returned was committed, and is dispatched next. -/
  returned : ∀ items, (o.run link q.store).reply = .ok items →
    (o.run link q.store).committed = some items ∧
      (q'.deployment.cluster.workers w).loop = .dispatching items

/-- What holds of the claims in a state. -/
structure ClaimsInOrder (cfg : DeploymentConfig) (q : Overlap) : Prop where
  /-- A selection takes the first rows that are due, claimable and not locked, in order. -/
  selects : ∀ w x locked q', overlapStep cfg q (.select w x locked) = some q' →
    ∃ o, q'.claims = o :: q.claims ∧ q'.deployment = q.deployment ∧ o.args.workerID = w ∧
      FirstOf (cfg.scheduler.worker w).batch.toNat
        (fun r => r.ClaimableAt x.now ∧ locked r.id = false ∧ q.locked r.id = false)
        q.store.jobs.rows o.items
  /-- Until the commit the selected rows stay as they were selected. -/
  held : ∀ o ∈ q.claims, ∀ r ∈ o.items,
    q.store.jobs.find? r.id = some r ∧ r.ClaimableAt o.args.now
  /-- No job is in two open claims. -/
  disjoint : ∀ o ∈ q.claims, ∀ o' ∈ q.claims, o.args.workerID ≠ o'.args.workerID →
    ∀ id ∈ o.ids, id ∉ o'.ids
  finishes : ∀ w o link q', q.claimOf w = some o → overlapStep cfg q (.finish w link) = some q' →
    FinishesClaim w o link q q'
  /-- Between two claims of a job it was failed, released or recovered. -/
  between : ∀ h₁ h₂ h₃ w w' c c',
    q.deployment.cluster.history = h₁ ++ .claimed w c :: (h₂ ++ .claimed w' c' :: h₃) →
    c.id = c'.id → ∃ e ∈ h₂, e.HandsBack c.id

theorem OverlapSound.finishesClaim (hs : OverlapSound cfg q) {link : Link} (ho : q.claimOf w = some o)
    (h : overlapStep cfg q (.finish w link) = some q') : FinishesClaim w o link q q' := by
  have hspec := hs.finish_spec ho h
  have hnone : (o.run link q.store).committed = none → q'.store = q.store := by
    intro hn
    rcases hspec with ⟨-, hst⟩ | ⟨hc, -⟩
    · exact hst
    · rw [show (o.run link q.store).committed = _ from hc] at hn
      cases hn
  refine ⟨?_, hnone, ?_, ?_⟩
  · intro e he
    apply hnone
    rcases Tx.commit_cases (Tx.forEach (claimJob o.args) o.items) link .connection q.store with
      ⟨hn, -⟩ | ⟨items, st, ht, -⟩
    · exact hn
    · rw [he] at ht
      cases ht
  · intro items hc
    rcases hspec with ⟨hn, -⟩ | ⟨hc', hl⟩
    · rw [show (o.run link q.store).committed = none from hn] at hc
      cases hc
    · exact ⟨Option.some.inj (hc.symm.trans hc'), hl⟩
  · intro items hr
    refine ⟨Tx.committed_of_reply_ok hr, ?_⟩
    simp only [overlapStep, ho] at h
    obtain rfl := Option.some.inj h
    rw [OpenClaim.run] at hr
    simp [Cluster.setLoop, Cluster.setWorker, hr]

/-- **Disjoint claims, in order.**  In every state of every run in which claims overlap with each
other and with everything else, `ClaimDueJobs` takes the first due and free jobs, no two open claims
share a job, a commit writes the lease, the attempt and the event of each job it took and nothing
else, a failure writes nothing, and a job is claimed again only after it was handed back. -/
theorem claims_disjoint_in_order (cfg : DeploymentConfig) (q : Overlap)
    (hq : (overlap cfg).Reachable q) : ClaimsInOrder cfg q := by
  have hs := overlap_sound hq
  have hlog := (reachable_sound (reachable_core hs.reachable)).log
  refine ⟨?_, ?_, ?_, ?_, ?_⟩
  · exact fun w x locked q' h => (hs.select h).2
  · exact fun o ho => (hs.valid o ho).rows
  · exact fun o ho o' ho' hne => hs.apart_of_ne ho ho' hne
  · exact fun w o link q' ho h => hs.finishesClaim ho h
  · intro h₁ h₂ h₃ w w' c c' hh hid
    have hlog' : Log q.deployment.cluster.history q.deployment.cluster.core.store := hlog
    rw [hh] at hlog'
    exact hlog'.handedBack hid

namespace Demo

/-- Two jobs are due, the second one locked by a transaction that will roll back when `a` selects;
`b` selects before `a` commits. -/
def overlapping : List OverlapAct :=
  ([submit, .api (.create ⟨7, "client"⟩ ⟨"report", "CALL_WEBHOOK", "\x7b\x7d", 1, 0, 0, 0, 0, ""⟩
      (drawn 2) 2 10 10 .up)] ++ (poll "a" 1 11).take 1 ++ (poll "b" 1 12).take 1).map
      (fun x => .other (.scheduler x)) ++
    [.select "a" ⟨1 * second, 1 * second, fun id => drawn (10 + id), fun id => 2000 + id, "", 0⟩
        (fun id => decide (id = 2)),
      .select "b" ⟨1 * second, 1 * second, fun id => drawn (20 + id), fun id => 3000 + id, "", 0⟩
        (fun _ => false)]

end Demo

/-- The two overlapping claims take one job each, and the commit of `a` leases its own. -/
theorem claims_disjoint_in_order_overlapping :
    ∃ q q' o o', (overlap demoDeployment).exec Demo.overlapping = some q ∧
      q.claimOf "a" = some o ∧ q.claimOf "b" = some o' ∧ o.ids = [1] ∧ o'.ids = [2] ∧
      overlapStep demoDeployment q (.finish "a" .up) = some q' ∧
      Leases o.args o.items q.store q'.store := by
  obtain ⟨q, hq, ha, hb, hc⟩ :
      ∃ q, (overlap demoDeployment).exec Demo.overlapping = some q ∧
        (q.claimOf "a").map OpenClaim.ids = some [1] ∧
        (q.claimOf "b").map OpenClaim.ids = some [2] ∧
        (q.claimOf "a").all (fun o => (o.run .up q.store).committed.isSome) = true :=
    System.exists_of_exec (by decide +kernel)
  obtain ⟨o, ho, hids⟩ := Option.map_eq_some_iff.1 ha
  obtain ⟨o', ho', hids'⟩ := Option.map_eq_some_iff.1 hb
  rw [ho, Option.all_some] at hc
  obtain ⟨items, hitems⟩ := Option.isSome_iff_exists.1 hc
  have hfin : ∃ q', overlapStep demoDeployment q (.finish "a" .up) = some q' := by
    simp only [overlapStep, ho]
    exact ⟨_, rfl⟩
  obtain ⟨q', hq'⟩ := hfin
  have hspec := (claims_disjoint_in_order demoDeployment q ⟨_, hq⟩).finishes "a" o .up q' ho hq'
  exact ⟨q, q', o, o', hq, ho, ho', hids, hids', hq', (hspec.committed items hitems).2⟩

end JobScheduler
