import JobScheduler.Idempotency
import JobScheduler.Labels
import JobScheduler.Library.OrderBy
import JobScheduler.Queries

/-!
# Tenants do not interfere

The operations of the API, from the call to the answer (`perform`), and two stores that agree on the
rows of the caller's tenant: the answers are the same, the stores agree afterwards, and nobody else's
rows change (`tenant_noninterference`).  An id that belongs to another tenant is answered like one
that does not exist.

`Apart` relates the two runs from their first states to any later ones.  Each statement is shown to
keep it under what is known of each store when it comes up (`Twins`); the operations are assembled
from the statements with the rules of `Tx.Agrees`.  `perform_runs` leads back to the steps of the
deployment.
-/

namespace JobScheduler

open KeyedTable OrderBy Transaction TransitionSystem

/-! ### The operations -/

/-- An API operation with its arguments. -/
inductive Request where
  | create (req : CreateRequest)
  | list (filter : ListFilter)
  | get (id : UUID)
  | attempts (id : UUID)
  | events (id : UUID)
  | operate (op : Operation) (id : UUID)
  | listDeadLetters (page pageSize : Int)
  | requeueDeadLetter (deadLetterID : UUID)
  | replay (eventID : UUID)

/-- What an operation returns. -/
inductive Response where
  | created (response : CreateResponse)
  | page (page : JobPage)
  | job (job : Job)
  | attempts (items : List AttemptView)
  | events (items : List EventView)
  | deadLetters (items : List DeadLetterJob)
  | done

/-- The error of the service or of the outbox store. -/
inductive ApiError where
  | service (e : AppError)
  | outbox (e : OutboxError)

/-- What an operation finds around it: the clocks, the ids it draws, the order in which PostgreSQL
meets rows of one rank, and the connection in its first and its second transaction. -/
structure Surroundings where
  clock : Time
  clock' : Time
  now : Time
  jobID : NewUUID
  eventID : UUID
  scan : UUID → ℕ
  link : Link
  link' : Link

/-- `Service.Create`: the insert, and the lookup when the insert is rejected. -/
def createJob (cfg : ServiceConfig) (principal : Principal) (env : Surroundings)
    (req : CreateRequest) (s : Store) : Except AppError CreateResponse × Store :=
  match cfg.prepare principal req env.jobID env.clock with
  | .error e => (.error e, s)
  | .ok (call, j) =>
    let o := (create env.now env.eventID j).commit env.link .connection s
    match o.reply with
    | .ok inserted => (.ok (call.respond inserted), o.state)
    | .error e =>
      match call.idempotencyKey with
      | none => (.error e, o.state)
      | some idempotencyKey =>
        if e.rejectsInsert = true then
          let o' := (getByIdempotencyKey call.tenantID idempotencyKey).commit env.link' .connection
            o.state
          ((o'.reply.bind call.replay).map call.respond, o'.state)
        else (.error e, o.state)

/-- `Service.List`. -/
def listJobs (principal : Principal) (env : Surroundings) (filter : ListFilter) (s : Store) :
    Except AppError JobPage × Store :=
  match filter.validate with
  | .error e => (.error e, s)
  | .ok query =>
    let o := (list principal.tenantID query).commit env.link .connection s
    (o.reply, o.state)

/-- `Service.transition`: the read with its check, and the write. -/
def operate (principal : Principal) (env : Surroundings) (op : Operation) (id : UUID) (s : Store) :
    Except AppError Unit × Store :=
  let o := (getByID principal.tenantID id).commit env.link .connection s
  match o.reply.bind op.check with
  | .error e => (.error e, o.state)
  | .ok () =>
    let o' := (op.write env.now env.eventID principal.tenantID id).commit env.link' .connection o.state
    (o'.reply, o'.state)

/-- Put a result into the form all operations have. -/
def answer {α ε : Type} (f : α → Response) (g : ε → ApiError) (x : Except ε α × Store) :
    Except ApiError Response × Store :=
  ((x.1.map f).mapError g, x.2)

/-- The outcome of an operation that is one transaction. -/
def answerTo {α ε : Type} (f : α → Response) (g : ε → ApiError) (o : Outcome Store ε α) :
    Except ApiError Response × Store :=
  answer f g (o.reply, o.state)

/-- An API operation: what it returns, and the store it leaves. -/
def perform (cfg : ServiceConfig) (principal : Principal) (env : Surroundings) (s : Store) :
    Request → Except ApiError Response × Store
  | .create req => answer .created .service (createJob cfg principal env req s)
  | .list filter => answer .page .service (listJobs principal env filter s)
  | .get id =>
    answerTo .job .service ((getByID principal.tenantID id).commit env.link .connection s)
  | .attempts id =>
    answerTo .attempts .service
      ((listAttempts principal.tenantID id env.scan).commit env.link .connection s)
  | .events id =>
    answerTo .events .service ((listEvents principal.tenantID id).commit env.link .connection s)
  | .operate op id => answer (fun _ => .done) .service (operate principal env op id s)
  | .listDeadLetters page pageSize =>
    answerTo .deadLetters .service
      ((listDeadLetters principal.tenantID page pageSize).commit env.link .connection s)
  | .requeueDeadLetter deadLetterID =>
    answerTo .job .service ((requeueDeadLetter env.now env.clock' env.jobID.val env.eventID
      principal.tenantID deadLetterID env.clock).commit env.link .connection s)
  | .replay eventID =>
    answerTo (fun _ => .done) .outbox
      ((replay env.now principal.tenantID eventID).commit env.link .connection s)

/-- The ids the operation may draw are not in use. -/
structure Surroundings.Fresh (env : Surroundings) (s : Store) : Prop where
  job : s.jobs.find? env.jobID.val = none
  event : s.events.find? env.eventID = none

/-! ### Stores that agree on some tenants -/

/-- The stores have the same rows of the tenants in `v`. -/
structure Store.SameFor (v : UUID → Prop) (s t : Store) : Prop where
  jobs : Table.Same (fun r => v r.tenantID) s.jobs t.jobs
  attempts : Table.Same (fun a => v a.tenantID) s.attempts t.attempts
  deadLetters : Table.Same (fun d => v d.tenantID) s.deadLetters t.deadLetters
  events : Table.Same (fun e => v e.tenantID) s.events t.events

instance (v : UUID → Prop) [DecidablePred v] (s t : Store) : Decidable (s.SameFor v t) :=
  decidable_of_iff
    (Table.Same (fun r => v r.tenantID) s.jobs t.jobs ∧
      Table.Same (fun a => v a.tenantID) s.attempts t.attempts ∧
      Table.Same (fun d => v d.tenantID) s.deadLetters t.deadLetters ∧
      Table.Same (fun e => v e.tenantID) s.events t.events)
    ⟨fun h => ⟨h.1, h.2.1, h.2.2.1, h.2.2.2⟩, fun h => ⟨h.jobs, h.attempts, h.deadLetters, h.events⟩⟩

theorem Store.SameFor.refl (v : UUID → Prop) (s : Store) : s.SameFor v s :=
  ⟨.refl _ _, .refl _ _, .refl _ _, .refl _ _⟩

/-- Two runs for the tenant `A`, from `s₀` and `t₀` to `s` and `t`: the stores agree on the tenant, and
everyone else's rows are as they were. -/
structure Apart (A : UUID) (s₀ t₀ s t : Store) : Prop where
  agree : s.SameFor (· = A) t
  left : s₀.SameFor (· ≠ A) s
  right : t₀.SameFor (· ≠ A) t

/-- As `Apart`, with what is known of each store. -/
structure Twins (A : UUID) (s₀ t₀ : Store) (F : Store → Prop) (s t : Store) : Prop
    extends Apart A s₀ t₀ s t where
  known : F s
  known' : F t

variable {A : UUID} {s₀ t₀ s t : Store} {F G : Store → Prop}

theorem Apart.setJobs (h : Apart A s₀ t₀ s t) {jobs jobs' : Table JobRow}
    (hagree : Table.Same (fun r => r.tenantID = A) jobs jobs')
    (hleft : Table.Same (fun r => r.tenantID ≠ A) s.jobs jobs)
    (hright : Table.Same (fun r => r.tenantID ≠ A) t.jobs jobs') :
    Apart A s₀ t₀ { s with jobs := jobs } { t with jobs := jobs' } where
  agree := { h.agree with jobs := hagree }
  left := { h.left with jobs := h.left.jobs.trans hleft }
  right := { h.right with jobs := h.right.jobs.trans hright }

theorem Apart.setAttempts (h : Apart A s₀ t₀ s t) {attempts attempts' : Table Attempt}
    (hagree : Table.Same (fun a => a.tenantID = A) attempts attempts')
    (hleft : Table.Same (fun a => a.tenantID ≠ A) s.attempts attempts)
    (hright : Table.Same (fun a => a.tenantID ≠ A) t.attempts attempts') :
    Apart A s₀ t₀ { s with attempts := attempts } { t with attempts := attempts' } where
  agree := { h.agree with attempts := hagree }
  left := { h.left with attempts := h.left.attempts.trans hleft }
  right := { h.right with attempts := h.right.attempts.trans hright }

theorem Apart.setDeadLetters (h : Apart A s₀ t₀ s t) {letters letters' : Table DeadLetterJob}
    (hagree : Table.Same (fun d => d.tenantID = A) letters letters')
    (hleft : Table.Same (fun d => d.tenantID ≠ A) s.deadLetters letters)
    (hright : Table.Same (fun d => d.tenantID ≠ A) t.deadLetters letters') :
    Apart A s₀ t₀ { s with deadLetters := letters } { t with deadLetters := letters' } where
  agree := { h.agree with deadLetters := hagree }
  left := { h.left with deadLetters := h.left.deadLetters.trans hleft }
  right := { h.right with deadLetters := h.right.deadLetters.trans hright }

theorem Apart.setEvents (h : Apart A s₀ t₀ s t) {events events' : Table Event}
    (hagree : Table.Same (fun e => e.tenantID = A) events events')
    (hleft : Table.Same (fun e => e.tenantID ≠ A) s.events events)
    (hright : Table.Same (fun e => e.tenantID ≠ A) t.events events') :
    Apart A s₀ t₀ { s with events := events } { t with events := events' } where
  agree := { h.agree with events := hagree }
  left := { h.left with events := h.left.events.trans hleft }
  right := { h.right with events := h.right.events.trans hright }

/-! ### The statements -/

section Labels

/-! The tables of the store, by the tenant their rows carry. -/

variable {R : Type} [Keyed R UUID] {label : R → UUID} {p : R → Prop} [DecidablePred p] {f : R → R}
  {u u' : Table R} {hf : ∀ r, key (f r) = key r}

/-- An update that keeps labels keeps two tables the same for a tenant. -/
theorem same_of_updates (hl : ∀ r, label (f r) = label r)
    (h : Table.Same (fun r => label r = A) u u') :
    Table.Same (fun r => label r = A) (u.update p f hf) (u'.update p f hf) :=
  h.update hf fun r _ hr => (hl r).symm.trans hr

/-- An update of a tenant's rows leaves the others alone. -/
theorem same_after_update (hl : ∀ r, label (f r) = label r)
    (hp : ∀ r ∈ u.rows, p r → label r = A) :
    Table.Same (fun r => label r ≠ A) u (u.update p f hf) := by
  refine Table.same_update hf fun r hr hpr => ?_
  have hlabel := hp r hr hpr
  exact ⟨not_not.2 hlabel, not_not.2 ((hl r).trans hlabel)⟩

end Labels

theorem keyTaken_iff (h : s.SameFor (· = A) t) {r : JobRow} (hr : r.tenantID = A) :
    s.KeyTaken r ↔ t.KeyTaken r := by
  have half : ∀ {s t : Store}, s.SameFor (· = A) t → s.KeyTaken r → t.KeyTaken r := by
    rintro s t h ⟨r', hr', hkey, htenant, hsame⟩
    exact ⟨r', (h.jobs r' (htenant.trans hr)).1 hr', hkey, htenant, hsame⟩
  exact ⟨half h, half ⟨h.jobs.symm, h.attempts.symm, h.deadLetters.symm, h.events.symm⟩⟩

theorem insertJob_agrees {r : JobRow} (hr : r.tenantID = A)
    (hF : ∀ s, F s → s.jobs.find? r.id = none) (hG : ∀ s jobs, F s → G { s with jobs := jobs }) :
    Tx.Agrees (Twins A s₀ t₀ F) (fun _ => Twins A s₀ t₀ G) (insertJob r) := by
  intro s t h
  by_cases hk : s.KeyTaken r
  · exact .inl ⟨_, if_pos hk, if_pos ((keyTaken_iff h.agree hr).1 hk)⟩
  · obtain ⟨jobs, hins⟩ := Table.exists_insert (hF s h.known)
    obtain ⟨jobs', hins'⟩ := Table.exists_insert (hF t h.known')
    have hk' : ¬t.KeyTaken r := fun hk' => hk ((keyTaken_iff h.agree hr).2 hk')
    refine .inr ⟨(), _, _, insertJob_eq_ok.2 ⟨hk, jobs, hins, rfl⟩,
      insertJob_eq_ok.2 ⟨hk', jobs', hins', rfl⟩, ?_, hG s jobs h.known, hG t jobs' h.known'⟩
    exact h.setJobs (h.agree.jobs.insert hins hins') (Table.same_insert hins (not_not.2 hr))
      (Table.same_insert hins' (not_not.2 hr))

/-- The event is the last thing an operation writes. -/
theorem insertJobEvent_agrees {now : Time} {eventID jobID : UUID} {eventType : EventType}
    {source : String} {payload : List (String × FieldValue)}
    (hF : ∀ s, F s → s.events.find? eventID = none) :
    Tx.Agrees (Twins A s₀ t₀ F) (fun _ => Apart A s₀ t₀)
      (insertJobEvent now eventID jobID A eventType source payload) := by
  refine .bind (.require (Q := fun _ => Twins A s₀ t₀ F) fun _ _ _ h => h) fun _ => ?_
  intro s t h
  obtain ⟨events, hins⟩ := Table.exists_insert
    (r := jobEvent now eventID jobID A eventType source payload) (hF s h.known)
  obtain ⟨events', hins'⟩ := Table.exists_insert
    (r := jobEvent now eventID jobID A eventType source payload) (hF t h.known')
  refine .inr ⟨(), _, _, insertEvent_eq_ok.2 ⟨events, hins, rfl⟩,
    insertEvent_eq_ok.2 ⟨events', hins', rfl⟩, ?_⟩
  exact h.setEvents (h.agree.events.insert hins hins') (Table.same_insert hins (not_not.2 rfl))
    (Table.same_insert hins' (not_not.2 rfl))

theorem updateJobs_agrees {p : JobRow → Prop} [DecidablePred p] {f : JobRow → JobRow}
    {hf : ∀ r, (f r).id = r.id} {G : ℕ → Store → Prop} (hl : ∀ r, (f r).tenantID = r.tenantID)
    (hp : ∀ r, p r → r.tenantID = A)
    (hG : ∀ s, F s → G (s.jobs.count p) { s with jobs := s.jobs.update p f hf }) :
    Tx.Agrees (Twins A s₀ t₀ F) (fun n => Twins A s₀ t₀ (G n)) (updateJobs p f hf) := by
  intro s t h
  have hcount : s.jobs.count p = t.jobs.count p :=
    h.agree.jobs.count_eq (fun r _ => hp r) fun r _ => hp r
  have hknown' := hG t h.known'
  rw [← hcount] at hknown'
  refine .inr ⟨_, _, _, rfl, updateJobs_eq_ok.2 ⟨hcount.symm, rfl⟩, ?_, hG s h.known, hknown'⟩
  exact h.setJobs (same_of_updates hl h.agree.jobs) (same_after_update hl fun r _ => hp r)
    (same_after_update hl fun r _ => hp r)

theorem updateAttempts_agrees {p : Attempt → Prop} [DecidablePred p] {f : Attempt → Attempt}
    {hf : ∀ a, (f a).id = a.id} (hl : ∀ a, (f a).tenantID = a.tenantID)
    (hp : ∀ s, F s → ∀ a ∈ s.attempts.rows, p a → a.tenantID = A)
    (hG : ∀ s attempts, F s → G { s with attempts := attempts }) :
    Tx.Agrees (Twins A s₀ t₀ F) (fun _ => Twins A s₀ t₀ G) (updateAttempts p f hf) := by
  intro s t h
  have hcount : s.attempts.count p = t.attempts.count p :=
    h.agree.attempts.count_eq (hp s h.known) (hp t h.known')
  refine .inr ⟨_, _, _, rfl, updateAttempts_eq_ok.2 ⟨hcount.symm, rfl⟩, ?_, hG s _ h.known,
    hG t _ h.known'⟩
  exact h.setAttempts (same_of_updates hl h.agree.attempts) (same_after_update hl (hp s h.known))
    (same_after_update hl (hp t h.known'))

theorem updateDeadLetters_agrees {p : DeadLetterJob → Prop} [DecidablePred p]
    {f : DeadLetterJob → DeadLetterJob} {hf : ∀ d, (f d).id = d.id}
    (hl : ∀ d, (f d).tenantID = d.tenantID)
    (hp : ∀ s, F s → ∀ d ∈ s.deadLetters.rows, p d → d.tenantID = A)
    (hG : ∀ s letters, F s → G { s with deadLetters := letters }) :
    Tx.Agrees (Twins A s₀ t₀ F) (fun _ => Twins A s₀ t₀ G) (updateDeadLetters p f hf) := by
  intro s t h
  have hcount : s.deadLetters.count p = t.deadLetters.count p :=
    h.agree.deadLetters.count_eq (hp s h.known) (hp t h.known')
  refine .inr ⟨_, _, _, rfl, updateDeadLetters_eq_ok.2 ⟨hcount.symm, rfl⟩, ?_, hG s _ h.known,
    hG t _ h.known'⟩
  exact h.setDeadLetters (same_of_updates hl h.agree.deadLetters)
    (same_after_update hl (hp s h.known)) (same_after_update hl (hp t h.known'))

theorem updateEvents_agrees {p : Event → Prop} [DecidablePred p] {f : Event → Event}
    {hf : ∀ e, (f e).id = e.id} (hl : ∀ e, (f e).tenantID = e.tenantID)
    (hp : ∀ e, p e → e.tenantID = A) :
    Tx.Agrees (Apart A s₀ t₀) (fun _ => Apart A s₀ t₀) (updateEvents p f hf) := by
  intro s t h
  have hcount : s.events.count p = t.events.count p :=
    h.agree.events.count_eq (fun e _ => hp e) fun e _ => hp e
  refine .inr ⟨_, _, _, rfl, updateEvents_eq_ok.2 ⟨hcount.symm, rfl⟩, ?_⟩
  exact h.setEvents (same_of_updates hl h.agree.events) (same_after_update hl fun e _ => hp e)
    (same_after_update hl fun e _ => hp e)

/-! ### The writing operations -/

theorem create_agrees {now : Time} {eventID : UUID} {j : Job} (hj : j.tenantID = A) :
    Tx.Agrees
      (Twins A s₀ t₀ fun s => s.jobs.find? j.id = none ∧ s.events.find? eventID = none)
      (fun _ => Apart A s₀ t₀) (create now eventID j) := by
  subst hj
  refine .bind (insertJob_agrees (G := fun s => s.events.find? eventID = none) rfl (fun _ h => h.1)
    fun _ _ h => h.2) fun _ => ?_
  refine .bind (insertJobEvent_agrees fun _ h => h) fun _ => ?_
  exact .pure fun _ _ => id

/-- The attempts of a job the tenant has are the tenant's. -/
theorem attempts_owned {id : UUID} (hl : ∀ a ∈ s.attempts.rows, s.TenantIs a.jobID a.tenantID)
    {r : JobRow} (hr : r ∈ s.jobs.rows) (hid : r.id = id) (htenant : r.tenantID = A) :
    ∀ a ∈ s.attempts.rows, a.jobID = id → a.tenantID = A := by
  intro a ha hjob
  obtain ⟨r', hr', ht⟩ := hl a ha
  obtain ⟨hmem, hkey⟩ := Table.find?_eq_some_iff.1 hr'
  have hsame : r' = r := s.jobs.eq_of_key_eq hmem hr (hkey.trans (hjob.trans hid.symm))
  rw [← ht, hsame, htenant]

/-- `TransitionJob` cancels the attempts of the job by its id alone. -/
theorem transitionJob_agrees {now : Time} {eventID id : UUID} {allowedFrom : List Status}
    {target : Status} :
    Tx.Agrees
      (Twins A s₀ t₀ fun s => s.events.find? eventID = none ∧
        ∀ a ∈ s.attempts.rows, s.TenantIs a.jobID a.tenantID)
      (fun _ => Apart A s₀ t₀) (transitionJob now eventID A id allowedFrom target) := by
  -- once a row was updated, the attempts of the job are known to be the tenant's
  let owned (s : Store) : Prop := s.events.find? eventID = none ∧
    ∀ a ∈ s.attempts.rows, a.jobID = id → a.tenantID = A
  refine .bind (updateJobs_agrees (G := fun n s => n ≠ 0 → owned s) (fun _ => rfl)
    (fun _ h => h.2.1) fun s h hn => ?_) fun n => ?_
  · obtain ⟨r, hr, hid, htenant, -⟩ := Table.count_ne_zero.1 hn
    have hown := attempts_owned h.2 hr hid htenant
    exact ⟨h.1, hown⟩
  refine .bind (.require (Q := fun _ => Twins A s₀ t₀ owned) fun s t hn h =>
    ⟨h.toApart, h.known hn, h.known' hn⟩) fun _ => ?_
  dsimp only
  split
  · refine .bind (updateAttempts_agrees (G := fun s => s.events.find? eventID = none) (fun _ => rfl)
      (fun s h a ha hp => h.2 a ha hp.1) fun _ _ h => h.1) fun _ => ?_
    exact insertJobEvent_agrees fun _ h => h
  · refine .bind (.pure (Q := fun _ => Twins A s₀ t₀ owned) fun _ _ h => h) fun _ => ?_
    exact insertJobEvent_agrees fun _ h => h.1

/-- The dead letter `RequeueDeadLetter` selects. -/
theorem requeueable_found {deadLetterID : UUID} {dl : DeadLetterJob}
    (h : (s.deadLetters.rows.find? fun d =>
      decide (d.tenantID = A ∧ d.id = deadLetterID ∧ d.requeuedAt = none)) = some dl) :
    s.deadLetters.find? deadLetterID = some dl ∧ dl.tenantID = A := by
  have hp : dl.tenantID = A ∧ dl.id = deadLetterID ∧ dl.requeuedAt = none := by
    simpa using List.find?_some h
  exact ⟨Table.find?_eq_some_iff.2 ⟨List.mem_of_find?_eq_some h, hp.2.1⟩, hp.1⟩

/-- The dead letter is selected for the tenant, and updated by its id alone. -/
theorem requeueDeadLetter_agrees {now clock : Time} {newID eventID deadLetterID : UUID}
    {runAt : Time} :
    Tx.Agrees
      (Twins A s₀ t₀ fun s => s.jobs.find? newID = none ∧ s.events.find? eventID = none)
      (fun _ => Apart A s₀ t₀)
      (requeueDeadLetter now clock newID eventID A deadLetterID runAt) := by
  unfold requeueDeadLetter
  let found (dl : DeadLetterJob) (s : Store) : Prop :=
    s.deadLetters.find? deadLetterID = some dl ∧ dl.tenantID = A
  have hread : ∀ s t : Store, s.SameFor (· = A) t →
      (s.deadLetters.rows.find? fun d =>
        decide (d.tenantID = A ∧ d.id = deadLetterID ∧ d.requeuedAt = none))
      = t.deadLetters.rows.find? fun d =>
        decide (d.tenantID = A ∧ d.id = deadLetterID ∧ d.requeuedAt = none) := by
    intro s t h
    refine h.deadLetters.find_eq (fun d hd => hd.1) fun d hd d' hd' hp hp' => ?_
    exact s.deadLetters.eq_of_key_eq hd hd' (hp.2.1.trans hp'.2.1.symm)
  refine .bind (Q := fun o => Twins A s₀ t₀ fun s => (s.jobs.find? newID = none ∧
    s.events.find? eventID = none) ∧ ∀ dl, o = some dl → found dl s)
    (.read (fun s t h => hread s t h.agree) fun s t h => ?_) fun o => ?_
  · refine ⟨h.toApart, ⟨h.known, fun dl => requeueable_found⟩, ⟨h.known', fun dl hdl => ?_⟩⟩
    rw [hread s t h.agree] at hdl
    exact requeueable_found hdl
  refine .bind (.orAbort (Q := fun dl => Twins A s₀ t₀ fun s => (s.jobs.find? newID = none ∧
    s.events.find? eventID = none) ∧ found dl s) fun dl s t ho h => ?_) fun dl => ?_
  · exact ⟨h.toApart, ⟨h.known.1, h.known.2 dl ho⟩, ⟨h.known'.1, h.known'.2 dl ho⟩⟩
  refine .bind (insertJob_agrees (G := fun s => s.events.find? eventID = none ∧ found dl s) rfl
    (fun _ h => h.1.1) fun _ _ h => ⟨h.1.2, h.2⟩) fun _ => ?_
  refine .bind (updateDeadLetters_agrees (G := fun s => s.events.find? eventID = none)
    (fun _ => rfl) (fun s h d hd hid => ?_) fun _ _ h => h.1) fun _ => ?_
  · obtain ⟨hdl, htenant⟩ := h.2
    have hsame : d = dl := Option.some.inj
      ((Table.find?_eq_some_iff.2 ⟨hd, hid⟩).symm.trans hdl)
    rw [hsame, htenant]
  refine .bind (insertJobEvent_agrees fun _ h => h) fun _ => ?_
  exact .pure fun _ _ => id

theorem replay_agrees {now : Time} {id : UUID} :
    Tx.Agrees (Apart A s₀ t₀) (fun _ => Apart A s₀ t₀) (replay now A id) := by
  refine .bind (updateEvents_agrees (fun _ => rfl) fun _ h => h.2) fun n => ?_
  exact .require fun _ _ _ h => h

/-! ### The reading operations -/

theorem read_agrees {α ε : Type} {f : Store → α}
    (hf : ∀ s t : Store, s.SameFor (· = A) t → f s = f t) :
    Tx.Agrees (Apart A s₀ t₀) (fun _ => Apart A s₀ t₀) (Tx.read f : Tx Store ε α) :=
  .read (fun s t h => hf s t h.agree) fun _ _ h => h

theorem pageOf_agrees {α : Type} {page pageSize : Int} {rows : List α} :
    Tx.Agrees (Apart A s₀ t₀) (fun _ => Apart A s₀ t₀) (pageOf page pageSize rows) :=
  .bind (.require fun _ _ _ h => h) fun _ => .pure fun _ _ h => h

theorem getByID_agrees {id : UUID} :
    Tx.Agrees (Apart A s₀ t₀) (fun _ => Apart A s₀ t₀) (getByID A id) := by
  refine .bind (read_agrees fun s t h => ?_) fun o => ?_
  · refine h.jobs.find_eq (fun r hr => hr.1) fun r hr r' hr' hp hp' => ?_
    exact s.jobs.eq_of_key_eq hr hr' (hp.2.trans hp'.2.symm)
  · exact .bind (.orAbort fun _ _ _ _ h => h) fun _ => .pure fun _ _ h => h

/-- The index `uq_jobs_tenant_idempotency`. -/
def Store.KeysUnique (s : Store) : Prop :=
  ∀ r ∈ s.jobs.rows, ∀ r' ∈ s.jobs.rows, r.tenantID = r'.tenantID →
    r.idempotencyKey = r'.idempotencyKey → r.idempotencyKey ≠ none → r = r'

theorem getByIdempotencyKey_agrees {idempotencyKey : String} :
    Tx.Agrees (Twins A s₀ t₀ Store.KeysUnique) (fun _ => Apart A s₀ t₀)
      (getByIdempotencyKey A idempotencyKey) := by
  refine .bind (Q := fun _ => Apart A s₀ t₀) (.read (fun s t h => ?_) fun _ _ h => h.toApart)
    fun o => ?_
  · refine h.agree.jobs.find_eq (fun r hr => hr.1) fun r hr r' hr' hp hp' => ?_
    exact h.known r hr r' hr' (hp.1.trans hp'.1.symm) (hp.2.trans hp'.2.symm) (by simp [hp.2])
  · exact .bind (.orAbort fun _ _ _ _ h => h) fun _ => .pure fun _ _ h => h

/-- A tenant's rows in order are the same in stores that agree on the tenant. -/
theorem sorted_eq {R κ : Type} [Keyed R UUID] [LinearOrder κ] {label : R → UUID}
    {before : R → R → Prop} [DecidableRel before] (rank : R → κ) (h : ByKey before rank)
    (hrank : ∀ a b, rank a = rank b → key a = key b) {u u' : Table R}
    (hsame : Table.Same (fun r => label r = A) u u') {p : R → Prop} [DecidablePred p]
    (hp : ∀ r, p r → label r = A) :
    (u.rows.filter fun r => decide (p r)).insertionSort before
      = (u'.rows.filter fun r => decide (p r)).insertionSort before := by
  refine h.insertionSort_eq ?_ (hsame.filter_perm (fun r _ => hp r) fun r _ => hp r)
  intro a ha b hb hab
  exact u.eq_of_key_eq (List.mem_of_mem_filter ha) (List.mem_of_mem_filter hb) (hrank a b hab)

theorem listRows_eq (h : s.SameFor (· = A) t) (query : ListQuery) :
    listRows A query s = listRows A query t := by
  obtain ⟨filter, column, descending⟩ := query
  cases descending with
  | true =>
    refine sorted_eq (fun r => OrderDual.toDual (column.rank r)) ⟨fun a b => ?_⟩
      (fun a b hab => column.id_of_rank hab) h.jobs fun r hr => hr.1
    exact column.before_iff b a
  | false =>
    refine sorted_eq column.rank ⟨fun a b => ?_⟩ (fun a b hab => column.id_of_rank hab)
      h.jobs fun r hr => hr.1
    exact column.before_iff a b

theorem list_agrees {query : ListQuery} :
    Tx.Agrees (Apart A s₀ t₀) (fun _ => Apart A s₀ t₀) (list A query) := by
  refine .bind (read_agrees fun s t h => listRows_eq h query) fun rows => ?_
  exact .bind pageOf_agrees fun items => .pure fun _ _ h => h

/-- What `ListAttempts` sorts by. -/
def Attempt.rank (scan : UUID → ℕ) (a : Attempt) : Lex (Int × Lex (ℕ × ℕ)) :=
  toLex (a.attemptNumber, toLex (scan a.id, a.id.toNat))

theorem listAttempts_agrees {id : UUID} {scan : UUID → ℕ} :
    Tx.Agrees (Apart A s₀ t₀) (fun _ => Apart A s₀ t₀) (listAttempts A id scan) := by
  refine .bind (read_agrees fun s t h => ?_) fun rows => .pure fun _ _ h => h
  refine sorted_eq (Attempt.rank scan) ⟨fun a b => ?_⟩ (fun a b hab => ?_) h.attempts
    fun a ha => ha.1
  · simp only [Attempt.Before, Attempt.rank, Prod.Lex.le_iff, ofLex_toLex, BitVec.le_def]
  · exact BitVec.eq_of_toNat_eq (congrArg (fun k => (ofLex (ofLex k).2).2) hab)

theorem listEvents_agrees {id : UUID} :
    Tx.Agrees (Apart A s₀ t₀) (fun _ => Apart A s₀ t₀) (listEvents A id) := by
  refine .bind (read_agrees fun s t h => ?_) fun rows => .pure fun _ _ h => h
  refine sorted_eq Event.key before_byKey (fun a b hab => ?_) h.events fun e he => he.1
  exact BitVec.eq_of_toNat_eq (congrArg (fun k => (ofLex k).2) hab)

theorem listDeadLetters_agrees {page pageSize : Int} :
    Tx.Agrees (Apart A s₀ t₀) (fun _ => Apart A s₀ t₀) (listDeadLetters A page pageSize) := by
  refine .bind (read_agrees fun s t h => ?_) fun rows => pageOf_agrees
  exact sorted_eq DeadLetterJob.rank DeadLetterJob.before_byKey
    (fun a b hab => DeadLetterJob.id_of_rank hab) h.deadLetters fun d hd => hd

/-! ### Whole operations -/

/-- Two runs of an operation, from `s₀` and `t₀`, end alike. -/
structure Alike {α : Type} (A : UUID) (s₀ t₀ : Store) (x y : α × Store) : Prop where
  result : x.1 = y.1
  apart : Apart A s₀ t₀ x.2 y.2

section

variable {α ε : Type}

theorem Alike.answer {f : α → Response} {g : ε → ApiError} {x y : Except ε α × Store}
    (h : Alike A s₀ t₀ x y) : Alike A s₀ t₀ (answer f g x) (answer f g y) :=
  ⟨by rw [JobScheduler.answer, JobScheduler.answer, h.result], h.apart⟩

theorem alike_commit {R : Store → Store → Prop} {tx : Tx Store ε α}
    (h : tx.Agrees R fun _ => Apart A s₀ t₀) (hR : Apart A s₀ t₀ s t) (hst : R s t) (link : Link)
    (io : ε) :
    Alike A s₀ t₀ ((tx.commit link io s).reply, (tx.commit link io s).state)
      ((tx.commit link io t).reply, (tx.commit link io t).state) := by
  obtain ⟨hreply, ⟨hs, ht⟩ | ⟨a, hq⟩⟩ := h.commit hst link io
  · refine ⟨hreply, ?_⟩
    rw [hs, ht]
    exact hR
  · exact ⟨hreply, hq⟩

end

section

variable {cfg : ServiceConfig} {principal : Principal} {env : Surroundings}

/-- The lookup runs on the store the rejected insert left as it was. -/
theorem createJob_alike {req : CreateRequest}
    (h : Apart principal.tenantID s₀ t₀ s t) (hs : env.Fresh s) (ht : env.Fresh t)
    (hus : s.KeysUnique) (hut : t.KeysUnique) :
    Alike principal.tenantID s₀ t₀ (createJob cfg principal env req s)
      (createJob cfg principal env req t) := by
  unfold createJob
  cases hprep : cfg.prepare principal req env.jobID env.clock with
  | error e => exact ⟨rfl, h⟩
  | ok p =>
    obtain ⟨call, j⟩ := p
    obtain ⟨-, hj, hcall⟩ := ServiceConfig.prepare_eq_ok hprep
    have htenant : j.tenantID = principal.tenantID := by rw [hj]; rfl
    have hid : j.id = env.jobID.val := by rw [hj]; rfl
    have hcalled : call.tenantID = principal.tenantID := by rw [hcall]; exact htenant
    have htwins : Twins principal.tenantID s₀ t₀
        (fun s => s.jobs.find? j.id = none ∧ s.events.find? env.eventID = none) s t :=
      ⟨h, ⟨hid ▸ hs.job, hs.event⟩, ⟨hid ▸ ht.job, ht.event⟩⟩
    obtain ⟨hreply, hapart⟩ :=
      alike_commit (create_agrees htenant) h htwins env.link .connection
    dsimp only at hreply hapart ⊢
    rw [hreply]
    cases hr : ((create env.now env.eventID j).commit env.link .connection t).reply with
    | ok inserted => exact ⟨rfl, hapart⟩
    | error e =>
      cases call.idempotencyKey with
      | none => exact ⟨rfl, hapart⟩
      | some idempotencyKey =>
        dsimp only
        by_cases hrej : e.rejectsInsert = true
        · have hne : e ≠ .connection := by
            rintro rfl
            exact absurd hrej (by decide)
          rw [if_pos hrej, if_pos hrej, Tx.state_of_reply_error (hreply.trans hr) hne,
            Tx.state_of_reply_error hr hne, hcalled]
          obtain ⟨hfound, hafter⟩ :=
            alike_commit getByIdempotencyKey_agrees h ⟨h, hus, hut⟩ env.link' .connection
          exact ⟨congrArg (fun reply => (reply.bind call.replay).map call.respond) hfound, hafter⟩
        · rw [if_neg hrej, if_neg hrej]
          exact ⟨rfl, hapart⟩

theorem listJobs_alike {filter : ListFilter} (h : Apart principal.tenantID s₀ t₀ s t) :
    Alike principal.tenantID s₀ t₀ (listJobs principal env filter s)
      (listJobs principal env filter t) := by
  unfold listJobs
  cases filter.validate with
  | error e => exact ⟨rfl, h⟩
  | ok query => exact alike_commit list_agrees h h env.link .connection

theorem getByID_readOnly (tenantID id : UUID) : (getByID tenantID id).ReadOnly :=
  .bind (.read _) fun _ => .bind (.orAbort ..) fun _ => .pure _

theorem operate_alike {op : Operation} {id : UUID} (h : Apart principal.tenantID s₀ t₀ s t)
    (hs : env.Fresh s) (ht : env.Fresh t) (hls : Labelled s) (hlt : Labelled t) :
    Alike principal.tenantID s₀ t₀ (operate principal env op id s)
      (operate principal env op id t) := by
  have hread : ∀ s : Store, ((getByID principal.tenantID id).commit env.link .connection s).state = s :=
    (getByID_readOnly principal.tenantID id).state_commit env.link .connection
  have hagrees : Tx.Agrees (Apart principal.tenantID s₀ t₀) (fun _ => Apart principal.tenantID s₀ t₀)
      (getByID principal.tenantID id) := getByID_agrees
  obtain ⟨hreply, -⟩ := alike_commit hagrees h h env.link .connection
  unfold operate
  dsimp only at hreply ⊢
  rw [hread s, hread t, hreply]
  cases (((getByID principal.tenantID id).commit env.link .connection t).reply.bind op.check) with
  | error e => exact ⟨rfl, h⟩
  | ok u =>
    exact alike_commit transitionJob_agrees h ⟨h, ⟨hs.event, hls.attempts⟩, ht.event, hlt.attempts⟩
      env.link' .connection

end

/-! ### Reachable stores -/

theorem reachable_keysUnique {cfg : DeploymentConfig} {p : Deployment}
    (hp : (deployment cfg).Reachable p) : p.store.KeysUnique := by
  intro r hr r' hr' htenant hsame hkey
  have hlog := (reachable_sound (reachable_core hp)).log
  exact p.store.jobs.eq_of_key_eq hr hr' (hlog.key_unique (Table.find?_key hr) (Table.find?_key hr')
    htenant hsame hkey)

section

variable {cfg cfg' : DeploymentConfig} {p q : Deployment} {service : ServiceConfig}
  {principal : Principal} {env : Surroundings}

/-- Every operation of a principal ends alike in reachable stores that agree on its tenant. -/
theorem perform_alike (hp : (deployment cfg).Reachable p) (hq : (deployment cfg').Reachable q)
    (hfresh : env.Fresh p.store) (hfresh' : env.Fresh q.store)
    (hagree : p.store.SameFor (· = principal.tenantID) q.store) (request : Request) :
    Alike principal.tenantID p.store q.store (perform service principal env p.store request)
      (perform service principal env q.store request) := by
  have h : Apart principal.tenantID p.store q.store p.store q.store := ⟨hagree, .refl _ _, .refl _ _⟩
  cases request with
  | create req =>
    exact (createJob_alike h hfresh hfresh' (reachable_keysUnique hp) (reachable_keysUnique hq)).answer
  | list filter => exact (listJobs_alike h).answer
  | get id => exact (alike_commit getByID_agrees h h env.link .connection).answer
  | attempts id => exact (alike_commit listAttempts_agrees h h env.link .connection).answer
  | events id => exact (alike_commit listEvents_agrees h h env.link .connection).answer
  | operate op id =>
    exact (operate_alike h hfresh hfresh' (reachable_labelled hp) (reachable_labelled hq)).answer
  | listDeadLetters page pageSize =>
    exact (alike_commit listDeadLetters_agrees h h env.link .connection).answer
  | requeueDeadLetter deadLetterID =>
    exact (alike_commit requeueDeadLetter_agrees h ⟨h, ⟨hfresh.job, hfresh.event⟩, hfresh'.job,
      hfresh'.event⟩ env.link .connection).answer
  | replay eventID => exact (alike_commit replay_agrees h h env.link .connection).answer

end

/-- **Tenant noninterference.**  In reachable stores that agree on the rows of the principal's tenant,
an operation returns the same and leaves stores that agree; everyone else's rows stay as they are. -/
theorem tenant_noninterference {cfg cfg' : DeploymentConfig} {p q : Deployment}
    (hp : (deployment cfg).Reachable p) (hq : (deployment cfg').Reachable q)
    (service : ServiceConfig) (principal : Principal) (env : Surroundings)
    (hfresh : env.Fresh p.store) (hfresh' : env.Fresh q.store)
    (hagree : p.store.SameFor (· = principal.tenantID) q.store) (request : Request) :
    (perform service principal env p.store request).1
        = (perform service principal env q.store request).1 ∧
      (perform service principal env p.store request).2.SameFor (· = principal.tenantID)
        (perform service principal env q.store request).2 ∧
      p.store.SameFor (· ≠ principal.tenantID) (perform service principal env p.store request).2 ∧
      q.store.SameFor (· ≠ principal.tenantID) (perform service principal env q.store request).2 ∧
      Labelled p.store ∧ Labelled q.store := by
  have hrun : Alike principal.tenantID p.store q.store
      (perform service principal env p.store request)
      (perform service principal env q.store request) :=
    perform_alike hp hq hfresh hfresh' hagree request
  exact ⟨hrun.result, hrun.apart.agree, hrun.apart.left, hrun.apart.right, reachable_labelled hp,
    reachable_labelled hq⟩

namespace Demo

/-- Tenant `8` has a job of its own, `2`. -/
def submitElsewhere : Act :=
  .api (.create ⟨8, "client"⟩ ⟨"report", "CALL_WEBHOOK", "\x7b\x7d", 1, 0, 0, 0, 0, ""⟩
    (drawn 2) 2 10 10 .up)

/-- Tenant `7` cancels at the twentieth second. -/
def cancelling : Surroundings := ⟨20, 20, 20, drawn 3, 3, fun _ => 0, .up, .up⟩

end Demo

/-- The cancellation of job `1`, where its tenant is alone and where there is another one. -/
theorem tenant_noninterference_cancelled :
    ∃ p q, (deployment demoDeployment).exec (Demo.deployed [Demo.submit]) = some p ∧
      (deployment demoDeployment).exec (Demo.deployed [Demo.submit, Demo.submitElsewhere]) = some q ∧
      p.store.jobs.rows.length = 1 ∧ q.store.jobs.rows.length = 2 ∧
      (perform demo.service ⟨7, "client"⟩ Demo.cancelling p.store (.operate .cancel 1)).1
        = (perform demo.service ⟨7, "client"⟩ Demo.cancelling q.store (.operate .cancel 1)).1 ∧
      q.store.SameFor (· ≠ 7)
        (perform demo.service ⟨7, "client"⟩ Demo.cancelling q.store (.operate .cancel 1)).2 := by
  obtain ⟨p, hp, hone, hjob, hevent, hany⟩ :
      ∃ p, (deployment demoDeployment).exec (Demo.deployed [Demo.submit]) = some p ∧
        p.store.jobs.rows.length = 1 ∧ p.store.jobs.find? Demo.cancelling.jobID.val = none ∧
        p.store.events.find? Demo.cancelling.eventID = none ∧
        ((deployment demoDeployment).exec (Demo.deployed [Demo.submit, Demo.submitElsewhere])).any
          (fun q => decide (q.store.jobs.rows.length = 2 ∧
            q.store.jobs.find? Demo.cancelling.jobID.val = none ∧
            q.store.events.find? Demo.cancelling.eventID = none ∧
            p.store.SameFor (· = 7) q.store)) = true :=
    System.exists_of_exec (by decide +kernel)
  obtain ⟨q, hq, hboth⟩ := (Option.any_eq_true _ _).1 hany
  obtain ⟨htwo, hjob', hevent', hagree⟩ := of_decide_eq_true hboth
  have hrun := tenant_noninterference ⟨_, hp⟩ ⟨_, hq⟩ demo.service ⟨7, "client"⟩ Demo.cancelling
    ⟨hjob, hevent⟩ ⟨hjob', hevent'⟩ hagree (.operate .cancel 1)
  exact ⟨p, q, hp, hq, hone, htwo, hrun.1, hrun.2.2.2.1⟩

/-! ### Operations as runs -/

section

variable {cfg : Config} {s : Cluster}

theorem getByIdempotencyKey_readOnly (tenantID : UUID) (idempotencyKey : String) :
    (getByIdempotencyKey tenantID idempotencyKey).ReadOnly :=
  .bind (.read _) fun _ => .bind (.orAbort ..) fun _ => .pure _

/-- The lookup of a waiting create call, and the answer it gives. -/
theorem lookup_step {n : ℕ} {call : CreateCall} {idempotencyKey : String}
    (hcall : s.lookups[n]? = some call) (hkey : call.idempotencyKey = some idempotencyKey)
    (link : Link) :
    (cluster cfg).step s (.api (.lookup n link)) = some
      ({ s with lookups := s.lookups.eraseIdx n }.answer call
        ((((getByIdempotencyKey call.tenantID idempotencyKey).commit link .connection s.store).reply.bind
          call.replay).map call.respond)) := by
  simp only [cluster, step, apiStep, hcall, hkey]
  cases ((getByIdempotencyKey call.tenantID idempotencyKey).commit link .connection s.store).reply with
  | error e => rfl
  | ok existing => rfl

/-- A create call goes through its steps, and its answer is recorded. -/
theorem createJob_runs (cfg : Config) (s : Cluster) (principal : Principal) (env : Surroundings)
    (req : CreateRequest) :
    ∃ xs s', (cluster cfg).execFrom s xs = some s' ∧
      s'.store = (createJob cfg.service principal env req s.store).2 ∧
      ∀ call j, cfg.service.prepare principal req env.jobID env.clock = .ok (call, j) →
        s'.answers = (call, (createJob cfg.service principal env req s.store).1) :: s.answers := by
  cases hprep : cfg.service.prepare principal req env.jobID env.clock with
  | error e => exact ⟨[], s, rfl, by simp [createJob, hprep], by simp⟩
  | ok c =>
    obtain ⟨call, j⟩ := c
    let o := (create env.now env.eventID j).commit env.link .connection s.store
    let inserting : Act :=
      .api (.create principal req env.jobID env.eventID env.clock env.now env.link)
    let s₁ := s.record o fun _ => [.created j.id]
    cases hr : o.reply with
    | ok inserted =>
      refine ⟨[inserting], s₁.answer call (.ok (call.respond inserted)), ?_, ?_, ?_⟩
      · simp [System.execFrom, cluster, step, apiStep, inserting, hprep, o, hr, s₁]
      · simp [createJob, hprep, hr, o, s₁, Cluster.record, Cluster.answer]
      · simp [createJob, hprep, hr, o, s₁, Cluster.record, Cluster.answer]
    | error e =>
      cases hkey : call.idempotencyKey with
      | none =>
        refine ⟨[inserting], s₁.answer call (.error e), ?_, ?_, ?_⟩
        · simp [System.execFrom, cluster, step, apiStep, inserting, hprep, o, hr, s₁, hkey]
        · simp [createJob, hprep, hr, o, s₁, hkey, Cluster.record, Cluster.answer]
        · simp [createJob, hprep, hr, o, s₁, hkey, Cluster.record, Cluster.answer]
      | some idempotencyKey =>
        by_cases hrej : e.rejectsInsert = true
        · -- the call waits behind those that are already waiting
          let s₂ : Cluster := { s₁ with lookups := s.lookups ++ [call] }
          have hfirst : (cluster cfg).step s inserting = some s₂ := by
            simp [cluster, step, apiStep, inserting, hprep, o, hr, hrej, hkey, s₁, s₂, Cluster.record]
          have hcall : s₂.lookups[s.lookups.length]? = some call := by simp [s₂]
          have hrun := System.execFrom_pair hfirst (lookup_step hcall hkey env.link')
          have hread := (getByIdempotencyKey_readOnly call.tenantID idempotencyKey).state_commit
            env.link' .connection o.state
          refine ⟨_, _, hrun, ?_, ?_⟩
          · rw [createJob, hprep]
            dsimp only
            rw [show ((create env.now env.eventID j).commit env.link .connection s.store).reply
              = .error e from hr, hkey]
            exact ((congrArg Prod.snd (if_pos hrej)).trans hread).symm
          · simp [createJob, hprep, hr, o, s₁, s₂, hkey, hrej, Cluster.record, Cluster.answer]
        · refine ⟨[inserting], s₁.answer call (.error e), ?_, ?_, ?_⟩
          · simp [System.execFrom, cluster, step, apiStep, inserting, hprep, o, hr, s₁, hrej]
          · simp [createJob, hprep, hr, o, s₁, hkey, hrej, Cluster.record, Cluster.answer]
          · simp [createJob, hprep, hr, o, s₁, hkey, hrej, Cluster.record, Cluster.answer]

/-- An operator call goes through its read and, when the check passes, its write. -/
theorem operate_runs (cfg : Config) (s : Cluster) (principal : Principal) (env : Surroundings)
    (op : Operation) (id : UUID) :
    ∃ xs s', (cluster cfg).execFrom s xs = some s' ∧
      s'.store = (operate principal env op id s.store).2 := by
  have hread := (getByID_readOnly principal.tenantID id).state_commit env.link .connection s.store
  let o := (getByID principal.tenantID id).commit env.link .connection s.store
  cases hcheck : o.reply.bind op.check with
  | error e =>
    refine ⟨[], s, rfl, ?_⟩
    simp only [operate]
    rw [show ((getByID principal.tenantID id).commit env.link .connection s.store).reply.bind op.check
      = .error e from hcheck, hread]
  | ok u =>
    let s₁ : Cluster := { s with operators := s.operators ++ [⟨op, principal.tenantID, id⟩] }
    have hfirst : (cluster cfg).step s (.api (.readJob op principal.tenantID id env.link)) = some s₁ := by
      simp only [cluster, step, apiStep]
      cases hr : o.reply with
      | error e => rw [hr] at hcheck; cases hcheck
      | ok current =>
        rw [hr] at hcheck
        dsimp only
        rw [show op.check current = .ok u from hcheck]
    have hsecond : (cluster cfg).step s₁
        (.api (.writeJob s.operators.length env.eventID env.now env.link')) = some
          ({ s₁ with operators := s₁.operators.eraseIdx s.operators.length }.record
            ((op.write env.now env.eventID principal.tenantID id).commit env.link' .connection
              s.store) fun _ => [.transitioned id op]) := by
      simp [cluster, step, apiStep, s₁]
    refine ⟨_, _, System.execFrom_pair hfirst hsecond, ?_⟩
    simp only [operate]
    rw [show ((getByID principal.tenantID id).commit env.link .connection s.store).reply.bind op.check
      = .ok u from hcheck, hread]
    rfl

end

/-- The scheduler's runs are runs of the deployment. -/
theorem execFrom_scheduler {cfg : DeploymentConfig} {p : Deployment} {xs : List Act} {c : Cluster}
    (h : (cluster cfg.scheduler).execFrom p.cluster xs = some c) :
    (deployment cfg).execFrom p (xs.map .scheduler) = some { p with cluster := c } := by
  induction xs generalizing p with
  | nil => exact congrArg some (by rw [← Option.some.inj h])
  | cons x xs ih =>
    obtain ⟨c', hstep, hrest⟩ := Option.bind_eq_some_iff.1 h
    have hp : (deployment cfg).step p (.scheduler x) = some { p with cluster := c' } :=
      deploymentStep_scheduler.2 ⟨c', hstep, rfl⟩
    rw [List.map_cons, System.execFrom, hp]
    exact ih (p := { p with cluster := c' }) hrest

theorem pageOf_readOnly {α : Type} (page pageSize : Int) (rows : List α) :
    (pageOf page pageSize rows).ReadOnly :=
  .bind (.require ..) fun _ => .pure _

/-- **Operations are runs.**  The store an operation leaves is the one its steps lead to. -/
theorem perform_runs (cfg : DeploymentConfig) (p : Deployment) (principal : Principal)
    (env : Surroundings) (request : Request) :
    ∃ xs p', (deployment cfg).execFrom p xs = some p' ∧
      p'.store = (perform cfg.scheduler.service principal env p.store request).2 := by
  have hread : ∀ {α : Type} {tx : RepoTx α}, tx.ReadOnly →
      ∃ xs p', (deployment cfg).execFrom p xs = some p' ∧
        p'.store = (tx.commit env.link .connection p.store).state :=
    fun htx => ⟨[], p, rfl, (htx.state_commit _ _ _).symm⟩
  cases request with
  | create req =>
    obtain ⟨xs, c, hrun, hstore, -⟩ := createJob_runs cfg.scheduler p.cluster principal env req
    simp only [perform, answer]
    exact ⟨_, _, execFrom_scheduler hrun, hstore⟩
  | list filter =>
    simp only [perform, listJobs, answer]
    cases filter.validate with
    | error e => exact ⟨[], p, rfl, rfl⟩
    | ok query => exact hread (.bind (.read _) fun _ => .bind (pageOf_readOnly ..) fun _ => .pure _)
  | get id => exact hread (getByID_readOnly ..)
  | attempts id => exact hread (.bind (.read _) fun _ => .pure _)
  | events id => exact hread (.bind (.read _) fun _ => .pure _)
  | operate op id =>
    obtain ⟨xs, c, hrun, hstore⟩ := operate_runs cfg.scheduler p.cluster principal env op id
    simp only [perform, answer]
    exact ⟨_, _, execFrom_scheduler hrun, hstore⟩
  | listDeadLetters page pageSize =>
    exact hread (.bind (.read _) fun _ => pageOf_readOnly ..)
  | requeueDeadLetter deadLetterID =>
    let o := (requeueDeadLetter env.now env.clock' env.jobID.val env.eventID principal.tenantID
      deadLetterID env.clock).commit env.link .connection p.store
    have hstep : (cluster cfg.scheduler).step p.cluster (.api (.requeue principal.tenantID
        deadLetterID env.jobID env.eventID env.clock env.clock' env.now env.link))
        = some (p.cluster.record o fun _ => [.requeued env.jobID.val deadLetterID]) := rfl
    have hrun := execFrom_scheduler (System.execFrom_single hstep)
    exact ⟨_, _, hrun, rfl⟩
  | replay eventID =>
    have hstep : (deployment cfg).step p
        (.replay principal.tenantID eventID env.now env.link) = some _ := rfl
    exact ⟨_, _, System.execFrom_single hstep, rfl⟩

end JobScheduler
