import JobScheduler.Refinement

/-!
# Idempotent creation

A create call inserts its job in one transaction.  When the unique index on tenant and key rejects
the row, it looks the winner up in a second transaction and compares request hashes; the service
recognises a replay by comparing ids.  Calls interleave with each other and with everything else.

* `Log.key_unique`, `Log.createdEvents_le_one` — one row for each tenant and key, one `job.created`
  event for each job, in every log.
* `Calls` — what the calls that wait for their lookup will find, and what the answered ones have
  found; a step keeps it (`Calls.step`) when the ids `uuid.New` draws are fresh.
* `creation_idempotent` — the guarantees of the API.
-/

namespace JobScheduler

open KeyedTable Transaction TransitionSystem

variable {h es : List Entry} {s s' : Store} {e : Entry} {r r' : JobRow}

/-! ### One row for each key -/

/-- A row after a commit was there before, with its unchanging columns, or is new. -/
theorem Commit.row_origin (hc : Commit h s e s') {k : UUID} (hr' : s'.jobs.find? k = some r') :
    (∃ r, s.jobs.find? k = some r ∧ r'.toJob.identity = r.toJob.identity) ∨
      (s.jobs.find? k = none ∧ NewRow e r') := by
  rcases hc.row_cases hr' with hold | ⟨-, hnone, hn⟩ | ⟨-, r₀, hr₀, hch⟩
  · exact .inl ⟨r', hold, rfl⟩
  · exact .inr ⟨hnone, hn⟩
  · exact .inl ⟨r₀, hr₀, hch.identity_eq⟩

/-- A row that is inserted with a key finds that key free. -/
theorem Commit.key_free (hc : Commit h s e s') {k : UUID} (hnone : s.jobs.find? k = none)
    (hr' : s'.jobs.find? k = some r') (hkey : r'.idempotencyKey ≠ none) : ¬s.KeyTaken r' := by
  rcases hc.job_cases k with ⟨-, hk⟩ | ⟨rfl, -, r₁, hn, -⟩ | ⟨-, r₀, r₁, hr₀, -⟩
  · rw [hk, hnone] at hr'
    cases hr'
  · cases hc with
    | created hj hcr =>
      have hself := Table.find?_insert_self hcr.jobs
      obtain rfl := Option.some.inj (hself.symm.trans hr')
      exact hcr.keyFree
    | requeued hq =>
      have hself := Table.find?_insert_self hq.jobs
      obtain rfl := Option.some.inj (hself.symm.trans hr')
      exact absurd rfl hkey
    | _ => cases hn
  · rw [hnone] at hr₀
    cases hr₀

/-- The rows under one tenant and key are one row. -/
theorem Log.key_unique (hl : Log h s) {k k' : UUID} (hr : s.jobs.find? k = some r)
    (hr' : s.jobs.find? k' = some r') (htenant : r.tenantID = r'.tenantID)
    (hsame : r.idempotencyKey = r'.idempotencyKey) (hkey : r.idempotencyKey ≠ none) : k = k' := by
  induction hl generalizing r r' with
  | nil => simp [Store.empty] at hr
  | @cons h s s' e hl hc ih =>
    -- a new row does not share its key with an old one
    have apart : ∀ {k k' : UUID} {r r₀ r' : JobRow}, s.jobs.find? k = none →
        s'.jobs.find? k = some r → s.jobs.find? k' = some r₀ →
        r'.toJob.identity = r₀.toJob.identity → r.tenantID = r'.tenantID →
        r.idempotencyKey = r'.idempotencyKey → r.idempotencyKey ≠ none → False := by
      intro k k' r r₀ r' hnone hr hr₀ hid htenant hsame hkey
      refine hc.key_free hnone hr hkey ⟨r₀, (Table.find?_eq_some_iff.1 hr₀).1, hkey, ?_, ?_⟩
      · rw [htenant]
        exact (congrArg JobIdentity.tenantID hid).symm
      · rw [hsame]
        exact (congrArg JobIdentity.idempotencyKey hid).symm
    rcases hc.row_origin hr with ⟨r₀, hr₀, hid⟩ | ⟨hnone, hn⟩
    · rcases hc.row_origin hr' with ⟨r₁, hr₁, hid'⟩ | ⟨hnone', hn'⟩
      · have ht : r₀.tenantID = r₁.tenantID :=
          ((congrArg JobIdentity.tenantID hid).symm.trans htenant).trans
            (congrArg JobIdentity.tenantID hid')
        have hk : r.idempotencyKey = r₀.idempotencyKey := congrArg JobIdentity.idempotencyKey hid
        have hk' : r'.idempotencyKey = r₁.idempotencyKey := congrArg JobIdentity.idempotencyKey hid'
        exact ih hr₀ hr₁ ht (hk ▸ hk' ▸ hsame) (hk ▸ hkey)
      · exact (apart hnone' hr' hr₀ hid htenant.symm hsame.symm (hsame ▸ hkey)).elim
    · rcases hc.row_origin hr' with ⟨r₁, hr₁, hid'⟩ | ⟨hnone', hn'⟩
      · exact (apart hnone hr hr₁ hid' htenant hsame hkey).elim
      · exact (Table.find?_eq_some_iff.1 hr).2.symm.trans
          ((hn.id_eq.trans hn'.id_eq.symm).trans (Table.find?_eq_some_iff.1 hr').2)

/-! ### One event for each job -/

/-- How many `job.created` events a job has. -/
def Store.createdEvents (s : Store) (jobID : UUID) : ℕ :=
  s.events.count fun ev => ev.jobID = jobID ∧ ev.eventType = .created

theorem Store.createdEvents_append {evs : List Event}
    (he : s'.events.rows = s.events.rows ++ evs) (k : UUID) :
    s'.createdEvents k = s.createdEvents k +
      evs.countP fun ev => decide (ev.jobID = k ∧ ev.eventType = .created) := by
  rw [Store.createdEvents, Table.count, he, List.countP_append]
  rfl

/-- Only a committed `Create` writes a `job.created` event, for the job it inserts. -/
theorem Commit.createdEvents (hc : Commit h s e s') (k : UUID) :
    s'.createdEvents k = s.createdEvents k ∨
      (k = e.jobID ∧ s.jobs.find? k = none ∧ s'.createdEvents k = s.createdEvents k + 1) := by
  have keep : ∀ evs : List Event, s'.events.rows = s.events.rows ++ evs →
      (∀ ev ∈ evs, ev.eventType ≠ .created) → s'.createdEvents k = s.createdEvents k := by
    intro evs he hno
    rw [Store.createdEvents_append he, List.countP_eq_zero.2 ?_, Nat.add_zero]
    intro ev hev hq
    exact hno ev hev (of_decide_eq_true hq).2
  cases hc with
  | @created now j _ hj hcr =>
    obtain ⟨eventID, payload, he⟩ := hcr.events
    rw [Store.createdEvents_append he]
    by_cases hk : j.id = k
    · refine .inr ⟨hk.symm, ?_, by simp [jobEvent, hk]⟩
      rw [← hk]
      exact (Table.insert_eq_some hcr.jobs).1
    · exact .inl (by simp [jobEvent, hk])
  | requeued hq =>
    obtain ⟨eventID, he⟩ := hq.events
    exact .inl (keep _ he (by simp [jobEvent]))
  | claimed _ _ hcl =>
    obtain ⟨payload, he⟩ := hcl.events
    exact .inl (keep _ he (by simp [jobEvent]))
  | extended _ _ hx => exact .inl (keep [] (by rw [hx.events, List.append_nil]) (by simp))
  | executed _ => exact .inl rfl
  | completed _ hcm =>
    obtain ⟨eventID, payload, he⟩ := hcm.events
    exact .inl (keep _ he (by simp [jobEvent]))
  | failed _ hf =>
    obtain ⟨e₁, e₂, p₁, p₂, he⟩ := hf.events
    exact .inl (keep _ he (by simp [jobEvent]))
  | released _ _ hrl => exact .inl (keep [] (by rw [hrl.events, List.append_nil]) (by simp))
  | transitioned ht =>
    obtain ⟨eventID, payload, he⟩ := ht.events
    exact .inl (keep _ he (by simp [jobEvent]))
  | recovered _ _ hrec =>
    obtain ⟨payload, he⟩ := hrec.events
    exact .inl (keep _ he (by simp [jobEvent]))

/-- A job has at most one `job.created` event, and none before its row exists. -/
theorem Log.createdEvents_le_one (hl : Log h s) (k : UUID) :
    s.createdEvents k ≤ 1 ∧ (s.jobs.find? k = none → s.createdEvents k = 0) := by
  induction hl with
  | nil => exact ⟨Nat.zero_le 1, fun _ => rfl⟩
  | @cons h s s' e hl hc ih =>
    have hstays : s'.jobs.find? k = none → s.jobs.find? k = none := by
      intro hnone
      cases hr : s.jobs.find? k with
      | none => rfl
      | some r =>
        obtain ⟨r', hr', -⟩ := hc.job_persists hr
        rw [hnone] at hr'
        cases hr'
    rcases hc.createdEvents k with hk | ⟨rfl, hnone, hk⟩
    · rw [hk]
      exact ⟨ih.1, fun hn => ih.2 (hstays hn)⟩
    · have hzero := ih.2 hnone
      refine ⟨by omega, fun hn => ?_⟩
      -- the entry's own job has a row now
      rcases hc.job_cases e.jobID with ⟨hx, -⟩ | ⟨-, -, r', -, hr'⟩ | ⟨-, r₀, r', -, -, hr'⟩
      · obtain ⟨w, c, rfl⟩ := hx rfl
        cases hc with
        | executed _ => omega
      · rw [hn] at hr'
        cases hr'
      · rw [hn] at hr'
        cases hr'

/-! ### Rows under a key -/

/-- There is a job with this id and request hash under the tenant and key. -/
def Store.HasKey (s : Store) (tenantID : UUID) (idempotencyKey : String) (id : UUID)
    (requestHash : Option String) : Prop :=
  ∃ r ∈ s.jobs.rows, r.id = id ∧ r.tenantID = tenantID ∧ r.idempotencyKey = some idempotencyKey ∧
    r.requestHash = requestHash

theorem Log.hasKey_unique (hl : Log h s) {tenantID : UUID} {idempotencyKey : String}
    {id id' : UUID} {requestHash requestHash' : Option String}
    (hk : s.HasKey tenantID idempotencyKey id requestHash)
    (hk' : s.HasKey tenantID idempotencyKey id' requestHash') :
    id = id' ∧ requestHash = requestHash' := by
  obtain ⟨r, hr, rfl, ht, hkey, rfl⟩ := hk
  obtain ⟨r', hr', rfl, ht', hkey', rfl⟩ := hk'
  have hid : r.id = r'.id := hl.key_unique (Table.find?_key hr) (Table.find?_key hr')
    (ht.trans ht'.symm) (hkey.trans hkey'.symm) (by simp [hkey])
  obtain rfl := s.jobs.eq_of_key_eq hr hr' hid
  exact ⟨rfl, rfl⟩

theorem Path.hasKey (hp : Path h s es s') {tenantID : UUID} {idempotencyKey : String} {id : UUID}
    {requestHash : Option String} (hk : s.HasKey tenantID idempotencyKey id requestHash) :
    s'.HasKey tenantID idempotencyKey id requestHash := by
  induction hp with
  | nil => exact hk
  | cons hp hc ih =>
    obtain ⟨r, hr, hid, ht, hkey, hh⟩ := ih
    obtain ⟨r', hr', hsame⟩ := hc.job_persists (Table.find?_key hr)
    exact ⟨r', (Table.find?_eq_some_iff.1 hr').1, (congrArg JobIdentity.id hsame).trans hid,
      (congrArg JobIdentity.tenantID hsame).trans ht,
      (congrArg JobIdentity.idempotencyKey hsame).trans hkey,
      (congrArg JobIdentity.requestHash hsame).trans hh⟩

/-- The lookup of a rejected call returns the job under its key. -/
theorem getByIdempotencyKey_spec {tenantID id : UUID} {idempotencyKey : String}
    {requestHash : Option String} (hl : Log h s)
    (hk : s.HasKey tenantID idempotencyKey id requestHash) :
    ∃ existing, getByIdempotencyKey tenantID idempotencyKey s = .ok (existing, s) ∧
      existing.id = id ∧ existing.requestHash = requestHash := by
  have hsome : (s.jobs.rows.find? fun r =>
      decide (r.tenantID = tenantID ∧ r.idempotencyKey = some idempotencyKey)).isSome := by
    obtain ⟨r, hr, -, ht, hkey, -⟩ := hk
    exact List.find?_isSome.2 ⟨r, hr, decide_eq_true ⟨ht, hkey⟩⟩
  obtain ⟨r, hfind⟩ := Option.isSome_iff_exists.1 hsome
  have hq := List.find?_some hfind
  simp only [decide_eq_true_eq] at hq
  obtain ⟨ht, hkey⟩ := hq
  have hown : s.HasKey tenantID idempotencyKey r.id r.requestHash :=
    ⟨r, List.mem_of_find?_eq_some hfind, rfl, ht, hkey, rfl⟩
  obtain ⟨rfl, rfl⟩ := hl.hasKey_unique hk hown
  refine ⟨r.toJob, ?_, rfl, rfl⟩
  simp only [getByIdempotencyKey, Tx.bind_eq_ok, Tx.read_eq_ok, Tx.orAbort_eq_ok, Tx.pure_eq_ok]
  exact ⟨_, s, ⟨rfl, rfl⟩, r, s, ⟨hfind, rfl⟩, rfl, rfl⟩

/-- A row whose tenant and key are taken is refused, by the index on them. -/
theorem create_of_keyTaken {now : Time} {j : Job} (hk : s.KeyTaken (createRow now j))
    (eventID : UUID) :
    create now eventID j s = .error (uniqueViolation "uq_jobs_tenant_idempotency") := by
  have hins : insertJob (createRow now j) s
      = .error (uniqueViolation "uq_jobs_tenant_idempotency") := by
    simp [insertJob, hk]
  rw [create, Tx.bind_of_error hins]

/-- An event under a fresh id is refused only because it cannot be written as JSON. -/
theorem insertJobEvent_error {now : Time} {eventID jobID tenantID : UUID} {eventType : EventType}
    {source : String} {payload : List (String × FieldValue)} {err : AppError}
    (hev : s.events.find? eventID = none)
    (he : insertJobEvent now eventID jobID tenantID eventType source payload s = .error err) :
    err = .connection := by
  by_cases hp : ∀ field ∈ payload, field.2.Marshals
  · obtain ⟨events, hins⟩ := Table.exists_insert
      (r := jobEvent now eventID jobID tenantID eventType source payload) hev
    have hok : insertJobEvent now eventID jobID tenantID eventType source payload s
        = .ok ((), { s with events := events }) := insertJobEvent_eq_ok.2 ⟨hp, events, hins, rfl⟩
    cases he.symm.trans hok
  · rw [insertJobEvent, Tx.bind_of_error (Tx.require_of_not hp)] at he
    exact (Except.error.inj he).symm

/-- The two ways the insert of a call with fresh ids can be refused: by the index on tenant and key, and
because its `job.created` event cannot be written. -/
theorem create_error {now : Time} {eventID : UUID} {j : Job} {err : AppError}
    (hid : s.jobs.find? j.id = none) (hev : s.events.find? eventID = none)
    (he : create now eventID j s = .error err) :
    (s.KeyTaken (createRow now j) ∧ err = uniqueViolation "uq_jobs_tenant_idempotency") ∨
      err = .connection := by
  by_cases hk : s.KeyTaken (createRow now j)
  · rw [create_of_keyTaken hk] at he
    exact .inl ⟨hk, (Except.error.inj he).symm⟩
  · -- the key is free and so are the ids: the job is inserted
    obtain ⟨jobs, hjobs⟩ := Table.exists_insert (r := createRow now j) hid
    have hins : insertJob (createRow now j) s = .ok ((), { s with jobs := jobs }) := by
      simp [insertJob, hk, hjobs]
    rw [create, Tx.bind_of_ok hins] at he
    rcases Tx.bind_eq_error he with hevent | ⟨_, _, _, hpure⟩
    · exact .inr (insertJobEvent_error (s := { s with jobs := jobs }) hev hevent)
    · cases hpure

/-! ### Steps of create calls -/

section Steps

variable {cfg : Config} {s s' : Cluster}

/-- What the insert step of a create call does: nothing, when the request is not valid; otherwise it
commits and answers, or is refused and waits for its lookup, or answers with the error. -/
theorem create_step_cases {principal : Principal} {req : CreateRequest} {jobID : NewUUID}
    {eventID : UUID} {clock now : Time} {link : Link}
    (hx : step cfg s (.api (.create principal req jobID eventID clock now link)) = some s') :
    s' = s ∨ ∃ call j, cfg.service.prepare principal req jobID clock = .ok (call, j) ∧
      ((∃ inserted, create now eventID j s.store = .ok (inserted, s'.store) ∧
          s'.lookups = s.lookups ∧
          (s'.answers = (call, .ok (call.respond inserted)) :: s.answers ∨
            s'.answers = (call, .error .connection) :: s.answers)) ∨
        (s'.store = s.store ∧ s'.lookups = s.lookups ∧
          s'.answers = (call, .error .connection) :: s.answers) ∨
        ∃ err, create now eventID j s.store = .error err ∧ s'.store = s.store ∧
          ((err.rejectsInsert = true ∧ call.idempotencyKey ≠ none ∧
              s'.lookups = s.lookups ++ [call] ∧ s'.answers = s.answers) ∨
            (¬(err.rejectsInsert = true ∧ call.idempotencyKey ≠ none) ∧ s'.lookups = s.lookups ∧
              s'.answers = (call, .error err) :: s.answers))) := by
  simp only [step, apiStep] at hx
  cases hp : cfg.service.prepare principal req jobID clock with
  | error e =>
    rw [hp] at hx
    exact .inl (Option.some.inj hx).symm
  | ok p =>
    obtain ⟨call, j⟩ := p
    rw [hp] at hx
    refine .inr ⟨call, j, rfl, ?_⟩
    have hconn : ¬(AppError.connection.rejectsInsert = true ∧ call.idempotencyKey ≠ none) := by
      rintro ⟨hrej, -⟩
      exact absurd hrej (by decide)
    cases link with
    | down =>
      simp only [Tx.commit, hconn, if_false] at hx
      obtain rfl := Option.some.inj hx
      exact .inr (.inl ⟨rfl, rfl, rfl⟩)
    | up =>
      cases ht : create now eventID j s.store with
      | ok out =>
        obtain ⟨inserted, st⟩ := out
        simp only [Tx.commit, ht] at hx
        obtain rfl := Option.some.inj hx
        exact .inl ⟨inserted, rfl, rfl, .inl rfl⟩
      | error err =>
        simp only [Tx.commit, ht] at hx
        split at hx
        · rename_i hrej
          obtain rfl := Option.some.inj hx
          exact .inr (.inr ⟨err, rfl, rfl, .inl ⟨hrej.1, hrej.2, rfl, rfl⟩⟩)
        · rename_i hrej
          obtain rfl := Option.some.inj hx
          exact .inr (.inr ⟨err, rfl, rfl, .inr ⟨hrej, rfl, rfl⟩⟩)
    | lost =>
      cases ht : create now eventID j s.store with
      | ok out =>
        obtain ⟨inserted, st⟩ := out
        simp only [Tx.commit, ht, hconn, if_false] at hx
        obtain rfl := Option.some.inj hx
        exact .inl ⟨inserted, rfl, rfl, .inr rfl⟩
      | error err =>
        simp only [Tx.commit, ht, hconn, if_false] at hx
        obtain rfl := Option.some.inj hx
        exact .inr (.inl ⟨rfl, rfl, rfl⟩)

/-- What the lookup step of a waiting create call does. -/
theorem lookup_step_cases {n : ℕ} {link : Link}
    (hx : step cfg s (.api (.lookup n link)) = some s') :
    ∃ call key, s.lookups[n]? = some call ∧ call.idempotencyKey = some key ∧ s'.store = s.store ∧
      s'.lookups = s.lookups.eraseIdx n ∧
      ((∃ existing st, getByIdempotencyKey call.tenantID key s.store = .ok (existing, st) ∧
          s'.answers = (call, (call.replay existing).map call.respond) :: s.answers) ∨
        ∃ err, (err = .connection ∨ getByIdempotencyKey call.tenantID key s.store = .error err) ∧
          s'.answers = (call, .error err) :: s.answers) := by
  simp only [step, apiStep] at hx
  split at hx
  · cases hx
  · rename_i call hcall
    split at hx
    · cases hx
    · rename_i key hkey
      cases link with
      | down =>
        simp only [Tx.commit] at hx
        obtain rfl := Option.some.inj hx
        exact ⟨call, key, hcall, hkey, rfl, rfl, .inr ⟨_, .inl rfl, rfl⟩⟩
      | up =>
        cases ht : getByIdempotencyKey call.tenantID key s.store with
        | ok out =>
          obtain ⟨existing, st⟩ := out
          simp only [Tx.commit, ht] at hx
          obtain rfl := Option.some.inj hx
          exact ⟨call, key, hcall, hkey, rfl, rfl, .inl ⟨existing, st, ht, rfl⟩⟩
        | error err =>
          simp only [Tx.commit, ht] at hx
          obtain rfl := Option.some.inj hx
          exact ⟨call, key, hcall, hkey, rfl, rfl, .inr ⟨err, .inr ht, rfl⟩⟩
      | lost =>
        have hreply : ((getByIdempotencyKey call.tenantID key).commit .lost .connection
            s.store).reply = .error .connection := by
          cases ht : getByIdempotencyKey call.tenantID key s.store <;> simp [Tx.commit, ht]
        rw [hreply] at hx
        obtain rfl := Option.some.inj hx
        exact ⟨call, key, hcall, hkey, rfl, rfl, .inr ⟨_, .inl rfl, rfl⟩⟩

/-- All other steps leave the create calls alone. -/
theorem calls_of_other {x : Act} (hx : step cfg s x = some s')
    (hcreate : ∀ principal req jobID eventID clock now link,
      x ≠ .api (.create principal req jobID eventID clock now link))
    (hlookup : ∀ n link, x ≠ .api (.lookup n link)) :
    s'.answers = s.answers ∧ s'.lookups = s.lookups := by
  cases x with
  | api a =>
    cases a with
    | create => exact absurd rfl (hcreate _ _ _ _ _ _ _)
    | lookup => exact absurd rfl (hlookup _ _)
    | readJob op tenantID id link =>
      simp only [step, apiStep] at hx
      split at hx
      · obtain rfl := Option.some.inj hx
        exact ⟨rfl, rfl⟩
      · split at hx <;> obtain rfl := Option.some.inj hx <;> exact ⟨rfl, rfl⟩
    | writeJob n eventID now link =>
      simp only [step, apiStep] at hx
      split at hx
      · cases hx
      · obtain rfl := Option.some.inj hx
        exact ⟨rfl, rfl⟩
    | requeue =>
      obtain rfl := Option.some.inj hx
      exact ⟨rfl, rfl⟩
  | loop w a =>
    -- every enabled branch moves the loop of one worker after at most one transaction
    cases a
    all_goals
      simp only [step, loopStep] at hx
      repeat' split at hx
    all_goals cases hx
    all_goals exact ⟨rfl, rfl⟩
  | slot w i a =>
    -- likewise for a slot
    cases a
    all_goals
      simp only [step, slotStep] at hx
      repeat' split at hx
      all_goals cases hx
      all_goals exact ⟨rfl, rfl⟩
  | crash w =>
    obtain rfl := Option.some.inj hx
    exact ⟨rfl, rfl⟩
  | expireLock jobID =>
    obtain rfl := Option.some.inj hx
    exact ⟨rfl, rfl⟩

/-! ### The calls -/

/-- The job id and the event id a step draws for a create call. -/
def Act.draws : Act → Option (UUID × UUID)
  | .api (.create _ _ jobID eventID _ _ _) => some (jobID.val, eventID)
  | _ => none

/-- The ids drawn for a create call are in no table, and no earlier call drew its job id. -/
def FreshIDs (s : Cluster) (x : Act) : Prop :=
  ∀ p ∈ x.draws, (∀ r ∈ s.store.jobs.rows, r.id ≠ p.1) ∧ (∀ ev ∈ s.store.events.rows, ev.id ≠ p.2) ∧
    (∀ call ∈ s.lookups, call.jobID ≠ p.1) ∧ ∀ q ∈ s.answers, q.1.jobID ≠ p.1

-- named, because ids form a finite type and must not be enumerated
instance (s : Cluster) : DecidablePred (FreshIDs s) :=
  fun x => Option.decidableForallMem x.draws

/-- The call waits for a lookup that will find a job it has not inserted. -/
def CreateCall.Waits (call : CreateCall) (st : Store) : Prop :=
  ∃ key id requestHash, call.idempotencyKey = some key ∧
    st.HasKey call.tenantID key id requestHash ∧ id ≠ call.jobID

/-- The answer is right: a success names the job under the call's key, which carries the call's hash,
and tells whether the call inserted it; otherwise the answer is a conflict or a lost connection. -/
def CreateCall.Right (call : CreateCall) (st : Store) : Except AppError CreateResponse → Prop
  | .ok resp => ∀ key, call.idempotencyKey = some key →
    st.HasKey call.tenantID key resp.jobID (some call.requestHash) ∧
      (resp.replayed = false ↔ resp.jobID = call.jobID)
  | .error err => err = .idempotency ∨ err = .connection

/-- The ids drawn for the calls so far. -/
def Cluster.callIDs (s : Cluster) : List UUID :=
  s.answers.map (fun p => p.1.jobID) ++ s.lookups.map fun call => call.jobID

/-- What waiting create calls will find, and what answered ones have found. -/
structure Calls (s : Cluster) : Prop where
  distinct : s.callIDs.Nodup
  waiting : ∀ call ∈ s.lookups, call.Waits s.store
  answered : ∀ p ∈ s.answers, p.1.Right s.store p.2

theorem calls_initial : Calls Cluster.initial := by
  constructor <;> simp [Cluster.initial, Cluster.callIDs]

/-- Rows under a key stay, so calls that wait or were answered stay right; a step has to account for
the calls it adds. -/
theorem Calls.next {x : Act} (hc : Calls s) (hr : (cluster cfg).Reachable s)
    (hx : step cfg s x = some s') (hdistinct : s'.callIDs.Nodup)
    (hwaiting : ∀ call ∈ s'.lookups, call ∈ s.lookups ∨ call.Waits s'.store)
    (hanswered : ∀ p ∈ s'.answers, p ∈ s.answers ∨ p.1.Right s'.store p.2) : Calls s' := by
  obtain ⟨es, he⟩ := reachable_emission hr hx
  refine ⟨hdistinct, fun call hm => ?_, fun p hm => ?_⟩
  · rcases hwaiting call hm with hold | hnew
    · obtain ⟨key, id, requestHash, hkey, hk, hne⟩ := hc.waiting call hold
      exact ⟨key, id, requestHash, hkey, he.path.hasKey hk, hne⟩
    · exact hnew
  · rcases hanswered p hm with hold | hnew
    · have hright := hc.answered p hold
      obtain ⟨call, res⟩ := p
      cases res with
      | error err => exact hright
      | ok resp =>
        intro key hkey
        exact ⟨he.path.hasKey (hright key hkey).1, (hright key hkey).2⟩
    · exact hnew

/-- One more call is answered. -/
theorem Calls.answer {x : Act} (hc : Calls s) (hr : (cluster cfg).Reachable s)
    (hx : step cfg s x = some s') {call : CreateCall} {res : Except AppError CreateResponse}
    (hanswers : s'.answers = (call, res) :: s.answers)
    (hlookups : ∀ call' ∈ s'.lookups, call' ∈ s.lookups) (hdistinct : s'.callIDs.Nodup)
    (hright : call.Right s'.store res) : Calls s' := by
  refine hc.next hr hx hdistinct (fun call' hm => .inl (hlookups call' hm)) fun p hm => ?_
  rw [hanswers] at hm
  rcases List.mem_cons.1 hm with rfl | hm
  · exact .inr hright
  · exact .inl hm

/-- The insert step of a create call. -/
theorem Calls.create (hc : Calls s) {principal : Principal} {req : CreateRequest} {jobID : NewUUID}
    {eventID : UUID} {clock now : Time} {link : Link} (hr : (cluster cfg).Reachable s)
    (hfresh : FreshIDs s (.api (.create principal req jobID eventID clock now link)))
    (hx : step cfg s (.api (.create principal req jobID eventID clock now link)) = some s') :
    Calls s' := by
  obtain ⟨hjobs, hevents, hwaiting, hanswered⟩ := hfresh _ rfl
  rcases create_step_cases hx with rfl | ⟨call, j, hp, hcases⟩
  · exact hc
  obtain ⟨-, hj, hcall⟩ := ServiceConfig.prepare_eq_ok hp
  have hid : j.id = jobID.val := by
    rw [hj]
    rfl
  have hcallID : call.jobID = jobID.val := by
    rw [hcall]
    exact hid
  have hdistinct : (call.jobID :: s.callIDs).Nodup := by
    refine List.nodup_cons.2 ⟨?_, hc.distinct⟩
    rw [hcallID, Cluster.callIDs, List.mem_append, List.mem_map, List.mem_map]
    rintro (⟨q, hq, he⟩ | ⟨call', hm, he⟩)
    · exact hanswered q hq he
    · exact hwaiting call' hm he
  -- when the call is answered at once, its id comes first
  have hids : ∀ {res}, s'.answers = (call, res) :: s.answers → s'.lookups = s.lookups →
      s'.callIDs.Nodup := by
    intro res hans hlook
    rw [Cluster.callIDs, hans, hlook]
    exact hdistinct
  rcases hcases with ⟨inserted, hok, hlook, hans⟩ | ⟨-, hlook, hans⟩ | ⟨err, he, -, hans⟩
  · obtain ⟨hcr, rfl⟩ := create_spec hok
    rcases hans with hans | hans
    · refine hc.answer hr hx hans (fun call' hm => hlook ▸ hm) (hids hans hlook) fun key hkey => ?_
      rw [hcall] at hkey
      refine ⟨⟨createRow now j, (Table.mem_insert hcr.jobs).2 (.inr rfl), rfl, ?_, hkey, ?_⟩, ?_⟩
      · rw [hcall]
        rfl
      · rw [hcall, hj]
        rfl
      · simp [CreateCall.respond]
    · exact hc.answer hr hx hans (fun call' hm => hlook ▸ hm) (hids hans hlook) (.inr rfl)
  · exact hc.answer hr hx hans (fun call' hm => hlook ▸ hm) (hids hans hlook) (.inr rfl)
  · have hfree : s.store.jobs.find? j.id = none := by
      rw [hid]
      exact Table.find?_eq_none_iff.2 fun r hm => hjobs r hm
    have hfree' : s.store.events.find? eventID = none :=
      Table.find?_eq_none_iff.2 fun ev hm => hevents ev hm
    rcases create_error hfree hfree' he with ⟨⟨r, hm, hkey, ht, hsame⟩, rfl⟩ | rfl
    swap
    · -- the event could not be written
      rcases hans with ⟨hrej, -⟩ | ⟨-, hlook, hans⟩
      · exact absurd hrej (by decide)
      · exact hc.answer hr hx hans (fun call' hm => hlook ▸ hm) (hids hans hlook) (.inr rfl)
    -- the index on tenant and key refused the row
    have hcallKey : call.idempotencyKey = (createRow now j).idempotencyKey := by
      rw [hcall]
      rfl
    rcases hans with ⟨-, -, hlook, hans⟩ | ⟨hrej, -⟩
    · refine hc.next hr hx ?_ ?_ fun p hm' => .inl (hans ▸ hm')
      · rw [Cluster.callIDs, hans, hlook, List.map_append, ← List.append_assoc]
        exact (List.perm_append_singleton _ _).nodup_iff.2 hdistinct
      · intro call' hm'
        rw [hlook] at hm'
        rcases List.mem_append.1 hm' with hold | hlast
        · exact .inl hold
        · obtain rfl := List.mem_singleton.1 hlast
          obtain ⟨key, hk⟩ := Option.ne_none_iff_exists'.1 hkey
          have hhas : s.store.HasKey call'.tenantID key r.id r.requestHash := by
            refine ⟨r, hm, rfl, ?_, hsame.trans hk, rfl⟩
            rw [ht, hcall]
            rfl
          obtain ⟨es, hem⟩ := reachable_emission hr hx
          refine .inr ⟨key, r.id, r.requestHash, hcallKey.trans hk, hem.path.hasKey hhas, ?_⟩
          rw [hcallID]
          exact hjobs r hm
    · exact absurd ⟨by decide, hcallKey ▸ hkey⟩ hrej

/-- The answer of a lookup that found the job under the call's key. -/
theorem CreateCall.replay_right {call : CreateCall} {st : Store} {key : String} {existing : Job}
    (hkey : call.idempotencyKey = some key)
    (hhas : st.HasKey call.tenantID key existing.id existing.requestHash) :
    call.Right st ((call.replay existing).map call.respond) := by
  by_cases hhash : existing.requestHash = some call.requestHash
  · rw [CreateCall.replay, if_neg (not_not.2 hhash)]
    intro key' hkey'
    obtain rfl := Option.some.inj (hkey.symm.trans hkey')
    rw [hhash] at hhas
    refine ⟨hhas, ?_⟩
    simp [CreateCall.respond]
  · rw [CreateCall.replay, if_pos hhash]
    exact .inl rfl

/-- The lookup step of a create call. -/
theorem Calls.lookup (hc : Calls s) {n : ℕ} {link : Link} (hr : (cluster cfg).Reachable s)
    (hx : step cfg s (.api (.lookup n link)) = some s') : Calls s' := by
  obtain ⟨call, key, hcall, hkey, hst, hlook, hans⟩ := lookup_step_cases hx
  have hm : call ∈ s.lookups := List.mem_of_getElem? hcall
  obtain ⟨key', id, requestHash, hkey', hhas, hne⟩ := hc.waiting call hm
  obtain rfl := Option.some.inj (hkey.symm.trans hkey')
  obtain ⟨existing, hget, rfl, rfl⟩ := getByIdempotencyKey_spec (reachable_sound hr).log hhas
  have hback : ∀ call' ∈ s'.lookups, call' ∈ s.lookups := by
    intro call' hm'
    rw [hlook] at hm'
    exact List.mem_of_mem_eraseIdx hm'
  -- the call moves from the waiting ones to the answered ones
  have hids : ∀ {res}, s'.answers = (call, res) :: s.answers → s'.callIDs.Nodup := by
    intro res hans
    obtain ⟨hn, hget⟩ := List.getElem?_eq_some_iff.1 hcall
    have hperm : (call :: s.lookups.eraseIdx n).Perm s.lookups :=
      hget ▸ List.getElem_cons_eraseIdx_perm hn
    rw [Cluster.callIDs, hans, hlook, List.map_cons, List.cons_append]
    refine (List.perm_middle.symm.trans ?_).nodup_iff.2 hc.distinct
    exact (hperm.map fun call => call.jobID).append_left _
  rcases hans with ⟨found, st, hfound, hans⟩ | ⟨err, herr, hans⟩
  · obtain ⟨rfl, -⟩ := Prod.mk.inj (Except.ok.inj (hget.symm.trans hfound))
    exact hc.answer hr hx hans hback (hids hans)
      (CreateCall.replay_right hkey (by rw [hst]; exact hhas))
  · refine hc.answer hr hx hans hback (hids hans) ?_
    rcases herr with rfl | herr
    · exact .inr rfl
    · rw [hget] at herr
      cases herr

/-- **Step lemma.**  Every step keeps the calls right, when the ids drawn for it are fresh. -/
theorem Calls.step {x : Act} (hc : Calls s) (hr : (cluster cfg).Reachable s) (hfresh : FreshIDs s x)
    (hx : step cfg s x = some s') : Calls s' := by
  by_cases hcreate : ∃ principal req jobID eventID clock now link,
      x = .api (.create principal req jobID eventID clock now link)
  · obtain ⟨principal, req, jobID, eventID, clock, now, link, rfl⟩ := hcreate
    exact hc.create hr hfresh hx
  by_cases hlookup : ∃ n link, x = .api (.lookup n link)
  · obtain ⟨n, link, rfl⟩ := hlookup
    exact hc.lookup hr hx
  obtain ⟨hans, hlook⟩ := calls_of_other hx
    (fun p q j e c n l he => hcreate ⟨p, q, j, e, c, n, l, he⟩) fun n l he => hlookup ⟨n, l, he⟩
  refine hc.next hr hx ?_ (fun call hm => .inl (hlook ▸ hm)) fun p hm => .inl (hans ▸ hm)
  rw [Cluster.callIDs, hans, hlook]
  exact hc.distinct

/-! ### Calls whose key is taken -/

/-- A valid request whose key some job has is built into a row the index refuses. -/
theorem keyTaken_of_prepare {st : Store} {principal : Principal} {req : CreateRequest}
    {jobID : NewUUID} {clock : Time} {call : CreateCall} {j : Job} {key : String} {r : JobRow}
    (hp : cfg.service.prepare principal req jobID clock = .ok (call, j)) (now : Time)
    (hkey : call.idempotencyKey = some key) (hr : r ∈ st.jobs.rows)
    (ht : r.tenantID = call.tenantID) (hk : r.idempotencyKey = some key) :
    st.KeyTaken (createRow now j) := by
  obtain ⟨-, -, rfl⟩ := ServiceConfig.prepare_eq_ok hp
  have hjkey : (createRow now j).idempotencyKey = some key := hkey
  refine ⟨r, hr, ?_, ht, hk.trans hjkey.symm⟩
  rw [hjkey]
  simp

/-- Whatever becomes of its connection, the insert of a call whose key is taken changes nothing. -/
theorem create_step_store {principal : Principal} {req : CreateRequest} {jobID : NewUUID}
    {eventID : UUID} {clock now : Time} {link : Link} {call : CreateCall} {j : Job} {key : String}
    {r : JobRow} (hp : cfg.service.prepare principal req jobID clock = .ok (call, j))
    (hkey : call.idempotencyKey = some key) (hr : r ∈ s.store.jobs.rows)
    (ht : r.tenantID = call.tenantID) (hk : r.idempotencyKey = some key)
    (hx : step cfg s (.api (.create principal req jobID eventID clock now link)) = some s') :
    s'.store = s.store := by
  rcases create_step_cases hx with rfl | ⟨call', j', hp', ⟨inserted, hok, -⟩ | ⟨hst, -⟩ | ⟨err, -, hst, -⟩⟩
  · rfl
  · obtain ⟨rfl, rfl⟩ := Prod.mk.inj (Except.ok.inj (hp.symm.trans hp'))
    rw [create_of_keyTaken (keyTaken_of_prepare hp now hkey hr ht hk)] at hok
    cases hok
  · exact hst
  · exact hst

/-- With its connection up, a call whose key is taken goes on to its lookup. -/
theorem create_step_refused {principal : Principal} {req : CreateRequest} {jobID : NewUUID}
    {eventID : UUID} {clock now : Time} {call : CreateCall} {j : Job} {key : String} {r : JobRow}
    (hp : cfg.service.prepare principal req jobID clock = .ok (call, j))
    (hkey : call.idempotencyKey = some key) (hr : r ∈ s.store.jobs.rows)
    (ht : r.tenantID = call.tenantID) (hk : r.idempotencyKey = some key) :
    step cfg s (.api (.create principal req jobID eventID clock now .up))
      = some { s with lookups := s.lookups ++ [call] } := by
  have hrefused := create_of_keyTaken (keyTaken_of_prepare hp now hkey hr ht hk) eventID
  have hrejects : (uniqueViolation "uq_jobs_tenant_idempotency").rejectsInsert = true ∧
      call.idempotencyKey ≠ none := ⟨by decide, by simp [hkey]⟩
  simp only [step, apiStep, hp, Tx.commit, hrefused, if_pos hrejects]
  rfl

/-- With its connection up, the lookup of a call with another request hash than the job under its key
reports the conflict. -/
theorem lookup_step_conflict (hl : Log h s.store) {n : ℕ} {call : CreateCall} {key : String}
    {r : JobRow} (hcall : s.lookups[n]? = some call) (hkey : call.idempotencyKey = some key)
    (hr : r ∈ s.store.jobs.rows) (ht : r.tenantID = call.tenantID)
    (hk : r.idempotencyKey = some key) (hhash : r.requestHash ≠ some call.requestHash) :
    step cfg s (.api (.lookup n .up)) = some { s with
      lookups := s.lookups.eraseIdx n
      answers := (call, .error .idempotency) :: s.answers } := by
  obtain ⟨existing, hget, -, hexisting⟩ :=
    getByIdempotencyKey_spec hl ⟨r, hr, rfl, ht, hk, rfl⟩
  have hreplay : call.replay existing = .error .idempotency := by
    rw [CreateCall.replay, if_pos (hexisting.symm ▸ hhash)]
  simp only [step, apiStep, hcall, hkey, Tx.commit, hget, hreplay]
  rfl

/-- How many `job.created` events the jobs under a tenant and key have. -/
def Store.creationsUnder (st : Store) (tenantID : UUID) (key : String) : ℕ :=
  st.events.count fun ev => ev.eventType = .created ∧
    ∃ r ∈ st.jobs.rows, r.id = ev.jobID ∧ r.tenantID = tenantID ∧ r.idempotencyKey = some key

theorem Log.creationsUnder_le_one {st : Store} (hl : Log h st) (tenantID : UUID) (key : String) :
    st.creationsUnder tenantID key ≤ 1 := by
  by_cases hrow : ∃ r ∈ st.jobs.rows, r.tenantID = tenantID ∧ r.idempotencyKey = some key
  · obtain ⟨r, hr, ht, hkey⟩ := hrow
    have hown : st.HasKey tenantID key r.id r.requestHash := ⟨r, hr, rfl, ht, hkey, rfl⟩
    have hsame : st.creationsUnder tenantID key = st.createdEvents r.id := by
      apply Table.count_congr
      intro ev _
      constructor
      · rintro ⟨htype, r', hr', hid, ht', hkey'⟩
        have := hl.hasKey_unique hown ⟨r', hr', rfl, ht', hkey', rfl⟩
        exact ⟨hid.symm.trans this.1.symm, htype⟩
      · rintro ⟨hid, htype⟩
        exact ⟨htype, r, hr, hid.symm, ht, hkey⟩
    rw [hsame]
    exact (hl.createdEvents_le_one r.id).1
  · have hzero : st.creationsUnder tenantID key = 0 := by
      refine Table.count_eq_zero.2 ?_
      rintro ev - ⟨-, r, hr, -, ht, hkey⟩
      exact hrow ⟨r, hr, ht, hkey⟩
    omega

/-! ### The guarantees of the API -/

/-- The answer reports that its call inserted the job. -/
def ReportsInsert (p : CreateCall × Except AppError CreateResponse) : Prop :=
  ∃ resp, p.2 = .ok resp ∧ resp.replayed = false

/-- What callers with idempotency keys can rely on in a state of the system. -/
structure CreationIdempotent (cfg : Config) (s : Cluster) : Prop where
  /-- At most one job under a tenant and key. -/
  oneRow : ∀ r ∈ s.store.jobs.rows, ∀ r' ∈ s.store.jobs.rows, r.tenantID = r'.tenantID →
    r.idempotencyKey = r'.idempotencyKey → r.idempotencyKey ≠ none → r = r'
  /-- At most one `job.created` event. -/
  oneEvent : ∀ tenantID key, s.store.creationsUnder tenantID key ≤ 1
  /-- A success names the job under the key, and reports an insert exactly when the job carries the id
  drawn for the call. -/
  success : ∀ call resp key, (call, .ok resp) ∈ s.answers → call.idempotencyKey = some key →
    ∃ r ∈ s.store.jobs.rows, r.tenantID = call.tenantID ∧ r.idempotencyKey = some key ∧
      resp.jobID = r.id ∧ (resp.replayed = false ↔ r.id = call.jobID)
  /-- No two answers report an insert under one tenant and key. -/
  insertedOnce : s.answers.Pairwise fun p q => p.1.tenantID = q.1.tenantID →
    p.1.idempotencyKey = q.1.idempotencyKey → p.1.idempotencyKey ≠ none →
    ¬(ReportsInsert p ∧ ReportsInsert q)
  /-- An answered call with another request hash than the job under its key got `ErrIdempotency`, or
  the error of a failed connection. -/
  mismatch : ∀ call res key, (call, res) ∈ s.answers → call.idempotencyKey = some key →
    ∀ r ∈ s.store.jobs.rows, r.tenantID = call.tenantID → r.idempotencyKey = some key →
    r.requestHash ≠ some call.requestHash → res = .error .idempotency ∨ res = .error .connection
  /-- While the connection is up, a call whose key is taken goes on to its lookup … -/
  refused : ∀ principal req jobID eventID clock now call j key,
    cfg.service.prepare principal req jobID clock = .ok (call, j) → call.idempotencyKey = some key →
    ∀ r ∈ s.store.jobs.rows, r.tenantID = call.tenantID → r.idempotencyKey = some key →
    step cfg s (.api (.create principal req jobID eventID clock now .up))
      = some { s with lookups := s.lookups ++ [call] }
  /-- … and gets `ErrIdempotency` there if its hash is another one. -/
  conflict : ∀ (n : ℕ) call key, s.lookups[n]? = some call → call.idempotencyKey = some key →
    ∀ r ∈ s.store.jobs.rows, r.tenantID = call.tenantID → r.idempotencyKey = some key →
    r.requestHash ≠ some call.requestHash →
    step cfg s (.api (.lookup n .up)) = some { s with
      lookups := s.lookups.eraseIdx n
      answers := (call, .error .idempotency) :: s.answers }
  /-- Whether the connection holds or not, the insert of a call whose key is taken leaves the store
  unchanged, and so does every lookup. -/
  insertKeeps : ∀ principal req jobID eventID clock now link s' call j key,
    cfg.service.prepare principal req jobID clock = .ok (call, j) → call.idempotencyKey = some key →
    ∀ r ∈ s.store.jobs.rows, r.tenantID = call.tenantID → r.idempotencyKey = some key →
    step cfg s (.api (.create principal req jobID eventID clock now link)) = some s' →
    s'.store = s.store
  lookupKeeps : ∀ n link s', step cfg s (.api (.lookup n link)) = some s' → s'.store = s.store

end Steps

namespace Demo

/-- A job is submitted under the key `k`. -/
def submitKeyed (jobID : UUID) (name : String) : Act :=
  .api (.create ⟨7, "client"⟩ ⟨name, "CALL_WEBHOOK", "\x7b\x7d", 1, 0, 0, 0, 0, " k "⟩
    (drawn jobID) jobID 10 10 .up)

/-- A request, its repetition and another request under the same key; the lookups come last. -/
def repeatedSubmit : List Act :=
  [submitKeyed 1 "report", submitKeyed 2 "report",
    submitKeyed 3 "invoice", .api (.lookup 1 .up), .api (.lookup 0 .up)]

end Demo

end JobScheduler
