import JobScheduler.Library.OrderBy
import JobScheduler.Repository

/-!
# The outbox

`internal/outbox/outbox.go`: the statements of its `Store`, each an autocommitted update of
`job_events`, and the state of a `Relay` inside `publishBatch`.

`UPDATE … RETURNING` returns its rows in no particular order; `scan` is the order in which they come
back.  `Publish` is a call to Kafka: all that is kept of it is whether it returned an error.
-/

namespace JobScheduler

open KeyedTable OrderBy Transaction

/-! ### Statements -/

/-- The errors of the outbox store: `outbox lease lost`, `pgx.ErrNoRows`, PostgreSQL's `invalid byte
sequence for encoding "UTF8"`, a failed connection. -/
inductive OutboxError where
  | leaseLost
  | noRows
  | invalidText
  | connection
  deriving DecidableEq

/-- A statement of the outbox store. -/
abbrev OutboxTx (α : Type) := Tx Store OutboxError α

/-- `UPDATE job_events SET … WHERE …`. -/
def updateEvents (p : Event → Prop) [DecidablePred p] (f : Event → Event)
    (hf : ∀ e, (f e).id = e.id) : OutboxTx ℕ := fun s =>
  .ok (s.events.count p, { s with events := s.events.update p f hf })

@[simp] theorem updateEvents_eq_ok {s s' : Store} {n : ℕ} {p : Event → Prop} [DecidablePred p]
    {f : Event → Event} {hf : ∀ e, (f e).id = e.id} :
    updateEvents p f hf s = .ok (n, s') ↔
      s.events.count p = n ∧ { s with events := s.events.update p f hf } = s' := by
  simp [updateEvents]

/-! ### Claiming -/

/-- The `WHERE` clause of `Claim`. -/
def Event.ClaimableAt (now : Time) (e : Event) : Prop :=
  e.publishedAt = none ∧ e.nextPublishAt ≤ now ∧
    (e.claimedUntil = none ∨ lockedBefore e.claimedUntil now = true)

instance (now : Time) : DecidablePred (Event.ClaimableAt now) :=
  fun _ => inferInstanceAs (Decidable (_ ∧ _ ∧ _))

/-- `ORDER BY created_at ASC, id ASC`. -/
def Event.Before (a b : Event) : Prop :=
  a.createdAt < b.createdAt ∨ (a.createdAt = b.createdAt ∧ a.id ≤ b.id)

instance : DecidableRel Event.Before := fun _ _ => inferInstanceAs (Decidable (_ ∨ _))

/-- The sort key of `Claim` and of `ListEvents`. -/
def Event.key (ev : Event) : ℤ ×ₗ ℕ := toLex (ev.createdAt, ev.id.toNat)

theorem before_byKey : ByKey Event.Before Event.key := by
  constructor
  intro a b
  simp only [Event.Before, Event.key, Prod.Lex.le_iff, ofLex_toLex, BitVec.le_def]

/-- The batch: `Claim` replaces one below one by fifty. -/
def claimBatch (batch : Int) : ℕ := if batch < 1 then 50 else batch.toNat

/-- The rows `Claim` selects; `locked` are those other transactions hold. -/
def pendingEvents (now : Time) (locked : UUID → Bool) (batch : Int) (s : Store) : List Event :=
  ((s.events.rows.filter fun e => decide (e.ClaimableAt now) && !locked e.id).insertionSort
    Event.Before).take (claimBatch batch)

/-- `events.Event`, the envelope `Claim` scans a row into. -/
structure EventMessage where
  eventID : UUID
  schemaVersion : Int
  tenantID : UUID
  eventType : EventType
  source : String
  entityType : String
  entityID : UUID
  occurredAt : Time
  correlationID : String
  causationID : Option UUID
  payload : List (String × FieldValue)
  publishAttempts : Int

/-- The envelope of a row. -/
def Event.message (e : Event) : EventMessage where
  eventID := e.id
  schemaVersion := e.schemaVersion
  tenantID := e.tenantID
  eventType := e.eventType
  source := e.source
  entityType := "job"
  entityID := e.jobID
  occurredAt := e.createdAt
  correlationID := e.correlationID.getD ""
  causationID := e.causationID
  payload := e.payload
  publishAttempts := e.publishAttempts

/-- The order in which `RETURNING` hands the rows back. -/
def ScannedBefore (scan : UUID → ℕ) (a b : Event) : Prop := scan a.id ≤ scan b.id

instance (scan : UUID → ℕ) : DecidableRel (ScannedBefore scan) :=
  fun _ _ => inferInstanceAs (Decidable (_ ≤ _))

/-- `SET claimed_by=…, claimed_until=…`. -/
def leasedEvent (now : Time) (relayID : String) (lease : Duration) (e : Event) : Event :=
  { e with claimedBy := some relayID, claimedUntil := some (now + wholeSeconds lease * second) }

@[simp] theorem leasedEvent_id (now : Time) (relayID : String) (lease : Duration) (e : Event) :
    (leasedEvent now relayID lease e).id = e.id := rfl

/-- `Claim`. -/
def claimEvents (now : Time) (locked : UUID → Bool) (scan : UUID → ℕ) (relayID : String)
    (batch : Int) (lease : Duration) : OutboxTx (List EventMessage) := do
  let pending ← Tx.read (pendingEvents now locked batch)
  let _ ← updateEvents (fun e => e.id ∈ pending.map fun e => e.id) (leasedEvent now relayID lease)
    (leasedEvent_id now relayID lease)
  pure ((pending.insertionSort (ScannedBefore scan)).map Event.message)

/-! ### Marking and replaying -/

/-- `SET published_at=now(), …` of `MarkPublished`. -/
def publishedEvent (now : Time) (e : Event) : Event :=
  { e with
    publishedAt := some now, publishAttempts := e.publishAttempts + 1, lastPublishError := none
    claimedBy := none, claimedUntil := none }

@[simp] theorem publishedEvent_id (now : Time) (e : Event) : (publishedEvent now e).id = e.id := rfl

/-- `MarkPublished`. -/
def markPublished (now : Time) (id : UUID) (relayID : String) : OutboxTx Unit := do
  let n ← updateEvents (fun e => e.id = id ∧ e.claimedBy = some relayID) (publishedEvent now)
    (publishedEvent_id now)
  Tx.require (n ≠ 0) .leaseLost

/-- The backoff of `MarkFailed`, in seconds: `min(300, 2^attempts)`, truncated. -/
def publishDelay (attempts : Int) : Int := if attempts < 0 then 0 else min 300 (2 ^ attempts.toNat)

/-- `SET publish_attempts=…, last_publish_error=…, next_publish_at=…` of `MarkFailed`. -/
def failedEvent (now : Time) (attempts : Int) (message : String) (e : Event) : Event :=
  { e with
    publishAttempts := e.publishAttempts + 1, lastPublishError := some message
    nextPublishAt := now + publishDelay attempts * second, claimedBy := none, claimedUntil := none }

@[simp] theorem failedEvent_id (now : Time) (attempts : Int) (message : String) (e : Event) :
    (failedEvent now attempts message e).id = e.id := rfl

/-- `MarkFailed`; that no row was touched is not an error. -/
def markFailed (now : Time) (id : UUID) (relayID : String) (attempts : Int) (message : String) :
    OutboxTx Unit := do
  let _ ← updateEvents (fun e => e.id = id ∧ e.claimedBy = some relayID)
    (failedEvent now attempts message) (failedEvent_id now attempts message)
  pure ()

/-- `SET published_at=NULL, …` of `Replay`. -/
def replayedEvent (now : Time) (e : Event) : Event :=
  { e with
    publishedAt := none, nextPublishAt := now, lastPublishError := none, claimedBy := none
    claimedUntil := none }

@[simp] theorem replayedEvent_id (now : Time) (e : Event) : (replayedEvent now e).id = e.id := rfl

/-- `Replay`. -/
def replay (now : Time) (tenantID id : UUID) : OutboxTx Unit := do
  let n ← updateEvents (fun e => e.id = id ∧ e.tenantID = tenantID) (replayedEvent now)
    (replayedEvent_id now)
  Tx.require (n ≠ 0) .noRows

/-! ### Successful statements -/

section Specs

variable {s s' : Store} {u : Unit}

/-- What a `Claim` did: it leased the events it selected, and returned them in the order of the
scan. -/
theorem claimEvents_spec {now : Time} {locked : UUID → Bool} {scan : UUID → ℕ} {relayID : String}
    {batch : Int} {lease : Duration} {items : List EventMessage}
    (h : claimEvents now locked scan relayID batch lease s = .ok (items, s')) :
    s' = { s with
      events := s.events.update
        (fun e => e.id ∈ (pendingEvents now locked batch s).map fun e => e.id)
        (leasedEvent now relayID lease) (leasedEvent_id now relayID lease) } ∧
      items = ((pendingEvents now locked batch s).insertionSort (ScannedBefore scan)).map
        Event.message := by
  simp only [claimEvents, Tx.bind_eq_ok, Tx.read_eq_ok, updateEvents_eq_ok, Tx.pure_eq_ok] at h
  obtain ⟨_, _, ⟨rfl, rfl⟩, n, _, ⟨-, rfl⟩, rfl, rfl⟩ := h
  exact ⟨rfl, rfl⟩

/-- What a successful `MarkPublished` found and did. -/
theorem markPublished_spec {now : Time} {id : UUID} {relayID : String}
    (h : markPublished now id relayID s = .ok (u, s')) :
    ∃ e, s.events.find? id = some e ∧ e.claimedBy = some relayID ∧
      s' = { s with events := s.events.modify id (publishedEvent now) (publishedEvent_id now) } := by
  simp only [markPublished, Tx.bind_eq_ok, updateEvents_eq_ok, Tx.require_eq_ok] at h
  obtain ⟨n, _, ⟨rfl, rfl⟩, hn, rfl⟩ := h
  obtain ⟨e, he, hby⟩ := Table.exists_of_count_key_ne_zero
    (g := fun e : Event => e.claimedBy = some relayID) hn
  refine ⟨e, he, hby, ?_⟩
  rw [← Table.update_key_and he (fun e : Event => e.claimedBy = some relayID) hby]
  rfl

/-- What a `MarkFailed` did: it released the lease of the relay, if the event was still under it. -/
theorem markFailed_spec {now : Time} {id : UUID} {relayID : String} {attempts : Int}
    {message : String} (h : markFailed now id relayID attempts message s = .ok (u, s')) :
    (s' = s ∧ ∀ e, s.events.find? id = some e → e.claimedBy ≠ some relayID) ∨
      ∃ e, s.events.find? id = some e ∧ e.claimedBy = some relayID ∧
        s' = { s with
          events := s.events.modify id (failedEvent now attempts message)
            (failedEvent_id now attempts message) } := by
  simp only [markFailed, Tx.bind_eq_ok, updateEvents_eq_ok, Tx.pure_eq_ok] at h
  obtain ⟨n, _, ⟨hn, rfl⟩, -, rfl⟩ := h
  by_cases h0 : n = 0
  · subst h0
    refine .inl ⟨?_, Table.count_key_eq_zero.1 hn⟩
    rw [Table.update_eq_self (Table.count_eq_zero.1 hn)]
  · obtain ⟨e, he, hby⟩ := Table.exists_of_count_key_ne_zero
      (g := fun e : Event => e.claimedBy = some relayID) (hn.trans_ne h0)
    refine .inr ⟨e, he, hby, ?_⟩
    rw [← Table.update_key_and he (fun e : Event => e.claimedBy = some relayID) hby]
    rfl

/-- What a successful `Replay` found and did. -/
theorem replay_spec {now : Time} {tenantID id : UUID} (h : replay now tenantID id s = .ok (u, s')) :
    ∃ e, s.events.find? id = some e ∧ e.tenantID = tenantID ∧
      s' = { s with events := s.events.modify id (replayedEvent now) (replayedEvent_id now) } := by
  simp only [replay, Tx.bind_eq_ok, updateEvents_eq_ok, Tx.require_eq_ok] at h
  obtain ⟨n, _, ⟨rfl, rfl⟩, hn, rfl⟩ := h
  obtain ⟨e, he, ht⟩ := Table.exists_of_count_key_ne_zero
    (g := fun e : Event => e.tenantID = tenantID) hn
  refine ⟨e, he, ht, ?_⟩
  rw [← Table.update_key_and he (fun e : Event => e.tenantID = tenantID) ht]
  rfl

end Specs

/-! ### The relay -/

/-- The claim window `NewRelay` sets. -/
def relayLease : Duration := 30 * second

/-- Where a relay is in `publishBatch`. -/
inductive Relay where
  /-- About to publish the head; between two batches when nothing is left. -/
  | publishing (rest : List EventMessage)
  /-- `Publish` failed; about to call `MarkFailed`. -/
  | failing (event : EventMessage) (message : String) (rest : List EventMessage)
  /-- `Publish` succeeded; about to call `MarkPublished`. -/
  | delivered (event : EventMessage) (rest : List EventMessage)

/-- The events of the batch a relay has not finished with. -/
def Relay.batch : Relay → List EventMessage
  | .publishing rest => rest
  | .failing event _ rest => event :: rest
  | .delivered event rest => event :: rest

end JobScheduler
