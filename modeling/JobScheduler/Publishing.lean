import JobScheduler.Library.Calendar
import JobScheduler.Outbox
import JobScheduler.Webhook

/-!
# Publishing: the partition of an event, and the record of a failure

What becomes of one event that a relay hands to Kafka (`internal/kafka/producer.go`), and what is
written about it when that fails (`truncate` and `MarkFailed` of `internal/outbox/outbox.go`).

The writer is `kafka-go`'s, with its `LeastBytes` balancer: it counts the bytes it has sent to each
partition and picks one with the fewest, whatever the key of the message.  Every relay is a process with
a writer of its own.  The bytes count when the partition is picked, whether or not they reach the broker.

* `jobs_in_order_iff` — the events of a job share a partition, in the order they were published, in
  every run if and only if the topic has one partition.
* `EventMessage.marshal` — the JSON of an event, as it is sent.
* `truncation_kept_iff` — the shortened message of an error is text that `MarkFailed` can store if and
  only if the cut does not fall inside a character and no zero byte comes before it.
-/

namespace JobScheduler

open KeyedTable Transaction

/-! ### The JSON of an event -/

deriving instance DecidableEq for EventMessage

/-- `event_type` as text. -/
def EventType.text : EventType → String
  | .created => "job.created"
  | .requeued => "job.requeued"
  | .started => "job.started"
  | .completed => "job.completed"
  | .named status => "job." ++ status.text.toLower

/-- A JSON string. -/
def jsonString (s : String) : List UInt8 := Json.quote (Utf8.encode s.toList)

/-- `Time.MarshalJSON`. -/
def jsonTime (t : Time) : Option (List UInt8) :=
  (Calendar.rfc3339Nano t).map fun text => 0x22 :: text ++ [0x22]

/-- A JSON object. -/
def jsonObject (members : List (String × List UInt8)) : List UInt8 :=
  Json.text "\x7b" ++ ((members.map fun m => jsonString m.1 ++ 0x3A :: m.2).intersperse [0x2C]).flatten
    ++ Json.text "\x7d"

def FieldValue.marshal : FieldValue → Option (List UInt8)
  | .text s => some (jsonString s)
  | .number n => some (Json.itoa n)
  | .bool b => some (Json.boolText b)
  | .time t => jsonTime t
  | .uuid u => some (jsonString (UUID.text u))
  | .status s => some (jsonString s.text)

/-- The order of the keys of a `jsonb` object: the shorter key first. -/
def jsonbBefore (a b : String × FieldValue) : Prop :=
  a.1.utf8ByteSize < b.1.utf8ByteSize ∨ (a.1.utf8ByteSize = b.1.utf8ByteSize ∧ a.1 ≤ b.1)

instance : DecidableRel jsonbBefore := fun _ _ => inferInstanceAs (Decidable (_ ∨ (_ ∧ _)))

/-- The `payload` column of an event, compacted. -/
def marshalPayload (payload : List (String × FieldValue)) : Option (List UInt8) :=
  ((payload.insertionSort jsonbBefore).mapM fun (m : String × FieldValue) =>
    m.2.marshal.map (m.1, ·)).map jsonObject

/-- `json.Marshal` of `events.Event`. -/
def EventMessage.marshal (event : EventMessage) : Option (List UInt8) := do
  let occurredAt ← jsonTime event.occurredAt
  let payload ← marshalPayload event.payload
  pure (jsonObject ([("event_id", jsonString (UUID.text event.eventID)),
      ("schema_version", Json.itoa event.schemaVersion),
      ("tenant_id", jsonString (UUID.text event.tenantID)),
      ("event_type", jsonString event.eventType.text), ("source", jsonString event.source),
      ("entity_type", jsonString event.entityType),
      ("entity_id", jsonString (UUID.text event.entityID)), ("occurred_at", occurredAt)]
    ++ (if event.correlationID = "" then [] else [("correlation_id", jsonString event.correlationID)])
    ++ (event.causationID.map fun id => ("causation_id", jsonString (UUID.text id))).toList
    ++ [("payload", payload)]))

/-! ### Kafka -/

/-- `kafka.LeastBytes` over `p` partitions: one with the fewest bytes; which one of several is left
open. -/
structure LeastBytes (p : ℕ) where
  pick : (Fin p → ℕ) → Fin p
  least : ∀ (sent : Fin p → ℕ) (q : Fin p), sent (pick sent) ≤ sent q

/-- The bytes each relay's writer has sent to a partition, and what the partitions hold, oldest
first. -/
structure Topic (p : ℕ) where
  sent : String → Fin p → ℕ
  log : Fin p → List EventMessage

/-- A new topic. -/
def Topic.empty (p : ℕ) : Topic p := ⟨fun _ _ => 0, fun _ => []⟩

section

variable {p : ℕ} (marshal : EventMessage → Option (List UInt8)) (balancer : LeastBytes p)

/-- The size of a message: its key, the text of the entity's ID, and its value. -/
def messageSize (event : EventMessage) (body : List UInt8) : ℕ :=
  (UUID.text event.entityID).utf8ByteSize + body.length

/-- A call of `Publish`, and whether `WriteMessages` gets its message to the broker. -/
structure PublishCall where
  relayID : String
  event : EventMessage
  written : Bool

/-- `Publish` of the producer of a relay; an event that `json.Marshal` refuses is not sent. -/
def Topic.publish (topic : Topic p) (call : PublishCall) : Topic p :=
  match marshal call.event with
  | none => topic
  | some body =>
    let sent := topic.sent call.relayID
    let q := balancer.pick sent
    { sent := Function.update topic.sent call.relayID
        (Function.update sent q (sent q + messageSize call.event body))
      log := if call.written then Function.update topic.log q (topic.log q ++ [call.event])
        else topic.log }

/-- A sequence of calls of `Publish`. -/
def Topic.publishAll (topic : Topic p) (calls : List PublishCall) : Topic p :=
  calls.foldl (fun topic call => topic.publish marshal balancer call) topic

/-- The call got its event into the topic. -/
def PublishCall.sent (call : PublishCall) : Bool := (marshal call.event).isSome && call.written

/-- The events of a sequence of calls that were sent, for one entity. -/
def sentFor (entityID : UUID) (calls : List PublishCall) : List EventMessage :=
  ((calls.filter (PublishCall.sent marshal)).map PublishCall.event).filter fun e =>
    decide (e.entityID = entityID)

end

/-- The events of a job are in one partition, in the order of their publication. -/
structure JobsInOrder {p : ℕ} (marshal : EventMessage → Option (List UInt8)) (topic : Topic p)
    (calls : List PublishCall) : Prop where
  together : ∀ q q' e e', e ∈ topic.log q → e' ∈ topic.log q' → e.entityID = e'.entityID → q = q'
  ordered : ∀ q e, e ∈ topic.log q →
    (topic.log q).filter (fun e' => decide (e'.entityID = e.entityID)) = sentFor marshal e.entityID calls

section

variable {p : ℕ} {marshal : EventMessage → Option (List UInt8)} {balancer : LeastBytes p}

theorem publish_of_none {topic : Topic p} {call : PublishCall} (h : marshal call.event = none) :
    topic.publish marshal balancer call = topic := by
  simp only [Topic.publish, h]

theorem publish_of_some {topic : Topic p} {call : PublishCall} {body : List UInt8}
    (h : marshal call.event = some body) :
    topic.publish marshal balancer call =
      { sent := Function.update topic.sent call.relayID (Function.update (topic.sent call.relayID)
          (balancer.pick (topic.sent call.relayID))
          (topic.sent call.relayID (balancer.pick (topic.sent call.relayID))
            + messageSize call.event body))
        log := if call.written then Function.update topic.log (balancer.pick (topic.sent call.relayID))
            (topic.log (balancer.pick (topic.sent call.relayID)) ++ [call.event])
          else topic.log } := by
  simp only [Topic.publish, h]

theorem messageSize_pos (event : EventMessage) (body : List UInt8) : 0 < messageSize event body := by
  have hkey : (UUID.text event.entityID).utf8ByteSize ≠ 0 := by
    rw [ne_eq, String.utf8ByteSize_eq_zero_iff]
    intro hempty
    have hlist := congrArg String.toList hempty
    simp [UUID.text] at hlist
  unfold messageSize
  omega

end

/-- With one partition, its log is the sequence of what was sent. -/
theorem log_publishAll_one {marshal : EventMessage → Option (List UInt8)} (balancer : LeastBytes 1)
    (calls : List PublishCall) (topic : Topic 1) :
    (topic.publishAll marshal balancer calls).log 0
      = topic.log 0 ++ (calls.filter (PublishCall.sent marshal)).map PublishCall.event := by
  induction calls generalizing topic with
  | nil => simp [Topic.publishAll]
  | cons call calls ih =>
    have hstep : topic.publishAll marshal balancer (call :: calls)
        = (topic.publish marshal balancer call).publishAll marshal balancer calls := rfl
    rw [hstep, ih]
    cases hbody : marshal call.event with
    | none => simp [publish_of_none hbody, PublishCall.sent, hbody]
    | some body =>
      have hpick : balancer.pick (topic.sent call.relayID) = 0 := Subsingleton.elim _ _
      cases hwritten : call.written with
      | false => simp [publish_of_some hbody, PublishCall.sent, hbody, hwritten]
      | true => simp [publish_of_some hbody, hpick, PublishCall.sent, hbody, hwritten]

theorem jobsInOrder_one (marshal : EventMessage → Option (List UInt8)) (balancer : LeastBytes 1)
    (calls : List PublishCall) :
    JobsInOrder marshal ((Topic.empty 1).publishAll marshal balancer calls) calls where
  together := fun _ _ _ _ _ _ _ => Subsingleton.elim _ _
  ordered := by
    intro q e _
    obtain rfl : q = 0 := Subsingleton.elim _ _
    rw [log_publishAll_one]
    rfl

/-- With two partitions or more, an event that is published twice is in two of them: after the first
time its partition has more bytes than another. -/
theorem scattered {p : ℕ} (hp : 1 < p) {marshal : EventMessage → Option (List UInt8)}
    (balancer : LeastBytes p) (relayID : String) {event : EventMessage} {body : List UInt8}
    (hbody : marshal event = some body) :
    ∃ q q', q ≠ q' ∧
      event ∈ ((Topic.empty p).publishAll marshal balancer
        [⟨relayID, event, true⟩, ⟨relayID, event, true⟩]).log q ∧
      event ∈ ((Topic.empty p).publishAll marshal balancer
        [⟨relayID, event, true⟩, ⟨relayID, event, true⟩]).log q' := by
  let first := balancer.pick fun _ => 0
  let sent : Fin p → ℕ := Function.update (fun _ => 0) first (0 + messageSize event body)
  have hother : ∃ q, q ≠ first := by
    have : Nontrivial (Fin p) := Fin.nontrivial_iff_two_le.2 hp
    exact exists_ne first
  obtain ⟨other, hne⟩ := hother
  have hzero : sent other = 0 := Function.update_of_ne hne _ _
  have hfull : 0 < sent first := by
    have hpos := messageSize_pos event body
    have hsent : sent first = 0 + messageSize event body := Function.update_self _ _ _
    omega
  have hsecond : balancer.pick sent ≠ first := by
    intro heq
    have hleast := balancer.least sent other
    rw [heq] at hleast
    omega
  have hlog : ((Topic.empty p).publishAll marshal balancer
        [⟨relayID, event, true⟩, ⟨relayID, event, true⟩]).log
      = Function.update (Function.update (fun _ => []) first [event]) (balancer.pick sent) [event] := by
    have hcall : marshal (PublishCall.mk relayID event true).event = some body := hbody
    simp only [Topic.publishAll, List.foldl_cons, List.foldl_nil, publish_of_some hcall, Topic.empty,
      Function.update_self, List.nil_append, if_true]
    rw [Function.update_of_ne hsecond, List.nil_append]
  refine ⟨first, balancer.pick sent, hsecond.symm, ?_, ?_⟩
  · rw [hlog, Function.update_of_ne hsecond.symm, Function.update_self]
    exact List.mem_singleton_self event
  · rw [hlog, Function.update_self]
    exact List.mem_singleton_self event

/-- Whichever way the balancer breaks ties: the events of every job stay together and in order in every
run if and only if the topic has one partition. -/
theorem jobs_in_order_iff {p : ℕ} (balancer : LeastBytes p)
    {marshal : EventMessage → Option (List UInt8)} {event : EventMessage} {body : List UInt8}
    (hmarshal : marshal event = some body) :
    (∀ calls, JobsInOrder marshal ((Topic.empty p).publishAll marshal balancer calls) calls)
      ↔ p = 1 := by
  constructor
  · intro h
    by_contra hne
    have hp : 1 < p := by
      have hpos : 0 < p := (balancer.pick fun _ => 0).pos
      omega
    obtain ⟨q, q', hqq, hq, hq'⟩ := scattered hp balancer "" hmarshal
    exact hqq ((h _).together q q' event event hq hq' rfl)
  · rintro rfl
    exact jobsInOrder_one marshal balancer

namespace Demo

/-- `LeastBytes` as `kafka-go` has it: the first of the partitions with the fewest bytes, of two. -/
def firstOfTwo : LeastBytes 2 where
  pick := fun sent => if sent 1 < sent 0 then 1 else 0
  least := by
    intro sent q
    match q with
    | 0 => split <;> omega
    | 1 => split <;> omega

/-- The only partition. -/
def onlyOne : LeastBytes 1 := ⟨fun _ => 0, fun _ q => by rw [Subsingleton.elim q 0]⟩

/-- The first two events of a job. -/
def created : EventMessage :=
  ⟨1, 1, 7, .created, "scheduler-api", "job", 100, 0, "", none,
    [("status", .status .pending), ("run_at", .time 0), ("priority", .number 5)], 0⟩

def started : EventMessage :=
  ⟨2, 1, 7, .started, "worker", "job", 100, 1, "", none,
    [("worker_id", .text "a"), ("attempt_number", .number 1)], 0⟩

def twoOfOneJob : List PublishCall := [⟨"r", created, true⟩, ⟨"r", started, true⟩]

end Demo

/-- One event of a job after the other, and they are in two partitions. -/
theorem job_over_two_partitions :
    ((Topic.empty 2).publishAll EventMessage.marshal Demo.firstOfTwo Demo.twoOfOneJob).log 0
        = [Demo.created]
    ∧ ((Topic.empty 2).publishAll EventMessage.marshal Demo.firstOfTwo Demo.twoOfOneJob).log 1
        = [Demo.started]
    ∧ ¬JobsInOrder EventMessage.marshal
        ((Topic.empty 2).publishAll EventMessage.marshal Demo.firstOfTwo Demo.twoOfOneJob)
        Demo.twoOfOneJob := by
  have hzero : ((Topic.empty 2).publishAll EventMessage.marshal Demo.firstOfTwo Demo.twoOfOneJob).log 0
      = [Demo.created] := by decide +kernel
  have hone : ((Topic.empty 2).publishAll EventMessage.marshal Demo.firstOfTwo Demo.twoOfOneJob).log 1
      = [Demo.started] := by decide +kernel
  refine ⟨hzero, hone, fun h => ?_⟩
  have hsame := h.together 0 1 Demo.created Demo.started (by rw [hzero]; exact List.mem_singleton_self _)
    (by rw [hone]; exact List.mem_singleton_self _) rfl
  exact absurd hsame (by decide)

/-- The same two events in a topic of one partition. -/
theorem jobs_in_order_iff_only :
    (EventMessage.marshal Demo.created).isSome = true ∧
      JobsInOrder EventMessage.marshal
        ((Topic.empty 1).publishAll EventMessage.marshal Demo.onlyOne Demo.twoOfOneJob)
        Demo.twoOfOneJob := by
  have hsome : (EventMessage.marshal Demo.created).isSome = true := by decide +kernel
  obtain ⟨body, hbody⟩ := Option.isSome_iff_exists.1 hsome
  exact ⟨hsome, (jobs_in_order_iff Demo.onlyOne hbody).2 rfl Demo.twoOfOneJob⟩

/-! ### The record of a failure -/

/-- `truncate`: a string is its bytes. -/
def truncate (value : List UInt8) (limit : ℕ) : List UInt8 :=
  if value.length > limit then value.take limit else value

/-- `MarkFailed` with the bytes of its message: a `TEXT` parameter has to be text. -/
def markFailedText (now : Time) (id : UUID) (relayID : String) (attempts : Int)
    (message : List UInt8) : OutboxTx Unit :=
  if Utf8.Storable message then markFailed now id relayID attempts (RawMessage.ofBytes message)
  else Tx.abort .invalidText

/-- What `publishBatch` counts on when it shortens the message of a failed publication. -/
structure TruncationKept (value : List UInt8) (limit : ℕ) : Prop where
  initial : truncate value limit <+: value
  short : (truncate value limit).length ≤ limit
  valid : Utf8.Valid (truncate value limit)
  /-- `MarkFailed` of an event under the lease of the relay releases it with the backoff. -/
  recorded : ∀ (now : Time) (id : UUID) (relayID : String) (attempts : Int) (s : Store) (e : Event),
    s.events.find? id = some e → e.claimedBy = some relayID →
    ∃ s', markFailedText now id relayID attempts (truncate value limit) s = .ok ((), s') ∧
      s'.events.find? id
        = some (failedEvent now attempts (RawMessage.ofBytes (truncate value limit)) e)

theorem truncate_eq_take (value : List UInt8) (limit : ℕ) : truncate value limit = value.take limit := by
  unfold truncate
  split
  · rfl
  · rw [List.take_of_length_le (by omega)]

/-- `MarkFailed` finds the row of the lease. -/
theorem markFailed_recorded (now : Time) {id : UUID} {relayID : String} (attempts : Int)
    (message : String) {s : Store} {e : Event} (he : s.events.find? id = some e)
    (hby : e.claimedBy = some relayID) :
    ∃ s', markFailed now id relayID attempts message s = .ok ((), s') ∧
      s'.events.find? id = some (failedEvent now attempts message e) := by
  obtain ⟨s', hs'⟩ : ∃ s', markFailed now id relayID attempts message s = .ok ((), s') := ⟨_, rfl⟩
  refine ⟨s', hs', ?_⟩
  rcases markFailed_spec hs' with ⟨-, hlost⟩ | ⟨-, -, -, rfl⟩
  · exact absurd hby (hlost e he)
  · exact Table.find?_modify_self he _ (failedEvent_id now attempts message)

theorem markFailedText_of_storable {message : List UInt8} (h : Utf8.Storable message) (now : Time)
    (id : UUID) (relayID : String) (attempts : Int) :
    markFailedText now id relayID attempts message
      = markFailed now id relayID attempts (RawMessage.ofBytes message) := if_pos h

theorem markFailedText_of_not_storable {message : List UInt8} (h : ¬Utf8.Storable message) (now : Time)
    (id : UUID) (relayID : String) (attempts : Int) (s : Store) :
    markFailedText now id relayID attempts message s = .error .invalidText := by
  rw [markFailedText, if_neg h]
  rfl

namespace Demo

/-- The first event, under the lease of the relay `r`. -/
def leasedRow : Event :=
  ⟨1, 100, 7, .created, "scheduler-api", [], 1, 0, none, none, none, 0, 0, none, some "r", some 30⟩

/-- A store with that event. -/
def leasedStore : Store := { Store.empty with events := ⟨[leasedRow], List.nodup_singleton _⟩ }

end Demo

/-- What is recorded for every event is recorded for one. -/
theorem TruncationKept.storable {value : List UInt8} {limit : ℕ} (h : TruncationKept value limit) :
    Utf8.Storable (truncate value limit) := by
  by_contra hrefused
  obtain ⟨s', hs', -⟩ := h.recorded 0 1 "r" 0 Demo.leasedStore Demo.leasedRow rfl rfl
  rw [markFailedText_of_not_storable hrefused] at hs'
  cases hs'

/-- For every message that is text, and every limit. -/
theorem truncation_kept_iff {value : List UInt8} (hvalid : Utf8.Valid value) (limit : ℕ) :
    TruncationKept value limit ↔
      (∀ b, value[limit]? = some b → Utf8.isTail b = false) ∧ 0 ∉ value.take limit := by
  rw [← Utf8.valid_take_iff hvalid, ← truncate_eq_take]
  constructor
  · exact fun h => h.storable
  · intro hcut
    refine ⟨?_, ?_, hcut.1, ?_⟩
    · rw [truncate_eq_take]
      exact List.take_prefix limit value
    · rw [truncate_eq_take]
      exact List.length_take_le limit value
    · intro now id relayID attempts s e he hby
      rw [markFailedText_of_storable hcut]
      exact markFailed_recorded now attempts _ he hby

/-- A message that ends with a letter of two bytes, cut after the letter and before it. -/
theorem truncation_kept_iff_accent : TruncationKept [0x61, 0xC3, 0xA9] 3
    ∧ TruncationKept [0x61, 0xC3, 0xA9] 1 := by
  have hlead : Utf8.isTail 0xC3 = false := by decide
  refine ⟨(truncation_kept_iff (by decide) 3).2 ⟨by simp, by decide⟩,
    (truncation_kept_iff (by decide) 1).2 ⟨fun b hb => ?_, by decide⟩⟩
  cases hb
  exact hlead

/-- The limit of `publishBatch` inside a letter: `MarkFailed` is refused for every event, and nothing is
recorded. -/
theorem truncation_splits_letter :
    Utf8.Valid (List.replicate 999 0x61 ++ [0xC3, 0xA9])
    ∧ ¬TruncationKept (List.replicate 999 0x61 ++ [0xC3, 0xA9]) 1000
    ∧ ∀ (now : Time) (id : UUID) (relayID : String) (attempts : Int) (s : Store),
        markFailedText now id relayID attempts
          (truncate (List.replicate 999 0x61 ++ [0xC3, 0xA9]) 1000) s = .error .invalidText := by
  have hcut : ¬Utf8.Valid (truncate (List.replicate 999 0x61 ++ [0xC3, 0xA9]) 1000) := by
    decide +kernel
  exact ⟨by decide +kernel, fun h => hcut h.valid,
    markFailedText_of_not_storable fun h => hcut h.1⟩

end JobScheduler
