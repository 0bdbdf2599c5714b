import JobScheduler.EventInserts
import JobScheduler.Labels

/-!
# At-least-once delivery

A relay leases events, publishes them one by one and marks each; every statement commits on its own,
and between any two of them other relays, `Replay`, an expiry or a crash can come.  The record of
deliveries has the claims, the successful publications and the replays in their order, and the rows
are compared with it:

* `holder` — whose claim of an event is the latest, if no `Replay` came after it; a row that names a
  relay in `claimed_by` names the holder (`Relayed.leased`).
* `Delivered` — a publication that succeeded in a claim made after the last `Replay`; every row with
  `published_at` has one (`Relayed.published`).
* `LostLease` — the relay's claim of an event has been superseded; then its marks change nothing.

`delivery_at_least_once` collects this for every reachable state.
-/

namespace JobScheduler

open KeyedTable Transaction TransitionSystem

variable {cfg : DeploymentConfig} {p p' : Deployment} {r : String} {e : UUID}
  {D D' later mid older : List Delivery}

/-! ### What a relay step did -/

/-- The same deployment over other events. -/
def Deployment.withEvents (p : Deployment) (events : Table Event) : Deployment :=
  { p with cluster := { p.cluster with store := { p.store with events := events } } }

/-- The same deployment after one more entry of the record. -/
def Deployment.delivering (p : Deployment) (d : Delivery) : Deployment :=
  { p with deliveries := d :: p.deliveries }

/-- The events with the selected ones leased. -/
def Store.leased (s : Store) (now : Time) (r : String) (selected : List Event) : Table Event :=
  s.events.update (fun ev => ev.id ∈ selected.map fun ev => ev.id) (leasedEvent now r relayLease)
    (leasedEvent_id now r relayLease)

/-- The steps of a relay, with what they found and what they changed. -/
inductive RelayStep (batch : Int) (r : String) (p : Deployment) : RelayAct → Deployment → Prop where
  /-- `Claim` failed. -/
  | unclaimed {now : Time} {locked : UUID → Bool} {scan : UUID → ℕ} {link : Link}
      (hr : p.relays r = .publishing []) :
      RelayStep batch r p (.claim now locked scan link) (p.setRelay r (.publishing []))
  /-- `Claim` committed; its batch is lost when its answer is. -/
  | claimed {now : Time} {locked : UUID → Bool} {scan : UUID → ℕ} {link : Link}
      {items rest : List EventMessage} (hr : p.relays r = .publishing [])
      (hitems : items = ((pendingEvents now locked batch p.store).insertionSort
        (ScannedBefore scan)).map Event.message)
      (hrest : rest = items ∨ rest = []) :
      RelayStep batch r p (.claim now locked scan link)
        (((p.withEvents (p.store.leased now r (pendingEvents now locked batch p.store))).delivering
          (.claimed r (items.map fun m => m.eventID))).setRelay r (.publishing rest))
  /-- `Publish` succeeded. -/
  | delivered {m : EventMessage} {rest : List EventMessage}
      (hr : p.relays r = .publishing (m :: rest)) :
      RelayStep batch r p (.publish none)
        ((p.delivering (.published r m.eventID)).setRelay r (.delivered m rest))
  /-- `Publish` failed. -/
  | failed {message : String} {m : EventMessage} {rest : List EventMessage}
      (hr : p.relays r = .publishing (m :: rest)) :
      RelayStep batch r p (.publish (some message)) (p.setRelay r (.failing m message rest))
  /-- `Publish` failed after the broker had taken the message. -/
  | unacknowledged {message : String} {m : EventMessage} {rest : List EventMessage}
      (hr : p.relays r = .publishing (m :: rest)) :
      RelayStep batch r p (.unacknowledged message)
        ((p.delivering (.unacknowledged r m.eventID)).setRelay r (.failing m message rest))
  /-- `MarkFailed` failed, or found no row under the relay's lease. -/
  | unmarked {now : Time} {link : Link} {message : String} {m : EventMessage}
      {rest : List EventMessage} (hr : p.relays r = .failing m message rest) :
      RelayStep batch r p (.markFailed now link) (p.setRelay r (.publishing rest))
  /-- `MarkFailed` put the event back. -/
  | markedFailed {now : Time} {link : Link} {message : String} {m : EventMessage}
      {rest : List EventMessage} {ev : Event} (hr : p.relays r = .failing m message rest)
      (hev : p.store.events.find? m.eventID = some ev) (hby : ev.claimedBy = some r) :
      RelayStep batch r p (.markFailed now link)
        ((p.withEvents (p.store.events.modify m.eventID (failedEvent now m.publishAttempts message)
          (failedEvent_id now m.publishAttempts message))).setRelay r (.publishing rest))
  /-- `MarkPublished` failed: the batch ends. -/
  | refused {now : Time} {link : Link} {m : EventMessage} {rest : List EventMessage}
      (hr : p.relays r = .delivered m rest) :
      RelayStep batch r p (.markPublished now link) (p.setRelay r (.publishing []))
  /-- `MarkPublished` marked the event; the batch ends when the answer is lost. -/
  | markedPublished {now : Time} {link : Link} {m : EventMessage} {rest rest' : List EventMessage}
      {ev : Event} (hr : p.relays r = .delivered m rest)
      (hev : p.store.events.find? m.eventID = some ev) (hby : ev.claimedBy = some r)
      (hrest : rest' = rest ∨ rest' = []) :
      RelayStep batch r p (.markPublished now link)
        ((p.withEvents (p.store.events.modify m.eventID (publishedEvent now)
          (publishedEvent_id now))).setRelay r (.publishing rest'))

/-- **Inversion.**  Every step of a relay is one of these. -/
theorem relayStep_cases {batch : Int} {a : RelayAct} (h : relayStep batch p r a = some p') :
    RelayStep batch r p a p' := by
  cases a with
  | claim now locked scan link =>
    simp only [relayStep] at h
    split at h
    · rename_i hr
      obtain rfl := Option.some.inj h
      rcases (claimEvents now locked scan r batch relayLease).commit_outcome link .connection p.store
        with ⟨e, ho⟩ | ⟨items, st, ht, ho⟩
      · rw [ho]
        exact .unclaimed hr
      · obtain ⟨rfl, hitems⟩ := claimEvents_spec ht
        rcases ho with ho | ho
        · rw [ho]
          exact .claimed hr hitems (.inl rfl)
        · rw [ho]
          exact .claimed hr hitems (.inr rfl)
    · cases h
  | publish error =>
    simp only [relayStep] at h
    split at h
    · rename_i m rest hr
      split at h
      · obtain rfl := Option.some.inj h
        exact .delivered hr
      · obtain rfl := Option.some.inj h
        exact .failed hr
    · cases h
  | unacknowledged message =>
    simp only [relayStep] at h
    split at h
    · rename_i m rest hr
      obtain rfl := Option.some.inj h
      exact .unacknowledged hr
    · cases h
  | markFailed now link =>
    simp only [relayStep] at h
    split at h
    · rename_i m message rest hr
      obtain rfl := Option.some.inj h
      rcases (markFailed now m.eventID r m.publishAttempts message).commit_outcome link .connection
        p.store with ⟨e, ho⟩ | ⟨u, st, ht, ho⟩
      · rw [ho]
        exact .unmarked hr
      · -- the answer is dropped, so it makes no difference whether it arrives
        have hstep : RelayStep batch r p (.markFailed now link)
            (({ p with cluster := { p.cluster with store := st } } : Deployment).setRelay r
              (.publishing rest)) := by
          rcases markFailed_spec ht with ⟨rfl, -⟩ | ⟨ev, hev, hby, rfl⟩
          · exact .unmarked hr
          · exact .markedFailed hr hev hby
        rcases ho with ho | ho
        · rw [ho]
          exact hstep
        · rw [ho]
          exact hstep
    · cases h
  | markPublished now link =>
    simp only [relayStep] at h
    split at h
    · rename_i m rest hr
      obtain rfl := Option.some.inj h
      rcases (markPublished now m.eventID r).commit_outcome link .connection p.store with
        ⟨e, ho⟩ | ⟨u, st, ht, ho⟩
      · rw [ho]
        exact .refused hr
      · obtain ⟨ev, hev, hby, rfl⟩ := markPublished_spec ht
        rcases ho with ho | ho
        · rw [ho]
          exact .markedPublished hr hev hby (.inl rfl)
        · rw [ho]
          exact .markedPublished hr hev hby (.inr rfl)
    · cases h

/-! ### The record -/

/-- The relay whose claim of the event is the latest, unless a `Replay` came after it. -/
def holder (e : UUID) : List Delivery → Option String
  | [] => none
  | .claimed r ids :: D => if e ∈ ids then some r else holder e D
  | .published _ _ :: D => holder e D
  | .unacknowledged _ _ :: D => holder e D
  | .replayed e' :: D => if e' = e then none else holder e D

/-- The latest claim of the relay has the event. -/
def InClaim (r : String) (e : UUID) (D : List Delivery) : Prop :=
  ∃ mid ids older, D = mid ++ .claimed r ids :: older ∧ e ∈ ids ∧ ∀ ids', .claimed r ids' ∉ mid

/-- In its latest claim the relay published the event. -/
def PublishedIn (r : String) (e : UUID) (D : List Delivery) : Prop :=
  ∃ later mid ids older, D = later ++ .published r e :: (mid ++ .claimed r ids :: older) ∧ e ∈ ids ∧
    ∀ ids', .claimed r ids' ∉ later ++ mid

/-- The event was published in a claim made after its latest `Replay`. -/
def Delivered (e : UUID) (D : List Delivery) : Prop :=
  ∃ r later mid ids older, D = later ++ .published r e :: (mid ++ .claimed r ids :: older) ∧
    e ∈ ids ∧ (∀ ids', .claimed r ids' ∉ mid) ∧ .replayed e ∉ later ++ mid

/-- Since the latest claim of the relay the event was claimed by another one, or replayed. -/
def LostLease (r : String) (e : UUID) (D : List Delivery) : Prop :=
  ∃ mid older, D = mid ++ older ∧ (∀ ids, .claimed r ids ∉ mid) ∧
    (.replayed e ∈ mid ∨ ∃ r' ids, .claimed r' ids ∈ mid ∧ e ∈ ids)

theorem InClaim.cons (h : InClaim r e D) {d : Delivery} (hd : ∀ ids, d ≠ .claimed r ids) :
    InClaim r e (d :: D) := by
  obtain ⟨mid, ids, older, rfl, he, hno⟩ := h
  refine ⟨d :: mid, ids, older, rfl, he, ?_⟩
  intro ids' hm
  rcases List.mem_cons.1 hm with heq | hm
  · exact hd ids' heq.symm
  · exact hno ids' hm

theorem PublishedIn.cons (h : PublishedIn r e D) {d : Delivery} (hd : ∀ ids, d ≠ .claimed r ids) :
    PublishedIn r e (d :: D) := by
  obtain ⟨later, mid, ids, older, rfl, he, hno⟩ := h
  refine ⟨d :: later, mid, ids, older, rfl, he, ?_⟩
  intro ids' hm
  rcases List.mem_cons.1 hm with heq | hm
  · exact hd ids' heq.symm
  · exact hno ids' hm

theorem Delivered.cons (h : Delivered e D) {d : Delivery} (hd : d ≠ .replayed e) :
    Delivered e (d :: D) := by
  obtain ⟨r, later, mid, ids, older, rfl, he, hno, hrep⟩ := h
  refine ⟨r, d :: later, mid, ids, older, rfl, he, hno, ?_⟩
  intro hm
  rcases List.mem_cons.1 hm with heq | hm
  · exact hd heq.symm
  · exact hrep hm

theorem InClaim.publish (h : InClaim r e D) : PublishedIn r e (.published r e :: D) := by
  obtain ⟨mid, ids, older, rfl, he, hno⟩ := h
  exact ⟨[], mid, ids, older, rfl, he, hno⟩

/-- While a relay holds an event, nothing but its own claims touched the lease. -/
theorem holder_append (hh : holder e (mid ++ D) = some r) (hno : ∀ ids, .claimed r ids ∉ mid) :
    holder e D = some r ∧ .replayed e ∉ mid ∧ ∀ r' ids, .claimed r' ids ∈ mid → e ∉ ids := by
  induction mid with
  | nil => exact ⟨hh, by simp, by simp⟩
  | cons d mid ih =>
    have hno' : ∀ ids, .claimed r ids ∉ mid := fun ids hm => hno ids (List.mem_cons_of_mem _ hm)
    cases d with
    | claimed r' ids =>
      rw [List.cons_append, holder] at hh
      by_cases he : e ∈ ids
      · rw [if_pos he] at hh
        obtain rfl := Option.some.inj hh
        exact absurd List.mem_cons_self (hno ids)
      · rw [if_neg he] at hh
        obtain ⟨hD, hrep, hcl⟩ := ih hh hno'
        refine ⟨hD, by simpa using hrep, ?_⟩
        intro r'' ids' hm
        rcases List.mem_cons.1 hm with heq | hm
        · obtain ⟨-, rfl⟩ := Delivery.claimed.inj heq
          exact he
        · exact hcl r'' ids' hm
    | published r' e' =>
      obtain ⟨hD, hrep, hcl⟩ := ih hh hno'
      exact ⟨hD, by simpa using hrep, by simpa using hcl⟩
    | unacknowledged r' e' =>
      obtain ⟨hD, hrep, hcl⟩ := ih hh hno'
      exact ⟨hD, by simpa using hrep, by simpa using hcl⟩
    | replayed e' =>
      rw [List.cons_append, holder] at hh
      by_cases he : e' = e
      · rw [if_pos he] at hh
        cases hh
      · rw [if_neg he] at hh
        obtain ⟨hD, hrep, hcl⟩ := ih hh hno'
        refine ⟨hD, ?_, by simpa using hcl⟩
        simpa [Ne.symm he] using hrep

theorem LostLease.holder_ne (h : LostLease r e D) : holder e D ≠ some r := by
  obtain ⟨mid, older, rfl, hno, hlost⟩ := h
  intro hh
  obtain ⟨-, hrep, hcl⟩ := holder_append hh hno
  rcases hlost with hm | ⟨r', ids, hm, he⟩
  · exact hrep hm
  · exact hcl r' ids hm he

/-- What the holder published in its latest claim counts as delivered. -/
theorem PublishedIn.delivered (h : PublishedIn r e D) (hh : holder e D = some r) : Delivered e D := by
  obtain ⟨later, mid, ids, older, rfl, he, hno⟩ := h
  have hlater : ∀ ids', .claimed r ids' ∉ later := fun ids' hm => hno ids' (List.mem_append_left _ hm)
  have hmid : ∀ ids', .claimed r ids' ∉ mid := fun ids' hm => hno ids' (List.mem_append_right _ hm)
  obtain ⟨hh', hrep, -⟩ := holder_append hh hlater
  have hh' : holder e (mid ++ .claimed r ids :: older) = some r := hh'
  obtain ⟨-, hrep', -⟩ := holder_append hh' hmid
  refine ⟨r, later, mid, ids, older, rfl, he, hmid, ?_⟩
  rw [List.mem_append, not_or]
  exact ⟨hrep, hrep'⟩

/-! ### Rows and memories against the record -/

/-- The row agrees with the record. -/
structure EventSound (D : List Delivery) (ev : Event) : Prop where
  leased : ∀ r, ev.claimedBy = some r → holder ev.id D = some r
  window : ev.claimedBy = none ↔ ev.claimedUntil = none
  published : ev.publishedAt ≠ none → Delivered ev.id D

namespace EventSound

variable {ev ev' : Event}

theorem congr (h : EventSound D ev) (hs : ev.stamp = ev'.stamp) (ho : ev.outbox = ev'.outbox) :
    EventSound D ev' := by
  have hid : ev.id = ev'.id := congrArg Stamp.id hs
  have hby : ev.claimedBy = ev'.claimedBy := congrArg OutboxColumns.claimedBy ho
  have huntil : ev.claimedUntil = ev'.claimedUntil := congrArg OutboxColumns.claimedUntil ho
  have hpub : ev.publishedAt = ev'.publishedAt := congrArg OutboxColumns.publishedAt ho
  refine ⟨?_, ?_, ?_⟩
  · rw [← hid, ← hby]
    exact h.leased
  · rw [← hby, ← huntil]
    exact h.window
  · rw [← hid, ← hpub]
    exact h.published

theorem of_fresh (hf : (ev.stamp, ev.outbox) = ev.stamp.fresh) : EventSound D ev := by
  have ho : ev.outbox = ev.stamp.fresh.2 := congrArg Prod.snd hf
  have hby : ev.claimedBy = none := congrArg OutboxColumns.claimedBy ho
  have huntil : ev.claimedUntil = none := congrArg OutboxColumns.claimedUntil ho
  have hpub : ev.publishedAt = none := congrArg OutboxColumns.publishedAt ho
  refine ⟨by simp [hby], by simp [hby, huntil], by simp [hpub]⟩

/-- An entry that leaves the lease of the event alone and does not replay it. -/
theorem cons (h : EventSound D ev) {d : Delivery} (hh : holder ev.id (d :: D) = holder ev.id D)
    (hd : d ≠ .replayed ev.id) : EventSound (d :: D) ev where
  leased := by
    rw [hh]
    exact h.leased
  window := h.window
  published hp := (h.published hp).cons hd

theorem lease (h : EventSound D ev) {ids : List UUID} (he : ev.id ∈ ids) (now : Time) (r : String) :
    EventSound (.claimed r ids :: D) (leasedEvent now r relayLease ev) where
  leased := by
    intro r' hr'
    have hr : r = r' := Option.some.inj hr'
    rw [leasedEvent_id, holder, if_pos he, hr]
  window := by simp [leasedEvent]
  published hp := (h.published hp).cons (by simp)

theorem fail (h : EventSound D ev) (now : Time) (attempts : Int) (message : String) :
    EventSound D (failedEvent now attempts message ev) where
  leased := by simp [failedEvent]
  window := by simp [failedEvent]
  published := h.published

theorem publish (hd : Delivered ev.id D) (now : Time) : EventSound D (publishedEvent now ev) where
  leased := by simp [publishedEvent]
  window := by simp [publishedEvent]
  published _ := hd

theorem replay (now : Time) : EventSound D (replayedEvent now ev) where
  leased := by simp [replayedEvent]
  window := by simp [replayedEvent]
  published := by simp [replayedEvent]

end EventSound

/-- What the relays remember agrees with the record. -/
structure Remembered (relays : String → Relay) (D : List Delivery) : Prop where
  batch : ∀ r, ∀ m ∈ (relays r).batch, InClaim r m.eventID D
  delivered : ∀ r m rest, relays r = .delivered m rest → PublishedIn r m.eventID D

namespace Remembered

variable {relays : String → Relay}

theorem cons (h : Remembered relays D) {d : Delivery} (hd : ∀ r ids, d ≠ .claimed r ids) :
    Remembered relays (d :: D) where
  batch r m hm := (h.batch r m hm).cons (hd r)
  delivered r m rest hr := (h.delivered r m rest hr).cons (hd r)

theorem set (h : Remembered relays D) {relay : Relay} (hb : ∀ m ∈ relay.batch, InClaim r m.eventID D)
    (hd : ∀ m rest, relay = .delivered m rest → PublishedIn r m.eventID D) :
    Remembered (Function.update relays r relay) D := by
  constructor
  · intro r' m hm
    by_cases hr : r' = r
    · subst hr
      rw [Function.update_self] at hm
      exact hb m hm
    · rw [Function.update_of_ne hr] at hm
      exact h.batch r' m hm
  · intro r' m rest hm
    by_cases hr : r' = r
    · subst hr
      rw [Function.update_self] at hm
      exact hd m rest hm
    · rw [Function.update_of_ne hr] at hm
      exact h.delivered r' m rest hm

/-- A relay that moves on within its batch, or drops it. -/
theorem move (h : Remembered relays D) {rest : List EventMessage}
    (hsub : ∀ m ∈ rest, m ∈ (relays r).batch) :
    Remembered (Function.update relays r (.publishing rest)) D :=
  h.set (fun m hm => h.batch r m (hsub m hm)) (by simp)

theorem claim (h : Remembered relays D) {ids : List UUID} {rest : List EventMessage}
    (hrest : ∀ m ∈ rest, m.eventID ∈ ids) :
    Remembered (Function.update relays r (.publishing rest)) (.claimed r ids :: D) := by
  constructor
  · intro r' m hm
    by_cases hr : r' = r
    · subst hr
      rw [Function.update_self] at hm
      exact ⟨[], ids, D, rfl, hrest m hm, by simp⟩
    · rw [Function.update_of_ne hr] at hm
      exact (h.batch r' m hm).cons (by simp [Ne.symm hr])
  · intro r' m rest' hm
    by_cases hr : r' = r
    · subst hr
      rw [Function.update_self] at hm
      cases hm
    · rw [Function.update_of_ne hr] at hm
      exact (h.delivered r' m rest' hm).cons (by simp [Ne.symm hr])

end Remembered

/-! ### Every step -/

/-- Rows and memories agree with the record. -/
structure Relayed (p : Deployment) : Prop where
  rows : ∀ ev ∈ p.store.events.rows, EventSound p.deliveries ev
  memory : Remembered p.relays p.deliveries

/-- What a `Replay` did. -/
theorem replayStep_cases {tenantID id : UUID} {now : Time} {link : Link}
    (h : deploymentStep cfg p (.replay tenantID id now link) = some p') :
    p' = p ∨ ∃ ev, p.store.events.find? id = some ev ∧
      p' = (p.withEvents (p.store.events.modify id (replayedEvent now)
        (replayedEvent_id now))).delivering (.replayed id) := by
  simp only [deploymentStep] at h
  obtain rfl := Option.some.inj h
  rcases (replay now tenantID id).commit_outcome link .connection p.store with
    ⟨e, ho⟩ | ⟨u, st, ht, ho⟩
  · rw [ho]
    exact .inl rfl
  · obtain ⟨ev, hev, -, rfl⟩ := replay_spec ht
    rcases ho with ho | ho
    · rw [ho]
      exact .inr ⟨ev, hev, rfl⟩
    · rw [ho]
      exact .inr ⟨ev, hev, rfl⟩

theorem Relayed.scheduler (hp : Relayed p) {x : Act} {c : Cluster}
    (h : step cfg.scheduler p.cluster x = some c) : Relayed { p with cluster := c } := by
  refine ⟨?_, hp.memory⟩
  intro ev' hev'
  rcases (step_stamps h).event_cases hev' with ⟨ev, hev, hs, ho⟩ | ⟨-, hf⟩
  · exact (hp.rows ev hev).congr hs ho
  · exact .of_fresh hf

theorem Relayed.relay (hp : Relayed p) {batch : Int} {a : RelayAct} (h : RelayStep batch r p a p') :
    Relayed p' := by
  cases h with
  | unclaimed hr => exact ⟨hp.rows, hp.memory.move (by simp)⟩
  | @claimed now locked scan link items rest hr hitems hrest =>
    have hids : ∀ id, id ∈ (pendingEvents now locked batch p.store).map (fun ev => ev.id) ↔
        id ∈ items.map fun m => m.eventID := by
      intro id
      rw [hitems, List.map_map]
      exact ((List.perm_insertionSort (ScannedBefore scan) _).map _).mem_iff.symm
    refine ⟨?_, hp.memory.claim ?_⟩
    · intro ev' hev'
      rcases Table.mem_update (leasedEvent now r relayLease) (leasedEvent_id now r relayLease) hev' with
        ⟨hold, hno⟩ | ⟨ev, hev, hsel, rfl⟩
      · rw [hids] at hno
        refine (hp.rows ev' hold).cons ?_ (by simp)
        rw [holder, if_neg hno]
      · exact (hp.rows ev hev).lease ((hids ev.id).1 hsel) now r
    · intro m hm
      rcases hrest with rfl | rfl
      · exact List.mem_map_of_mem hm
      · simp at hm
  | @delivered m rest hr =>
    refine ⟨fun ev hev => (hp.rows ev hev).cons rfl (by simp), ?_⟩
    have hin : InClaim r m.eventID p.deliveries := hp.memory.batch r m (by rw [hr]; simp [Relay.batch])
    refine (hp.memory.cons (d := .published r m.eventID) (by simp)).set ?_ ?_
    · intro m' hm'
      refine (hp.memory.batch r m' ?_).cons (by simp)
      rw [hr]
      exact hm'
    · rintro m' rest' heq
      obtain ⟨rfl, -⟩ := Relay.delivered.inj heq
      exact hin.publish
  | @failed message m rest hr =>
    refine ⟨hp.rows, hp.memory.set ?_ (by simp)⟩
    intro m' hm'
    refine hp.memory.batch r m' ?_
    rw [hr]
    exact hm'
  | @unacknowledged message m rest hr =>
    refine ⟨fun ev hev => (hp.rows ev hev).cons rfl (by simp), ?_⟩
    refine (hp.memory.cons (d := .unacknowledged r m.eventID) (by simp)).set ?_ (by simp)
    intro m' hm'
    refine (hp.memory.batch r m' ?_).cons (by simp)
    rw [hr]
    exact hm'
  | @unmarked now link message m rest hr =>
    exact ⟨hp.rows, hp.memory.move (by rw [hr]; simp +contextual [Relay.batch])⟩
  | @markedFailed now link message m rest ev hr hev hby =>
    refine ⟨?_, hp.memory.move (by rw [hr]; simp +contextual [Relay.batch])⟩
    intro ev' hev'
    rcases Table.mem_update (failedEvent now m.publishAttempts message)
      (failedEvent_id now m.publishAttempts message) hev' with
      ⟨hold, -⟩ | ⟨ev₀, hev₀, -, rfl⟩
    · exact hp.rows ev' hold
    · exact (hp.rows ev₀ hev₀).fail now m.publishAttempts message
  | refused hr => exact ⟨hp.rows, hp.memory.move (by simp)⟩
  | @markedPublished now link m rest rest' ev hr hev hby hrest =>
    refine ⟨?_, hp.memory.move ?_⟩
    · obtain ⟨hmem, hid⟩ := Table.find?_eq_some_iff.1 hev
      have hh : holder ev.id p.deliveries = some r := (hp.rows ev hmem).leased r hby
      intro ev' hev'
      rcases Table.mem_update (publishedEvent now) (publishedEvent_id now) hev' with
        ⟨hold, -⟩ | ⟨ev₀, hev₀, hid₀, rfl⟩
      · exact hp.rows ev' hold
      · -- the marked row is the one whose delivery the relay remembers
        obtain rfl := p.store.events.eq_of_key_eq hev₀ hmem (hid₀.trans hid.symm)
        have hpub := hp.memory.delivered r m rest hr
        rw [show m.eventID = ev₀.id from hid.symm] at hpub
        exact .publish (hpub.delivered hh) now
    · rcases hrest with rfl | rfl
      · rw [hr]
        simp +contextual [Relay.batch]
      · simp

theorem Relayed.replay (hp : Relayed p) {tenantID id : UUID} {now : Time} {link : Link}
    (h : deploymentStep cfg p (.replay tenantID id now link) = some p') : Relayed p' := by
  rcases replayStep_cases h with rfl | ⟨ev, hev, rfl⟩
  · exact hp
  · refine ⟨?_, hp.memory.cons (by simp)⟩
    intro ev' hev'
    rcases Table.mem_update (replayedEvent now) (replayedEvent_id now) hev' with
      ⟨hold, hne⟩ | ⟨ev₀, -, -, rfl⟩
    · have hne' : id ≠ ev'.id := fun he => hne he.symm
      refine (hp.rows ev' hold).cons ?_ ?_
      · rw [holder, if_neg hne']
      · exact fun heq => hne' (Delivery.replayed.inj heq)
    · exact .replay now

/-- **Invariant.**  In every reachable state rows and memories agree with the record. -/
theorem reachable_relayed (hr : (deployment cfg).Reachable p) : Relayed p := by
  refine System.Reachable.invariant (P := Relayed) ?_ ?_ hr
  · refine ⟨by simp [deployment, Deployment.initial, Cluster.initial, Store.empty, Table.empty], ?_⟩
    exact ⟨by simp [deployment, Deployment.initial, Relay.batch], by simp [deployment, Deployment.initial]⟩
  · intro p x p' hp h
    cases x with
    | scheduler y =>
      obtain ⟨c, hc, rfl⟩ := deploymentStep_scheduler.1 h
      exact hp.scheduler hc
    | relay r a => exact hp.relay (relayStep_cases h)
    | replay tenantID id now link => exact hp.replay (show deploymentStep cfg p _ = some p' from h)
    | crashRelay r =>
      obtain rfl := Option.some.inj h
      exact ⟨hp.rows, hp.memory.move (by simp)⟩

/-! ### Events are never lost -/

theorem Path.events_grow {h es : List Entry} {s s' : Store} (hl : Log h s) (hp : Path h s es s') :
    s.events.rows <+: s'.events.rows := by
  induction hp with
  | nil => exact List.prefix_rfl
  | @cons es s₁ s' e hp hc ih =>
    obtain ⟨new, hrows, -⟩ := hc.new_events (hl.append hp)
    rw [hrows]
    exact ih.trans (List.prefix_append _ _)

/-- Up to what the relays write, the table of events only grows, at its end. -/
theorem deploymentStep_grows (hr : (deployment cfg).Reachable p) {x : DeploymentAct}
    (h : deploymentStep cfg p x = some p') :
    p.store.core.events.rows <+: p'.store.core.events.rows := by
  rcases deploymentStep_core h with ⟨y, -, hy⟩ | hcore
  · have hreach := reachable_core hr
    obtain ⟨es, he⟩ := reachable_emission hreach hy
    exact he.path.events_grow (reachable_sound hreach).log
  · have hstore : p'.store.core = p.store.core := congrArg Cluster.store hcore
    rw [hstore]

theorem event_kept (hr : (deployment cfg).Reachable p) {zs : List DeploymentAct} {q : Deployment}
    (hq : (deployment cfg).execFrom p zs = some q) {ev : Event} (hev : ev ∈ p.store.events.rows) :
    ∃ ev' ∈ q.store.events.rows, ev'.inserted = ev.inserted := by
  have hgrow : p.store.core.events.rows <+: q.store.core.events.rows := by
    refine System.Reachable.stable
      (P := fun q => p.store.core.events.rows <+: q.store.core.events.rows) ?_ hr List.prefix_rfl hq
    intro q₁ x q₂ hr₁ hpre h
    exact hpre.trans (deploymentStep_grows hr₁ h)
  have hmem : ev.inserted ∈ q.store.core.events.rows := by
    apply hgrow.subset
    rw [Store.core_events]
    exact List.mem_map_of_mem hev
  rw [Store.core_events] at hmem
  exact List.mem_map.1 hmem

/-! ### At least once -/

/-- What the outbox guarantees in a state. -/
structure AtLeastOnce (cfg : DeploymentConfig) (p : Deployment) : Prop where
  /-- An event that is marked was published, in a claim made after its latest `Replay`. -/
  published : ∀ ev ∈ p.store.events.rows, ev.publishedAt ≠ none → Delivered ev.id p.deliveries
  /-- The marks of a relay that lost its lease change nothing. -/
  stale : ∀ r m now link p', (p.relays r).batch.head? = some m → LostLease r m.eventID p.deliveries →
    deploymentStep cfg p (.relay r (.markFailed now link)) = some p' ∨
      deploymentStep cfg p (.relay r (.markPublished now link)) = some p' →
    p'.store = p.store
  window : ∀ ev ∈ p.store.events.rows, ev.claimedBy ≠ none ↔ ev.claimedUntil ≠ none
  /-- An event that is not marked can be claimed once its backoff and its lease are over. -/
  claimable : ∀ ev ∈ p.store.events.rows, ev.publishedAt = none → ∀ t, ev.nextPublishAt ≤ t →
    (∀ u ∈ ev.claimedUntil, u < t) → ev.ClaimableAt t
  /-- An event that was committed stays. -/
  kept : ∀ zs q, (deployment cfg).execFrom p zs = some q → ∀ ev ∈ p.store.events.rows,
    ∃ ev' ∈ q.store.events.rows, ev'.inserted = ev.inserted

theorem Event.claimableAt_of_after {ev : Event} {t : Time} (hp : ev.publishedAt = none)
    (hn : ev.nextPublishAt ≤ t) (hu : ∀ u ∈ ev.claimedUntil, u < t) : ev.ClaimableAt t := by
  refine ⟨hp, hn, ?_⟩
  cases hc : ev.claimedUntil with
  | none => exact .inl rfl
  | some u => exact .inr (decide_eq_true (hu u hc))

/-- A mark of the head of the batch finds the row under the relay's lease, or changes nothing. -/
theorem RelayStep.store_of_mark {batch : Int} {a : RelayAct} {m : EventMessage}
    (h : RelayStep batch r p a p') (hm : (p.relays r).batch.head? = some m)
    (ha : ∀ now locked scan link, a ≠ .claim now locked scan link) :
    p'.store = p.store ∨
      ∃ ev, p.store.events.find? m.eventID = some ev ∧ ev.claimedBy = some r := by
  cases h with
  | unclaimed hr => exact .inl rfl
  | claimed hr hitems hrest => exact absurd rfl (ha _ _ _ _)
  | delivered hr => exact .inl rfl
  | failed hr => exact .inl rfl
  | unacknowledged hr => exact .inl rfl
  | unmarked hr => exact .inl rfl
  | @markedFailed _ _ _ m' _ ev hr hev hby =>
    rw [hr] at hm
    obtain rfl := Option.some.inj hm
    exact .inr ⟨ev, hev, hby⟩
  | refused hr => exact .inl rfl
  | @markedPublished _ _ m' _ _ ev hr hev hby _ =>
    rw [hr] at hm
    obtain rfl := Option.some.inj hm
    exact .inr ⟨ev, hev, hby⟩

theorem Relayed.stale (hp : Relayed p) {batch : Int} {a : RelayAct} {m : EventMessage}
    (hm : (p.relays r).batch.head? = some m) (hl : LostLease r m.eventID p.deliveries)
    (ha : ∀ now locked scan link, a ≠ .claim now locked scan link)
    (h : relayStep batch p r a = some p') : p'.store = p.store := by
  rcases (relayStep_cases h).store_of_mark hm ha with hs | ⟨ev, hev, hby⟩
  · exact hs
  · obtain ⟨hmem, hid⟩ := Table.find?_eq_some_iff.1 hev
    have hh := (hp.rows ev hmem).leased r hby
    rw [show ev.id = m.eventID from hid] at hh
    exact absurd hh hl.holder_ne

/-- **At-least-once delivery.**  In every reachable state of the deployment: an event that is marked
as published was published in a claim made after its latest `Replay`; the marks of a relay that lost
its lease change nothing; `claimed_by` and `claimed_until` are set together; an event that is not
marked can be claimed at any time after its backoff and its lease; and no event disappears. -/
theorem delivery_at_least_once (cfg : DeploymentConfig) (p : Deployment)
    (hp : (deployment cfg).Reachable p) : AtLeastOnce cfg p := by
  have hrel := reachable_relayed hp
  refine ⟨?_, ?_, ?_, ?_, ?_⟩
  · exact fun ev hev => (hrel.rows ev hev).published
  · rintro r m now link p' hm hl (h | h)
    · have h : relayStep (cfg.relayBatch r) p r (.markFailed now link) = some p' := h
      exact hrel.stale hm hl (by simp) h
    · have h : relayStep (cfg.relayBatch r) p r (.markPublished now link) = some p' := h
      exact hrel.stale hm hl (by simp) h
  · exact fun ev hev => not_congr (hrel.rows ev hev).window
  · exact fun ev _ hpub t hn hu => ev.claimableAt_of_after hpub hn hu
  · exact fun zs q hq ev hev => event_kept hp hq hev

deriving instance DecidableEq for Delivery

namespace Demo

/-- One step of relay `r`. -/
def relay (r : String) (a : RelayAct) : DeploymentAct := .relay r a

/-- Relay `r` claims what it can at a given second. -/
def claimAll (r : String) (t : Int) : DeploymentAct :=
  relay r (.claim (t * second) (fun _ => false) (fun _ => 0) .up)

/-- The event of a new job is published, and replayed before it is marked. -/
def replayedMeanwhile : List DeploymentAct :=
  deployed [submit] ++ [claimAll "r" 2, relay "r" (.publish none), .replay 7 1 (3 * second) .up]

end Demo

/-- The mark comes after the `Replay`, and changes nothing. -/
theorem delivery_at_least_once_replayed :
    ∃ p p', (deployment demoDeployment).exec Demo.replayedMeanwhile = some p ∧
      p.deliveries = [.replayed 1, .published "r" 1, .claimed "r" [1]] ∧
      deploymentStep demoDeployment p (Demo.relay "r" (.markPublished (4 * second) .up)) = some p' ∧
      p'.store = p.store := by
  obtain ⟨p, hp, hD, hhead, hstep⟩ :
      ∃ p, (deployment demoDeployment).exec Demo.replayedMeanwhile = some p ∧
        p.deliveries = [.replayed 1, .published "r" 1, .claimed "r" [1]] ∧
        (p.relays "r").batch.head?.map (fun m => m.eventID) = some 1 ∧
        (deploymentStep demoDeployment p
          (Demo.relay "r" (.markPublished (4 * second) .up))).isSome = true :=
    System.exists_of_exec (by decide +kernel)
  obtain ⟨m, hm, hid⟩ := Option.map_eq_some_iff.1 hhead
  obtain ⟨p', hp'⟩ := Option.isSome_iff_exists.1 hstep
  have hlost : LostLease "r" m.eventID p.deliveries := by
    rw [hid, hD]
    exact ⟨[.replayed 1], [.published "r" 1, .claimed "r" [1]], rfl, by simp, .inl (by simp)⟩
  exact ⟨p, p', hp, hD, hp', (delivery_at_least_once demoDeployment p ⟨_, hp⟩).stale "r" m _ _ p' hm
    hlost (.inr hp')⟩

end JobScheduler
