import JobScheduler.Delivery

/-!
# Duplicates have a cause

The outbox delivers at least once: a relay that dies, loses its lease or loses an answer leaves an event
that may be published again.  This module counts the `Publish` calls whose message the broker took.

* `Deployment.exposure` — the publications of an event that were made, the copies of it in the relays'
  batches, and whether its row is up for a claim that takes over no lease.
* `reopening` — the three causes of another publication: a `Claim` that selects the event under a lease
  that has run out, a `Replay` of it, and a `Publish` that fails after the broker has taken the message.
* `exposure_le_of` — a relay moves the event between its row, its batch and the record;
  `RelayStep.exposure_le` and `deploymentStep_exposure` follow it through every step.
* `publications_bounded` — an event is published at most once more than it was reopened, along every run.
-/

namespace JobScheduler

open KeyedTable KeyedTable.Table Transaction TransitionSystem

variable {cfg : DeploymentConfig} {p p' : Deployment} {r : String} {e : UUID} {R : List String}

/-! ### Counting -/

/-- The entry is a publication of the event: a `Publish` whose message the broker took. -/
def Delivery.Publishes (e : UUID) : Delivery → Prop
  | .published _ id => id = e
  | .unacknowledged _ id => id = e
  | .claimed _ _ => False
  | .replayed _ => False

instance (e : UUID) : DecidablePred (Delivery.Publishes e)
  | .published _ id => inferInstanceAs (Decidable (id = e))
  | .unacknowledged _ id => inferInstanceAs (Decidable (id = e))
  | .claimed _ _ => isFalse id
  | .replayed _ => isFalse id

/-- How often the event was published. -/
def publications (e : UUID) (D : List Delivery) : ℕ := D.countP fun d => decide (d.Publishes e)

/-- How often the event stands in a batch. -/
def copiesIn (e : UUID) (batch : List EventMessage) : ℕ := batch.countP fun m => decide (m.eventID = e)

/-- How often the relay may still publish the event, or put it back. -/
def Relay.copies (e : UUID) : Relay → ℕ
  | .publishing rest => copiesIn e rest
  | .failing event _ rest => copiesIn e (event :: rest)
  | .delivered _ rest => copiesIn e rest

/-- Whether the event is, or will be, up for a claim that takes over no lease. -/
def Store.unclaimed (e : UUID) (s : Store) : ℕ :=
  match s.events.find? e with
  | none => 1
  | some ev => if ev.publishedAt = none ∧ ev.claimedBy = none then 1 else 0

/-- Publications of the event that were made, and that the relays `R` can make without a new cause. -/
def Deployment.exposure (R : List String) (e : UUID) (p : Deployment) : ℕ :=
  publications e p.deliveries + (R.map fun r => (p.relays r).copies e).sum + p.store.unclaimed e

/-- The `Claim` selects the event under a lease that has run out. -/
def TakesOver (now : Time) (locked : UUID → Bool) (batch : Int) (e : UUID) (s : Store) : Prop :=
  ∃ ev ∈ pendingEvents now locked batch s, ev.id = e ∧ ev.claimedBy ≠ none

instance (now : Time) (locked : UUID → Bool) (batch : Int) (e : UUID) (s : Store) :
    Decidable (TakesOver now locked batch e s) :=
  inferInstanceAs (Decidable (∃ ev ∈ pendingEvents now locked batch s, _))

/-- The event is the next one the relay publishes. -/
def Relay.Offers (e : UUID) : Relay → Prop
  | .publishing (m :: _) => m.eventID = e
  | .publishing [] => False
  | .failing _ _ _ => False
  | .delivered _ _ => False

instance (e : UUID) : DecidablePred (Relay.Offers e)
  | .publishing (m :: _) => inferInstanceAs (Decidable (m.eventID = e))
  | .publishing [] => isFalse id
  | .failing _ _ _ => isFalse id
  | .delivered _ _ => isFalse id

/-- What gives rise to another publication of the event: a `Claim` that takes over its lease, a `Publish`
of it that fails although the broker has taken the message, and a `Replay` of it. -/
def reopening (cfg : DeploymentConfig) (e : UUID) (p : Deployment) : DeploymentAct → ℕ
  | .relay r (.claim now locked _ link) =>
    if link ≠ .down ∧ TakesOver now locked (cfg.relayBatch r) e p.store then 1 else 0
  | .relay r (.unacknowledged _) => if (p.relays r).Offers e then 1 else 0
  | .replay _ id _ link => if link ≠ .down ∧ id = e then 1 else 0
  | _ => 0

/-- The relay a step is taken by. -/
def DeploymentAct.relay? : DeploymentAct → Option String
  | .relay r _ => some r
  | .crashRelay r => some r
  | _ => none

/-! ### What the statements do to an event -/

theorem Store.unclaimed_le_one (e : UUID) (s : Store) : s.unclaimed e ≤ 1 := by
  unfold unclaimed
  split
  · exact le_rfl
  · split <;> omega

theorem Store.unclaimed_of_leased {s : Store} {ev : Event} (h : s.events.find? e = some ev)
    (hby : ev.claimedBy ≠ none) : s.unclaimed e = 0 := by
  simp [unclaimed, h, hby]

/-- Only the event's own row counts. -/
theorem Store.unclaimed_congr {s s' : Store}
    (h : (s'.events.find? e).map Event.outbox = (s.events.find? e).map Event.outbox) :
    s'.unclaimed e = s.unclaimed e := by
  unfold unclaimed
  cases hs : s.events.find? e with
  | none =>
    rw [hs, Option.map_none, Option.map_eq_none_iff] at h
    rw [h]
  | some ev =>
    rw [hs, Option.map_some, Option.map_eq_some_iff] at h
    obtain ⟨ev', hs', heq⟩ := h
    have hpub : ev'.publishedAt = ev.publishedAt := congrArg OutboxColumns.publishedAt heq
    have hby : ev'.claimedBy = ev.claimedBy := congrArg OutboxColumns.claimedBy heq
    rw [hs']
    simp only [hpub, hby]

/-- The scheduler inserts events and leaves the others alone. -/
theorem Inserts.unclaimed_le {s s' : Store} {l : List Stamp} (h : Inserts s s' l) (e : UUID) :
    s'.unclaimed e ≤ s.unclaimed e := by
  have hfind : ∀ t : Store, t.trace.find? (fun q => decide (q.1.id = e))
      = (t.events.find? e).map fun ev => (ev.stamp, ev.outbox) := by
    intro t
    rw [Store.trace, List.find?_map]
    rfl
  cases hs : s.events.find? e with
  | none =>
    have hone : s.unclaimed e = 1 := by simp [Store.unclaimed, hs]
    exact hone ▸ s'.unclaimed_le_one e
  | some ev =>
    have hbefore := hfind s
    rw [hs, Option.map_some] at hbefore
    have hafter : s'.trace.find? (fun q => decide (q.1.id = e)) = some (ev.stamp, ev.outbox) := by
      rcases h with heq | heq
      · rw [heq, hbefore]
      · rw [heq, List.find?_append, hbefore]
        rfl
    rw [hfind] at hafter
    refine le_of_eq (Store.unclaimed_congr ?_)
    have := congrArg (Option.map Prod.snd) hafter
    rw [Option.map_map] at this
    rw [hs]
    exact this

/-- A batch holds an event once, and only if it was selected. -/
theorem copiesIn_claimed {now : Time} {locked : UUID → Bool} {scan : UUID → ℕ} {batch : Int} {s : Store}
    (e : UUID) :
    copiesIn e (((pendingEvents now locked batch s).insertionSort (ScannedBefore scan)).map
      Event.message) = if e ∈ (pendingEvents now locked batch s).map (fun ev => ev.id) then 1 else 0 := by
  have hperm : ((pendingEvents now locked batch s).insertionSort (ScannedBefore scan)).Perm
      (pendingEvents now locked batch s) := List.perm_insertionSort _ _
  have hnodup : ((pendingEvents now locked batch s).map fun ev => ev.id).Nodup := by
    refine List.Nodup.sublist ((List.take_sublist _ _).map _) ?_
    refine ((List.perm_insertionSort _ _).map _).nodup_iff.2 ?_
    exact s.events.nodup.sublist (List.filter_sublist.map _)
  have hcount : copiesIn e (((pendingEvents now locked batch s).insertionSort
      (ScannedBefore scan)).map Event.message)
      = ((pendingEvents now locked batch s).map fun ev => ev.id).count e := by
    rw [copiesIn, List.countP_map, hperm.countP_eq, List.count, List.countP_map]
    rfl
  rw [hcount]
  by_cases he : e ∈ (pendingEvents now locked batch s).map fun ev => ev.id
  · rw [if_pos he]
    exact List.count_eq_one_of_mem hnodup he
  · rw [if_neg he]
    exact List.count_eq_zero_of_not_mem he

theorem mem_pendingEvents {now : Time} {locked : UUID → Bool} {batch : Int} {s : Store} {ev : Event}
    (h : ev ∈ pendingEvents now locked batch s) : ev ∈ s.events.rows ∧ ev.ClaimableAt now := by
  have hm := (List.mem_insertionSort _).1 (List.mem_of_mem_take h)
  obtain ⟨hrows, hsel⟩ := List.mem_filter.1 hm
  rw [Bool.and_eq_true, decide_eq_true_eq] at hsel
  exact ⟨hrows, hsel.1⟩

/-- A `Claim` uses up the event, or takes over its lease. -/
theorem claimed_unclaimed (e : UUID) (r : String) (now : Time) (locked : UUID → Bool) (batch : Int)
    (s : Store) :
    (if e ∈ (pendingEvents now locked batch s).map (fun ev => ev.id) then 1 else 0) +
        ({ s with events := s.leased now r (pendingEvents now locked batch s) } : Store).unclaimed e
      ≤ s.unclaimed e + if TakesOver now locked batch e s then 1 else 0 := by
  have hfind : (s.leased now r (pendingEvents now locked batch s)).find? e = (s.events.find? e).map
      fun ev => if ev.id ∈ (pendingEvents now locked batch s).map (fun ev => ev.id) then
        leasedEvent now r relayLease ev else ev := Table.find?_update _ _ _ _ _
  by_cases he : e ∈ (pendingEvents now locked batch s).map fun ev => ev.id
  · obtain ⟨ev, hev, rfl⟩ := List.mem_map.1 he
    obtain ⟨hrow, hpub, -⟩ := mem_pendingEvents hev
    have hbefore : s.events.find? ev.id = some ev := Table.find?_key hrow
    rw [hbefore, Option.map_some, if_pos he] at hfind
    rw [if_pos he, Store.unclaimed_of_leased hfind (by simp [leasedEvent])]
    by_cases hby : ev.claimedBy = none
    · have hone : s.unclaimed ev.id = 1 := by simp [Store.unclaimed, hbefore, hpub, hby]
      omega
    · rw [if_pos ⟨ev, hev, rfl, hby⟩]
      omega
  · rw [if_neg he]
    have hsame : ({ s with events := s.leased now r (pendingEvents now locked batch s) } :
        Store).unclaimed e = s.unclaimed e := by
      refine Store.unclaimed_congr ?_
      show ((s.leased now r (pendingEvents now locked batch s)).find? e).map Event.outbox = _
      rw [hfind, Option.map_map]
      cases hs : s.events.find? e with
      | none => rfl
      | some ev =>
        obtain ⟨-, rfl⟩ : ev ∈ s.events.rows ∧ ev.id = e := Table.find?_eq_some_iff.1 hs
        simp only [Option.map_some, Function.comp_apply, if_neg he]
    omega

/-! ### Steps -/

/-- Moving one relay changes its own copies only. -/
theorem copies_setRelay (hR : R.Nodup) (hr : r ∈ R) (e : UUID) (p : Deployment) (relay : Relay) :
    (R.map fun r' => ((p.setRelay r relay).relays r').copies e).sum + (p.relays r).copies e
      = (R.map fun r' => (p.relays r').copies e).sum + relay.copies e := by
  have hchange := sum_map_change (f := fun r' => (p.relays r').copies e)
    (g := fun r' => ((p.setRelay r relay).relays r').copies e) hR hr
    (fun r' hne => by simp [Deployment.setRelay, hne])
  simpa [Deployment.setRelay] using hchange

/-- **Balance.**  A relay moves: what it can publish, what is published and whether the event is up for a
claim change against each other, and against the cost of the step. -/
theorem exposure_le_of (hR : R.Nodup) (hr : r ∈ R) {q : Deployment} {D : List Delivery} {s : Store}
    {relay : Relay} {cost : ℕ} (hrelays : q.relays = p.relays) (hD : q.deliveries = D) (hs : q.store = s)
    (h : publications e D + relay.copies e + s.unclaimed e
      ≤ publications e p.deliveries + (p.relays r).copies e + p.store.unclaimed e + cost) :
    (q.setRelay r relay).exposure R e ≤ p.exposure R e + cost := by
  subst hD hs
  have hcopies := copies_setRelay hR hr e q relay
  rw [hrelays] at hcopies
  have hafter : (q.setRelay r relay).exposure R e = publications e q.deliveries +
      (R.map fun r' => ((q.setRelay r relay).relays r').copies e).sum + q.store.unclaimed e := rfl
  have hbefore : p.exposure R e = publications e p.deliveries +
    (R.map fun r' => (p.relays r').copies e).sum + p.store.unclaimed e := rfl
  omega

/-- A step that moves no relay. -/
theorem exposure_le_of_same {q : Deployment} {D : List Delivery} {s : Store} {cost : ℕ}
    (hrelays : q.relays = p.relays) (hD : q.deliveries = D) (hs : q.store = s)
    (h : publications e D + s.unclaimed e
      ≤ publications e p.deliveries + p.store.unclaimed e + cost) :
    q.exposure R e ≤ p.exposure R e + cost := by
  subst hD hs
  rw [Deployment.exposure, Deployment.exposure, hrelays]
  omega

theorem publications_published (D : List Delivery) (id : UUID) :
    publications e (.published r id :: D) = publications e D + if id = e then 1 else 0 := by
  by_cases hid : id = e <;> simp [publications, Delivery.Publishes, hid]

theorem publications_unacknowledged (D : List Delivery) (id : UUID) :
    publications e (.unacknowledged r id :: D) = publications e D + if id = e then 1 else 0 := by
  by_cases hid : id = e <;> simp [publications, Delivery.Publishes, hid]

theorem publications_of_not {d : Delivery} (hd : ¬d.Publishes e) (D : List Delivery) :
    publications e (d :: D) = publications e D := by
  simp [publications, hd]

theorem copiesIn_cons (e : UUID) (m : EventMessage) (rest : List EventMessage) :
    copiesIn e (m :: rest) = (if m.eventID = e then 1 else 0) + copiesIn e rest := by
  simp [copiesIn, List.countP_cons, Nat.add_comm]

/-- A statement on another event. -/
theorem unclaimed_modify_ne {s : Store} {id : UUID} (hne : e ≠ id) (f : Event → Event)
    (hf : ∀ ev, (f ev).id = ev.id) :
    ({ s with events := s.events.modify id f hf } : Store).unclaimed e = s.unclaimed e :=
  Store.unclaimed_congr (congrArg (Option.map Event.outbox) (Table.find?_modify_ne _ hne f hf))

theorem unclaimed_modify_le (e : UUID) (s : Store) (id : UUID) (f : Event → Event)
    (hf : ∀ ev, (f ev).id = ev.id) :
    ({ s with events := s.events.modify id f hf } : Store).unclaimed e
      ≤ s.unclaimed e + if id = e then 1 else 0 := by
  by_cases hid : id = e
  · rw [if_pos hid]
    exact (Store.unclaimed_le_one _ _).trans (Nat.le_add_left _ _)
  · rw [unclaimed_modify_ne (Ne.symm hid)]
    exact Nat.le_add_right _ _

/-- An event that is marked as published is not up for a claim. -/
theorem unclaimed_published_le (e : UUID) {s : Store} {id : UUID} {ev : Event}
    (hev : s.events.find? id = some ev) (now : Time) :
    ({ s with events := s.events.modify id (publishedEvent now) (publishedEvent_id now) } :
      Store).unclaimed e ≤ s.unclaimed e := by
  by_cases hid : e = id
  · subst hid
    have hafter := Table.find?_modify_self hev (publishedEvent now) (publishedEvent_id now)
    have hzero : ({ s with events := s.events.modify e (publishedEvent now) (publishedEvent_id now) } :
        Store).unclaimed e = 0 := by
      simp [Store.unclaimed, hafter, publishedEvent]
    rw [hzero]
    exact Nat.zero_le _
  · exact (unclaimed_modify_ne hid _ _).le

/-- **Step lemma.**  A step of a relay moves the event between the row, the relay's batch and the record;
only a `Claim` that takes over a lease, and a `Publish` that was not acknowledged, make one more of it. -/
theorem RelayStep.exposure_le {batch : Int} {a : RelayAct} (hR : R.Nodup) (hr : r ∈ R)
    (h : RelayStep batch r p a p') :
    p'.exposure R e ≤ p.exposure R e + (match a with
      | .claim now locked _ _ => if TakesOver now locked batch e p.store then 1 else 0
      | .unacknowledged _ => if (p.relays r).Offers e then 1 else 0
      | _ => 0) := by
  cases h with
  | unclaimed hrel =>
    refine exposure_le_of hR hr rfl rfl rfl ?_
    rw [hrel]
    exact Nat.le_add_right _ _
  | @claimed now locked scan link items rest hrel hitems hrest =>
    refine exposure_le_of (D := .claimed r _ :: p.deliveries) (s := { p.store with events := _ })
      hR hr rfl rfl rfl ?_
    have hcopies : copiesIn e rest
        ≤ if e ∈ (pendingEvents now locked batch p.store).map (fun ev => ev.id) then 1 else 0 := by
      rcases hrest with rfl | rfl
      · rw [hitems]
        exact (copiesIn_claimed e).le
      · exact Nat.zero_le _
    have hrow := claimed_unclaimed e r now locked batch p.store
    rw [publications_of_not (d := .claimed r _) not_false, hrel]
    simp only [Relay.copies]
    omega
  | @delivered m rest hrel =>
    refine exposure_le_of (D := .published r m.eventID :: p.deliveries) (s := p.store)
      hR hr rfl rfl rfl ?_
    rw [publications_published, hrel]
    simp only [Relay.copies, copiesIn_cons]
    omega
  | @failed message m rest hrel =>
    refine exposure_le_of hR hr rfl rfl rfl ?_
    rw [hrel]
    exact Nat.le_add_right _ _
  | @unacknowledged message m rest hrel =>
    refine exposure_le_of (D := .unacknowledged r m.eventID :: p.deliveries) (s := p.store)
      hR hr rfl rfl rfl ?_
    simp only [publications_unacknowledged, hrel, Relay.copies, Relay.Offers]
    omega
  | @unmarked now link message m rest hrel =>
    refine exposure_le_of hR hr rfl rfl rfl ?_
    rw [hrel]
    simp only [Relay.copies, copiesIn_cons]
    omega
  | @markedFailed now link message m rest ev hrel hev hby =>
    refine exposure_le_of (D := p.deliveries) (s := { p.store with events := _ }) hR hr rfl rfl rfl ?_
    have hrow := unclaimed_modify_le e p.store m.eventID
      (failedEvent now m.publishAttempts message) (failedEvent_id now m.publishAttempts message)
    rw [hrel]
    simp only [Relay.copies, copiesIn_cons]
    omega
  | @refused now link m rest hrel =>
    refine exposure_le_of hR hr rfl rfl rfl ?_
    have hnone : (Relay.publishing []).copies e = 0 := rfl
    rw [hnone]
    omega
  | @markedPublished now link m rest rest' ev hrel hev hby hrest =>
    refine exposure_le_of (D := p.deliveries) (s := { p.store with events := _ }) hR hr rfl rfl rfl ?_
    have hrow := unclaimed_published_le e hev now
    have hcopies : copiesIn e rest' ≤ copiesIn e rest := by
      rcases hrest with rfl | rfl
      · exact le_rfl
      · exact Nat.zero_le _
    rw [hrel]
    simp only [Relay.copies]
    omega

/-- A `Claim` that does not reach the database claims nothing. -/
theorem claim_down {batch : Int} {now : Time} {locked : UUID → Bool} {scan : UUID → ℕ}
    (h : relayStep batch p r (.claim now locked scan .down) = some p') :
    p' = p.setRelay r (.publishing []) := by
  simp only [relayStep] at h
  split at h
  · exact (Option.some.inj h).symm
  · cases h

/-- A relay that ends its batch. -/
theorem exposure_idle (hR : R.Nodup) (hr : r ∈ R) (e : UUID) (p : Deployment) (cost : ℕ) :
    (p.setRelay r (.publishing [])).exposure R e ≤ p.exposure R e + cost := by
  refine exposure_le_of hR hr rfl rfl rfl ?_
  have hnone : (Relay.publishing []).copies e = 0 := rfl
  omega

theorem replayStep_exposure {tenantID id : UUID} {now : Time} {link : Link} {cost : ℕ}
    (h : deploymentStep cfg p (.replay tenantID id now link) = some p')
    (hcost : (if id = e then 1 else 0) ≤ cost) : p'.exposure R e ≤ p.exposure R e + cost := by
  rcases replayStep_cases h with rfl | ⟨ev, -, rfl⟩
  · exact Nat.le_add_right _ _
  · refine exposure_le_of_same (D := .replayed id :: p.deliveries)
      (s := { p.store with events := _ }) rfl rfl rfl ?_
    have hrow := unclaimed_modify_le e p.store id (replayedEvent now) (replayedEvent_id now)
    simp only [publications_of_not (d := .replayed id) (e := e) not_false]
    omega

/-- **Step lemma.**  A step makes one more of the event only if it reopens the event. -/
theorem deploymentStep_exposure {x : DeploymentAct} (hR : R.Nodup) (hx : ∀ r, x.relay? = some r → r ∈ R)
    (h : deploymentStep cfg p x = some p') :
    p'.exposure R e ≤ p.exposure R e + reopening cfg e p x := by
  cases x with
  | scheduler y =>
    obtain ⟨c, hc, rfl⟩ := deploymentStep_scheduler.1 h
    have hrow := (step_stamps hc).unclaimed_le e
    exact exposure_le_of_same rfl rfl rfl (Nat.add_le_add_left hrow _)
  | relay r a =>
    have h : relayStep (cfg.relayBatch r) p r a = some p' := h
    have hstep := (relayStep_cases h).exposure_le (e := e) hR (hx r rfl)
    cases a with
    | claim now locked scan link =>
      cases link with
      | down =>
        rw [claim_down h]
        exact exposure_idle hR (hx r rfl) e p _
      | up => simpa [reopening] using hstep
      | lost => simpa [reopening] using hstep
    | publish error => exact hstep
    | unacknowledged message => exact hstep
    | markFailed now link => exact hstep
    | markPublished now link => exact hstep
  | replay tenantID id now link =>
    cases link with
    | down =>
      obtain rfl := Option.some.inj h
      exact Nat.le_add_right _ _
    | up => exact replayStep_exposure h (by simp [reopening])
    | lost => exact replayStep_exposure h (by simp [reopening])
  | crashRelay r =>
    obtain rfl := Option.some.inj h
    exact exposure_idle hR (hx r rfl) e p _

/-! ### Runs -/

/-- The relays of a run. -/
def relaysIn (xs : List DeploymentAct) : List String := (xs.filterMap DeploymentAct.relay?).dedup

theorem mem_relaysIn {xs : List DeploymentAct} {x : DeploymentAct} (hx : x ∈ xs)
    (hr : x.relay? = some r) : r ∈ relaysIn xs :=
  List.mem_dedup.2 (List.mem_filterMap.2 ⟨x, hx, hr⟩)

/-- Before the event exists there is one publication of it to come. -/
theorem exposure_initial (R : List String) (e : UUID) : Deployment.initial.exposure R e = 1 := by
  have hnone : (R.map fun r => (Deployment.initial.relays r).copies e).sum = 0 :=
    List.sum_eq_zero (by simp [Deployment.initial, Relay.copies, copiesIn])
  rw [Deployment.exposure, hnone]
  rfl

namespace Demo

/-- A relay publishes the event and dies before it marks it; another takes over the lease, is told of an
error although the broker takes the message, and puts the event back; a third publishes it. -/
def publishedAgain : List DeploymentAct :=
  deployed [submit] ++ [claimAll "r" 2, relay "r" (.publish none), .crashRelay "r", claimAll "s" 40,
    relay "s" (.unacknowledged "timeout"), relay "s" (.markFailed (41 * second) .up), claimAll "t" 80,
    relay "t" (.publish none), relay "t" (.markPublished (81 * second) .up)]

end Demo

end JobScheduler
