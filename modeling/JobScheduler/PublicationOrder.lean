import JobScheduler.Delivery
import JobScheduler.Library.OrderBy
import JobScheduler.Timeline

/-!
# The order of publication

The events of one job go to one Kafka partition, and are meant to go there in the order of
`(created_at, id)`.  `Claim` selects in that order, but several things come between the selection and
the broker: `publishBatch` goes on after an event it could not publish; an event that is backing
off, leased or locked is passed over, while later events of its job are not; `RETURNING` has no
order; and an event can be inserted with an earlier key than one that is out already.

* `PublishesInOrder` — the steps at which none of this happens.
* `publication_in_order` — in every run of such steps, whatever else fails, no event is published
  before an earlier event of its job.
* `published_out_of_order` — the broker refuses the first of two events and takes the second.
-/

namespace JobScheduler

open KeyedTable Transaction TransitionSystem OrderBy

variable {cfg : DeploymentConfig} {p p' : Deployment} {r : String} {e : UUID}
  {D later older : List Delivery}

/-! ### Keys -/

/-- The first key is smaller. -/
def Stamp.Before (a b : Stamp) : Prop :=
  a.createdAt < b.createdAt ∨ (a.createdAt = b.createdAt ∧ a.id < b.id)

instance : DecidableRel Stamp.Before := fun _ _ => inferInstanceAs (Decidable (_ ∨ _))

/-- The stamp in the envelope of an event. -/
def EventMessage.stamp (m : EventMessage) : Stamp := ⟨m.entityID, m.occurredAt, m.eventID⟩

theorem Stamp.not_before_of_inOrder {a b : Stamp} (hab : b.InOrder a) (hj : a.jobID = b.jobID) :
    ¬a.Before b := by
  rintro (hlt | ⟨heq, hlt⟩)
  · rcases hab hj.symm with hlt' | ⟨heq', -⟩
    · exact lt_asymm hlt hlt'
    · exact hlt.ne heq'.symm
  · rcases hab hj.symm with hlt' | ⟨-, hle⟩
    · exact hlt'.ne heq.symm
    · rw [BitVec.lt_def] at hlt
      rw [BitVec.le_def] at hle
      omega

theorem Event.not_key_le {a b : Event} (hab : a.stamp.Before b.stamp) : ¬b.key ≤ a.key := by
  rw [not_le, Event.key, Event.key, Prod.Lex.lt_iff]
  exact hab.imp_right fun h => ⟨h.1, BitVec.lt_def.1 h.2⟩

theorem scanned_byKey (scan : UUID → ℕ) :
    ByKey (ScannedBefore scan) fun ev : Event => scan ev.id :=
  ⟨fun _ _ => Iff.rfl⟩

/-- The stamps of a table have distinct ids. -/
theorem Store.stamp_eq {s : Store} {a b : Stamp} (ha : a ∈ s.stamps) (hb : b ∈ s.stamps)
    (hid : a.id = b.id) : a = b := by
  obtain ⟨ev, hev, rfl⟩ := List.mem_map.1 ha
  obtain ⟨ev', hev', rfl⟩ := List.mem_map.1 hb
  rw [s.events.eq_of_key_eq hev hev' hid]

/-! ### The property and the condition -/

/-- The event was published. -/
def Published (e : UUID) (D : List Delivery) : Prop := ∃ r, .published r e ∈ D

/-- No event was published before an earlier event of its job. -/
def PublishedInOrder (p : Deployment) : Prop :=
  ∀ later r e older, p.deliveries = later ++ .published r e :: older →
    ∀ a ∈ p.store.stamps, ∀ b ∈ p.store.stamps, b.id = e → a.jobID = b.jobID → a.Before b →
      Published a.id older

/-- The events a relay is still going to publish from its batch. -/
def Relay.upcoming : Relay → List EventMessage
  | .publishing rest => rest
  | .failing _ _ rest => rest
  | .delivered _ rest => rest

/-- No event that is not published is passed over while a later one of its job can be claimed, and
what is returned of a job is returned in order. -/
def ClaimsInSequence (now : Time) (locked : UUID → Bool) (scan : UUID → ℕ) (s : Store) : Prop :=
  ∀ a ∈ s.events.rows, ∀ b ∈ s.events.rows, a.jobID = b.jobID → a.stamp.Before b.stamp →
    a.publishedAt = none → (b.ClaimableAt now ∧ locked b.id = false) →
    (a.ClaimableAt now ∧ locked a.id = false) ∧ scan a.id < scan b.id

instance (now : Time) (locked : UUID → Bool) (scan : UUID → ℕ) (s : Store) :
    Decidable (ClaimsInSequence now locked scan s) :=
  inferInstanceAs (Decidable (∀ a ∈ s.events.rows, ∀ b ∈ s.events.rows, _))

/-- No event of the job of the first one is left behind it in the batch. -/
def LastOfJob (relay : Relay) : Prop :=
  ∀ m ∈ relay.upcoming.head?, ∀ m' ∈ relay.upcoming.tail, m'.entityID ≠ m.entityID

instance (relay : Relay) : Decidable (LastOfJob relay) :=
  Option.decidableForallMem relay.upcoming.head?

/-- The conditions on a step: new events get later keys than their job has; a claim passes over no
event; `Publish` fails only for the last event of its job in the batch; there is no `Replay`. -/
def PublishesInOrder (cfg : DeploymentConfig) (p : Deployment) : DeploymentAct → Prop
  | .scheduler y => StampsInOrder cfg.scheduler p.cluster y
  | .relay _ (.claim now locked scan _) => ClaimsInSequence now locked scan p.store
  | .relay r (.publish (some _)) => LastOfJob (p.relays r)
  | .relay r (.unacknowledged _) => LastOfJob (p.relays r)
  | .relay _ (.publish none) => True
  | .relay _ (.markFailed _ _) => True
  | .relay _ (.markPublished _ _) => True
  | .replay _ _ _ _ => False
  | .crashRelay _ => True

instance (cfg : DeploymentConfig) (p : Deployment) : DecidablePred (PublishesInOrder cfg p)
  | .scheduler y => inferInstanceAs (Decidable (StampsInOrder cfg.scheduler p.cluster y))
  | .relay _ (.claim now locked scan _) =>
    inferInstanceAs (Decidable (ClaimsInSequence now locked scan p.store))
  | .relay r (.publish (some _)) => inferInstanceAs (Decidable (LastOfJob (p.relays r)))
  | .relay r (.unacknowledged _) => inferInstanceAs (Decidable (LastOfJob (p.relays r)))
  | .relay _ (.publish none) => inferInstanceAs (Decidable True)
  | .relay _ (.markFailed _ _) => inferInstanceAs (Decidable True)
  | .relay _ (.markPublished _ _) => inferInstanceAs (Decidable True)
  | .replay _ _ _ _ => inferInstanceAs (Decidable False)
  | .crashRelay _ => inferInstanceAs (Decidable True)

/-! ### The invariant -/

/-- Whatever a batch is still going to publish, the earlier events of its job are out, or come first
in the batch. -/
structure Sequenced (p : Deployment) : Prop where
  known : ∀ r, ∀ m ∈ (p.relays r).upcoming, m.stamp ∈ p.store.stamps
  recorded : ∀ e, Published e p.deliveries → ∃ a ∈ p.store.stamps, a.id = e
  batches : ∀ r pre m post, (p.relays r).upcoming = pre ++ m :: post →
    ∀ a ∈ p.store.stamps, a.jobID = m.entityID → a.Before m.stamp →
      Published a.id p.deliveries ∨ a.id ∈ pre.map fun m => m.eventID
  order : PublishedInOrder p

/-- A step that changes neither stamps nor record, and moves relays on or empties their batches. -/
theorem Sequenced.move (hp : Sequenced p) (hstamps : p'.store.stamps = p.store.stamps)
    (hD : p'.deliveries = p.deliveries)
    (hrelays : ∀ r, (p'.relays r).upcoming = (p.relays r).upcoming ∨ (p'.relays r).upcoming = []) :
    Sequenced p' where
  known := by
    intro r m hm
    rw [hstamps]
    rcases hrelays r with heq | heq
    · exact hp.known r m (heq ▸ hm)
    · rw [heq] at hm
      simp at hm
  recorded := by
    rw [hstamps, hD]
    exact hp.recorded
  batches := by
    intro r pre m post hsplit
    rw [hstamps, hD]
    rcases hrelays r with heq | heq
    · exact hp.batches r pre m post (heq ▸ hsplit)
    · rw [heq] at hsplit
      simp at hsplit
  order := by
    rw [PublishedInOrder, hstamps, hD]
    exact hp.order

/-- New events come after everything their job has, so nothing that is out or under way is late. -/
theorem Sequenced.scheduler (hp : Sequenced p) {y : Act} {c : Cluster}
    (hy : StampsInOrder cfg.scheduler p.cluster y)
    (h : step cfg.scheduler p.cluster y = some c) : Sequenced { p with cluster := c } := by
  rcases (step_stamps h).stamps with heq | heq
  · exact hp.move heq rfl fun r => .inl rfl
  · have hmem : ∀ {a}, a ∈ c.store.stamps ↔
        a ∈ p.store.stamps ∨ a ∈ p.cluster.stamps cfg.scheduler y := by
      intro a
      rw [heq, List.mem_append]
    have hnew : ∀ {a b}, a ∈ c.store.stamps → b ∈ p.store.stamps → a.jobID = b.jobID → a.Before b →
        a ∈ p.store.stamps := by
      intro a b ha hb hj hlt
      rcases hmem.1 ha with hold | hnew
      · exact hold
      · exact absurd hlt (Stamp.not_before_of_inOrder (hy.2 b hb a hnew) hj)
    refine ⟨?_, ?_, ?_, ?_⟩
    · exact fun r m hm => hmem.2 (.inl (hp.known r m hm))
    · intro e he
      obtain ⟨a, ha, hid⟩ := hp.recorded e he
      exact ⟨a, hmem.2 (.inl ha), hid⟩
    · intro r pre m post hsplit a ha hj hlt
      have hm : m.stamp ∈ p.store.stamps := hp.known r m (by rw [hsplit]; simp)
      exact hp.batches r pre m post hsplit a (hnew ha hm hj hlt) hj hlt
    · intro later r e older hD a ha b hb hid hj hlt
      -- a published event is no new one
      obtain ⟨b', hb', hid'⟩ := hp.recorded e ⟨r, by rw [show p.deliveries = _ from hD]; simp⟩
      obtain rfl : b' = b := Store.stamp_eq (hmem.2 (.inl hb')) hb (hid'.trans hid.symm)
      exact hp.order later r e older hD a (hnew ha hb' hj hlt) b' hb' hid hj hlt

/-- The earlier events of a claimed one are out, or come first in the batch. -/
theorem claimed_in_sequence (hrel : Relayed p) {now : Time} {locked : UUID → Bool} {scan : UUID → ℕ}
    {batch : Int} (hseq : ClaimsInSequence now locked scan p.store) {pre post : List EventMessage}
    {m : EventMessage}
    (hsplit : ((pendingEvents now locked batch p.store).insertionSort (ScannedBefore scan)).map
      Event.message = pre ++ m :: post)
    {a : Stamp} (ha : a ∈ p.store.stamps) (hj : a.jobID = m.entityID) (hlt : a.Before m.stamp) :
    Published a.id p.deliveries ∨ a.id ∈ pre.map fun m => m.eventID := by
  obtain ⟨preL, restL, hL, rfl, hrest⟩ := List.map_eq_append_iff.1 hsplit
  obtain ⟨evm, postL, rfl, rfl, rfl⟩ := List.map_eq_cons_iff.1 hrest
  obtain ⟨ev, hev, rfl⟩ := List.mem_map.1 ha
  have hlt : ev.stamp.Before evm.stamp := hlt
  have hsel : evm ∈ pendingEvents now locked batch p.store := by
    rw [← (List.perm_insertionSort (ScannedBefore scan) _).mem_iff, hL]
    simp
  have hfree := List.mem_filter.1
    ((List.perm_insertionSort Event.Before _).mem_iff.1 (List.mem_of_mem_take hsel))
  have hfree' : evm.ClaimableAt now ∧ locked evm.id = false := by simpa using hfree.2
  by_cases hpub : ev.publishedAt = none
  · obtain ⟨hdue, hscan⟩ := hseq ev hev evm hfree.1 hj hlt hpub hfree'
    -- the limit does not cut between an event and a later one
    have hsel' : ev ∈ pendingEvents now locked batch p.store := by
      by_contra hcut
      refine Event.not_key_le hlt (before_byKey.le_of_cut hsel ?_ hcut)
      exact List.mem_filter.2 ⟨hev, by simpa using hdue⟩
    have hin : ev ∈ preL ++ evm :: postL := by
      rw [← hL]
      exact (List.perm_insertionSort (ScannedBefore scan) _).mem_iff.2 hsel'
    have hsorted := (scanned_byKey scan).pairwise (pendingEvents now locked batch p.store)
    rw [hL] at hsorted
    rcases List.mem_append.1 hin with hpre | htail
    · refine .inr ?_
      rw [List.map_map]
      exact List.mem_map.2 ⟨ev, hpre, rfl⟩
    · have hle : scan evm.id ≤ scan ev.id := by
        rcases List.mem_cons.1 htail with rfl | hpost
        · exact le_rfl
        · exact (List.pairwise_cons.1 (List.pairwise_append.1 hsorted).2.1).1 ev hpost
      omega
  · obtain ⟨r, later, mid, ids, older, hD, -⟩ := (hrel.rows ev hev).published hpub
    refine .inl ⟨r, ?_⟩
    rw [hD]
    simp [Event.stamp]

theorem upcoming_update {relays : String → Relay} {relay : Relay}
    (h : relay.upcoming = (relays r).upcoming ∨ relay.upcoming = []) (r' : String) :
    (Function.update relays r relay r').upcoming = (relays r').upcoming ∨
      (Function.update relays r relay r').upcoming = [] := by
  by_cases hr : r' = r
  · subst hr
    rw [Function.update_self]
    exact h
  · rw [Function.update_of_ne hr]
    exact .inl rfl

theorem Published.cons {d : Delivery} (h : Published e D) : Published e (d :: D) := by
  obtain ⟨r, hr⟩ := h
  exact ⟨r, List.mem_cons_of_mem _ hr⟩

/-- A batch that was just claimed. -/
theorem Sequenced.claim (hp : Sequenced p) (hrel : Relayed p) {now : Time} {locked : UUID → Bool}
    {scan : UUID → ℕ} {batch : Int} {ids : List UUID} {rest : List EventMessage}
    (hseq : ClaimsInSequence now locked scan p.store)
    (hrest : rest = ((pendingEvents now locked batch p.store).insertionSort
      (ScannedBefore scan)).map Event.message ∨ rest = [])
    (hstamps : p'.store.stamps = p.store.stamps)
    (hD : p'.deliveries = .claimed r ids :: p.deliveries)
    (hrelays : p'.relays = Function.update p.relays r (.publishing rest)) : Sequenced p' where
  known := by
    intro r' m hm
    rw [hstamps]
    by_cases hr : r' = r
    · subst hr
      rw [hrelays, Function.update_self] at hm
      rcases hrest with rfl | rfl
      · obtain ⟨ev, hev, rfl⟩ := List.mem_map.1 hm
        have hsel := (List.perm_insertionSort (ScannedBefore scan) _).mem_iff.1 hev
        have hmem := (List.perm_insertionSort Event.Before _).mem_iff.1 (List.mem_of_mem_take hsel)
        exact List.mem_map_of_mem (List.mem_filter.1 hmem).1
      · simp [Relay.upcoming] at hm
    · rw [hrelays, Function.update_of_ne hr] at hm
      exact hp.known r' m hm
  recorded := by
    intro e he
    rw [hstamps]
    obtain ⟨r', hr'⟩ := he
    rw [hD] at hr'
    exact hp.recorded e ⟨r', by simpa using hr'⟩
  batches := by
    intro r' pre m post hsplit a ha hj hlt
    rw [hstamps] at ha
    rw [hD]
    by_cases hr : r' = r
    · subst hr
      rw [hrelays, Function.update_self] at hsplit
      rcases hrest with rfl | rfl
      · exact (claimed_in_sequence hrel hseq hsplit ha hj hlt).imp_left Published.cons
      · simp [Relay.upcoming] at hsplit
    · rw [hrelays, Function.update_of_ne hr] at hsplit
      exact (hp.batches r' pre m post hsplit a ha hj hlt).imp_left Published.cons
  order := by
    intro later r' e older hsplit
    rw [hstamps]
    rw [hD] at hsplit
    -- the new entry is no publication
    cases later with
    | nil => simp at hsplit
    | cons d later => exact hp.order later r' e older (List.cons.inj hsplit).2

/-- `Publish` succeeds for the head of the batch. -/
theorem Sequenced.publish (hp : Sequenced p) {m : EventMessage} {rest : List EventMessage}
    (hr : p.relays r = .publishing (m :: rest)) :
    Sequenced ((p.delivering (.published r m.eventID)).setRelay r (.delivered m rest)) := by
  have hm : m.stamp ∈ p.store.stamps := hp.known r m (by rw [hr]; simp [Relay.upcoming])
  refine ⟨?_, ?_, ?_, ?_⟩
  · intro r' m' hm'
    by_cases hr' : r' = r
    · subst hr'
      refine hp.known r' m' ?_
      rw [hr]
      simp only [Deployment.setRelay, Function.update_self] at hm'
      exact List.mem_cons_of_mem _ hm'
    · simp only [Deployment.setRelay, Function.update_of_ne hr'] at hm'
      exact hp.known r' m' hm'
  · rintro e ⟨r', hr'⟩
    rcases List.mem_cons.1 hr' with heq | hold
    · obtain ⟨-, rfl⟩ := Delivery.published.inj heq
      exact ⟨m.stamp, hm, rfl⟩
    · exact hp.recorded e ⟨r', hold⟩
  · intro r' pre m' post hsplit a ha hj hlt
    by_cases hr' : r' = r
    · subst hr'
      simp only [Deployment.setRelay, Function.update_self] at hsplit
      -- the head has left the batch, and is in the record
      have hsplit' : (p.relays r').upcoming = (m :: pre) ++ m' :: post := by
        rw [hr]
        exact congrArg (List.cons m) hsplit
      rcases hp.batches r' (m :: pre) m' post hsplit' a ha hj hlt with hpub | hin
      · exact .inl hpub.cons
      · rcases List.mem_cons.1 hin with heq | hin
        · exact .inl ⟨r', by rw [heq]; exact List.mem_cons_self⟩
        · exact .inr hin
    · simp only [Deployment.setRelay, Function.update_of_ne hr'] at hsplit
      exact (hp.batches r' pre m' post hsplit a ha hj hlt).imp_left Published.cons
  · intro later r' e older hsplit a ha b hb hid hj hlt
    cases later with
    | nil =>
      obtain ⟨hhead, rfl⟩ := List.cons.inj hsplit
      obtain ⟨-, rfl⟩ := Delivery.published.inj hhead
      obtain rfl : b = m.stamp := Store.stamp_eq hb hm hid
      rcases hp.batches r [] m rest (by rw [hr]; rfl) a ha hj hlt with hpub | hin
      · exact hpub
      · simp at hin
    | cons d later => exact hp.order later r' e older (List.cons.inj hsplit).2 a ha b hb hid hj hlt

/-- `Publish` fails for the head of the batch, which leaves no event of its job behind. -/
theorem Sequenced.fail (hp : Sequenced p) {message : String} {m : EventMessage}
    {rest : List EventMessage} (hr : p.relays r = .publishing (m :: rest))
    (hlast : LastOfJob (p.relays r)) : Sequenced (p.setRelay r (.failing m message rest)) := by
  have hm : m.stamp ∈ p.store.stamps := hp.known r m (by rw [hr]; simp [Relay.upcoming])
  have hother : ∀ m' ∈ rest, m'.entityID ≠ m.entityID := by
    rw [hr] at hlast
    exact hlast m rfl
  refine ⟨?_, hp.recorded, ?_, hp.order⟩
  · intro r' m' hm'
    by_cases hr' : r' = r
    · subst hr'
      refine hp.known r' m' ?_
      rw [hr]
      simp only [Deployment.setRelay, Function.update_self] at hm'
      exact List.mem_cons_of_mem _ hm'
    · simp only [Deployment.setRelay, Function.update_of_ne hr'] at hm'
      exact hp.known r' m' hm'
  · intro r' pre m' post hsplit a ha hj hlt
    by_cases hr' : r' = r
    · subst hr'
      simp only [Deployment.setRelay, Function.update_self] at hsplit
      have hsplit' : (p.relays r').upcoming = (m :: pre) ++ m' :: post := by
        rw [hr]
        exact congrArg (List.cons m) hsplit
      rcases hp.batches r' (m :: pre) m' post hsplit' a ha hj hlt with hpub | hin
      · exact .inl hpub
      · rcases List.mem_cons.1 hin with heq | hin
        · -- the failed event is of another job
          obtain rfl : a = m.stamp := Store.stamp_eq ha hm heq
          have hm' : m' ∈ rest := by
            rw [show rest = pre ++ m' :: post from hsplit]
            simp
          exact absurd hj.symm (hother m' hm')
        · exact .inr hin
    · simp only [Deployment.setRelay, Function.update_of_ne hr'] at hsplit
      exact hp.batches r' pre m' post hsplit a ha hj hlt

/-- An entry of the record that is no successful `Publish`. -/
theorem Sequenced.delivering (hp : Sequenced p) {d : Delivery} (hd : ∀ r e, d ≠ .published r e) :
    Sequenced (p.delivering d) := by
  have hkept : ∀ e, Published e (p.delivering d).deliveries → Published e p.deliveries := by
    rintro e ⟨r, hm⟩
    rcases List.mem_cons.1 hm with heq | hold
    · exact absurd heq.symm (hd r e)
    · exact ⟨r, hold⟩
  refine ⟨hp.known, fun e he => hp.recorded e (hkept e he), ?_, ?_⟩
  · intro r pre m post hsplit a ha hj hlt
    exact (hp.batches r pre m post hsplit a ha hj hlt).imp_left Published.cons
  · intro later r e older hsplit
    cases later with
    | nil => exact absurd (List.cons.inj hsplit).1 (hd r e)
    | cons d' later => exact hp.order later r e older (List.cons.inj hsplit).2

theorem Sequenced.relay (hp : Sequenced p) (hrel : Relayed p) {a : RelayAct}
    (hC : PublishesInOrder cfg p (.relay r a)) (h : relayStep (cfg.relayBatch r) p r a = some p') :
    Sequenced p' := by
  have hstamps : p'.store.stamps = p.store.stamps := by
    have hstore : p'.store.core = p.store.core := congrArg Cluster.store (relayStep_core h)
    rw [← Store.core_stamps, hstore, Store.core_stamps]
  cases relayStep_cases h with
  | unclaimed hr => exact hp.move hstamps rfl (upcoming_update (.inr rfl))
  | @claimed now locked scan link items rest hr hitems hrest =>
    exact hp.claim hrel hC (hitems ▸ hrest) hstamps rfl rfl
  | delivered hr => exact hp.publish hr
  | failed hr => exact hp.fail hr hC
  | @unacknowledged message m rest hr =>
    have hrecorded := hp.delivering (d := .unacknowledged r m.eventID) (by simp)
    exact hrecorded.fail hr hC
  | unmarked hr =>
    have hsame := congrArg Relay.upcoming hr
    exact hp.move hstamps rfl (upcoming_update (.inl hsame.symm))
  | markedFailed hr hev hby =>
    have hsame := congrArg Relay.upcoming hr
    exact hp.move hstamps rfl (upcoming_update (.inl hsame.symm))
  | refused hr => exact hp.move hstamps rfl (upcoming_update (.inr rfl))
  | markedPublished hr hev hby hrest =>
    have hsame := congrArg Relay.upcoming hr
    refine hp.move hstamps rfl (upcoming_update ?_)
    rcases hrest with rfl | rfl
    · exact .inl hsame.symm
    · exact .inr rfl

/-- **Run lemma.** -/
theorem sequenced_always {xs : List DeploymentAct}
    (hxs : (deployment cfg).EachStep (PublishesInOrder cfg) xs) :
    (deployment cfg).Always Sequenced xs := by
  refine System.always_of_eachStep ?_ ?_ hxs
  · refine ⟨?_, ?_, ?_, ?_⟩
    · simp [deployment, Deployment.initial, Relay.upcoming]
    · simp [deployment, Deployment.initial, Published]
    · simp [deployment, Deployment.initial, Relay.upcoming]
    · simp [deployment, Deployment.initial, PublishedInOrder]
  · intro p x p' hreach hp hC h
    cases x with
    | scheduler y =>
      obtain ⟨c, hc, rfl⟩ := deploymentStep_scheduler.1 h
      exact hp.scheduler hC hc
    | relay r a =>
      have h : relayStep (cfg.relayBatch r) p r a = some p' := h
      exact hp.relay (reachable_relayed hreach) hC h
    | replay tenantID id now link => exact hC.elim
    | crashRelay r =>
      obtain rfl := Option.some.inj h
      exact hp.move rfl rfl (upcoming_update (.inr rfl))

/-- **Events are published in order**, in every run of steps that meet the condition. -/
theorem publication_in_order (cfg : DeploymentConfig) (xs : List DeploymentAct)
    (hxs : (deployment cfg).EachStep (PublishesInOrder cfg) xs) :
    (deployment cfg).Always PublishedInOrder xs :=
  fun pre q hpre hq => (sequenced_always hxs pre q hpre hq).order

namespace Demo

/-- The first claim of a job has been made at second 11. -/
def twoEvents : List DeploymentAct := deployed ([submit] ++ poll "a" 1 11)

/-- A relay claims both events and is given them in order. -/
def claimBoth : DeploymentAct :=
  relay "r" (.claim (12 * second) (fun _ => false) (fun id => if id = 1 then 0 else 1) .up)

/-- The relay publishes both. -/
def bothPublished : List DeploymentAct :=
  twoEvents ++ [claimBoth, relay "r" (.publish none), relay "r" (.markPublished (13 * second) .up),
    relay "r" (.publish none)]

/-- The broker refuses the first event and takes the second. -/
def firstRefused : List DeploymentAct :=
  twoEvents ++ [claimBoth, relay "r" (.publish (some "broker down")),
    relay "r" (.markFailed (13 * second) .up), relay "r" (.publish none)]

end Demo

theorem publication_in_order_bothPublished :
    ∃ p, (deployment demoDeployment).exec Demo.bothPublished = some p ∧ PublishedInOrder p ∧
      p.deliveries = [.published "r" 2011, .published "r" 1, .claimed "r" [1, 2011]] := by
  obtain ⟨p, hp, hD⟩ :
      ∃ p, (deployment demoDeployment).exec Demo.bothPublished = some p ∧
        p.deliveries = [.published "r" 2011, .published "r" 1, .claimed "r" [1, 2011]] :=
    System.exists_of_exec (by decide +kernel)
  have hsteps : (deployment demoDeployment).EachStep (PublishesInOrder demoDeployment)
      Demo.bothPublished :=
    System.eachStep_of_check (by decide +kernel)
  exact ⟨p, hp, (publication_in_order demoDeployment Demo.bothPublished hsteps).last hp, hD⟩

/-- `publishBatch` returns the failed event and goes on with the batch: the claim of the job is
published, and its creation is not. -/
theorem published_out_of_order :
    ∃ p, (deployment demoDeployment).exec Demo.firstRefused = some p ∧ ¬PublishedInOrder p := by
  obtain ⟨p, hp, hD, a, ha, b, hb, hid, hjob, hlt, hout⟩ :
      ∃ p, (deployment demoDeployment).exec Demo.firstRefused = some p ∧
        p.deliveries = [.published "r" 2011, .claimed "r" [1, 2011]] ∧
        ∃ a ∈ p.store.stamps, ∃ b ∈ p.store.stamps, b.id = 2011 ∧ a.jobID = b.jobID ∧ a.Before b ∧
          a.id = 1 :=
    System.exists_of_exec (by decide +kernel)
  refine ⟨p, hp, fun horder => ?_⟩
  obtain ⟨r, hr⟩ := horder [] "r" 2011 [.claimed "r" [1, 2011]] hD a ha b hb hid hjob hlt
  simp at hr

end JobScheduler
