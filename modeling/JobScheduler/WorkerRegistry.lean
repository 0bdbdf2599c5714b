import JobScheduler.CreateRequest
import JobScheduler.Library.TransitionSystem
import Mathlib.Data.Finset.Basic

/-!
# The worker registry

`RedisRegistry` of `internal/worker/registry.go`, one Redis command at a time.  `Heartbeat` is one
transaction; `ActiveWorkers` reads the set of worker ids, then the heartbeat key of each, and removes
an id whose key it did not find.  Any number of `ActiveWorkers` calls are under way at once, of any
number of API processes, and keys expire at any moment.

* `live_workers_kept_iff` — a run keeps every live worker in the set if and only if each removal finds
  the heartbeat key of its id still absent, and no heartbeat revives the key of a worker that was removed
  under another spelling of its id.
* `live_worker_removed` — a heartbeat between the read and the removal.
-/

namespace JobScheduler

open TransitionSystem

/-- `heartbeatKey`. -/
def heartbeatKey (workerID : String) : String := "worker:" ++ trimSpace workerID ++ ":heartbeat"

/-- `Info`. -/
structure Info where
  workerID : String
  status : String
  lastHeartbeat : Time

/-- Where a call of `ActiveWorkers` is. -/
inductive Listing where
  | idle
  /-- About to read the heartbeat key of the first id; done when there is none left. -/
  | listing (ids : List String) (workers : List Info)
  /-- The key of `id` was not there; about to remove `id` from the set. -/
  | stale (id : String) (ids : List String) (workers : List Info)

/-- The ids a call has still to deal with. -/
def Listing.ids : Listing → List String
  | .idle => []
  | .listing ids _ => ids
  | .stale id ids _ => id :: ids

/-- The id a call is about to remove. -/
def Listing.stale? : Listing → Option String
  | .stale id _ _ => some id
  | _ => none

/-- Redis, the calls of `ActiveWorkers`, and the ids that ever sent a heartbeat. -/
structure RegistryState where
  /-- The set `workers:active`. -/
  active : Finset String
  /-- The heartbeat keys with their values. -/
  heartbeats : String → Option String
  calls : ℕ → Listing
  workers : Finset String

namespace RegistryState

def initial : RegistryState := ⟨∅, fun _ => none, fun _ => .idle, ∅⟩

def setCall (s : RegistryState) (i : ℕ) (call : Listing) : RegistryState :=
  { s with calls := Function.update s.calls i call }

theorem calls_setCall_self (s : RegistryState) (i : ℕ) (call : Listing) :
    (s.setCall i call).calls i = call := by
  simp [setCall]

theorem calls_setCall_of_ne (s : RegistryState) {i j : ℕ} (h : j ≠ i) (call : Listing) :
    (s.setCall i call).calls j = s.calls j := by
  simp [setCall, h]

end RegistryState

/-- The commands, as Redis serves them. -/
inductive RegistryAct where
  /-- `Heartbeat`: `SET` and `SADD` in one transaction. -/
  | heartbeat (workerID now : String)
  /-- The TTL of a key runs out. -/
  | expire (key : String)
  /-- `SMEMBERS`, with the members in the order of the reply. -/
  | smembers (i : ℕ) (ids : List String)
  | get (i : ℕ)
  /-- `SREM`; its error is dropped. -/
  | srem (i : ℕ) (done : Bool)
  /-- The call returns: its list is complete, or a command failed. -/
  | finish (i : ℕ)

/-- One command; `parse` is `time.Parse` for `time.RFC3339Nano`. -/
def registryStep (parse : String → Option Time) (s : RegistryState) :
    RegistryAct → Option RegistryState
  | .heartbeat workerID now =>
    some { s with
      active := insert workerID s.active
      heartbeats := Function.update s.heartbeats (heartbeatKey workerID) (some now)
      workers := insert workerID s.workers }
  | .expire key => some { s with heartbeats := Function.update s.heartbeats key none }
  | .smembers i ids =>
    match s.calls i with
    | .idle => if ids.Nodup ∧ ids.toFinset = s.active then some (s.setCall i (.listing ids [])) else none
    | _ => none
  | .get i =>
    match s.calls i with
    | .listing (id :: ids) workers =>
      match s.heartbeats (heartbeatKey id) with
      | none => some (s.setCall i (.stale id ids workers))
      | some value =>
        some (s.setCall i
          (.listing ids (workers ++ [⟨id, "active", (parse value).getD Time.zero⟩])))
    | _ => none
  | .srem i done =>
    match s.calls i with
    | .stale id ids workers =>
      some ({ s with active := if done then s.active.erase id else s.active }.setCall i
        (.listing ids workers))
    | _ => none
  | .finish i => some (s.setCall i .idle)

/-- Workers and API processes at one Redis. -/
def registry (parse : String → Option Time) : System RegistryState RegistryAct :=
  ⟨.initial, registryStep parse⟩

/-! ### What a command does -/

variable {parse : String → Option Time} {s s' : RegistryState}

/-- A command is a heartbeat, an expiry, the removal of a stale id, or moves a call on. -/
inductive RegistryMove (s : RegistryState) : RegistryAct → RegistryState → Prop where
  | heartbeat (workerID now : String) : RegistryMove s (.heartbeat workerID now)
      { s with
        active := insert workerID s.active
        heartbeats := Function.update s.heartbeats (heartbeatKey workerID) (some now)
        workers := insert workerID s.workers }
  | expire (key : String) : RegistryMove s (.expire key)
      { s with heartbeats := Function.update s.heartbeats key none }
  | removed {i : ℕ} {id : String} {ids : List String} {workers : List Info}
      (h : s.calls i = .stale id ids workers) : RegistryMove s (.srem i true)
      ({ s with active := s.active.erase id }.setCall i (.listing ids workers))
  | moved {a : RegistryAct} {i : ℕ} {call : Listing}
      (hids : ∀ id ∈ call.ids, id ∈ s.active ∨ id ∈ (s.calls i).ids)
      (hheartbeat : ∀ workerID now, a ≠ .heartbeat workerID now) (hsrem : ∀ i, a ≠ .srem i true) :
      RegistryMove s a (s.setCall i call)

theorem registryStep_move {a : RegistryAct} (h : registryStep parse s a = some s') :
    RegistryMove s a s' := by
  cases a with
  | heartbeat workerID now =>
    obtain rfl := Option.some.inj h
    exact .heartbeat workerID now
  | expire key =>
    obtain rfl := Option.some.inj h
    exact .expire key
  | smembers i ids =>
    simp only [registryStep] at h
    split at h
    · split at h
      · next hmembers =>
        obtain rfl := Option.some.inj h
        refine .moved (fun id hid => .inl ?_) (by simp) (by simp)
        rw [← hmembers.2, List.mem_toFinset]
        exact hid
      · cases h
    · cases h
  | get i =>
    simp only [registryStep] at h
    split at h
    · next id ids workers hcall =>
      split at h
      · obtain rfl := Option.some.inj h
        refine .moved (fun id' hid' => .inr ?_) (by simp) (by simp)
        rw [hcall]
        exact hid'
      · obtain rfl := Option.some.inj h
        refine .moved (fun id' hid' => .inr ?_) (by simp) (by simp)
        rw [hcall]
        exact List.mem_cons_of_mem id hid'
    · cases h
  | srem i done =>
    simp only [registryStep] at h
    split at h
    · next id ids workers hcall =>
      obtain rfl := Option.some.inj h
      cases done with
      | true => exact .removed hcall
      | false =>
        refine .moved (fun id' hid' => .inr ?_) (by simp) (by simp)
        rw [hcall]
        exact List.mem_cons_of_mem id hid'
    · cases h
  | finish i =>
    obtain rfl := Option.some.inj h
    exact .moved (fun id hid => by cases hid) (by simp) (by simp)

/-! ### Only workers are listed -/

/-- The ids in the set and in the hands of a call are those of workers. -/
structure OnlyWorkers (s : RegistryState) : Prop where
  active : s.active ⊆ s.workers
  calls : ∀ i, ∀ id ∈ (s.calls i).ids, id ∈ s.workers

theorem OnlyWorkers.setCall {i : ℕ} {call : Listing} (h : OnlyWorkers s)
    (hids : ∀ id ∈ call.ids, id ∈ s.active ∨ id ∈ (s.calls i).ids) : OnlyWorkers (s.setCall i call) where
  active := h.active
  calls := by
    intro j id hid
    by_cases hj : j = i
    · subst hj
      rw [RegistryState.calls_setCall_self] at hid
      exact (hids id hid).elim (fun ha => h.active ha) (h.calls j id)
    · rw [RegistryState.calls_setCall_of_ne s hj] at hid
      exact h.calls j id hid

theorem onlyWorkers_of_reachable (h : (registry parse).Reachable s) : OnlyWorkers s := by
  refine h.invariant ⟨Finset.Subset.refl _, fun _ _ hid => by cases hid⟩ ?_
  intro s a s' hs hstep
  cases registryStep_move hstep with
  | heartbeat workerID now =>
    exact ⟨Finset.insert_subset_insert workerID hs.active,
      fun i id hid => Finset.mem_insert_of_mem (hs.calls i id hid)⟩
  | expire key => exact ⟨hs.active, hs.calls⟩
  | @removed i id ids workers hcall =>
    have herase : OnlyWorkers { s with active := s.active.erase id } :=
      ⟨(Finset.erase_subset id s.active).trans hs.active, hs.calls⟩
    refine herase.setCall fun id' hid' => .inr ?_
    rw [hcall]
    exact List.mem_cons_of_mem id hid'
  | moved hids => exact hs.setCall hids

/-! ### Live workers -/

/-- Every worker whose heartbeat key is there is a member of the set. -/
def LiveListed (s : RegistryState) : Prop :=
  ∀ w ∈ s.workers, s.heartbeats (heartbeatKey w) ≠ none → w ∈ s.active

/-- The command finds nothing changed that it relies on: a removal, that the key of its id is still
absent; a heartbeat, that no worker is missing whose id has the same key. -/
def KeepsLive (s : RegistryState) : RegistryAct → Prop
  | .srem i true => ∀ id, (s.calls i).stale? = some id → s.heartbeats (heartbeatKey id) = none
  | .heartbeat workerID _ =>
    ∀ w ∈ s.workers, heartbeatKey w = heartbeatKey workerID → w = workerID ∨ w ∈ s.active
  | _ => True

instance (s : RegistryState) : DecidablePred (KeepsLive s)
  | .srem i true =>
    match h : (s.calls i).stale? with
    | none => .isTrue fun id hid => by rw [h] at hid; cases hid
    | some id =>
      decidable_of_iff (s.heartbeats (heartbeatKey id) = none)
        ⟨fun hnone id' hid' => by rw [h] at hid'; cases hid'; exact hnone, fun hall => hall id h⟩
  | .srem _ false => .isTrue trivial
  | .heartbeat workerID _ => inferInstanceAs (Decidable (∀ w ∈ s.workers,
      heartbeatKey w = heartbeatKey workerID → w = workerID ∨ w ∈ s.active))
  | .expire _ => .isTrue trivial
  | .smembers _ _ => .isTrue trivial
  | .get _ => .isTrue trivial
  | .finish _ => .isTrue trivial

theorem liveListed_heartbeat (hlive : LiveListed s) (workerID now : String) :
    LiveListed { s with
      active := insert workerID s.active
      heartbeats := Function.update s.heartbeats (heartbeatKey workerID) (some now)
      workers := insert workerID s.workers } ↔ KeepsLive s (.heartbeat workerID now) := by
  simp only [LiveListed, KeepsLive, Finset.mem_insert]
  constructor
  · intro h w hw hkey
    apply h w (.inr hw)
    rw [hkey, Function.update_self]
    exact Option.some_ne_none now
  · rintro h w (rfl | hw) hthere
    · exact .inl rfl
    · by_cases hkey : heartbeatKey w = heartbeatKey workerID
      · exact h w hw hkey
      · rw [Function.update_of_ne hkey] at hthere
        exact .inr (hlive w hw hthere)

theorem liveListed_removed (hworkers : OnlyWorkers s) (hlive : LiveListed s) {i : ℕ} {id : String}
    {ids : List String} {workers : List Info} (hcall : s.calls i = .stale id ids workers) :
    LiveListed ({ s with active := s.active.erase id }.setCall i (.listing ids workers)) ↔
      KeepsLive s (.srem i true) := by
  have hid : id ∈ s.workers := hworkers.calls i id (by rw [hcall]; exact List.mem_cons_self)
  simp only [LiveListed, KeepsLive, RegistryState.setCall, hcall, Listing.stale?, Option.some.injEq,
    Finset.mem_erase]
  constructor
  · rintro h id' rfl
    by_contra hthere
    exact (h id hid hthere).1 rfl
  · intro h w hw hthere
    refine ⟨?_, hlive w hw hthere⟩
    rintro rfl
    exact hthere (h w rfl)

/-- A command keeps the live workers listed exactly if it finds what it relies on. -/
theorem liveListed_step_iff {a : RegistryAct} (hworkers : OnlyWorkers s) (hlive : LiveListed s)
    (h : registryStep parse s a = some s') : LiveListed s' ↔ KeepsLive s a := by
  cases registryStep_move h with
  | heartbeat workerID now => exact liveListed_heartbeat hlive workerID now
  | expire key =>
    refine ⟨fun _ => trivial, fun _ => ?_⟩
    simp only [LiveListed]
    intro w hw hthere
    apply hlive w hw
    by_cases hkey : heartbeatKey w = key
    · rw [hkey, Function.update_self] at hthere
      exact absurd rfl hthere
    · rwa [Function.update_of_ne hkey] at hthere
  | removed hcall => exact liveListed_removed hworkers hlive hcall
  | moved hids hheartbeat hsrem =>
    refine ⟨fun _ => ?_, fun _ => hlive⟩
    unfold KeepsLive
    split
    · exact absurd rfl (hsrem _)
    · exact absurd rfl (hheartbeat _ _)
    · trivial

/-- **Live workers stay listed** along a run if and only if every removal and every heartbeat of the run
finds what it relies on. -/
theorem live_workers_kept_iff (parse : String → Option Time) {acts : List RegistryAct}
    {s : RegistryState} (hrun : (registry parse).exec acts = some s) :
    (registry parse).Always LiveListed acts ↔ (registry parse).EachStep KeepsLive acts :=
  System.always_iff_eachStep (fun w hw => by cases hw)
    (fun s a s' hr hlive h => liveListed_step_iff (onlyWorkers_of_reachable hr) hlive h) hrun

namespace Demo

/-- A worker falls silent and is removed from the set, while another is alive. -/
def silentWorker : List RegistryAct :=
  [.heartbeat "a" "t", .heartbeat "b" "t", .expire (heartbeatKey "a"), .smembers 0 ["a", "b"], .get 0,
    .srem 0 true, .get 0, .finish 0]

/-- The heartbeat of a worker comes between the read of its expired key and its removal. -/
def lateHeartbeat : List RegistryAct :=
  [.heartbeat "a" "t", .expire (heartbeatKey "a"), .smembers 0 ["a"], .get 0, .heartbeat "a" "t",
    .srem 0 true]

end Demo

theorem live_workers_kept_iff_silent :
    ∃ s, (registry fun _ => none).exec Demo.silentWorker = some s ∧ "a" ∉ s.active ∧ "b" ∈ s.active ∧
      (registry fun _ => none).Always LiveListed Demo.silentWorker := by
  obtain ⟨s, hs, ha, hb⟩ : ∃ s, (registry fun _ => none).exec Demo.silentWorker = some s ∧
      "a" ∉ s.active ∧ "b" ∈ s.active := System.exists_of_exec (by decide +kernel)
  have hsteps : (registry fun _ => none).EachStep KeepsLive Demo.silentWorker :=
    System.eachStep_of_check (by decide +kernel)
  exact ⟨s, hs, ha, hb, (live_workers_kept_iff (fun _ => none) hs).2 hsteps⟩

/-- The worker is alive and not in the set. -/
theorem live_worker_removed :
    ∃ s, (registry fun _ => none).exec Demo.lateHeartbeat = some s ∧
      s.heartbeats (heartbeatKey "a") = some "t" ∧ "a" ∈ s.workers ∧ "a" ∉ s.active :=
  System.exists_of_exec (by decide +kernel)

end JobScheduler
