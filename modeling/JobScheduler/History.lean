import JobScheduler.Cluster
import JobScheduler.Effects

/-!
# Histories, and the stores they lead to

The database part of the system, without the processes: a store together with the history that led
to it.  `Commit h s e s'` says that the entry `e` can be added to the history `h` while the store
goes from `s` to `s'`; it names the operation that does it, what the operation found, and what the
worker must have done before (`Pending`, `Executing`).  `Log h s` is the reachability of that
relation and `Path` its runs; every invariant of the store is proved by induction on `Log`.

`owner` reads off a history which claim owns a job: the last one, unless something ended it.
-/

namespace JobScheduler

/-! ### Entries -/

/-- The job an entry is about. -/
def Entry.jobID : Entry → UUID
  | .created id => id
  | .requeued id _ => id
  | .claimed _ c => c.id
  | .extended _ c => c.id
  | .executed _ c => c.id
  | .completed _ c => c.id
  | .failed _ c => c.id
  | .released _ c => c.id
  | .transitioned id _ => id
  | .recovered id => id

/-- The claim that owns the job `j` after a history: the last claim of `j`, unless a finalization, a
release, a cancellation or a recovery of `j` came after it. -/
def owner (j : UUID) : List Entry → Option (String × ClaimedJob)
  | [] => none
  | .claimed w c :: h => if c.id = j then some (w, c) else owner j h
  | .completed _ c :: h => if c.id = j then none else owner j h
  | .failed _ c :: h => if c.id = j then none else owner j h
  | .released _ c :: h => if c.id = j then none else owner j h
  | .transitioned id .cancel :: h => if id = j then none else owner j h
  | .recovered id :: h => if id = j then none else owner j h
  | .transitioned _ .pause :: h => owner j h
  | .transitioned _ .resume :: h => owner j h
  | .transitioned _ .retry :: h => owner j h
  | .created _ :: h => owner j h
  | .requeued _ _ :: h => owner j h
  | .extended _ _ :: h => owner j h
  | .executed _ _ :: h => owner j h

/-- A claim that was made and neither given back nor executed yet. -/
structure Pending (h : List Entry) (w : String) (c : ClaimedJob) : Prop where
  claimed : .claimed w c ∈ h
  notReleased : .released w c ∉ h
  notExecuted : .executed w c ∉ h

/-- A claim whose execution was started. -/
structure Executing (h : List Entry) (w : String) (c : ClaimedJob) : Prop where
  claimed : .claimed w c ∈ h
  notReleased : .released w c ∉ h
  executed : .executed w c ∈ h

/-! ### Commits -/

/-- What a job handed to `Create` by the service looks like. -/
structure Submitted (j : Job) : Prop where
  status : j.status = .pending ∨ j.status = .scheduled
  retryCount : j.retryCount = 0
  maxRetries : 0 ≤ j.maxRetries

/-- The entry `e` is added to the history `h` while the store goes from `s` to `s'`. -/
inductive Commit (h : List Entry) (s : Store) : Entry → Store → Prop where
  | created {now : Time} {j : Job} {s' : Store} (hj : Submitted j) (hc : Creates now j s s') :
      Commit h s (.created j.id) s'
  | requeued {now clock runAt : Time} {newID tenantID : UUID} {dl : DeadLetterJob} {s' : Store}
      (hc : Requeues now clock newID tenantID dl runAt s s') :
      Commit h s (.requeued newID dl.id) s'
  | claimed {x : ClaimArgs} {r : JobRow} {s' : Store} (hrow : s.jobs.find? r.id = some r)
      (hr : r.ClaimableAt x.now) (hc : Claims x r s s') :
      Commit h s (.claimed x.workerID (x.claimed r)) s'
  | extended {now : Time} {ttl : Duration} {w : String} {c : ClaimedJob} {r : JobRow} {s' : Store}
      (hp : Executing h w c) (hid : r.id = c.id) (hc : Extends now ttl w r s s') :
      Commit h s (.extended w c) s'
  | executed {w : String} {c : ClaimedJob} (hp : Pending h w c) : Commit h s (.executed w c) s
  | completed {now : Time} {durationMS : Int} {result : RawMessage} {w : String} {c : ClaimedJob}
      {r : JobRow} {a : Attempt} {s' : Store} (hp : Executing h w c)
      (hc : Completes now durationMS result w c r a s s') : Commit h s (.completed w c) s'
  | failed {now clock clock' : Time} {durationMS : Int} {err : ExecError} {w : String}
      {c : ClaimedJob} {r : JobRow} {a : Attempt} {s' : Store} (hp : Executing h w c)
      (hc : Fails now durationMS (decideOutcome clock clock' c err).outcome
        (decideOutcome clock clock' c err).nextStatus
        (decideOutcome clock clock' c err).nextRetryCount w c r a s s') :
      Commit h s (.failed w c) s'
  | released {now : Time} {w : String} {c : ClaimedJob} {r : JobRow} {s' : Store}
      (hp : Pending h w c) (hid : r.id = c.id) (hc : Releases now .retryScheduled w r s s') :
      Commit h s (.released w c) s'
  | transitioned {now : Time} {tenantID : UUID} {op : Operation} {r : JobRow} {s' : Store}
      (hc : Transitions now tenantID op.allowedFrom op.target r s s') :
      Commit h s (.transitioned r.id op) s'
  | recovered {x : RecoverArgs} {r : JobRow} {s' : Store} (hrow : s.jobs.find? r.id = some r)
      (hr : r.ExpiredAt x.now) (hc : Recovers x r s s') : Commit h s (.recovered r.id) s'

/-- The history `h` can lead to the store `s`. -/
inductive Log : List Entry → Store → Prop where
  | nil : Log [] Store.empty
  | cons {h : List Entry} {s s' : Store} {e : Entry} (hl : Log h s) (hc : Commit h s e s') :
      Log (e :: h) s'

/-- The entries `es` are added to the history `h`, newest first, while the store goes from `s` to
`s'`. -/
inductive Path (h : List Entry) (s : Store) : List Entry → Store → Prop where
  | nil : Path h s [] s
  | cons {es : List Entry} {s₁ s' : Store} {e : Entry} (hp : Path h s es s₁)
      (hc : Commit (es ++ h) s₁ e s') : Path h s (e :: es) s'

theorem Log.append {h es : List Entry} {s s' : Store} (hl : Log h s) (hp : Path h s es s') :
    Log (es ++ h) s' := by
  induction hp with
  | nil => exact hl
  | cons _ hc ih => exact .cons ih hc

theorem Path.single {h : List Entry} {s s' : Store} {e : Entry} (hc : Commit h s e s') :
    Path h s [e] s' :=
  .cons .nil hc

end JobScheduler
