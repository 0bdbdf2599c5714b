import JobScheduler.DataModel

/-!
# The scheduling rules of `internal/scheduler/engine.go`

The lifecycle table `transitions` with `CanTransition`, and the retry rule: `DecideFailure` with the
exponential backoff of `NextRetryAt`.  The backoff is doubled in a loop on a signed 64-bit count of
nanoseconds, so the delay is kept in that arithmetic (`wrap64`).
-/

namespace JobScheduler

/-- The lifecycle table: the statuses each status may move to; a status without an entry may move
nowhere. -/
def transitions : Status → List Status
  | .pending => [.running, .cancelled, .paused]
  | .scheduled => [.running, .cancelled, .paused]
  | .running => [.succeeded, .failed, .retryScheduled, .deadLettered, .cancelled]
  | .failed => [.retryScheduled, .deadLettered]
  | .retryScheduled => [.running, .cancelled, .deadLettered]
  | .paused => [.scheduled]
  | .deadLettered => [.retryScheduled]
  | .succeeded => []
  | .cancelled => []

/-- `CanTransition`. -/
def canTransition (source target : Status) : Bool := decide (target ∈ transitions source)

/-- Signed 64-bit wrap-around. -/
def wrap64 (x : Int) : Int := x.bmod (2 ^ 64)

/-- The loop `for i := 1; i < attemptNumber; i++ { delay *= 2 }`, run `n` times. -/
def doubleDelay : ℕ → Duration → Duration
  | 0, delay => delay
  | n + 1, delay => doubleDelay n (wrap64 (delay * 2))

/-- `NextRetryAt`: uncapped exponential backoff for an attempt number. -/
def nextRetryAt (now : Time) (baseBackoffSeconds attemptNumber : Int) : Time :=
  let base := if baseBackoffSeconds ≤ 0 then 30 else baseBackoffSeconds
  let attempt := if attemptNumber < 1 then 1 else attemptNumber
  now + doubleDelay (attempt - 1).toNat (wrap64 (base * second))

/-- `FailureDecision`: the next persisted state after an execution error. -/
structure FailureDecision where
  status : Status
  nextRetryCount : Int
  nextRunAt : Time

/-- `DecideFailure`.  Retry counts come out of a 32-bit column, so their successor does not wrap in
Go's 64-bit `int`. -/
def decideFailure (now : Time) (retryCount maxRetries retryBackoffSeconds : Int) :
    FailureDecision :=
  let nextRetryCount := retryCount + 1
  if nextRetryCount > maxRetries then
    { status := .deadLettered, nextRetryCount := nextRetryCount, nextRunAt := Time.zero }
  else
    { status := .retryScheduled
      nextRetryCount := nextRetryCount
      nextRunAt := nextRetryAt now retryBackoffSeconds nextRetryCount }

/-! ### What a decision says -/

section Decision

variable (now : Time) (retryCount maxRetries retryBackoffSeconds : Int)

/-- Every decision counts one more failure. -/
@[simp] theorem decideFailure_nextRetryCount :
    (decideFailure now retryCount maxRetries retryBackoffSeconds).nextRetryCount
      = retryCount + 1 := by
  simp only [decideFailure]
  split <;> rfl

theorem decideFailure_deadLettered_iff :
    (decideFailure now retryCount maxRetries retryBackoffSeconds).status = .deadLettered ↔
      maxRetries < retryCount + 1 := by
  simp only [decideFailure]
  split
  · rename_i h
    simpa using h
  · rename_i h
    simpa using h

end Decision

end JobScheduler
