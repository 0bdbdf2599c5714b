import JobScheduler.DataModel
import JobScheduler.Library.TokenBucket
import JobScheduler.Library.Transaction
import JobScheduler.Library.TransitionSystem
import Mathlib.Algebra.Order.Ring.Rat

/-!
# The rate limiter

`Allow` runs one script in Redis for each request: it reads the client's bucket, refills it, takes a
token if there is one, writes it back and sets the key to expire after 120 idle seconds.  Every API
replica runs the same script on the same key, so the requests of one client form one sequence.

The system below has the keys of Redis, their expiry, any number of clients and the failures of a call
(the script may not have run, or have run unseen).  Times and tokens are exact rationals, as seconds.

* `bucketScript_eq_draw` — the script is a request to a token bucket of the library.
* `Twin.step` — a run and the same run with every key kept give the same answers.
* `rate_limit_bound` — the bound on any window, the range of the tokens, and that expiry is not seen.
* `retry_after_suffices` — the delay that is reported is enough if and only if the limit is 60 requests a
  minute or more.
-/

namespace JobScheduler

open TokenBucket TransitionSystem Transaction

/-! ### The script and its callers -/

/-- `NewRateLimiter`: the capacity it stores. -/
def newRateLimiter (perMinute : Int) : Int := if perMinute < 1 then 120 else perMinute

/-- `"rate:client:" + clientID`. -/
def bucketKey (clientID : String) : String := "rate:client:" ++ clientID

/-- The script of `Allow`: what it returns, and the hash it writes. -/
def bucketScript (capacity now : ℚ) (values : Option (Bucket ℚ)) : (Bool × ℚ) × Bucket ℚ :=
  let rate := capacity / 60
  let tokens := (values.map (·.tokens)).getD capacity
  let updated := (values.map (·.updated)).getD now
  let tokens := min capacity (tokens + (now - updated) * rate)
  if tokens ≥ 1 then ((true, tokens - 1), ⟨tokens - 1, now⟩) else ((false, tokens), ⟨tokens, now⟩)

/-- The seconds after which `EXPIRE` deletes an idle key. -/
def bucketTTL : ℚ := 120

/-- What `Allow` returns; `none` is an error of `Eval`.  The tokens the script returns are not read. -/
def allowResult : Option (Bool × ℚ) → Option (Bool × Duration)
  | none => none
  | some (true, _) => some (true, 0)
  | some (false, _) => some (false, second)

/-- The answers of `Middleware`. -/
inductive LimitAnswer where
  | unauthorized
  | unavailable
  | limited (retryAfter : Int)
  | next
  deriving DecidableEq

/-- `Middleware`, given whether there is a principal and what `Allow` returned; the header is the
delay in whole seconds. -/
def rateMiddleware (principal : Bool) (result : Option (Bool × Duration)) : LimitAnswer :=
  if !principal then .unauthorized
  else
    match result with
    | none => .unavailable
    | some (true, _) => .next
    | some (false, retry) => .limited (retry.tdiv second)

/-! ### The clients of one Redis -/

/-- One call of `Allow`: what the script returned if it ran, and whether that was seen. -/
structure AllowCall where
  client : String
  time : ℚ
  returned : Option (Bool × ℚ)
  link : Link

/-- What the caller sees. -/
def AllowCall.result (call : AllowCall) : Option (Bool × Duration) :=
  allowResult (if call.link = .up then call.returned else none)

def AllowCall.allowed (call : AllowCall) : Bool := call.result.any (·.1)

/-- The hashes in Redis, the last time at which something happened to each key, and the calls so far,
newest first. -/
structure LimiterState where
  buckets : String → Option (Bucket ℚ)
  clock : String → Option ℚ
  calls : List AllowCall

inductive LimiterAct where
  /-- A replica calls `Allow` for a client. -/
  | allow (client : String) (now : ℚ) (link : Link)
  /-- Redis deletes a key whose time to live is over. -/
  | expire (key : String) (now : ℚ)

/-- The clock of a key does not run backwards. -/
def LimiterState.Later (s : LimiterState) (key : String) (now : ℚ) : Prop :=
  ∀ t, s.clock key = some t → t ≤ now

instance (s : LimiterState) (key : String) (now : ℚ) : Decidable (s.Later key now) :=
  match h : s.clock key with
  | none => isTrue fun t ht => by simp [h] at ht
  | some t => decidable_of_iff (t ≤ now) ⟨fun hle t' ht' => by simp_all, fun hall => hall t h⟩

/-- One call of `Allow`. -/
def LimiterState.allow (capacity : Int) (s : LimiterState) (client : String) (now : ℚ) (link : Link) :
    LimiterState :=
  let key := bucketKey client
  let out := bucketScript capacity now (s.buckets key)
  let clock := Function.update s.clock key (some now)
  if link = .down then { s with clock, calls := ⟨client, now, none, link⟩ :: s.calls }
  else ⟨Function.update s.buckets key (some out.2), clock, ⟨client, now, some out.1, link⟩ :: s.calls⟩

def limiterStep (capacity : Int) (s : LimiterState) : LimiterAct → Option LimiterState
  | .allow client now link =>
    if s.Later (bucketKey client) now then some (s.allow capacity client now link) else none
  | .expire key now =>
    match s.buckets key with
    | none => none
    | some b =>
      if b.updated + bucketTTL ≤ now ∧ s.Later key now then
        some { s with
          buckets := Function.update s.buckets key none
          clock := Function.update s.clock key (some now) }
      else none

/-- Any number of replicas and clients on one Redis that is empty at first. -/
def limiter (perMinute : Int) : System LimiterState LimiterAct where
  init := ⟨fun _ => none, fun _ => none, []⟩
  step := limiterStep (newRateLimiter perMinute)

/-- The calls of a client that were allowed at a time between `a` and `e`. -/
def LimiterState.allowedBetween (s : LimiterState) (client : String) (a e : ℚ) : ℕ :=
  s.calls.countP fun call => decide (call.client = client ∧ call.allowed = true ∧ a ≤ call.time ∧ call.time ≤ e)

/-- The run with every key kept. -/
def LimiterAct.isCall : LimiterAct → Bool
  | .allow .. => true
  | .expire .. => false

/-! ### The script as a request to a token bucket -/

theorem one_le_newRateLimiter (perMinute : Int) : 1 ≤ newRateLimiter perMinute := by
  unfold newRateLimiter
  split <;> omega

theorem bucketKey_injective {x y : String} (h : bucketKey x = bucketKey y) : x = y := by
  have hlists := congrArg String.toList h
  simp only [bucketKey, String.toList_append] at hlists
  exact String.toList_injective (List.append_cancel_left hlists)

theorem bucketScript_eq_draw (capacity now : ℚ) (values : Option (Bucket ℚ)) :
    bucketScript capacity now values
      = (((draw capacity (capacity / 60) now values).1, (draw capacity (capacity / 60) now values).2.tokens),
        (draw capacity (capacity / 60) now values).2) := by
  have hlevel : min capacity ((values.map (·.tokens)).getD capacity
      + (now - (values.map (·.updated)).getD now) * (capacity / 60))
        = level capacity (capacity / 60) now values := by
    cases values with
    | none => simp [level]
    | some b => rfl
  simp only [bucketScript, draw, ge_iff_le, hlevel]
  split <;> rfl

/-- After two minutes at `c` tokens a minute the bucket is full, however few tokens it had. -/
theorem bucketScript_forgotten {c now : ℚ} {b : Bucket ℚ} (hc : 0 ≤ c) (htokens : 0 ≤ b.tokens)
    (hidle : b.updated + bucketTTL ≤ now) :
    bucketScript c now (some b) = bucketScript c now none := by
  have hfull : c ≤ (now - b.updated) * (c / 60) := by
    have htime : 120 ≤ now - b.updated := by
      unfold bucketTTL at hidle
      linarith
    calc c ≤ 120 * (c / 60) := by linarith
      _ ≤ (now - b.updated) * (c / 60) := by gcongr
  rw [bucketScript_eq_draw, bucketScript_eq_draw, draw_forgotten htokens hfull]

/-! ### Steps -/

variable {capacity : Int} {s s' t t' : LimiterState} {client key : String} {now : ℚ} {link : Link}

theorem limiterStep_allow : limiterStep capacity s (.allow client now link) = some s' ↔
    s.Later (bucketKey client) now ∧ s' = s.allow capacity client now link := by
  simp only [limiterStep]
  split
  · rename_i h
    simp [h, eq_comm]
  · rename_i h
    simp [h]

theorem limiterStep_expire (h : limiterStep capacity s (.expire key now) = some s') :
    ∃ b, s.buckets key = some b ∧ b.updated + bucketTTL ≤ now ∧ s.Later key now
      ∧ s' = { s with
          buckets := Function.update s.buckets key none
          clock := Function.update s.clock key (some now) } := by
  simp only [limiterStep] at h
  split at h
  · cases h
  · rename_i b hb
    split at h
    · rename_i hcond
      exact ⟨b, hb, hcond.1, hcond.2, (Option.some.inj h).symm⟩
    · cases h

theorem LimiterState.clock_allow (s : LimiterState) :
    (s.allow capacity client now link).clock = Function.update s.clock (bucketKey client) (some now) := by
  unfold LimiterState.allow
  split <;> rfl

/-- A key's clock after something happened to it. -/
theorem later_of_clock {k : String} {u : ℚ} (hclock : s'.clock = Function.update s.clock key (some now))
    (hnow : s.Later key now) : s'.Later k u ↔ s.Later k u ∧ (k = key → now ≤ u) := by
  unfold LimiterState.Later
  rw [hclock]
  by_cases hk : k = key
  · subst hk
    simp only [Function.update_self, Option.some.injEq, forall_eq', true_implies]
    constructor
    · intro hle
      exact ⟨fun t ht => (hnow t ht).trans hle, hle⟩
    · intro h
      exact h.2
  · simp [hk]

theorem LimiterState.later_allow {k : String} {u : ℚ} (hnow : s.Later (bucketKey client) now) :
    (s.allow capacity client now link).Later k u ↔ s.Later k u ∧ (k = bucketKey client → now ≤ u) :=
  later_of_clock s.clock_allow hnow

theorem LimiterState.buckets_allow (s : LimiterState) (k : String) :
    (s.allow capacity client now link).buckets k =
      if k = bucketKey client ∧ link ≠ .down then
        some (bucketScript capacity now (s.buckets (bucketKey client))).2
      else s.buckets k := by
  unfold LimiterState.allow
  by_cases hdown : link = .down
  · simp [hdown]
  · by_cases hk : k = bucketKey client
    · subst hk
      simp [hdown]
    · simp [hdown, hk]

theorem LimiterState.calls_allow (s : LimiterState) :
    (s.allow capacity client now link).calls =
      ⟨client, now, if link = .down then none
        else some (bucketScript capacity now (s.buckets (bucketKey client))).1, link⟩ :: s.calls := by
  unfold LimiterState.allow
  by_cases hdown : link = .down <;> simp [hdown]

/-! ### The range of the tokens -/

/-- Every bucket holds between none and `capacity` tokens, counted in the past of its key. -/
def Ranged (capacity : Int) (s : LimiterState) : Prop :=
  ∀ key now, s.Later key now → Fits (capacity : ℚ) now (s.buckets key)

theorem Ranged.allow (hc : 0 ≤ capacity) (h : Ranged capacity s) (hnow : s.Later (bucketKey client) now) :
    Ranged capacity (s.allow capacity client now link) := by
  have hcq : (0 : ℚ) ≤ capacity := by exact_mod_cast hc
  intro k u hu
  obtain ⟨hlater, hle⟩ := (LimiterState.later_allow hnow).1 hu
  rw [LimiterState.buckets_allow]
  split
  · rename_i hk
    rw [bucketScript_eq_draw]
    exact ((h _ _ hnow).draw hcq (by positivity)).mono (hle hk.1)
  · exact h k u hlater

theorem Ranged.step (hc : 0 ≤ capacity) {x : LimiterAct} (h : Ranged capacity s)
    (hs : limiterStep capacity s x = some s') : Ranged capacity s' := by
  cases x with
  | allow client now link =>
    obtain ⟨hnow, rfl⟩ := limiterStep_allow.1 hs
    exact h.allow hc hnow
  | expire key now =>
    obtain ⟨b, -, -, hnow, rfl⟩ := limiterStep_expire hs
    intro k u hu
    have hlater := ((later_of_clock rfl hnow).1 hu).1
    by_cases hk : k = key
    · subst hk
      intro b hb
      simp at hb
    · simpa [Function.update_of_ne hk] using h k u hlater

theorem reachable_ranged {perMinute : Int} (hr : (limiter perMinute).Reachable s) :
    Ranged (newRateLimiter perMinute) s := by
  have hc : 0 ≤ newRateLimiter perMinute := by
    have := one_le_newRateLimiter perMinute
    omega
  apply System.Reachable.invariant (P := Ranged (newRateLimiter perMinute)) ?_ ?_ hr
  · intro key now _ b hb
    cases hb
  · intro s x s' h hs
    exact h.step hc hs

/-! ### Expiry -/

/-- `t` has the calls of `s` and the keys that have expired in `s`, all of them due. -/
structure Twin (s t : LimiterState) : Prop where
  calls : t.calls = s.calls
  later : ∀ {key now}, s.Later key now → t.Later key now
  bucket : ∀ key, t.buckets key = s.buckets key ∨ (s.buckets key = none ∧
    ∃ b, t.buckets key = some b ∧ 0 ≤ b.tokens ∧ ∀ now, s.Later key now → b.updated + bucketTTL ≤ now)

/-- The script does not tell an expired key from the one that was kept. -/
theorem Twin.script (h : Twin s t) (hc : 0 ≤ capacity) (hnow : s.Later key now) :
    bucketScript capacity now (t.buckets key) = bucketScript capacity now (s.buckets key) := by
  rcases h.bucket key with heq | ⟨hnone, b, hb, htokens, hidle⟩
  · rw [heq]
  · rw [hnone, hb]
    exact bucketScript_forgotten (by exact_mod_cast hc) htokens (hidle now hnow)

theorem Twin.allow (h : Twin s t) (hc : 0 ≤ capacity) (hnow : s.Later (bucketKey client) now) :
    Twin (s.allow capacity client now link) (t.allow capacity client now link) := by
  have hscript := h.script hc hnow
  refine ⟨?_, ?_, ?_⟩
  · rw [LimiterState.calls_allow, LimiterState.calls_allow, hscript, h.calls]
  · intro k u hu
    obtain ⟨hlater, hle⟩ := (LimiterState.later_allow hnow).1 hu
    exact (LimiterState.later_allow (h.later hnow)).2 ⟨h.later hlater, hle⟩
  · intro k
    rw [LimiterState.buckets_allow, LimiterState.buckets_allow, hscript]
    split
    · exact Or.inl rfl
    · rcases h.bucket k with heq | ⟨hnone, b, hb, htokens, hidle⟩
      · exact Or.inl heq
      · exact Or.inr ⟨hnone, b, hb, htokens,
          fun u hu => hidle u ((LimiterState.later_allow hnow).1 hu).1⟩

theorem Twin.expire (h : Twin s t) (hranged : Ranged capacity s)
    (hs : limiterStep capacity s (.expire key now) = some s') : Twin s' t := by
  obtain ⟨b, hb, hidle, hnow, rfl⟩ := limiterStep_expire hs
  refine ⟨h.calls, fun hu => h.later ((later_of_clock rfl hnow).1 hu).1, ?_⟩
  intro k
  by_cases hk : k = key
  · subst hk
    refine Or.inr ⟨by simp, b, ?_, (hranged k now hnow b hb).1, ?_⟩
    · rcases h.bucket k with heq | ⟨hnone, -⟩
      · rw [heq, hb]
      · rw [hb] at hnone
        cases hnone
    · intro u hu
      have hle := ((later_of_clock rfl hnow).1 hu).2 rfl
      linarith
  · rcases h.bucket k with heq | ⟨hnone, b', hb', htokens, hdue⟩
    · exact Or.inl (by simpa [Function.update_of_ne hk] using heq)
    · exact Or.inr ⟨by simpa [Function.update_of_ne hk] using hnone, b', hb', htokens,
        fun u hu => hdue u ((later_of_clock rfl hnow).1 hu).1⟩

/-- Every run has a twin in which no key expires. -/
theorem exec_kept {perMinute : Int} {xs : List LimiterAct} (hx : (limiter perMinute).exec xs = some s) :
    ∃ t, (limiter perMinute).exec (xs.filter LimiterAct.isCall) = some t ∧ Twin s t := by
  have hc : 0 ≤ newRateLimiter perMinute := by
    have := one_le_newRateLimiter perMinute
    omega
  induction xs using List.reverseRecOn generalizing s with
  | nil =>
    obtain rfl := Option.some.inj hx
    exact ⟨_, rfl, rfl, id, fun _ => Or.inl rfl⟩
  | append_singleton xs x ih =>
    obtain ⟨s₀, h₀, hstep⟩ := System.exec_snoc.1 hx
    obtain ⟨t, ht, htwin⟩ := ih h₀
    rw [List.filter_append]
    cases x with
    | allow client now link =>
      obtain ⟨hnow, rfl⟩ := limiterStep_allow.1 hstep
      exact ⟨_, System.exec_snoc.2 ⟨t, ht, limiterStep_allow.2 ⟨htwin.later hnow, rfl⟩⟩,
        htwin.allow hc hnow⟩
    | expire key now =>
      refine ⟨t, ?_, htwin.expire (reachable_ranged ⟨xs, h₀⟩) hstep⟩
      simpa [LimiterAct.isCall] using ht

/-! ### The calls of one client -/

/-- The answers of the script to a client, in order. -/
def LimiterState.decisions (s : LimiterState) (client : String) : List (ℚ × Bool) :=
  s.calls.reverse.filterMap fun call =>
    if call.client = client then call.returned.map fun r => (call.time, r.1) else none

/-- The answers are those of a token bucket asked at the times `ts`, and its state is in Redis. -/
structure Traced (capacity : Int) (s : LimiterState) (client : String) (ts : List ℚ) : Prop where
  decisions : s.decisions client = serve (capacity : ℚ) (capacity / 60) none ts
  bucket : s.buckets (bucketKey client) = after (capacity : ℚ) (capacity / 60) none ts
  sorted : ts.Pairwise (· ≤ ·)
  past : ∀ now, s.Later (bucketKey client) now → ∀ t ∈ ts, t ≤ now

theorem Traced.allow {c : String} {ts : List ℚ} (h : Traced capacity s c ts)
    (hnow : s.Later (bucketKey client) now) :
    ∃ ts', Traced capacity (s.allow capacity client now link) c ts' := by
  have hpast : ∀ u, (s.allow capacity client now link).Later (bucketKey c) u → ∀ t ∈ ts, t ≤ u :=
    fun u hu => h.past u ((LimiterState.later_allow hnow).1 hu).1
  by_cases hask : client = c ∧ link ≠ .down
  · obtain ⟨rfl, hrun⟩ := hask
    have hbefore : ∀ t ∈ ts, t ≤ now := h.past now hnow
    refine ⟨ts ++ [now], ?_, ?_, ?_, ?_⟩
    · rw [serve_append, ← h.decisions, ← h.bucket]
      simp [LimiterState.decisions, LimiterState.calls_allow, hrun, bucketScript_eq_draw]
    · rw [after_append, ← h.bucket, LimiterState.buckets_allow, bucketScript_eq_draw]
      simp [hrun]
    · simpa [List.pairwise_append, h.sorted] using hbefore
    · intro u hu t ht
      have hle := ((LimiterState.later_allow hnow).1 hu).2 rfl
      rcases List.mem_append.1 ht with ht | ht
      · exact (hbefore t ht).trans hle
      · rw [List.mem_singleton.1 ht]
        exact hle
  · -- another client's call, or one that did not reach Redis
    refine ⟨ts, ?_, ?_, h.sorted, hpast⟩
    · rw [← h.decisions]
      simp only [LimiterState.decisions, LimiterState.calls_allow, List.reverse_cons,
        List.filterMap_append]
      by_cases hclient : client = c
      · have hdown : link = .down := by
          by_contra hne
          exact hask ⟨hclient, hne⟩
        simp [hdown]
      · simp [hclient]
    · rw [← h.bucket, LimiterState.buckets_allow, if_neg]
      rintro ⟨hkey, hrun⟩
      exact hask ⟨(bucketKey_injective hkey).symm, hrun⟩

/-- Where no key expires, every client has its own token bucket. -/
theorem exec_traced {perMinute : Int} {xs : List LimiterAct}
    (hx : (limiter perMinute).exec (xs.filter LimiterAct.isCall) = some s) (client : String) :
    ∃ ts, Traced (newRateLimiter perMinute) s client ts := by
  induction xs using List.reverseRecOn generalizing s with
  | nil =>
    obtain rfl := Option.some.inj hx
    exact ⟨[], rfl, rfl, List.Pairwise.nil, fun _ _ t ht => absurd ht (by simp)⟩
  | append_singleton xs x ih =>
    rw [List.filter_append] at hx
    cases x with
    | allow c now link =>
      obtain ⟨s₀, h₀, hstep⟩ := System.exec_snoc.1 hx
      obtain ⟨hnow, rfl⟩ := limiterStep_allow.1 hstep
      obtain ⟨ts, h⟩ := ih h₀
      exact h.allow hnow
    | expire key now => exact ih (by simpa [LimiterAct.isCall] using hx)

theorem AllowCall.returned_of_allowed {call : AllowCall} (h : call.allowed = true) :
    ∃ tokens, call.returned = some (true, tokens) := by
  unfold AllowCall.allowed AllowCall.result at h
  split at h
  · match hr : call.returned with
    | none => simp [hr, allowResult] at h
    | some (true, tokens) => exact ⟨tokens, rfl⟩
    | some (false, tokens) => simp [hr, allowResult] at h
  · simp [allowResult] at h

/-- A call that is allowed was granted by the script. -/
theorem LimiterState.allowedBetween_le (s : LimiterState) (client : String) (a e : ℚ) :
    s.allowedBetween client a e
      ≤ (s.decisions client).countP fun p => decide (Granted a e p) := by
  unfold LimiterState.allowedBetween LimiterState.decisions
  rw [List.countP_filterMap, List.countP_reverse]
  apply List.countP_mono_left
  intro call _ hcall
  obtain ⟨hclient, hallowed, ha, he⟩ := of_decide_eq_true hcall
  obtain ⟨tokens, hr⟩ := AllowCall.returned_of_allowed hallowed
  simp [hclient, hr, Granted, ha, he]

/-- In every run of the replicas: any `T` seconds allow a client at most `c + T * c / 60` calls; its
bucket holds between none and `c` tokens; and the run in which no key ever expires has the same calls
with the same results. -/
theorem rate_limit_bound (perMinute : Int) {xs : List LimiterAct} {s : LimiterState}
    (hrun : (limiter perMinute).exec xs = some s) (client : String) :
    (∀ a T : ℚ, 0 ≤ T → (s.allowedBetween client a (a + T) : ℚ)
        ≤ newRateLimiter perMinute + T * newRateLimiter perMinute / 60)
      ∧ (∀ b, s.buckets (bucketKey client) = some b →
          0 ≤ b.tokens ∧ b.tokens ≤ newRateLimiter perMinute)
      ∧ ∃ t, (limiter perMinute).exec (xs.filter LimiterAct.isCall) = some t ∧ t.calls = s.calls := by
  obtain ⟨t, ht, htwin⟩ := exec_kept hrun
  refine ⟨?_, ?_, t, ht, htwin.calls⟩
  · intro a T hT
    obtain ⟨ts, htraced⟩ := exec_traced ht client
    have hc : (0 : ℚ) ≤ newRateLimiter perMinute := by
      have := one_le_newRateLimiter perMinute
      exact_mod_cast (by omega : 0 ≤ newRateLimiter perMinute)
    have hgranted : s.allowedBetween client a (a + T)
        ≤ served (newRateLimiter perMinute : ℚ) (newRateLimiter perMinute / 60) a (a + T) none ts := by
      have hle := t.allowedBetween_le client a (a + T)
      rw [htraced.decisions] at hle
      rw [LimiterState.allowedBetween, ← htwin.calls]
      exact hle
    -- before the first call nothing is known of the bucket, so any earlier time will do
    obtain ⟨start, hstart⟩ : ∃ start, ∀ u ∈ ts, start ≤ u := by
      cases ts with
      | nil => exact ⟨0, by simp⟩
      | cons u ts =>
        refine ⟨u, fun v hv => ?_⟩
        rcases List.mem_cons.1 hv with rfl | hv
        · exact le_refl v
        · exact (List.pairwise_cons.1 htraced.sorted).1 v hv
    have hfits : Fits (newRateLimiter perMinute : ℚ) start none := fun b hb => by cases hb
    have hrate : (0 : ℚ) ≤ newRateLimiter perMinute / 60 := by positivity
    calc (s.allowedBetween client a (a + T) : ℚ)
        ≤ served (newRateLimiter perMinute : ℚ) (newRateLimiter perMinute / 60) a (a + T) none ts :=
          Nat.cast_le.2 hgranted
      _ ≤ newRateLimiter perMinute + (a + T - a) * (newRateLimiter perMinute / 60) :=
          served_le hc hrate htraced.sorted hfits hstart (by linarith)
      _ = newRateLimiter perMinute + T * newRateLimiter perMinute / 60 := by ring
  · intro b hb
    obtain ⟨now, hnow⟩ : ∃ now, s.Later (bucketKey client) now := by
      cases hclock : s.clock (bucketKey client) with
      | none => exact ⟨0, by simp [LimiterState.Later, hclock]⟩
      | some u => exact ⟨u, by simp [LimiterState.Later, hclock]⟩
    obtain ⟨hlow, hhigh, -⟩ := reachable_ranged ⟨xs, hrun⟩ _ _ hnow b hb
    exact ⟨hlow, hhigh⟩

/-- Two calls a minute, three at once: the third is refused, and so is one twenty seconds later; the
key expires after two idle minutes. -/
def burst : List LimiterAct :=
  [.allow "c" 0 .up, .allow "c" 0 .up, .allow "c" 0 .up, .allow "c" 20 .up, .expire (bucketKey "c") 140,
    .allow "c" 150 .up]

theorem rate_limit_bound_burst : ∃ s, (limiter 2).exec burst = some s
    ∧ s.calls.map AllowCall.allowed = [true, false, false, true, true]
    ∧ (s.allowedBetween "c" 0 (0 + 20) : ℚ) ≤ newRateLimiter 2 + 20 * newRateLimiter 2 / 60 := by
  obtain ⟨s, hs, hcalls⟩ : ∃ s, (limiter 2).exec burst = some s
      ∧ s.calls.map AllowCall.allowed = [true, false, false, true, true] :=
    System.exists_of_exec (by decide +kernel)
  exact ⟨s, hs, hcalls, (rate_limit_bound 2 hs "c").1 0 20 (by norm_num)⟩

/-! ### The delay that is reported -/

/-- The delay in seconds. -/
def Duration.seconds (d : Duration) : ℚ := d / second

/-- The result of the newest call. -/
def LimiterState.lastResult (s : LimiterState) : Option (Bool × Duration) :=
  s.calls.head?.bind AllowCall.result

/-- Not a call of `client`. -/
def LimiterAct.Spares (client : String) : LimiterAct → Prop
  | .allow c _ _ => c ≠ client
  | .expire _ _ => True

/-- What others do leaves the bucket as it is, or lets it expire. -/
theorem bucket_of_spares {x : LimiterAct} (hx : x.Spares client)
    (hs : limiterStep capacity s x = some s') :
    s'.buckets (bucketKey client) = s.buckets (bucketKey client)
      ∨ s'.buckets (bucketKey client) = none := by
  cases x with
  | allow c now link =>
    obtain ⟨-, rfl⟩ := limiterStep_allow.1 hs
    rw [LimiterState.buckets_allow, if_neg]
    · exact Or.inl rfl
    · rintro ⟨hkey, -⟩
      exact hx (bucketKey_injective hkey).symm
  | expire key now =>
    obtain ⟨b, -, -, -, rfl⟩ := limiterStep_expire hs
    by_cases hk : bucketKey client = key
    · simp [hk]
    · simp [hk]

theorem bucket_of_execFrom {perMinute : Int} {ys : List LimiterAct} (hys : ∀ y ∈ ys, y.Spares client)
    (hx : (limiter perMinute).execFrom s ys = some s') :
    s'.buckets (bucketKey client) = s.buckets (bucketKey client)
      ∨ s'.buckets (bucketKey client) = none := by
  induction ys generalizing s with
  | nil =>
    obtain rfl := Option.some.inj hx
    exact Or.inl rfl
  | cons y ys ih =>
    obtain ⟨s₁, hy, hrest⟩ := Option.bind_eq_some_iff.1 hx
    have hfirst := bucket_of_spares (hys y (by simp)) hy
    rcases ih (fun z hz => hys z (by simp [hz])) hrest with heq | hnone
    · rcases hfirst with hsame | hgone
      · exact Or.inl (heq.trans hsame)
      · exact Or.inr (heq.trans hgone)
    · exact Or.inr hnone

theorem lastResult_allow (s : LimiterState) :
    (s.allow capacity client now link).lastResult =
      allowResult (if link = .up then some (bucketScript capacity now (s.buckets (bucketKey client))).1
        else none) := by
  unfold LimiterState.lastResult
  rw [LimiterState.calls_allow]
  cases link <;> rfl

/-- A call that was refused left its bucket in Redis, with no whole token in it. -/
theorem refused_bucket {d : Duration} (hranged : Ranged capacity s) (hc : 0 ≤ capacity)
    (hnow : s.Later (bucketKey client) now)
    (hrefused : (s.allow capacity client now link).lastResult = some (false, d)) :
    d = second ∧ ∃ b, (s.allow capacity client now link).buckets (bucketKey client) = some b
      ∧ 0 ≤ b.tokens ∧ b.updated = now := by
  rw [lastResult_allow] at hrefused
  by_cases hup : link = .up
  · subst hup
    have hd : d = second := by
      simp only [if_true] at hrefused
      match hr : (bucketScript capacity now (s.buckets (bucketKey client))).1 with
      | (true, tokens) =>
        rw [hr] at hrefused
        simp [allowResult] at hrefused
      | (false, tokens) =>
        rw [hr] at hrefused
        simpa [allowResult, eq_comm] using hrefused
    have hkept : Ranged capacity (s.allow capacity client now .up) := hranged.allow hc hnow
    have hfits := hkept (bucketKey client) now
      ((LimiterState.later_allow hnow).2 ⟨hnow, fun _ => le_refl now⟩)
    have hbucket : (s.allow capacity client now .up).buckets (bucketKey client)
        = some (bucketScript capacity now (s.buckets (bucketKey client))).2 := by
      rw [LimiterState.buckets_allow, if_pos ⟨rfl, by decide⟩]
    refine ⟨hd, _, hbucket, (hfits _ hbucket).1, ?_⟩
    rw [bucketScript_eq_draw, draw_updated]
  · simp [hup, allowResult] at hrefused

/-- In every reachable state: if a call is refused and the delay `d` reported, the client's next call is
allowed when it is made `d` later, and the header says `d`. -/
def DelaySuffices (perMinute : Int) : Prop :=
  ∀ (s s₁ s₂ s₃ : LimiterState) (client : String) (t : ℚ) (link : Link) (d : Duration)
    (ys : List LimiterAct), (limiter perMinute).Reachable s →
    (limiter perMinute).step s (.allow client t link) = some s₁ → s₁.lastResult = some (false, d) →
    (∀ y ∈ ys, y.Spares client) → (limiter perMinute).execFrom s₁ ys = some s₂ →
    (limiter perMinute).step s₂ (.allow client (t + d.seconds) .up) = some s₃ →
    s₃.lastResult = some (true, 0)
      ∧ ∃ h : Int, rateMiddleware true s₁.lastResult = .limited h ∧ (h : ℚ) = d.seconds

theorem seconds_second : Duration.seconds second = 1 := by
  norm_num [Duration.seconds, second]

/-- A second gives back a whole token from 60 a minute on. -/
theorem delaySuffices_of_le {perMinute : Int} (hcapacity : 60 ≤ newRateLimiter perMinute) :
    DelaySuffices perMinute := by
  intro s s₁ s₂ s₃ client t link d ys hr hcall hrefused hys hothers hagain
  have hc : 0 ≤ newRateLimiter perMinute := by omega
  obtain ⟨hnow, rfl⟩ := limiterStep_allow.1 hcall
  obtain ⟨-, rfl⟩ := limiterStep_allow.1 hagain
  obtain ⟨hd, b, hb, htokens, hupdated⟩ := refused_bucket (reachable_ranged hr) hc hnow hrefused
  have hone : d.seconds = 1 := by rw [hd, seconds_second]
  refine ⟨?_, 1, ?_, ?_⟩
  · have hcq : (60 : ℚ) ≤ newRateLimiter perMinute := by exact_mod_cast hcapacity
    have hlevel : 1 ≤ level (newRateLimiter perMinute : ℚ) (newRateLimiter perMinute / 60)
        (t + d.seconds) (s₂.buckets (bucketKey client)) := by
      rcases bucket_of_execFrom hys hothers with hsame | hgone
      · rw [hsame, hb, hone]
        apply le_min
        · linarith
        · rw [hupdated]
          linarith
      · rw [hgone]
        exact le_trans (by norm_num) hcq
    rw [lastResult_allow, bucketScript_eq_draw]
    simp [draw, hlevel, allowResult]
  · rw [hrefused, hd]
    rfl
  · rw [hone]
    norm_num

/-! Below that, a client that uses up its tokens at once is told to come back too early. -/

/-- A new key is a full bucket. -/
theorem bucketScript_new (c now : ℚ) : bucketScript c now none = bucketScript c now (some ⟨c, now⟩) := rfl

theorem bucketScript_granted {c tokens now : ℚ} (hone : 1 ≤ tokens) (hle : tokens ≤ c) :
    bucketScript c now (some ⟨tokens, now⟩) = ((true, tokens - 1), ⟨tokens - 1, now⟩) := by
  simp [bucketScript, hone, hle]

theorem bucketScript_empty (c now later : ℚ) (hless : (later - now) * (c / 60) < 1) :
    bucketScript c later (some ⟨0, now⟩)
      = ((false, min c ((later - now) * (c / 60))), ⟨min c ((later - now) * (c / 60)), later⟩) := by
  have hlow : ¬1 ≤ min c ((later - now) * (c / 60)) :=
    fun h => absurd (le_min_iff.1 h).2 (not_le.2 hless)
  simp only [bucketScript, Option.map_some, Option.getD_some, zero_add, ge_iff_le, if_neg hlow]

/-- After `n` calls at once, `n` tokens are gone. -/
theorem exists_drawn (perMinute : Int) (client : String) {n : ℕ} (hn : (n : Int) ≤ newRateLimiter perMinute) :
    ∃ s, (limiter perMinute).Reachable s ∧ s.Later (bucketKey client) 0 ∧
      bucketScript (newRateLimiter perMinute) 0 (s.buckets (bucketKey client))
        = bucketScript (newRateLimiter perMinute) 0 (some ⟨newRateLimiter perMinute - n, 0⟩) := by
  induction n with
  | zero =>
    refine ⟨(limiter perMinute).init, ⟨[], rfl⟩, fun t ht => (by cases ht), ?_⟩
    rw [Nat.cast_zero, sub_zero]
    exact bucketScript_new _ _
  | succ n ih =>
    obtain ⟨s, hr, hlater, hscript⟩ := ih (by omega)
    have hone : (1 : ℚ) ≤ newRateLimiter perMinute - n := by
      have hcast : ((n + 1 : ℕ) : ℚ) ≤ newRateLimiter perMinute := by exact_mod_cast hn
      push_cast at hcast
      linarith
    have hle : (newRateLimiter perMinute : ℚ) - n ≤ newRateLimiter perMinute := by
      have hpos : (0 : ℚ) ≤ n := Nat.cast_nonneg n
      linarith
    have hstep : (limiter perMinute).step s (.allow client 0 .up)
        = some (s.allow (newRateLimiter perMinute) client 0 .up) := limiterStep_allow.2 ⟨hlater, rfl⟩
    refine ⟨_, hr.step hstep, (LimiterState.later_allow hlater).2 ⟨hlater, fun _ => le_refl 0⟩, ?_⟩
    rw [LimiterState.buckets_allow, if_pos ⟨rfl, by decide⟩, hscript, bucketScript_granted hone hle,
      Nat.cast_succ, sub_sub]

theorem le_of_delaySuffices {perMinute : Int} (h : DelaySuffices perMinute) :
    60 ≤ newRateLimiter perMinute := by
  by_contra hfew
  have hpos := one_le_newRateLimiter perMinute
  have hcq : (0 : ℚ) ≤ newRateLimiter perMinute := by exact_mod_cast (by omega : 0 ≤ newRateLimiter perMinute)
  have hlt : (newRateLimiter perMinute : ℚ) < 60 := by exact_mod_cast not_le.1 hfew
  obtain ⟨s, hr, hlater, hscript⟩ := exists_drawn perMinute "c" (n := (newRateLimiter perMinute).toNat)
    (by omega)
  have hempty : (newRateLimiter perMinute : ℚ) - ((newRateLimiter perMinute).toNat : ℕ) = 0 := by
    rw [sub_eq_zero]
    exact_mod_cast (Int.toNat_of_nonneg (by omega)).symm
  rw [hempty] at hscript
  -- the bucket is empty: a call at once is refused, and so is one a second later
  have hnow := bucketScript_empty (newRateLimiter perMinute) 0 0 (by norm_num)
  rw [sub_zero, zero_mul, min_eq_right hcq] at hnow
  have hlate := bucketScript_empty (newRateLimiter perMinute) 0 1 (by linarith)
  have hcall : (limiter perMinute).step s (.allow "c" 0 .up)
      = some (s.allow (newRateLimiter perMinute) "c" 0 .up) := limiterStep_allow.2 ⟨hlater, rfl⟩
  have hlater' : (s.allow (newRateLimiter perMinute) "c" 0 .up).Later (bucketKey "c") 1 :=
    (LimiterState.later_allow hlater).2
      ⟨fun t ht => (hlater t ht).trans zero_le_one, fun _ => zero_le_one⟩
  have hrefused : (s.allow (newRateLimiter perMinute) "c" 0 .up).lastResult = some (false, second) := by
    rw [lastResult_allow, hscript, hnow]
    rfl
  have hagain : (limiter perMinute).step (s.allow (newRateLimiter perMinute) "c" 0 .up)
      (.allow "c" (0 + Duration.seconds second) .up)
        = some ((s.allow (newRateLimiter perMinute) "c" 0 .up).allow (newRateLimiter perMinute) "c" 1
          .up) := by
    rw [seconds_second, zero_add]
    exact limiterStep_allow.2 ⟨hlater', rfl⟩
  obtain ⟨hallowed, -⟩ := h _ _ _ _ "c" 0 .up second [] hr hcall hrefused (by simp) rfl hagain
  have hbucket : (s.allow (newRateLimiter perMinute) "c" 0 .up).buckets (bucketKey "c")
      = some ⟨0, 0⟩ := by
    rw [LimiterState.buckets_allow, if_pos ⟨rfl, by decide⟩, hscript, hnow]
  rw [lastResult_allow, hbucket, hlate] at hallowed
  cases hallowed

/-- For every limit: the delay that is reported suffices if and only if the limit is 60 requests a minute
or more. -/
theorem retry_after_suffices (perMinute : Int) :
    DelaySuffices perMinute ↔ 60 ≤ newRateLimiter perMinute :=
  ⟨le_of_delaySuffices, delaySuffices_of_le⟩

/-- At one request a minute a refused client that waits as long as it is told is refused again. -/
theorem retry_after_too_short : ∃ s s₁ s₂, (limiter 1).exec [.allow "c" 0 .up] = some s
    ∧ (limiter 1).step s (.allow "c" 0 .up) = some s₁ ∧ s₁.lastResult = some (false, second)
    ∧ (limiter 1).step s₁ (.allow "c" (0 + Duration.seconds second) .up) = some s₂
    ∧ s₂.lastResult = some (false, second) := by
  obtain ⟨s, hs, hnext⟩ : ∃ s, (limiter 1).exec [.allow "c" 0 .up] = some s
      ∧ ((limiter 1).step s (.allow "c" 0 .up)).any (fun s₁ =>
        decide (s₁.lastResult = some (false, second))
          && ((limiter 1).step s₁ (.allow "c" (0 + Duration.seconds second) .up)).any fun s₂ =>
            decide (s₂.lastResult = some (false, second))) = true :=
    System.exists_of_exec (by decide +kernel)
  obtain ⟨s₁, h₁, hrest⟩ := (Option.any_eq_true _ _).1 hnext
  obtain ⟨hrefused, hlater⟩ := Bool.and_eq_true_iff.1 hrest
  obtain ⟨s₂, h₂, hagain⟩ := (Option.any_eq_true _ _).1 hlater
  exact ⟨s, s₁, s₂, hs, h₁, of_decide_eq_true hrefused, h₂, of_decide_eq_true hagain⟩

end JobScheduler
