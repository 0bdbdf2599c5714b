import JobScheduler.DataModel

/-!
# Create requests: defaults and validation

`CreateRequest` with the defaulting of `Service.withDefaults` and the checks of `validateCreate`
(`internal/job/dto.go`, `service.go`, `validator.go`).  `encoding/json`'s validity check is a
parameter of the service configuration, together with the digest of the canonical request.
-/

namespace JobScheduler

/-! ### `strings.TrimSpace` -/

/-- `unicode.IsSpace`. -/
def isSpace (c : Char) : Bool :=
  c.val ∈ [0x09, 0x0A, 0x0B, 0x0C, 0x0D, 0x20, 0x85, 0xA0, 0x1680, 0x2028, 0x2029, 0x202F, 0x205F,
    0x3000] || (0x2000 ≤ c.val && c.val ≤ 0x200A)

/-- `strings.TrimSpace`. -/
def trimSpace (s : String) : String :=
  String.ofList ((s.toList.dropWhile isSpace).reverse.dropWhile isSpace).reverse

/-! ### `strconv.Atoi` -/

/-- An optional sign: whether it is a minus, and what follows. -/
def splitSign : List Char → Bool × List Char
  | '-' :: rest => (true, rest)
  | '+' :: rest => (false, rest)
  | rest => (false, rest)

/-- `strconv.Atoi`: a sign, decimal digits, and 64 bits. -/
def atoi (text : String) : Option Int :=
  let digits := (splitSign text.toList).2
  if digits = [] ∨ digits.all Char.isDigit = false then none
  else
    let magnitude : Int := digits.foldl (fun n c => n * 10 + (c.toNat - '0'.toNat)) 0
    let value := if (splitSign text.toList).1 then -magnitude else magnitude
    if -2 ^ 63 ≤ value ∧ value < 2 ^ 63 then some value else none

theorem atoi_lt {text : String} {n : Int} (h : atoi text = some n) : n < 2 ^ 63 := by
  simp only [atoi, Option.ite_none_left_eq_some, Option.ite_none_right_eq_some] at h
  obtain ⟨-, hrange, hvalue⟩ := h
  exact Option.some.inj hvalue ▸ hrange.2

/-! ### Requests -/

/-- `CreateRequest`. -/
structure CreateRequest where
  name : String
  jobType : String
  payload : RawMessage
  runAt : Time
  priority : Int
  maxRetries : Int
  retryBackoffSeconds : Int
  timeoutSeconds : Int
  idempotencyKey : String

/-- The service's create-time settings, with the two standard-library functions it applies to a
request. -/
structure ServiceConfig where
  defaultRetries : Int
  defaultBackoffSec : Int
  defaultTimeoutSec : Int
  /-- `json.Valid`. -/
  jsonValid : RawMessage → Bool
  /-- The hexadecimal SHA-256 of the request's canonical JSON. -/
  requestHash : CreateRequest → String

/-- `supportedJobTypes`. -/
def supportedJobTypes : List String := ["CALL_WEBHOOK"]

/-- `Service.withDefaults`. -/
def ServiceConfig.withDefaults (cfg : ServiceConfig) (req : CreateRequest) : CreateRequest :=
  { req with
    priority := if req.priority = 0 then 5 else req.priority
    maxRetries := if req.maxRetries = 0 then cfg.defaultRetries else req.maxRetries
    retryBackoffSeconds :=
      if req.retryBackoffSeconds = 0 then cfg.defaultBackoffSec else req.retryBackoffSeconds
    timeoutSeconds := if req.timeoutSeconds = 0 then cfg.defaultTimeoutSec else req.timeoutSeconds }

/-- `validateCreate`: the first check that fails, as its message. -/
def ServiceConfig.validateCreate (cfg : ServiceConfig) (req : CreateRequest) : Except String Unit :=
  if trimSpace req.name = "" then .error "name is required"
  else if req.jobType ∉ supportedJobTypes then .error "unsupported job type"
  else if req.payload.utf8ByteSize = 0 ∨ cfg.jsonValid req.payload = false ∨ req.payload = "null" then
    .error "payload must be valid JSON"
  else if req.runAt = Time.zero then .error "run_at is required"
  else if req.priority < 0 ∨ req.priority > 10 then .error "priority must be between 0 and 10"
  else if req.maxRetries < 0 then .error "max_retries must not be negative"
  else if req.retryBackoffSeconds < 0 then .error "retry_backoff_seconds must not be negative"
  else if req.timeoutSeconds < 0 then .error "timeout_seconds must not be negative"
  else .ok ()

/-- A request that passes validation has a retry budget. -/
theorem ServiceConfig.maxRetries_nonneg {cfg : ServiceConfig} {req : CreateRequest}
    (h : cfg.validateCreate req = .ok ()) : 0 ≤ req.maxRetries := by
  by_contra hneg
  have hlt : req.maxRetries < 0 := by omega
  unfold validateCreate at h
  simp only [hlt, if_true] at h
  repeat' split at h
  all_goals exact absurd h (by simp)

/-- `initialStatus`. -/
def initialStatus (runAt now : Time) : Status := if runAt > now then .scheduled else .pending

theorem initialStatus_cases (runAt now : Time) :
    initialStatus runAt now = .pending ∨ initialStatus runAt now = .scheduled := by
  unfold initialStatus
  split
  · exact .inr rfl
  · exact .inl rfl

end JobScheduler
