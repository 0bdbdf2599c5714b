import JobScheduler.ApiClients
import JobScheduler.CreateBody
import JobScheduler.Pagination
import JobScheduler.RateLimit
import JobScheduler.WorkerRegistry

/-!
# The HTTP API

The server as `server.New` assembles it: request ids and CORS around everything, the three public
routes, and `/api/v1` behind `auth.Middleware` and the rate limiter, with the handlers of
`internal/job/handler.go` and the inline ones of `server.go`.  A request is served on the clients'
table and on the scheduler's store; what the handlers do to the store is `perform`.

A path is the list of its segments.  The router is chi: a sub-router is mounted with and without a
final slash, its middlewares run before it looks for a route, and a method no route can have is
answered before any of them.  `uuid.Parse` and `time.Parse` are parameters.
-/

namespace JobScheduler

open KeyedTable Transaction

/-! ### Principals -/

/-- The numbers `Allows` compares. -/
def Role.rank : Role → ℕ
  | .viewer => 1
  | .operator => 2
  | .admin => 3

/-- `Principal.Allows`. -/
def ClientPrincipal.allows (p : ClientPrincipal) (required : Role) : Bool :=
  decide (required.rank ≤ p.role.rank)

/-- What `PrincipalOrDefault` returns without a principal. -/
def systemPrincipal : ClientPrincipal := ⟨UUID.nil, defaultTenantID, "default", "system", .admin⟩

/-- What the job service reads of a principal. -/
def ClientPrincipal.caller (p : ClientPrincipal) : Principal := ⟨p.tenantID, p.clientName⟩

/-! ### Requests -/

/-- The methods, as far as the router tells them apart. -/
inductive Method where
  | get
  | post
  | options
  /-- Any other method chi knows. -/
  | other
  /-- A method chi does not know. -/
  | unknown
  deriving DecidableEq

/-- A request: its path after the first slash, cut at the slashes; `Query().Get` and `Header.Get`; and
its body, as the decoder of `create` meets it. -/
structure Incoming where
  method : Method
  path : List String
  query : String → String
  header : String → String
  body : CreateBody

/-! ### Replies -/

/-- `ErrorBody`. -/
structure ErrorBody where
  code : String
  message : String
  deriving DecidableEq

/-- `DashboardSummary`; the map has the statuses that occur. -/
structure DashboardSummary where
  statusCounts : List (Status × ℕ)
  activeWorkers : ℕ
  outboxBacklog : ℕ
  failuresLast24Hour : ℕ

/-- What a handler puts into `data`. -/
inductive ReplyData where
  /-- `{"status": …}`. -/
  | status (text : String)
  | response (response : Response)
  /-- `{"job_id": …}`. -/
  | jobID (id : UUID)
  | workers (workers : List Info)
  | principal (principal : ClientPrincipal)
  | summary (summary : DashboardSummary)
  /-- `{"event_id": …, "status": "queued"}`. -/
  | queued (eventID : UUID)

/-- `Envelope`. -/
structure Envelope where
  success : Bool
  data : Option ReplyData
  error : Option ErrorBody
  requestID : String

/-- The body of a reply. -/
inductive ReplyBody where
  | json (envelope : Envelope)
  /-- What chi writes itself. -/
  | plain
  | metrics

/-- A reply, with the headers that depend on the request. -/
structure Reply where
  status : ℕ
  body : ReplyBody
  requestID : String
  retryAfter : Option Int
  allowOrigin : Option String

section Write

variable (requestID : String)

/-- `response.JSON`. -/
def writeJSON (status : ℕ) (data : ReplyData) : Reply :=
  ⟨status, .json ⟨true, some data, none, requestID⟩, requestID, none, none⟩

/-- `response.Error`. -/
def writeFailure (status : ℕ) (code message : String) : Reply :=
  ⟨status, .json ⟨false, none, some ⟨code, message⟩, requestID⟩, requestID, none, none⟩

/-- chi's `404 page not found` and `405`. -/
def writePlain (status : ℕ) : Reply := ⟨status, .plain, requestID, none, none⟩

/-- A reply of `Handler.create` or of `writeError`. -/
def writeReply : CreateReply → Reply
  | .accepted status response => writeJSON requestID status (.response (.created response))
  | .failed status code message => writeFailure requestID status code message

end Write

/-! ### Routes -/

/-- The handlers under `/api/v1`, with the parameters of their paths. -/
inductive Endpoint where
  | create
  | list
  | get (jobID : String)
  | attempts (jobID : String)
  | events (jobID : String)
  | transition (op : Operation) (jobID : String)
  | deadLetters
  | requeueDeadLetter (deadLetterID : String)
  | workers
  | whoami
  | summary
  | replay (eventID : String)

/-- The role `auth.Require` wraps a handler with. -/
def Endpoint.required : Endpoint → Option Role
  | .create => some .operator
  | .transition _ _ => some .operator
  | .requeueDeadLetter _ => some .operator
  | .replay _ => some .admin
  | _ => none

/-- What the router finds. -/
inductive Routed where
  | endpoint (e : Endpoint)
  | notFound
  | methodNotAllowed

/-- A path with one route. -/
def Method.only (m : Method) (method : Method) (e : Endpoint) : Routed :=
  if m = method then .endpoint e else .methodNotAllowed

/-- The routes under `/api/v1`. -/
def routeAPI (m : Method) : List String → Routed
  | ["jobs"] => routeJobs
  | ["jobs", ""] => routeJobs
  | ["jobs", id] => m.only .get (.get id)
  | ["jobs", id, "attempts"] => m.only .get (.attempts id)
  | ["jobs", id, "events"] => m.only .get (.events id)
  | ["jobs", id, "cancel"] => m.only .post (.transition .cancel id)
  | ["jobs", id, "pause"] => m.only .post (.transition .pause id)
  | ["jobs", id, "resume"] => m.only .post (.transition .resume id)
  | ["jobs", id, "retry"] => m.only .post (.transition .retry id)
  | ["dead-letter-jobs"] => m.only .get .deadLetters
  | ["dead-letter-jobs", ""] => m.only .get .deadLetters
  | ["dead-letter-jobs", id, "requeue"] => m.only .post (.requeueDeadLetter id)
  | ["workers"] => m.only .get .workers
  | ["auth", "whoami"] => m.only .get .whoami
  | ["dashboard", "summary"] => m.only .get .summary
  | ["events", id, "replay"] => m.only .post (.replay id)
  | _ => .notFound
where
  /-- `/jobs` itself. -/
  routeJobs : Routed :=
    match m with
    | .post => .endpoint .create
    | .get => .endpoint .list
    | _ => .methodNotAllowed

/-! ### Settings and circumstances -/

/-- The options of `server.New`, and the parsers of the standard and the uuid library. -/
structure ServerConfig where
  service : ServiceConfig
  authEnabled : Bool
  hashKey : String → String
  /-- A rate limiter is configured. -/
  limited : Bool
  /-- An outbox store is configured. -/
  outbox : Bool
  allowedOrigins : List String
  unmarshalTime : RawMessage → Option Time
  /-- `time.Parse(time.RFC3339, ·)`. -/
  parseTime : String → Option Time
  /-- `uuid.Parse`. -/
  parseUUID : String → Option UUID

/-- What a request meets: the surroundings of its operation, the id drawn for it, whether the
authentication query and the update behind it get through, what `Allow` and `ActiveWorkers` return,
and which of the other queries get through. -/
structure Circumstances where
  call : Surroundings
  requestID : String
  authUp : Bool
  touched : Bool
  allow : Option (Bool × Duration)
  workers : Option (List Info)
  pingUp : Bool
  checksUp : List Bool
  countsUp : Bool
  failuresUp : Bool
  backlogUp : Bool

/-- The clients' table and the scheduler's. -/
structure ServerState where
  auth : AuthStore
  store : Store

/-! ### The dashboard -/

/-- The statuses, in the order of their constants. -/
def Status.all : List Status :=
  [.pending, .scheduled, .running, .succeeded, .failed, .retryScheduled, .deadLettered, .cancelled,
    .paused]

/-- `SELECT status,count(*) … GROUP BY status`. -/
def statusCounts (tenantID : UUID) (s : Store) : List (Status × ℕ) :=
  (Status.all.map fun status =>
    (status, s.jobs.count fun r => r.tenantID = tenantID ∧ r.status = status)).filter fun c => c.2 ≠ 0

/-- The FAILED attempts of the last 24 hours. -/
def failuresLast24Hour (tenantID : UUID) (now : Time) (s : Store) : ℕ :=
  s.attempts.count fun a => a.tenantID = tenantID ∧ a.status = .failed ∧
    ∃ failedAt ∈ a.failedAt, now - 24 * 3600 * second ≤ failedAt

/-- `Backlog`: the unpublished events, of one tenant or of all. -/
def backlog (tenantID : Option UUID) (s : Store) : ℕ :=
  s.events.count fun e => (∀ t ∈ tenantID, e.tenantID = t) ∧ e.publishedAt = none

/-! ### Handlers -/

section Handlers

variable (cfg : ServerConfig) (env : Circumstances) (requestID : String)

/-- `parseUUID`. -/
def withUUID (param value : String) (s : Store) (next : UUID → Reply × Store) : Reply × Store :=
  match cfg.parseUUID value with
  | none => (writeFailure requestID 400 "INVALID_UUID" (param ++ " must be a valid UUID"), s)
  | some id => next id

/-- The reply to an operation: its data, or `writeError`.  Only `Replay` fails with another error, and
its handler looks at none. -/
def conclude (status : ℕ) (data : Response → ReplyData) (out : Except ApiError Response × Store) :
    Reply × Store :=
  match out with
  | (.ok response, s) => (writeJSON requestID status (data response), s)
  | (.error (.service e), s) => (writeReply requestID (writeError e), s)
  | (.error (.outbox _), s) => (writeFailure requestID 404 "NOT_FOUND" "event not found", s)

/-- The parameters of `created_after` and `created_before`. -/
def queryTime (key value : String) : Except String (Option Time) :=
  if value = "" then .ok none
  else
    match cfg.parseTime value with
    | none => .error (key ++ " must be RFC3339")
    | some t => .ok (some t)

/-- What `list` reads from the query. -/
def listFilter (req : Incoming) : Except String ListFilter := do
  let page ← queryInt "page" (req.query "page") 1
  let pageSize ← queryInt "page_size" (req.query "page_size") 20
  let createdAfter ← queryTime cfg "created_after" (req.query "created_after")
  let createdBefore ← queryTime cfg "created_before" (req.query "created_before")
  pure ⟨req.query "status", req.query "job_type", page, pageSize, req.query "sort",
    req.query "order", createdAfter, createdBefore⟩

/-- What `deadLetters` reads from the query. -/
def deadLetterPage (req : Incoming) : Except String (Int × Int) := do
  let page ← queryInt "page" (req.query "page") 1
  let pageSize ← queryInt "page_size" (req.query "page_size") 20
  pure (page, pageSize)

/-- The summary of a tenant; an error of the later queries leaves a zero. -/
def summarize (p : ClientPrincipal) (s : Store) : Reply :=
  if env.countsUp then
    writeJSON requestID 200 (.summary
      { statusCounts := statusCounts p.tenantID s
        activeWorkers := (env.workers.getD []).length
        outboxBacklog := if cfg.outbox && env.backlogUp then backlog (some p.tenantID) s else 0
        failuresLast24Hour :=
          if env.failuresUp then failuresLast24Hour p.tenantID env.call.now s else 0 })
  else writeFailure requestID 500 "INTERNAL_ERROR" "failed to load summary"

/-- The handlers, behind `auth.Require`. -/
def handle (req : Incoming) (p : ClientPrincipal) (s : Store) : Endpoint → Reply × Store
  | .create =>
    let out := Handler.create cfg.unmarshalTime cfg.service p.caller env.call req.body
      (req.header "Idempotency-Key") s
    (writeReply requestID out.1, out.2)
  | .list =>
    match listFilter cfg req with
    | .error message => (writeFailure requestID 400 "INVALID_INPUT" message, s)
    | .ok filter =>
      conclude requestID 200 .response (perform cfg.service p.caller env.call s (.list filter))
  | .get jobID =>
    withUUID cfg requestID "jobID" jobID s fun id =>
      conclude requestID 200 .response (perform cfg.service p.caller env.call s (.get id))
  | .attempts jobID =>
    withUUID cfg requestID "jobID" jobID s fun id =>
      conclude requestID 200 .response (perform cfg.service p.caller env.call s (.attempts id))
  | .events jobID =>
    withUUID cfg requestID "jobID" jobID s fun id =>
      conclude requestID 200 .response (perform cfg.service p.caller env.call s (.events id))
  | .transition op jobID =>
    withUUID cfg requestID "jobID" jobID s fun id =>
      conclude requestID 200 (fun _ => .jobID id)
        (perform cfg.service p.caller env.call s (.operate op id))
  | .deadLetters =>
    match deadLetterPage req with
    | .error message => (writeFailure requestID 400 "INVALID_INPUT" message, s)
    | .ok (page, pageSize) =>
      conclude requestID 200 .response
        (perform cfg.service p.caller env.call s (.listDeadLetters page pageSize))
  | .requeueDeadLetter deadLetterID =>
    withUUID cfg requestID "deadLetterID" deadLetterID s fun id =>
      conclude requestID 201 .response
        (perform cfg.service p.caller env.call s (.requeueDeadLetter id))
  | .workers =>
    match env.workers with
    | none =>
      (writeFailure requestID 500 "WORKER_REGISTRY_UNAVAILABLE" "worker registry is unavailable", s)
    | some workers => (writeJSON requestID 200 (.workers workers), s)
  | .whoami => (writeJSON requestID 200 (.principal p), s)
  | .summary => (summarize cfg env requestID p s, s)
  | .replay eventID =>
    if cfg.outbox = false then
      (writeFailure requestID 503 "DEPENDENCY_UNAVAILABLE" "outbox unavailable", s)
    else
      match cfg.parseUUID eventID with
      | none => (writeFailure requestID 400 "INVALID_UUID" "eventID must be a UUID", s)
      | some id =>
        conclude requestID 200 (fun _ => .queued id)
          (perform cfg.service p.caller env.call s (.replay id))

/-- `auth.Require`. -/
def requireRole (req : Incoming) (p : ClientPrincipal) (s : Store) (e : Endpoint) : Reply × Store :=
  match e.required with
  | none => handle cfg env requestID req p s e
  | some role =>
    if p.allows role then handle cfg env requestID req p s e
    else (writeFailure requestID 403 "FORBIDDEN" "insufficient permissions", s)

/-- The router under `/api/v1`, behind the middlewares. -/
def dispatch (req : Incoming) (p : ClientPrincipal) (s : Store) (rest : List String) :
    Reply × Store :=
  match routeAPI req.method rest with
  | .endpoint e => requireRole cfg env requestID req p s e
  | .notFound => (writePlain requestID 404, s)
  | .methodNotAllowed => (writePlain requestID 405, s)

/-- `RateLimiter.Middleware`, if there is one. -/
def limitRate (next : Reply × Store) (s : Store) : Reply × Store :=
  if cfg.limited then
    match rateMiddleware true env.allow with
    | .unauthorized => (writeFailure requestID 401 "UNAUTHORIZED" "authentication required", s)
    | .unavailable =>
      (writeFailure requestID 503 "DEPENDENCY_UNAVAILABLE" "rate limiter unavailable", s)
    | .limited retryAfter =>
      ({ writeFailure requestID 429 "RATE_LIMITED" "request rate exceeded" with
        retryAfter := some retryAfter }, s)
    | .next => next
  else next

/-- The principal `auth.Middleware` attaches, with the table it leaves, or the message it refuses the
request with. -/
def identify (req : Incoming) (auth : AuthStore) : Except String (ClientPrincipal × AuthStore) :=
  if cfg.authEnabled = false then .ok (systemPrincipal, auth)
  else
    let key := trimSpace (req.header "X-API-Key")
    if key = "" then .error "X-API-Key is required"
    else if env.authUp = false then .error "invalid API key"
    else
      match authenticate cfg.hashKey key env.call.now env.touched auth with
      | .error _ => .error "invalid API key"
      | .ok found => .ok found

/-- Everything under `/api/v1`. -/
def serveAPI (req : Incoming) (s : ServerState) (rest : List String) : Reply × ServerState :=
  match identify cfg env req s.auth with
  | .error message => (writeFailure requestID 401 "UNAUTHORIZED" message, s)
  | .ok (p, auth) =>
    let out := limitRate cfg env requestID (dispatch cfg env requestID req p s.store rest) s.store
    (out.1, ⟨auth, out.2⟩)

/-- The readiness handler. -/
def ready : Reply :=
  if env.pingUp = false then
    writeFailure requestID 503 "DATABASE_UNAVAILABLE" "database is not ready"
  else if env.checksUp.all id = false then
    writeFailure requestID 503 "DEPENDENCY_UNAVAILABLE" "dependency is not ready"
  else writeJSON requestID 200 (.status "ready")

/-- The top router. -/
def route (req : Incoming) (s : ServerState) : Reply × ServerState :=
  if req.method = .unknown then (writePlain requestID 405, s)
  else
    match req.path with
    | ["health"] =>
      (if req.method = .get then writeJSON requestID 200 (.status "ok") else writePlain requestID 405, s)
    | ["ready"] =>
      (if req.method = .get then ready env requestID else writePlain requestID 405, s)
    | ["metrics"] => (⟨200, .metrics, requestID, none, none⟩, s)
    | "api" :: "v1" :: rest => serveAPI cfg env requestID req s rest
    | _ => (writePlain requestID 404, s)

end Handlers

/-- `middleware.RequestID`. -/
def Incoming.requestID (req : Incoming) (env : Circumstances) : String :=
  if req.header "X-Request-ID" = "" then env.requestID else req.header "X-Request-ID"

/-- The origin `cors` allows. -/
def ServerConfig.allowOrigin (cfg : ServerConfig) (req : Incoming) : Option String :=
  if req.header "Origin" ≠ "" ∧ req.header "Origin" ∈ cfg.allowedOrigins.map trimSpace then
    some (req.header "Origin")
  else none

/-- `server.New`: a request from its arrival to its reply. -/
def serve (cfg : ServerConfig) (env : Circumstances) (s : ServerState) (req : Incoming) :
    Reply × ServerState :=
  let requestID := req.requestID env
  let out :=
    if req.method = .options then (writePlain requestID 204, s)
    else route cfg env requestID req s
  ({ out.1 with allowOrigin := cfg.allowOrigin req }, out.2)

end JobScheduler
