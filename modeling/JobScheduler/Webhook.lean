import JobScheduler.CreateRequest
import JobScheduler.Engine
import JobScheduler.Library.Fallible
import JobScheduler.Library.Json
import JobScheduler.Worker

/-!
# The webhook executor

`internal/worker/executor.go`: `WebhookHandler.Execute` with its URL and host checks, the transport
that checks the host again when it dials, the redirects `http.Client` follows, and the metadata kept of
a response.  The network answers by functions of the number of the lookup and of the request, so a
resolver may change its answer from one lookup to the next; connections that were opened stay in the
record, whether the call succeeds or not.

An error carries, beside what `Execute` returns, the cause it was made from.
-/

namespace JobScheduler

open Fallible

/-! ### Addresses -/

/-- `net.IP` in its 16-byte form. -/
structure IPAddr where
  bits : BitVec 128
  deriving DecidableEq

namespace IPAddr

/-- `IP.To4`: the last four bytes of an IPv4-mapped address. -/
def to4 (ip : IPAddr) : Option (BitVec 32) :=
  if ip.bits.extractLsb' 32 96 = 0xFFFF then some (ip.bits.extractLsb' 0 32) else none

/-- A byte of the 16-byte form. -/
def octet (ip : IPAddr) (i : ℕ) : BitVec 8 := ip.bits.extractLsb' (120 - 8 * i) 8

/-- A byte of the four-byte form. -/
def octet4 (v : BitVec 32) (i : ℕ) : BitVec 8 := v.extractLsb' (24 - 8 * i) 8

/-- `IP.IsLoopback`. -/
def isLoopback (ip : IPAddr) : Bool :=
  match ip.to4 with
  | some v => octet4 v 0 == 127
  | none => ip.bits == 1

/-- `IP.IsPrivate`. -/
def isPrivate (ip : IPAddr) : Bool :=
  match ip.to4 with
  | some v => octet4 v 0 == 10 || (octet4 v 0 == 172 && octet4 v 1 &&& 0xF0 == 16)
      || (octet4 v 0 == 192 && octet4 v 1 == 168)
  | none => ip.octet 0 &&& 0xFE == 0xFC

/-- `IP.IsLinkLocalMulticast`. -/
def isLinkLocalMulticast (ip : IPAddr) : Bool :=
  match ip.to4 with
  | some v => octet4 v 0 == 224 && octet4 v 1 == 0 && octet4 v 2 == 0
  | none => ip.octet 0 == 0xFF && ip.octet 1 &&& 0x0F == 0x02

/-- `IP.IsLinkLocalUnicast`. -/
def isLinkLocalUnicast (ip : IPAddr) : Bool :=
  match ip.to4 with
  | some v => octet4 v 0 == 169 && octet4 v 1 == 254
  | none => ip.octet 0 == 0xFE && ip.octet 1 &&& 0xC0 == 0x80

/-- `IP.IsUnspecified`. -/
def isUnspecified (ip : IPAddr) : Bool := ip.to4 == some 0 || ip.bits == 0

/-- The addresses `validateHost` refuses. -/
def isForbidden (ip : IPAddr) : Bool :=
  ip.isLoopback || ip.isPrivate || ip.isLinkLocalMulticast || ip.isLinkLocalUnicast
    || ip.isUnspecified

end IPAddr

/-! ### Requests and responses -/

/-- The parts of a `url.URL` that are looked at. -/
structure URL where
  scheme : String
  /-- `User != nil`. -/
  hasUser : Bool
  /-- `Hostname()`. -/
  hostname : String
  /-- `String()`. -/
  text : String
  deriving DecidableEq

/-- `webhookPayload`; the headers are in the order of an iteration over the map. -/
structure WebhookPayload where
  url : String
  method : String
  headers : List (String × String)
  body : RawMessage

/-- The fields of a `job.Job` that `Execute` reads. -/
structure WebhookJob where
  id : UUID
  attemptNumber : Int
  payload : RawMessage

/-- `http.Header`. -/
abbrev Header := String → Option (List String)

structure HTTPRequest where
  method : String
  url : URL
  header : Header
  body : RawMessage

/-- What is read of an `http.Response`; reading the body may fail after the bytes that are there. -/
structure HTTPResponse where
  statusCode : Int
  location : String
  retryAfter : String
  body : List UInt8
  readError : Option String

/-- `ExecutorOptions`. -/
structure ExecutorOptions where
  allowedHosts : List String
  allowPrivateNetworks : Bool

/-- The functions of the standard library that decode text. -/
structure TextLib where
  /-- `json.Unmarshal` into a `webhookPayload`. -/
  decodePayload : RawMessage → Option WebhookPayload
  /-- `url.Parse`. -/
  parseURL : String → Option URL
  /-- `(*URL).Parse`: a reference, against the URL of the request. -/
  resolveReference : URL → String → Except String URL
  /-- `net.ParseIP`. -/
  parseIP : String → Option IPAddr
  /-- `strings.EqualFold`. -/
  equalFold : String → String → Bool
  /-- `strings.ToUpper`. -/
  toUpper : String → String
  /-- The verb `%q`. -/
  quote : String → String
  /-- `(*url.Error).Error`: the method and URL of the request, and the cause. -/
  urlError : String → String → String → String

/-! ### Errors and their causes -/

/-- Why a lookup failed. -/
inductive LookupError where
  | dns (message : String)
  | canceled (message : String)
  | deadlineExceeded (message : String)
  deriving DecidableEq

def LookupError.message : LookupError → String
  | .dns message => message
  | .canceled message => message
  | .deadlineExceeded message => message

/-- The errors of `validateURL`. -/
inductive TargetError where
  | scheme
  | credentials
  | missingHost
  | resolve (cause : LookupError)
  | privateAddress
  deriving DecidableEq

def TargetError.message : TargetError → String
  | .scheme => "webhook URL must use http or https"
  | .credentials => "webhook URL must not contain credentials"
  | .missingHost => "webhook URL requires a host"
  | .resolve cause => "resolve webhook host: " ++ cause.message
  | .privateAddress => "webhook target resolves to a private or local address"

/-- Why an exchange over a connection broke off. -/
inductive ExchangeError where
  | connection (message : String)
  | canceled (message : String)
  | deadlineExceeded (message : String)
  deriving DecidableEq

def ExchangeError.message : ExchangeError → String
  | .connection message => message
  | .canceled message => message
  | .deadlineExceeded message => message

/-- Why `http.Client.Do` failed. -/
inductive ClientError where
  /-- The transport refuses to send the request, for its headers. -/
  | invalidRequest (message : String)
  /-- `validateHost`, at the time of the dial. -/
  | dialTarget (cause : TargetError)
  /-- The dialer could not resolve the host, or not connect. -/
  | dial (message : String)
  | exchange (cause : ExchangeError)
  /-- The `Location` of a redirect, quoted here, does not parse. -/
  | location (quoted message : String)
  | tooManyRedirects
  /-- `validateURL`, on the target of a redirect. -/
  | redirectTarget (cause : TargetError)
  deriving DecidableEq

def ClientError.message : ClientError → String
  | .invalidRequest message => message
  | .dialTarget cause => cause.message
  | .dial message => message
  | .exchange cause => cause.message
  | .location quoted message => "failed to parse Location header " ++ quoted ++ ": " ++ message
  | .tooManyRedirects => "too many redirects"
  | .redirectTarget cause => cause.message

/-- `url.Error`: the request that failed, or the `Location` that was not followed. -/
structure URLError where
  url : String
  cause : ClientError
  deriving DecidableEq

/-- Why `Execute` failed. -/
inductive WebhookCause where
  | payload
  | url
  | target (cause : TargetError)
  | method
  | build (message : String)
  | client (cause : ClientError)
  | read (message : String)
  | status (code : Int)
  deriving DecidableEq

/-- `ExecutionError`. -/
structure ExecutionError where
  code : String
  message : String
  retryable : Bool
  retryAfter : Duration
  metadata : List UInt8

/-- The error `Execute` returns, with the cause it was made from. -/
structure WebhookFailure where
  cause : WebhookCause
  error : ExecutionError

/-- An error without metadata or delay. -/
def WebhookFailure.plain (cause : WebhookCause) (code message : String) (retryable : Bool) :
    WebhookFailure :=
  ⟨cause, code, message, retryable, 0, []⟩

/-! ### The network -/

/-- What one call of `Execute` meets outside. -/
structure Network where
  /-- The answer to the n-th lookup of a name. -/
  lookup : ℕ → String → Except LookupError (List IPAddr)
  /-- `http.ProxyFromEnvironment`: the proxy for a host. -/
  proxy : String → Option String
  /-- The transport refuses the k-th request before it is sent. -/
  refuse : ℕ → Option String
  /-- The k-th request finds an idle connection. -/
  reuse : ℕ → Bool
  /-- Which of the addresses the dialer connects to for the k-th request. -/
  connect : ℕ → Except String ℕ
  /-- What comes of the k-th request once it has a connection. -/
  exchange : ℕ → Except ExchangeError HTTPResponse
  /-- `http.NewRequestWithContext` fails. -/
  build : Option String
  /-- `time.Since(started).Milliseconds()`. -/
  durationMS : Int

/-- The lookups made so far, and the addresses connections were opened to. -/
structure NetState where
  lookups : ℕ
  opened : List IPAddr

def NetState.initial : NetState := ⟨0, []⟩

section

variable (lib : TextLib) (options : ExecutorOptions) (net : Network)

/-- `Resolver.LookupIPAddr`; an address literal is its own answer. -/
def lookupIPAddr (host : String) : Comp NetState LookupError (List IPAddr) := fun s =>
  match lib.parseIP host with
  | some ip => (.ok [ip], s)
  | none => (net.lookup s.lookups host, { s with lookups := s.lookups + 1 })

/-- An entry of `AllowedHosts` matches. -/
def ExecutorOptions.allows (host : String) : Bool :=
  options.allowedHosts.any fun allowed => lib.equalFold (trimSpace allowed) host

/-- `validateHost`. -/
def validateHost (host : String) : Comp NetState TargetError Unit :=
  if options.allows lib host then pure ()
  else do
    let addresses ← (lookupIPAddr lib net host).mapError TargetError.resolve
    if options.allowPrivateNetworks then pure ()
    else if addresses.any IPAddr.isForbidden then Comp.fail .privateAddress
    else pure ()

/-- `validateURL`. -/
def validateURL (target : URL) : Comp NetState TargetError Unit :=
  if target.scheme ≠ "http" ∧ target.scheme ≠ "https" then Comp.fail .scheme
  else if target.hasUser then Comp.fail .credentials
  else if target.hostname = "" then Comp.fail .missingHost
  else validateHost lib options net target.hostname

/-- `net.Dialer.DialContext`: it resolves the host itself and connects to one of the addresses. -/
def dialContext (k : ℕ) (host : String) : Comp NetState ClientError Unit := do
  let addresses ← (lookupIPAddr lib net host).mapError fun e => ClientError.dial e.message
  let i ← Comp.ofExcept ((net.connect k).mapError ClientError.dial)
  match addresses[i]? with
  | none => Comp.fail (.dial "no suitable address found")
  | some ip => fun s => (.ok (), { s with opened := ip :: s.opened })

/-- The `DialContext` of the transport. -/
def transportDial (k : ℕ) (host : String) : Comp NetState ClientError Unit := do
  (validateHost lib options net host).mapError ClientError.dialTarget
  dialContext lib net k host

/-- The connection for the k-th request, to a host: an idle one or a new one. -/
def getConn (k : ℕ) (host : String) : Comp NetState ClientError Unit :=
  if net.reuse k then pure () else transportDial lib options net k ((net.proxy host).getD host)

/-- The k-th request, to a host. -/
def roundTrip (k : ℕ) (host : String) : Comp NetState ClientError HTTPResponse := do
  Comp.failIf ((net.refuse k).map ClientError.invalidRequest)
  getConn lib options net k host
  Comp.ofExcept ((net.exchange k).mapError ClientError.exchange)

/-- `http.Client` follows the response. -/
def HTTPResponse.redirects (resp : HTTPResponse) : Bool :=
  resp.statusCode ∈ [301, 302, 303, 307, 308] && resp.location ≠ ""

/-- `http.Client.Do` from the k-th request on, with the `CheckRedirect` of the handler: `left` more
redirects are followed before `len(via)` is three. -/
def doRequest (left k : ℕ) (target : URL) : Comp NetState URLError HTTPResponse := do
  let resp ← (roundTrip lib options net k target.hostname).mapError (URLError.mk target.text)
  if resp.redirects = false then pure resp
  else
    match lib.resolveReference target resp.location with
    | .error message => Comp.fail ⟨target.text, .location (lib.quote resp.location) message⟩
    | .ok next =>
      match left with
      | 0 => Comp.fail ⟨resp.location, .tooManyRedirects⟩
      | left + 1 => do
        (validateURL lib options net next).mapError fun e => ⟨resp.location, .redirectTarget e⟩
        doRequest left (k + 1) next

end

/-! ### The request -/

/-- The characters of a header field name. -/
def isTokenChar (c : Char) : Bool := c.isAlphanum || c ∈ "!#$%&'*+-.^_`|~".toList

/-- Upper case at the start and after a hyphen, lower case elsewhere. -/
def canonicalChars (upper : Bool) : List Char → List Char
  | [] => []
  | c :: cs => (if upper then c.toUpper else c.toLower) :: canonicalChars (c == '-') cs

/-- `http.CanonicalHeaderKey`; a name that is not one is left alone. -/
def canonicalHeaderKey (key : String) : String :=
  if key.toList.all isTokenChar then String.ofList (canonicalChars true key.toList) else key

/-- `Header.Set`. -/
def Header.set (header : Header) (key value : String) : Header :=
  Function.update header (canonicalHeaderKey key) (some [value])

/-- `isReservedHeader`. -/
def isReservedHeader (key : String) : Bool :=
  key ∈ ["Host", "Content-Length", "X-Scheduler-Job-Id", "X-Scheduler-Attempt", "Idempotency-Key"]

/-- `uuid.UUID.String`. -/
def UUID.text (id : UUID) : String :=
  let digits := (List.range 32).map fun i => Nat.digitChar (id.toNat / 16 ^ (31 - i) % 16)
  String.ofList (digits.take 8 ++ '-' :: (digits.drop 8).take 4 ++ '-' :: (digits.drop 12).take 4
    ++ '-' :: (digits.drop 16).take 4 ++ '-' :: digits.drop 20)

/-- The headers of the request. -/
def requestHeader (j : WebhookJob) (headers : List (String × String)) : Header :=
  let header : Header := fun _ => none
  let header := header.set "Content-Type" "application/json"
  let header := header.set "X-Scheduler-Job-ID" (UUID.text j.id)
  let header := header.set "X-Scheduler-Attempt" (toString j.attemptNumber)
  let header := header.set "Idempotency-Key" (UUID.text j.id)
  headers.foldl (fun header (key, value) =>
    let canonical := canonicalHeaderKey key
    if isReservedHeader canonical then header else header.set canonical value) header

/-- The method of the request: `POST` if the payload has none. -/
def requestMethod (lib : TextLib) (payload : WebhookPayload) : String :=
  let method := lib.toUpper (trimSpace payload.method)
  if method = "" then "POST" else method

/-- The request `Execute` sends. -/
def buildRequest (lib : TextLib) (j : WebhookJob) (payload : WebhookPayload) (target : URL) :
    HTTPRequest :=
  ⟨requestMethod lib payload, target, requestHeader j payload.headers, payload.body⟩

/-! ### The response -/

/-- `parseRetryAfter`. -/
def parseRetryAfter (value : String) : Duration :=
  match atoi (trimSpace value) with
  | none => 0
  | some seconds =>
    if seconds < 0 then 0
    else
      let duration := wrap64 (seconds * second)
      if duration > 15 * 60 * second then 15 * 60 * second else duration

/-- `io.ReadAll(io.LimitReader(resp.Body, 4097))`: an error past the limit is not met. -/
def readExcerpt (resp : HTTPResponse) : Except String (List UInt8) :=
  if 4097 ≤ resp.body.length then .ok (resp.body.take 4097)
  else
    match resp.readError with
    | some message => .error message
    | none => .ok resp.body

/-- `json.Marshal` of the metadata: the keys of a map are sorted. -/
def marshalMetadata (statusCode durationMS : Int) (excerpt : List UInt8) (truncated : Bool) :
    List UInt8 :=
  Json.text "\x7b\"duration_ms\":" ++ Json.itoa durationMS
    ++ Json.text ",\"response_excerpt\":" ++ Json.quote excerpt
    ++ Json.text ",\"response_truncated\":" ++ Json.boolText truncated
    ++ Json.text ",\"status_code\":" ++ Json.itoa statusCode ++ Json.text "\x7d"

/-- What `Execute` makes of a response. -/
def finishResponse (resp : HTTPResponse) (durationMS : Int) :
    Except WebhookFailure (List UInt8) :=
  match readExcerpt resp with
  | .error message => .error (.plain (.read message) "WEBHOOK_READ_ERROR" message true)
  | .ok excerpt =>
    let truncated := decide (excerpt.length > 4096)
    let metadata := marshalMetadata resp.statusCode durationMS (excerpt.take 4096) truncated
    if 200 ≤ resp.statusCode ∧ resp.statusCode < 300 then .ok metadata
    else
      let retryable := decide (resp.statusCode = 408 ∨ resp.statusCode = 429 ∨ resp.statusCode ≥ 500)
      .error ⟨.status resp.statusCode, "WEBHOOK_HTTP_ERROR",
        "webhook returned HTTP " ++ toString resp.statusCode, retryable,
        parseRetryAfter resp.retryAfter, metadata⟩

/-! ### `Execute` -/

/-- `WebhookHandler.Execute`. -/
def executeWebhook (lib : TextLib) (options : ExecutorOptions) (net : Network) (j : WebhookJob) :
    Comp NetState WebhookFailure (List UInt8) :=
  match lib.decodePayload j.payload with
  | none =>
    Comp.fail (.plain .payload "INVALID_PAYLOAD" "webhook payload must be valid JSON" false)
  | some payload =>
    match lib.parseURL payload.url with
    | none => Comp.fail (.plain .url "INVALID_URL" "webhook URL is invalid" false)
    | some parsed => do
      (validateURL lib options net parsed).mapError fun e =>
        .plain (.target e) "UNSAFE_WEBHOOK_TARGET" e.message false
      let req := buildRequest lib j payload parsed
      Comp.failIf (if req.method ∈ ["GET", "POST", "PUT", "PATCH", "DELETE"] then none
        else some (.plain .method "INVALID_METHOD" "unsupported webhook method" false))
      Comp.failIf (net.build.map fun message =>
        .plain (.build message) "REQUEST_BUILD_FAILED" message false)
      let resp ← (doRequest lib options net 2 0 req.url).mapError fun e =>
        .plain (.client e.cause) "WEBHOOK_NETWORK_ERROR"
          (lib.urlError req.method e.url e.cause.message) true
      Comp.ofExcept (finishResponse resp net.durationMS)

/-- The bytes as text, with the replacement character for what is not UTF-8. -/
def RawMessage.ofBytes (bytes : List UInt8) : RawMessage := String.ofList (Utf8.decode bytes)

/-- The error as `ClassifyError` and `ProcessJob` see it. -/
def ExecutionError.toExecError (e : ExecutionError) : ExecError :=
  .execution e.code e.message e.retryable e.retryAfter (RawMessage.ofBytes e.metadata)

end JobScheduler
