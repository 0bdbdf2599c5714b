import JobScheduler.Library.Calendar
import JobScheduler.Service

/-!
# The request hash

`Service.Create` (`internal/job/service.go`) hashes the JSON of the fields of a request that affect the
job, so that a replay under an idempotency key can be told from another request under the same key.
`json.Marshal` gives no text for an instant whose year does not have four digits; its error is dropped,
and the hash is then that of no bytes.

Go's strings and raw messages are arbitrary bytes, so requests are taken as bytes here.  The digest is
not modelled: what is compared is what is hashed.

* `request_identified_iff` — a request shares its hash only with requests that agree with it, if and only
  if its instant can be written and its name is valid UTF-8.
* `ServiceConfig.Standard.accepts_raw_iff` — a request of text is accepted if and only if its bytes are.
* `ServiceConfig.Standard.agrees` — with `json.Valid` and a digest without collisions, valid requests with
  one hash agree if the instant of one of them can be written.
-/

namespace JobScheduler

open Utf8 Json Calendar

/-! ### Requests as bytes -/

/-- `CreateRequest`. -/
structure RawRequest where
  name : List UInt8
  jobType : List UInt8
  payload : List UInt8
  runAt : Time
  priority : Int
  maxRetries : Int
  retryBackoffSeconds : Int
  timeoutSeconds : Int
  idempotencyKey : List UInt8
  deriving DecidableEq

/-- `unicode.IsSpace`, of the character that a piece of a string stands for. -/
def isSpaceRune (r : Rune) : Bool := isSpace r.char

/-- `strings.TrimSpace`. -/
def trimSpaceBytes (bytes : List UInt8) : List UInt8 :=
  (((runes bytes).dropWhile isSpaceRune).reverse.dropWhile isSpaceRune).reverse.flatMap Rune.bytes

/-- The arrays and objects a text is nested in, at its deepest. -/
def nesting (m : Machine) : List UInt8 → ℕ
  | [] => m.stack.length
  | c :: rest => max m.stack.length (((Json.step m c).map fun m' => nesting m' rest).getD 0)

/-- `json.Valid`, which gives up below ten thousand levels. -/
def jsonValidBytes (payload : List UInt8) : Bool :=
  Json.valid payload && nesting ⟨.beginValue, []⟩ payload ≤ 10000

/-- `validateCreate`. -/
def RawRequest.validateCreate (req : RawRequest) : Except String Unit :=
  if trimSpaceBytes req.name = [] then .error "name is required"
  else if req.jobType ≠ text "CALL_WEBHOOK" then .error "unsupported job type"
  else if req.payload.length = 0 ∨ jsonValidBytes req.payload = false ∨ req.payload = text "null" then
    .error "payload must be valid JSON"
  else if req.runAt = Time.zero then .error "run_at is required"
  else if req.priority < 0 ∨ req.priority > 10 then .error "priority must be between 0 and 10"
  else if req.maxRetries < 0 then .error "max_retries must not be negative"
  else if req.retryBackoffSeconds < 0 then .error "retry_backoff_seconds must not be negative"
  else if req.timeoutSeconds < 0 then .error "timeout_seconds must not be negative"
  else .ok ()

namespace ServiceConfig

/-- `Service.withDefaults`. -/
def withRawDefaults (cfg : ServiceConfig) (req : RawRequest) : RawRequest :=
  { req with
    priority := if req.priority = 0 then 5 else req.priority
    maxRetries := if req.maxRetries = 0 then cfg.defaultRetries else req.maxRetries
    retryBackoffSeconds :=
      if req.retryBackoffSeconds = 0 then cfg.defaultBackoffSec else req.retryBackoffSeconds
    timeoutSeconds := if req.timeoutSeconds = 0 then cfg.defaultTimeoutSec else req.timeoutSeconds }

/-- `Service.Create` gets past its checks. -/
def Accepts (cfg : ServiceConfig) (req : RawRequest) : Prop :=
  (trimSpaceBytes req.idempotencyKey).length ≤ 255 ∧ (cfg.withRawDefaults req).validateCreate = .ok ()

instance (cfg : ServiceConfig) : DecidablePred cfg.Accepts :=
  fun _ => inferInstanceAs (Decidable (_ ∧ _))

end ServiceConfig

/-! ### The hashed bytes -/

/-- A member of an object, but the first. -/
def member (key : String) (value : List UInt8) : List UInt8 :=
  text ",\"" ++ text key ++ text "\":" ++ value

/-- The JSON of a request, given that of its payload and the text of its instant. -/
def RawRequest.layout (req : RawRequest) (payload runAt : List UInt8) : List UInt8 :=
  text "\x7b\"name\":" ++ quote req.name ++ member "job_type" (quote req.jobType)
    ++ member "payload" payload ++ member "run_at" (0x22 :: runAt ++ [0x22])
    ++ member "priority" (itoa req.priority) ++ member "max_retries" (itoa req.maxRetries)
    ++ member "retry_backoff_seconds" (itoa req.retryBackoffSeconds)
    ++ member "timeout_seconds" (itoa req.timeoutSeconds) ++ text "\x7d"

/-- `json.Marshal` of the canonical request. -/
def RawRequest.marshal (req : RawRequest) : Option (List UInt8) := do
  let payload ← compact req.payload
  let runAt ← rfc3339Nano req.runAt
  pure (req.layout payload runAt)

/-- The bytes that are hashed: none if `json.Marshal` fails, whose error is dropped. -/
def RawRequest.hashed (req : RawRequest) : List UInt8 := req.marshal.getD []

/-- Two requests agree, up to white space and string escaping in their payloads. -/
structure RawRequest.Agrees (a b : RawRequest) : Prop where
  name : a.name = b.name
  jobType : a.jobType = b.jobType
  runAt : a.runAt = b.runAt
  priority : a.priority = b.priority
  maxRetries : a.maxRetries = b.maxRetries
  retryBackoffSeconds : a.retryBackoffSeconds = b.retryBackoffSeconds
  timeoutSeconds : a.timeoutSeconds = b.timeoutSeconds
  payload : meaning a.payload = meaning b.payload

/-- After defaults, the accepted requests with the hashed bytes of this one agree with it. -/
def ServiceConfig.Identifies (cfg : ServiceConfig) (a : RawRequest) : Prop :=
  ∀ b, cfg.Accepts b → (cfg.withRawDefaults a).hashed = (cfg.withRawDefaults b).hashed →
    (cfg.withRawDefaults a).Agrees (cfg.withRawDefaults b)

/-! ### Reading the fields back -/

theorem split_member_itoa {p q : List UInt8} {key : String} {n m : Int}
    (h : p ++ member key (itoa n) = q ++ member key (itoa m)) : p = q ∧ n = m := by
  have hcolon : ∀ n, (0x3A : UInt8) ∉ itoa n := by
    intro n hmem
    rcases mem_itoa hmem with h | h
    · exact absurd h (by decide)
    · exact absurd h (by decide)
  have hmember : ∀ (p : List UInt8) (n : Int), p ++ member key (itoa n)
      = (p ++ (text ",\"" ++ text key ++ [0x22])) ++ 0x3A :: itoa n := by
    intro p n
    have hsep : text "\":" = [0x22, 0x3A] := rfl
    simp only [member, hsep, List.append_assoc, List.cons_append, List.nil_append]
  rw [hmember, hmember] at h
  obtain ⟨hfront, hvalue⟩ := split_last (hcolon n) (hcolon m) h
  exact ⟨List.append_cancel_right hfront, itoa_injective hvalue⟩

theorem split_member_quoted {p q : List UInt8} {key : String} {s t : List UInt8}
    (hs : (0x22 : UInt8) ∉ s) (ht : (0x22 : UInt8) ∉ t)
    (h : p ++ member key (0x22 :: s ++ [0x22]) = q ++ member key (0x22 :: t ++ [0x22])) :
    p = q ∧ s = t := by
  have hmember : ∀ p s : List UInt8, p ++ member key (0x22 :: s ++ [0x22])
      = ((p ++ (text ",\"" ++ text key ++ text "\":")) ++ 0x22 :: s) ++ [0x22] := by
    intro p s
    simp only [member, List.append_assoc, List.cons_append]
  rw [hmember, hmember] at h
  obtain ⟨hfront, hvalue⟩ := split_last hs ht (List.append_cancel_right h)
  exact ⟨List.append_cancel_right hfront, hvalue⟩

variable {cfg : ServiceConfig} {a b : RawRequest}

/-- What validation says about a request. -/
theorem RawRequest.validateCreate_eq_ok : a.validateCreate = .ok () ↔
    trimSpaceBytes a.name ≠ [] ∧ a.jobType = text "CALL_WEBHOOK" ∧
      ¬(a.payload.length = 0 ∨ jsonValidBytes a.payload = false ∨ a.payload = text "null") ∧
      a.runAt ≠ Time.zero ∧ ¬(a.priority < 0 ∨ a.priority > 10) ∧ ¬a.maxRetries < 0 ∧
      ¬a.retryBackoffSeconds < 0 ∧ ¬a.timeoutSeconds < 0 := by
  unfold validateCreate
  constructor
  · intro h
    repeat' split at h
    all_goals try cases h
    rename_i hname htype hpayload hrunAt hpriority hretries hbackoff htimeout
    exact ⟨hname, not_not.1 htype, hpayload, hrunAt, hpriority, hretries, hbackoff, htimeout⟩
  · rintro ⟨hname, htype, hpayload, hrunAt, hpriority, hretries, hbackoff, htimeout⟩
    rw [if_neg hname, if_neg (not_not_intro htype), if_neg hpayload, if_neg hrunAt, if_neg hpriority,
      if_neg hretries, if_neg hbackoff, if_neg htimeout]

theorem RawRequest.payload_valid (h : a.validateCreate = .ok ()) : Json.valid a.payload = true := by
  obtain ⟨-, -, hpayload, -⟩ := validateCreate_eq_ok.1 h
  rw [not_or, not_or, Bool.not_eq_false, jsonValidBytes, Bool.and_eq_true] at hpayload
  exact hpayload.2.1.1

/-- Another name and another instant. -/
theorem ServiceConfig.Accepts.replace (h : cfg.Accepts a) {name : List UInt8} {runAt : Time}
    (hname : trimSpaceBytes name ≠ []) (hrunAt : runAt ≠ Time.zero) :
    cfg.Accepts { a with name := name, runAt := runAt } := by
  obtain ⟨-, htype, hpayload, -, hnumbers⟩ := RawRequest.validateCreate_eq_ok.1 h.2
  exact ⟨h.1, RawRequest.validateCreate_eq_ok.2 ⟨hname, htype, hpayload, hrunAt, hnumbers⟩⟩

/-- From the back, every number is behind its last colon and the instant between its last quotes; from
the front, the name ends at its closing quote. -/
theorem RawRequest.agrees_of_layout {payload payload' : List UInt8} (hname : Valid a.name)
    (htype : a.jobType = b.jobType)
    (h : a.layout payload (utcText a.runAt) = b.layout payload' (utcText b.runAt)) :
    a.name = b.name ∧ payload = payload' ∧ utcText a.runAt = utcText b.runAt ∧
      a.priority = b.priority ∧ a.maxRetries = b.maxRetries ∧
      a.retryBackoffSeconds = b.retryBackoffSeconds ∧ a.timeoutSeconds = b.timeoutSeconds := by
  unfold layout at h
  obtain ⟨h, htimeout⟩ := split_member_itoa (List.append_cancel_right h)
  obtain ⟨h, hbackoff⟩ := split_member_itoa h
  obtain ⟨h, hretries⟩ := split_member_itoa h
  obtain ⟨h, hpriority⟩ := split_member_itoa h
  obtain ⟨h, hrunAt⟩ := split_member_quoted (quote_notMem_utcText _) (quote_notMem_utcText _) h
  rw [List.append_assoc, List.append_assoc, List.append_assoc, List.append_assoc] at h
  obtain ⟨hnames, h⟩ := quote_split hname (List.append_cancel_left h)
  rw [htype] at h
  have hpayload := List.append_cancel_left (List.append_cancel_left h)
  exact ⟨hnames, hpayload, hrunAt, hpriority, hretries, hbackoff, htimeout⟩

theorem RawRequest.layout_ne_nil (payload runAt : List UInt8) : a.layout payload runAt ≠ [] := by
  simp [layout, text]

/-- The year of an instant has at most four digits. -/
def Writable (t : Time) : Prop := 0 ≤ (dateOf t).year ∧ (dateOf t).year ≤ 9999

/-- An instant that cannot be written leaves nothing to hash. -/
theorem RawRequest.hashed_of_not_writable (h : ¬Writable a.runAt) : a.hashed = [] := by
  have hrunAt : rfc3339Nano a.runAt = none := if_neg h
  simp only [hashed, marshal, hrunAt]
  cases compact a.payload with
  | none => rfl
  | some payload => rfl

theorem RawRequest.hashed_of_writable (h : Writable a.runAt) {payload : List UInt8}
    (hpayload : compact a.payload = some payload) :
    a.hashed = a.layout payload (utcText a.runAt) := by
  have hrunAt : rfc3339Nano a.runAt = some (utcText a.runAt) := if_pos h
  simp only [hashed, marshal, hpayload, hrunAt]
  rfl

/-- The hashed bytes of a request with an instant that can be written and a name that is text are those
of no other request. -/
theorem RawRequest.agrees_of_hashed (ha : a.validateCreate = .ok ()) (hb : b.validateCreate = .ok ())
    (hwritable : Writable a.runAt) (hname : Valid a.name) (hhash : a.hashed = b.hashed) :
    a.Agrees b := by
  obtain ⟨payload, hpayload⟩ := exists_compact (payload_valid ha)
  obtain ⟨payload', hpayload'⟩ := exists_compact (payload_valid hb)
  have htype : a.jobType = b.jobType :=
    (validateCreate_eq_ok.1 ha).2.1.trans (validateCreate_eq_ok.1 hb).2.1.symm
  rw [hashed_of_writable hwritable hpayload] at hhash
  by_cases hwritable' : Writable b.runAt
  · rw [hashed_of_writable hwritable' hpayload'] at hhash
    obtain ⟨hnames, rfl, hrunAt, hpriority, hretries, hbackoff, htimeout⟩ :=
      agrees_of_layout hname htype hhash
    have hmeaning := (meaning_of_compact hpayload).symm.trans (meaning_of_compact hpayload')
    exact ⟨hnames, htype, utcText_inj hwritable.1 hwritable'.1 hrunAt, hpriority, hretries, hbackoff,
      htimeout, hmeaning⟩
  · rw [hashed_of_not_writable hwritable'] at hhash
    exact absurd hhash (layout_ne_nil _ _)

theorem identifies_of_writable (ha : cfg.Accepts a) (hwritable : Writable a.runAt)
    (hname : Valid a.name) : cfg.Identifies a := fun _ hb hhash =>
  RawRequest.agrees_of_hashed ha.2 hb.2 hwritable hname hhash

/-! ### Requests that share their hash -/

/-- Two instants of the year 10000. -/
theorem not_writable_far : ¬Writable (253402300800 * second) ∧ ¬Writable (253402300801 * second) := by
  unfold Writable
  decide +kernel

/-- All requests whose instants cannot be written are hashed to the same bytes. -/
theorem writable_of_identifies (ha : cfg.Accepts a) (h : cfg.Identifies a) : Writable a.runAt := by
  by_contra hwritable
  obtain ⟨far, hfar, hne, hzero⟩ : ∃ far : Time, ¬Writable far ∧ far ≠ a.runAt ∧ far ≠ Time.zero := by
    by_cases heq : a.runAt = 253402300800 * second
    · refine ⟨_, not_writable_far.2, ?_, by decide⟩
      rw [heq]
      decide
    · exact ⟨_, not_writable_far.1, fun he => heq he.symm, by decide⟩
  have hb : cfg.Accepts { a with runAt := far } :=
    ha.replace (RawRequest.validateCreate_eq_ok.1 ha.2).1 hzero
  have hempty := RawRequest.hashed_of_not_writable (a := cfg.withRawDefaults a) hwritable
  have hempty' :=
    RawRequest.hashed_of_not_writable (a := cfg.withRawDefaults { a with runAt := far }) hfar
  exact hne (h _ hb (hempty.trans hempty'.symm)).runAt.symm

/-- A bad byte is not trimmed. -/
theorem trimSpaceBytes_ne_nil {bytes : List UInt8} {b : UInt8} (h : .bad b ∈ runes bytes) :
    trimSpaceBytes bytes ≠ [] := by
  have hkept : ∀ l : List Rune, .bad b ∈ l → .bad b ∈ l.dropWhile isSpaceRune := by
    intro l hl
    rw [← List.takeWhile_append_dropWhile (p := isSpaceRune) (l := l), List.mem_append] at hl
    rcases hl with hl | hl
    · have hspace : isSpaceRune (.bad b) = true := List.mem_takeWhile_imp hl
      exact absurd (show isSpace (.ofNat 0xFFFD) = true from hspace) (by decide)
    · exact hl
  have hmem := List.mem_reverse.2 (hkept _ (List.mem_reverse.2 (hkept _ h)))
  intro hnil
  have hbyte : b ∈ trimSpaceBytes bytes := List.mem_flatMap.2 ⟨_, hmem, List.mem_singleton.2 rfl⟩
  rw [hnil] at hbyte
  exact absurd hbyte List.not_mem_nil

/-- Bad bytes are all written as the replacement character. -/
theorem quote_bad {before after : List UInt8} {b b' : UInt8} (hbefore : Valid before)
    (hb : runes (b :: after) = .bad b :: runes after) (hb' : runes (b' :: after) = .bad b' :: runes after) :
    quote (before ++ b :: after) = quote (before ++ b' :: after) := by
  simp only [quote, hbefore.runes_append, hb, hb', List.flatMap_append, List.flatMap_cons, escapeRune]

theorem name_valid_of_identifies (ha : cfg.Accepts a) (h : cfg.Identifies a) : Valid a.name := by
  by_contra hinvalid
  obtain ⟨before, b, after, hname, hbefore, hb⟩ := exists_bad hinvalid
  obtain ⟨b', hlead, hne⟩ : ∃ b' : UInt8, 0xF5 ≤ b' ∧ b' ≠ b := by
    by_cases heq : b = 0xFF
    · exact ⟨0xFE, by decide, by rw [heq]; decide⟩
    · exact ⟨0xFF, by decide, fun he => heq he.symm⟩
  have hb' := runes_of_lead hlead after
  have hbad : .bad b' ∈ runes (before ++ b' :: after) := by
    rw [hbefore.runes_append, hb']
    exact List.mem_append_right _ List.mem_cons_self
  obtain ⟨-, -, -, hrunAt, -⟩ := RawRequest.validateCreate_eq_ok.1 ha.2
  have haccepts : cfg.Accepts { a with name := before ++ b' :: after } :=
    ha.replace (trimSpaceBytes_ne_nil hbad) hrunAt
  have hquote : quote a.name = quote (before ++ b' :: after) := by
    rw [hname, quote_bad hbefore hb hb']
  have hhash : (cfg.withRawDefaults a).hashed
      = (cfg.withRawDefaults { a with name := before ++ b' :: after }).hashed := by
    simp only [RawRequest.hashed, RawRequest.marshal, RawRequest.layout, ServiceConfig.withRawDefaults,
      hquote]
  have hsame : a.name = before ++ b' :: after := (h _ haccepts hhash).name
  rw [hname] at hsame
  exact hne (List.cons.inj (List.append_cancel_left hsame)).1.symm

/-- For every accepted request: its hash identifies it if and only if its instant can be written and its
name is valid text. -/
theorem request_identified_iff (ha : cfg.Accepts a) :
    cfg.Identifies a ↔
      (0 ≤ (dateOf a.runAt).year ∧ (dateOf a.runAt).year ≤ 9999) ∧ Valid a.name := by
  constructor
  · intro h
    exact ⟨writable_of_identifies ha h, name_valid_of_identifies ha h⟩
  · rintro ⟨hwritable, hname⟩
    exact identifies_of_writable ha hwritable hname

/-! ### Requests as text -/

/-- The bytes of a request. -/
def CreateRequest.raw (req : CreateRequest) : RawRequest where
  name := encode req.name.toList
  jobType := encode req.jobType.toList
  payload := encode req.payload.toList
  runAt := req.runAt
  priority := req.priority
  maxRetries := req.maxRetries
  retryBackoffSeconds := req.retryBackoffSeconds
  timeoutSeconds := req.timeoutSeconds
  idempotencyKey := encode req.idempotencyKey.toList

theorem encode_eq_iff {s t : String} : encode s.toList = encode t.toList ↔ s = t := by
  rw [encode_injective.eq_iff, String.toList_inj]

theorem length_encode (s : String) : (encode s.toList).length = s.utf8ByteSize := by
  simp [encode, String.utf8ByteSize, ← String.utf8Encode_toList, List.utf8Encode]

theorem trimSpaceBytes_encode (s : String) :
    trimSpaceBytes (encode s.toList) = encode (trimSpace s).toList := by
  have hspace : isSpaceRune ∘ Rune.ofChar = isSpace := by
    funext c
    simp [isSpaceRune, char_ofChar]
  have hbytes : ∀ text : List Char, (text.map Rune.ofChar).flatMap Rune.bytes = encode text := by
    intro text
    simp [encode, List.flatMap_map, bytes_ofChar]
  simp only [trimSpaceBytes, trimSpace, runes_encode, List.dropWhile_map, hspace, ← List.map_reverse,
    hbytes, String.toList_ofList]

/-- `Service.withDefaults`, on text and on bytes. -/
theorem raw_withDefaults (req : CreateRequest) : (cfg.withDefaults req).raw = cfg.withRawDefaults req.raw :=
  rfl

/-- The service uses `json.Valid`, and a digest without collisions. -/
structure ServiceConfig.Standard (cfg : ServiceConfig) : Prop where
  jsonValid : ∀ payload, cfg.jsonValid payload = jsonValidBytes (encode payload.toList)
  requestHash : ∀ req req', cfg.requestHash req = cfg.requestHash req' ↔ req.raw.hashed = req'.raw.hashed

/-- `validateCreate`, on text and on bytes. -/
theorem ServiceConfig.Standard.validateCreate_raw (h : cfg.Standard) (req : CreateRequest) :
    req.raw.validateCreate = cfg.validateCreate req := by
  have hname : trimSpaceBytes req.raw.name = [] ↔ trimSpace req.name = "" := by
    show trimSpaceBytes (encode req.name.toList) = encode "".toList ↔ _
    rw [trimSpaceBytes_encode, encode_eq_iff]
  have htype : req.raw.jobType ≠ text "CALL_WEBHOOK" ↔ req.jobType ∉ supportedJobTypes := by
    have htext : text "CALL_WEBHOOK" = encode "CALL_WEBHOOK".toList := by decide
    rw [htext, supportedJobTypes, List.mem_singleton]
    exact not_congr encode_eq_iff
  have hnull : req.raw.payload = text "null" ↔ req.payload = "null" := by
    have htext : text "null" = encode "null".toList := by decide
    rw [htext]
    exact encode_eq_iff
  have hlength : req.raw.payload.length = req.payload.utf8ByteSize := length_encode _
  have hjson : jsonValidBytes req.raw.payload = cfg.jsonValid req.payload := (h.jsonValid _).symm
  simp only [RawRequest.validateCreate, ServiceConfig.validateCreate, hname, htype, hlength, hjson, hnull]
  rfl

/-- `Service.Create` gets to its repository call with the requests whose bytes it accepts. -/
theorem ServiceConfig.Standard.accepts_raw_iff (h : cfg.Standard) (principal : Principal)
    (req : CreateRequest) (jobID : NewUUID) (clock : Time) :
    cfg.Accepts req.raw ↔ ∃ out, cfg.prepare principal req jobID clock = .ok out := by
  have hkey : (trimSpaceBytes req.raw.idempotencyKey).length
      = (cfg.normalize req).idempotencyKey.utf8ByteSize := by
    rw [← length_encode]
    exact congrArg List.length (trimSpaceBytes_encode _)
  have hvalid : (cfg.withRawDefaults req.raw).validateCreate = cfg.validateCreate (cfg.normalize req) := by
    rw [← raw_withDefaults, h.validateCreate_raw]
    rfl
  rw [Accepts, hkey, hvalid, prepare]
  by_cases hlong : (cfg.normalize req).idempotencyKey.utf8ByteSize > 255
  · simp [hlong, Nat.not_le.2 hlong]
  · cases hchecks : cfg.validateCreate (cfg.normalize req) with
    | error message => simp [hlong]
    | ok u => simp [hlong, Nat.not_lt.1 hlong]

/-- Of two valid requests with one hash, one whose instant can be written has the settings of the other. -/
theorem ServiceConfig.Standard.agrees (h : cfg.Standard) {req req' : CreateRequest}
    (hvalid : cfg.validateCreate req = .ok ()) (hvalid' : cfg.validateCreate req' = .ok ())
    (hwritable : Writable req.runAt) (hhash : cfg.requestHash req = cfg.requestHash req') :
    req.raw.Agrees req'.raw :=
  RawRequest.agrees_of_hashed ((h.validateCreate_raw req).trans hvalid)
    ((h.validateCreate_raw req').trans hvalid') hwritable (valid_encode _)
    ((h.requestHash req req').1 hhash)

namespace Demo

/-- The defaults of the service; the hashed bytes stand for their digest. -/
def hashing : ServiceConfig :=
  ⟨3, 30, 300, fun payload => jsonValidBytes (encode payload.toList),
    fun req => String.ofList (req.raw.hashed.map fun b => Char.ofNat b.toNat)⟩

/-- A request that leaves its settings to the defaults. -/
def request (name : String) (runAt : Time) : RawRequest :=
  ⟨text name, text "CALL_WEBHOOK", text "\x7b\x7d", runAt, 0, 0, 0, 0, []⟩

end Demo

/-- Such a service exists. -/
theorem standard_hashing : Demo.hashing.Standard where
  jsonValid _ := rfl
  requestHash req req' := by
    have hascii : ∀ n < 256, (Char.ofNat n).toNat = n := by decide +kernel
    have hchar : ∀ b : UInt8, (Char.ofNat b.toNat).toNat = b.toNat := fun b => hascii _ b.toNat_lt
    have hinjective : Function.Injective fun b : UInt8 => Char.ofNat b.toNat := by
      intro b b' heq
      rw [← UInt8.toNat_inj, ← hchar b, ← hchar b']
      exact congrArg Char.toNat heq
    exact String.ofList_inj.trans (List.map_injective_iff.2 hinjective).eq_iff

theorem request_identified_iff_report : Demo.hashing.Accepts (Demo.request "report" 0) ∧
    Demo.hashing.Identifies (Demo.request "report" 0) := by
  have haccepts : Demo.hashing.Accepts (Demo.request "report" 0) := by decide +kernel
  exact ⟨haccepts, (request_identified_iff haccepts).2 (by decide +kernel)⟩

/-- `9999-12-31T23:59:59-23:00` is in the year 10000: another job with another instant of that year has
the same hash. -/
theorem far_requests_share_hash :
    Demo.hashing.Accepts (Demo.request "report" (253402383599 * second)) ∧
      Demo.hashing.Accepts (Demo.request "backup" (253402380000 * second)) ∧
      (Demo.hashing.withRawDefaults (Demo.request "report" (253402383599 * second))).hashed
        = (Demo.hashing.withRawDefaults (Demo.request "backup" (253402380000 * second))).hashed ∧
      ¬(Demo.hashing.withRawDefaults (Demo.request "report" (253402383599 * second))).Agrees
        (Demo.hashing.withRawDefaults (Demo.request "backup" (253402380000 * second))) := by
  refine ⟨by decide +kernel, by decide +kernel, by decide +kernel, fun hagrees => ?_⟩
  exact absurd hagrees.name (by decide +kernel)

end JobScheduler
