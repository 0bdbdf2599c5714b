import JobScheduler.RequestHash
import JobScheduler.Tenancy

/-!
# The create endpoint, from the JSON body to the stored settings

`Handler.create` of `internal/job/handler.go`: the body is decoded into a zero `CreateRequest`, the
service fills in its defaults where it finds a zero, and the row keeps what comes out.  The decoder is
`encoding/json` with `DisallowUnknownFields`: names match up to case, `null` leaves a field alone, the
last member for a field wins, and an integer is a JSON number of 64 bits without fraction and exponent.

* `decodeMembers_of_states`, `decodeMembers_of_omits` — what the decoder leaves in a setting is what the
  body says last, if it says anything.
* `Hashed` — the hash in a row is the hash of a request with the settings of the row; every step of the
  system keeps it.
* `explicit_settings_stored` — what becomes of stated and of omitted settings.
-/

namespace JobScheduler

open KeyedTable Transaction TransitionSystem

/-! ### Bodies -/

/-- A JSON value as the decoder meets it: a number is still its literal; arrays and objects are kept
as the text they are. -/
inductive BodyValue where
  | null
  | bool (value : Bool)
  | number (literal : String)
  | string (value : String) (raw : RawMessage)
  | composite (raw : RawMessage)
  deriving DecidableEq

/-- The text of a value. -/
def BodyValue.raw : BodyValue → RawMessage
  | .null => "null"
  | .bool value => if value then "true" else "false"
  | .number literal => literal
  | .string _ raw => raw
  | .composite raw => raw

/-- The first JSON value of a request body. -/
inductive CreateBody where
  /-- There is no complete value within the first mebibyte. -/
  | malformed
  | null
  | object (members : List (String × BodyValue))
  /-- A value other than an object and `null`. -/
  | other

/-! ### Fields -/

/-- The fields of a request that have a default. -/
inductive Setting where
  | priority
  | maxRetries
  | retryBackoffSeconds
  | timeoutSeconds
  deriving DecidableEq

/-- The fields of `CreateRequest` a body can set; `IdempotencyKey` is tagged `-`. -/
inductive BodyField where
  | name
  | jobType
  | payload
  | runAt
  | setting (field : Setting)
  deriving DecidableEq

def Setting.tag : Setting → String
  | .priority => "priority"
  | .maxRetries => "max_retries"
  | .retryBackoffSeconds => "retry_backoff_seconds"
  | .timeoutSeconds => "timeout_seconds"

/-- The field's `json` tag. -/
def BodyField.tag : BodyField → String
  | .name => "name"
  | .jobType => "job_type"
  | .payload => "payload"
  | .runAt => "run_at"
  | .setting field => field.tag

/-- The fields of the struct, in order. -/
def bodyFields : List BodyField :=
  [.name, .jobType, .payload, .runAt, .setting .priority, .setting .maxRetries,
    .setting .retryBackoffSeconds, .setting .timeoutSeconds]

/-- The least rune that differs from `c` only in case, for the runes that share one with ASCII: the
long s and the Kelvin sign are letters of that kind. -/
def foldRune (c : Char) : Char :=
  if c.isLower then c.toUpper
  else if c = 'ſ' then 'S'
  else if c = 'K' then 'K'
  else c

def foldName (name : String) : List Char := name.toList.map foldRune

/-- The field a member is for: an exact match, or else one up to case. -/
def findField (key : String) : Option BodyField :=
  (bodyFields.find? fun f => f.tag == key).or
    (bodyFields.find? fun f => foldName f.tag == foldName key)

theorem mem_bodyFields (f : BodyField) : f ∈ bodyFields := by
  cases f with
  | setting field => cases field <;> decide
  | _ => decide

theorem eq_of_foldName_tag {f g : BodyField} (h : foldName f.tag = foldName g.tag) : f = g := by
  have hall : ∀ f ∈ bodyFields, ∀ g ∈ bodyFields, foldName f.tag = foldName g.tag → f = g := by decide
  exact hall f (mem_bodyFields f) g (mem_bodyFields g) h

/-- No two fields differ only in case, so a member is for the field it names up to case. -/
theorem findField_eq_some_iff {key : String} {f : BodyField} :
    findField key = some f ↔ foldName key = foldName f.tag := by
  have hsound : ∀ {g}, findField key = some g → foldName key = foldName g.tag := by
    intro g hg
    rcases Option.or_eq_some_iff.1 hg with hexact | ⟨-, hfold⟩
    · have heq := List.find?_some hexact
      rw [beq_iff_eq] at heq
      rw [heq]
    · have heq := List.find?_some hfold
      rw [beq_iff_eq] at heq
      exact heq.symm
  refine ⟨hsound, fun h => ?_⟩
  have hfound : (findField key).isSome = true := by
    rw [findField, Option.isSome_or, Bool.or_eq_true]
    exact Or.inr (List.find?_isSome.2 ⟨f, mem_bodyFields f, by rw [h, beq_self_eq_true]⟩)
  obtain ⟨g, hg⟩ := Option.isSome_iff_exists.1 hfound
  rw [hg, eq_of_foldName_tag ((hsound hg).symm.trans h)]

/-! ### Settings of requests and of jobs -/

namespace Setting

def get (req : CreateRequest) : Setting → Int
  | .priority => req.priority
  | .maxRetries => req.maxRetries
  | .retryBackoffSeconds => req.retryBackoffSeconds
  | .timeoutSeconds => req.timeoutSeconds

def set (req : CreateRequest) (value : Int) : Setting → CreateRequest
  | .priority => { req with priority := value }
  | .maxRetries => { req with maxRetries := value }
  | .retryBackoffSeconds => { req with retryBackoffSeconds := value }
  | .timeoutSeconds => { req with timeoutSeconds := value }

/-- The column of the setting. -/
def ofJob (j : Job) : Setting → Int
  | .priority => j.priority
  | .maxRetries => j.maxRetries
  | .retryBackoffSeconds => j.retryBackoffSeconds
  | .timeoutSeconds => j.timeoutSeconds

/-- What the service uses when nothing is said. -/
def default (cfg : ServiceConfig) : Setting → Int
  | .priority => 5
  | .maxRetries => cfg.defaultRetries
  | .retryBackoffSeconds => cfg.defaultBackoffSec
  | .timeoutSeconds => cfg.defaultTimeoutSec

@[simp] theorem get_set_self (req : CreateRequest) (value : Int) (field : Setting) :
    field.get (field.set req value) = value := by
  cases field <;> rfl

theorem get_set_of_ne (req : CreateRequest) (value : Int) {field other : Setting} (h : other ≠ field) :
    field.get (other.set req value) = field.get req := by
  cases field <;> cases other <;> first | rfl | exact absurd rfl h

theorem get_normalize (cfg : ServiceConfig) (req : CreateRequest) (field : Setting) :
    field.get (cfg.normalize req) = if field.get req = 0 then field.default cfg else field.get req := by
  cases field <;> rfl

theorem ofJob_createRow (cfg : ServiceConfig) (principal : Principal) (req : CreateRequest)
    (jobID : NewUUID) (clock now : Time) (field : Setting) :
    field.ofJob (createRow now (cfg.newJob principal req jobID clock)).toJob = field.get req := by
  cases field <;> rfl

theorem ofJob_of_identity {j j' : Job} (h : j.identity = j'.identity) (field : Setting) :
    field.ofJob j = field.ofJob j' := by
  cases field with
  | priority => exact congrArg JobIdentity.priority h
  | maxRetries => exact congrArg JobIdentity.maxRetries h
  | retryBackoffSeconds => exact congrArg JobIdentity.retryBackoffSeconds h
  | timeoutSeconds => exact congrArg JobIdentity.timeoutSeconds h

end Setting

/-! ### Decoding -/

/-- `CreateRequest{}`. -/
def zeroRequest : CreateRequest := ⟨"", "", "", Time.zero, 0, 0, 0, 0, ""⟩

section Decoding

-- `time.Time.UnmarshalJSON`, on the text of a value other than `null`
variable (unmarshalTime : RawMessage → Option Time)

/-- A string field: `null` leaves it alone. -/
def stringField (value : BodyValue) (current : String) : Option String :=
  match value with
  | .null => some current
  | .string s _ => some s
  | _ => none

/-- The value is stored in a field, or the decoder fails. -/
def setField (req : CreateRequest) (value : BodyValue) : BodyField → Option CreateRequest
  | .name => (stringField value req.name).map fun name => { req with name := name }
  | .jobType => (stringField value req.jobType).map fun jobType => { req with jobType := jobType }
  | .payload => some { req with payload := value.raw }
  | .runAt =>
    match value with
    | .null => some req
    | _ => (unmarshalTime value.raw).map fun runAt => { req with runAt := runAt }
  | .setting field =>
    match value with
    | .null => some req
    | .number literal => (atoi literal).map fun n => field.set req n
    | _ => none

/-- One member; an unknown field fails. -/
def decodeMember (req : CreateRequest) (m : String × BodyValue) : Option CreateRequest :=
  (findField m.1).bind fun f => setField unmarshalTime req m.2 f

def decodeMembers (req : CreateRequest) (members : List (String × BodyValue)) : Option CreateRequest :=
  members.foldlM (decodeMember unmarshalTime) req

/-- `decoder.Decode(&req)`. -/
def decodeBody : CreateBody → Option CreateRequest
  | .malformed => none
  | .null => some zeroRequest
  | .object members => decodeMembers unmarshalTime zeroRequest members
  | .other => none

end Decoding

/-! ### What a body says -/

/-- The member is for the setting. -/
def Setting.NamedBy (field : Setting) (m : String × BodyValue) : Prop :=
  foldName m.1 = foldName field.tag

/-- The last thing the members say about the setting is the number `v`. -/
def States (members : List (String × BodyValue)) (field : Setting) (v : Int) : Prop :=
  ∃ front key literal back, members = front ++ (key, .number literal) :: back ∧
    field.NamedBy (key, .number literal) ∧ atoi literal = some v ∧
    ∀ m ∈ back, field.NamedBy m → m.2 = .null

/-- The members say nothing about the setting. -/
def Omits (members : List (String × BodyValue)) (field : Setting) : Prop :=
  ∀ m ∈ members, field.NamedBy m → m.2 = .null

instance (field : Setting) (m : String × BodyValue) : Decidable (field.NamedBy m) :=
  inferInstanceAs (Decidable (_ = _))

instance (members : List (String × BodyValue)) (field : Setting) : Decidable (Omits members field) :=
  inferInstanceAs (Decidable (∀ m ∈ members, _ → _))

theorem Omits.not_states {members : List (String × BodyValue)} {field : Setting}
    (h : Omits members field) (v : Int) : ¬States members field v := by
  rintro ⟨front, key, literal, back, rfl, hnamed, -, -⟩
  cases h _ (List.mem_append_right front List.mem_cons_self) hnamed

section Decoding

variable {unmarshalTime : RawMessage → Option Time} {req req' : CreateRequest} {field : Setting}

/-- Another field's value does not touch the setting. -/
theorem setField_frame {value : BodyValue} {f : BodyField}
    (h : setField unmarshalTime req value f = some req') (hf : f ≠ .setting field) :
    field.get req' = field.get req := by
  cases f with
  | name =>
    obtain ⟨name, -, rfl⟩ := Option.map_eq_some_iff.1 h
    cases field <;> rfl
  | jobType =>
    obtain ⟨jobType, -, rfl⟩ := Option.map_eq_some_iff.1 h
    cases field <;> rfl
  | payload =>
    obtain rfl := Option.some.inj h
    cases field <;> rfl
  | runAt =>
    simp only [setField] at h
    split at h
    · rw [Option.some.inj h]
    · obtain ⟨runAt, -, rfl⟩ := Option.map_eq_some_iff.1 h
      cases field <;> rfl
  | setting other =>
    have hne : other ≠ field := fun heq => hf (by rw [heq])
    simp only [setField] at h
    split at h
    · rw [Option.some.inj h]
    · obtain ⟨n, -, rfl⟩ := Option.map_eq_some_iff.1 h
      exact Setting.get_set_of_ne req n hne
    · cases h

/-- One member: it is `null` or for another field, or it is a number and the setting has its value. -/
theorem decodeMember_setting (field : Setting) {m : String × BodyValue}
    (h : decodeMember unmarshalTime req m = some req') :
    ((field.NamedBy m → m.2 = .null) ∧ field.get req' = field.get req) ∨
      ∃ literal v, m.2 = .number literal ∧ field.NamedBy m ∧ atoi literal = some v ∧
        field.get req' = v := by
  obtain ⟨f, hfound, hset⟩ := Option.bind_eq_some_iff.1 h
  rw [findField_eq_some_iff] at hfound
  by_cases hf : f = .setting field
  · subst hf
    obtain ⟨key, value⟩ := m
    simp only [setField] at hset
    split at hset
    · exact Or.inl ⟨fun _ => rfl, by rw [Option.some.inj hset]⟩
    · obtain ⟨n, hn, rfl⟩ := Option.map_eq_some_iff.1 hset
      exact Or.inr ⟨_, n, rfl, hfound, hn, Setting.get_set_self req n field⟩
    · cases hset
  · refine Or.inl ⟨fun hnamed => absurd ?_ hf, setField_frame hset hf⟩
    exact eq_of_foldName_tag (hfound.symm.trans hnamed)

theorem decodeMembers_cons {m : String × BodyValue} {members : List (String × BodyValue)}
    (h : decodeMembers unmarshalTime req (m :: members) = some req') :
    ∃ req₁, decodeMember unmarshalTime req m = some req₁ ∧
      decodeMembers unmarshalTime req₁ members = some req' := by
  rw [decodeMembers, List.foldlM_cons] at h
  exact Option.bind_eq_some_iff.1 h

/-- A body says something about a setting that is a number, or nothing. -/
theorem states_or_omits {members : List (String × BodyValue)}
    (h : decodeMembers unmarshalTime req members = some req') (field : Setting) :
    (∃ v, States members field v) ∨ Omits members field := by
  induction members generalizing req with
  | nil => exact Or.inr fun _ hm => absurd hm List.not_mem_nil
  | cons m members ih =>
    obtain ⟨req₁, hfirst, hrest⟩ := decodeMembers_cons h
    -- what comes later counts, if it says anything
    rcases ih hrest with ⟨v, front, key, literal, back, rfl, hstated⟩ | homits
    · exact Or.inl ⟨v, m :: front, key, literal, back, rfl, hstated⟩
    · obtain ⟨key, value⟩ := m
      rcases decodeMember_setting field hfirst with ⟨hnull, -⟩ | ⟨literal, v, rfl, hnamed, hv, -⟩
      · refine Or.inr fun m' hm' => ?_
        rcases List.mem_cons.1 hm' with rfl | hm'
        · exact hnull
        · exact homits m' hm'
      · exact Or.inl ⟨v, [], key, literal, members, rfl, hnamed, hv, homits⟩

/-- What the members do not talk about stays. -/
theorem decodeMembers_of_omits {members : List (String × BodyValue)}
    (h : decodeMembers unmarshalTime req members = some req') (homits : Omits members field) :
    field.get req' = field.get req := by
  induction members generalizing req with
  | nil => rw [Option.some.inj h]
  | cons m members ih =>
    obtain ⟨req₁, hfirst, hrest⟩ := decodeMembers_cons h
    rw [ih hrest fun m' hm' => homits m' (List.mem_cons_of_mem m hm')]
    rcases decodeMember_setting field hfirst with ⟨-, hkept⟩ | ⟨literal, v, hm, hnamed, -⟩
    · exact hkept
    · rw [homits m List.mem_cons_self hnamed] at hm
      cases hm

/-- What the members state last is there in the end. -/
theorem decodeMembers_of_states {members : List (String × BodyValue)} {v : Int}
    (h : decodeMembers unmarshalTime req members = some req') (hstates : States members field v) :
    field.get req' = v := by
  obtain ⟨front, key, literal, back, rfl, hnamed, hv, hback⟩ := hstates
  rw [decodeMembers, List.foldlM_append] at h
  obtain ⟨req₁, -, hlast⟩ := Option.bind_eq_some_iff.1 h
  obtain ⟨req₂, hm, hrest⟩ := decodeMembers_cons hlast
  rw [decodeMembers_of_omits hrest hback]
  rcases decodeMember_setting field hm with ⟨hnull, -⟩ | ⟨literal', v', hliteral, -, hv', hset⟩
  · cases hnull hnamed
  · obtain rfl := BodyValue.number.inj hliteral
    rw [hset]
    exact Option.some.inj (hv'.symm.trans hv)

end Decoding

/-! ### The handler -/

/-- What the handler writes: the status with the response, or with the error's code and message. -/
inductive CreateReply where
  | accepted (status : ℕ) (response : CreateResponse)
  | failed (status : ℕ) (code message : String)
  deriving DecidableEq

/-- `writeError`. -/
def writeError : AppError → CreateReply
  | .invalidInput detail => .failed 400 "INVALID_INPUT" ("invalid input: " ++ detail)
  | .invalidTransition detail =>
    .failed 409 "INVALID_TRANSITION" ("invalid status transition: " ++ detail)
  | .conflict => .failed 409 "CONFLICT" "conflict"
  | .idempotency => .failed 409 "IDEMPOTENCY_CONFLICT" "idempotency conflict"
  | .notFound => .failed 404 "NOT_FOUND" "resource not found"
  | .noRows => .failed 500 "INTERNAL_ERROR" "internal server error"
  | .postgres _ _ => .failed 500 "INTERNAL_ERROR" "internal server error"
  | .connection => .failed 500 "INTERNAL_ERROR" "internal server error"

/-- `Handler.create`: `idempotencyKey` is the header of that name. -/
def Handler.create (unmarshalTime : RawMessage → Option Time) (cfg : ServiceConfig)
    (principal : Principal) (env : Surroundings) (body : CreateBody) (idempotencyKey : String)
    (s : Store) : CreateReply × Store :=
  match decodeBody unmarshalTime body with
  | none => (.failed 400 "INVALID_JSON" "request body must be valid JSON", s)
  | some req =>
    match createJob cfg principal env { req with idempotencyKey := idempotencyKey } s with
    | (.error e, s') => (writeError e, s')
    | (.ok resp, s') => (.accepted (if resp.replayed then 200 else 201) resp, s')

theorem Handler.create_accepted {unmarshalTime : RawMessage → Option Time} {cfg : ServiceConfig}
    {principal : Principal} {env : Surroundings} {body : CreateBody} {idempotencyKey : String}
    {s s' : Store} {status : ℕ} {resp : CreateResponse}
    (h : Handler.create unmarshalTime cfg principal env body idempotencyKey s
      = (.accepted status resp, s')) :
    ∃ req, decodeBody unmarshalTime body = some req ∧
      createJob cfg principal env { req with idempotencyKey := idempotencyKey } s = (.ok resp, s') := by
  unfold Handler.create at h
  split at h
  · cases h
  · rename_i req hbody
    refine ⟨req, hbody, ?_⟩
    split at h
    · rename_i e _ _
      cases e <;> cases h
    · rename_i resp' s₁ hcreate
      rw [hcreate]
      cases h
      rfl

/-! ### Rows and their hashes -/

/-- The lookup finds a row. -/
theorem getByIdempotencyKey_found {tenantID : UUID} {idempotencyKey : String} {existing : Job}
    {s s' : Store} (h : getByIdempotencyKey tenantID idempotencyKey s = .ok (existing, s')) :
    ∃ r ∈ s.jobs.rows, r.toJob = existing := by
  simp only [getByIdempotencyKey, Tx.bind_eq_ok, Tx.read_eq_ok, Tx.orAbort_eq_ok, Tx.pure_eq_ok] at h
  obtain ⟨found, s₁, ⟨hfound, rfl⟩, r, s₂, ⟨hr, -⟩, rfl, -⟩ := h
  rw [hr] at hfound
  exact ⟨r, List.mem_of_find?_eq_some hfound, rfl⟩

/-- A call that succeeded inserted its job, or found a row with the hash of its request. -/
theorem createJob_cases {cfg : ServiceConfig} {principal : Principal} {env : Surroundings}
    {req : CreateRequest} {s s' : Store} {resp : CreateResponse}
    (h : createJob cfg principal env req s = (.ok resp, s')) :
    ∃ call j, cfg.prepare principal req env.jobID env.clock = .ok (call, j) ∧
      ((Creates env.now j s s' ∧ resp.jobID = j.id) ∨
        (s' = s ∧ ∃ r ∈ s.jobs.rows, r.id = resp.jobID ∧ r.requestHash = some call.requestHash)) := by
  unfold createJob at h
  split at h
  · cases h
  · rename_i call j hprep
    refine ⟨call, j, hprep, ?_⟩
    dsimp only at h
    split at h
    · rename_i inserted hreply
      obtain ⟨hresp, rfl⟩ := Prod.mk.inj h
      obtain ⟨hcreates, rfl⟩ := create_spec (Tx.eq_ok_of_reply_ok hreply)
      obtain rfl := Except.ok.inj hresp
      exact Or.inl ⟨hcreates, rfl⟩
    · rename_i e hreply
      split at h
      · cases h
      · split at h
        · rename_i idempotencyKey _ hrejects
          have hstate : ((create env.now env.eventID j).commit env.link .connection s).state = s := by
            refine Tx.state_of_reply_error hreply ?_
            rintro rfl
            exact absurd hrejects (by decide)
          rw [hstate, (getByIdempotencyKey_readOnly _ _).state_commit] at h
          obtain ⟨hresp, hs⟩ := Prod.mk.inj h
          refine Or.inr ⟨hs.symm, ?_⟩
          cases hlookup : ((getByIdempotencyKey call.tenantID idempotencyKey).commit env.link' .connection
              s).reply with
          | error e' =>
            rw [hlookup] at hresp
            cases hresp
          | ok existing =>
            rw [hlookup] at hresp
            obtain ⟨r, hr, rfl⟩ := getByIdempotencyKey_found (Tx.eq_ok_of_reply_ok hlookup)
            by_cases hhash : r.requestHash ≠ some call.requestHash
            · simp [Except.bind, Except.map, CreateCall.replay, hhash] at hresp
            · simp only [Except.bind, Except.map, CreateCall.replay, hhash, if_false] at hresp
              obtain rfl := Except.ok.inj hresp
              exact ⟨r, hr, rfl, not_not.1 hhash⟩
        · cases h

/-- The hash in a row is the hash of a valid request with the settings of the row, whose instant can be
written: the event of its creation names it. -/
def Hashed (cfg : ServiceConfig) (s : Store) : Prop :=
  ∀ k r requestHash, s.jobs.find? k = some r → r.requestHash = some requestHash →
    ∃ req, cfg.validateCreate req = .ok () ∧ requestHash = cfg.requestHash req ∧ Writable req.runAt ∧
      ∀ field : Setting, field.ofJob r.toJob = field.get req

/-- The row that an insert brings in. -/
theorem eq_of_insert {t t' : Table JobRow} {r r' : JobRow} {k : UUID} (h : t.insert r = some t')
    (hnone : t.find? k = none) (hsome : t'.find? k = some r') : r' = r := by
  rcases Table.find?_insert_cases h k with ⟨-, hsame⟩ | ⟨-, -, hnew⟩
  · rw [hsame, hnone] at hsome
    cases hsome
  · exact Option.some.inj (hsome.symm.trans hnew)

/-- A row that an API step inserts comes from a valid request or from a dead letter. -/
theorem apiStep_inserts {cfg : ServiceConfig} {s s' : Cluster} {a : ApiAct}
    (hx : apiStep cfg s a = some s') {k : UUID} {r : JobRow} (hnone : s.store.jobs.find? k = none)
    (hsome : s'.store.jobs.find? k = some r) :
    (∃ principal req jobID clock now call j, cfg.prepare principal req jobID clock = .ok (call, j) ∧
      r = createRow now j ∧ (FieldValue.time j.runAt).Marshals) ∨
      ∃ dl ∈ s.store.deadLetters.rows, ∃ now clock newID tenantID runAt,
        r = requeueRow now clock newID tenantID dl runAt := by
  have hsame : ∀ {s₁ : Cluster}, s₁.store = s.store → s₁.store.jobs.find? k ≠ some r := by
    intro s₁ hs₁ hr₁
    rw [hs₁, hnone] at hr₁
    cases hr₁
  cases apiStep_move hx with
  | refused => exact absurd hsome (hsame rfl)
  | @created principal req jobID eventID clock now link call j lookups answers hp =>
    rcases s.record_cases (create now eventID j) link .connection (fun _ => [.created j.id]) with
      ⟨-, hstore, -⟩ | ⟨inserted, hok, -⟩
    · exact absurd hsome (hsame hstore)
    · have hcreates := (create_spec hok).1
      exact Or.inl ⟨principal, req, jobID, clock, now, call, j, hp,
        eq_of_insert hcreates.jobs hnone hsome, hcreates.runAt⟩
  | looked => exact absurd hsome (hsame rfl)
  | read => exact absurd hsome (hsame rfl)
  | @written n eventID now link call operators hcall =>
    rcases s.record_cases (call.op.write now eventID call.tenantID call.id) link .connection
        (fun _ => [.transitioned call.id call.op]) with ⟨-, hstore, -⟩ | ⟨u, hok, -⟩
    · exact absurd hsome (hsame hstore)
    · obtain ⟨r₀, -, ht⟩ := transitionJob_spec hok
      have hkept : (s.record ((call.op.write now eventID call.tenantID call.id).commit link .connection
          s.store) fun _ => [.transitioned call.id call.op]).store.jobs.find? k = some r := hsome
      rw [ht.jobs] at hkept
      rcases Table.find?_modify_cases ht.row (operatorRow now call.op.target) _ k with
        ⟨-, hold⟩ | ⟨rfl, -⟩
      · rw [hold, hnone] at hkept
        cases hkept
      · rw [ht.row] at hnone
        cases hnone
  | @requeued tenantID deadLetterID newID eventID clock clock' now link =>
    rcases s.record_cases
        (requeueDeadLetter now clock' newID.val eventID tenantID deadLetterID clock) link .connection
        (fun _ => [.requeued newID.val deadLetterID]) with ⟨-, hstore, -⟩ | ⟨j, hok, -⟩
    · exact absurd hsome (hsame hstore)
    · obtain ⟨dl, -, hq⟩ := requeueDeadLetter_spec hok
      exact Or.inr ⟨dl, (Table.find?_eq_some_iff.1 hq.letter).1, now, clock', newID.val, tenantID, clock,
        eq_of_insert hq.jobs hnone hsome⟩

/-- A row that an API step inserts comes from a valid request, or has no hash. -/
theorem apiStep_new_row {cfg : ServiceConfig} {s s' : Cluster} {a : ApiAct}
    (hx : apiStep cfg s a = some s') {k : UUID} {r : JobRow} (hnone : s.store.jobs.find? k = none)
    (hsome : s'.store.jobs.find? k = some r) :
    r.requestHash = none ∨ ∃ principal req jobID clock now call j,
      cfg.prepare principal req jobID clock = .ok (call, j) ∧ r = createRow now j ∧
        (FieldValue.time j.runAt).Marshals := by
  rcases apiStep_inserts hx hnone hsome with hnew | ⟨dl, -, now, clock, newID, tenantID, runAt, rfl⟩
  · exact Or.inr hnew
  · exact Or.inl rfl

/-- Only API steps insert rows. -/
theorem emits_of_new {cfg : Config} {s : Cluster} {x : Act} {e : Entry} {r : JobRow}
    (hn : NewRow e r) (he : Emits cfg s x e) : ∃ a, x = .api a := by
  cases hn with
  | created now hj =>
    cases he with
    | created a => exact ⟨a, rfl⟩
  | requeued now clock newID tenantID dl runAt =>
    cases he with
    | requeued a => exact ⟨a, rfl⟩

/-- The instants that `json.Marshal` writes. -/
theorem writable_iff_marshals {t : Time} : Writable t ↔ (FieldValue.time t).Marshals :=
  Calendar.year_mem_iff t

/-- Every step keeps the rows' hashes true. -/
theorem Hashed.step {cfg : Config} {s s' : Cluster} {x : Act} (hr : (cluster cfg).Reachable s)
    (hs : Hashed cfg.service s.store) (hx : step cfg s x = some s') : Hashed cfg.service s'.store := by
  intro k r requestHash hk hhash
  obtain ⟨es, hem⟩ := reachable_emission hr hx
  rcases hem.path.job_cases hem.nodup k with hsame | ⟨h₁, s₁, s₂, e, he, -, hc, h₀, h₂⟩
  · exact hs k r requestHash (hsame.symm.trans hk) hhash
  · rcases hc.row_origin (h₂.symm.trans hk) with ⟨r₀, hr₀, hid⟩ | ⟨hnone, hnew⟩
    · -- an old row keeps its settings and its hash
      obtain ⟨req, hvalid, hreq, hwritable, hsettings⟩ := hs k r₀ requestHash (h₀.symm.trans hr₀)
        ((congrArg JobIdentity.requestHash hid).symm.trans hhash)
      exact ⟨req, hvalid, hreq, hwritable,
        fun field => (field.ofJob_of_identity hid).trans (hsettings field)⟩
    · obtain ⟨a, rfl⟩ := emits_of_new hnew (hem.emits e he)
      have happ : apiStep cfg.service s a = some s' := hx
      rcases apiStep_new_row happ (h₀.symm.trans hnone) hk with
        hplain | ⟨principal, req, jobID, clock, now, call, j, hp, rfl, hmarshals⟩
      · rw [hplain] at hhash
        cases hhash
      · obtain ⟨hvalid, rfl, -⟩ := ServiceConfig.prepare_eq_ok hp
        exact ⟨cfg.service.normalize req, hvalid, (Option.some.inj hhash).symm,
          writable_iff_marshals.2 hmarshals,
          fun field => field.ofJob_createRow cfg.service principal _ jobID clock now⟩

theorem reachable_hashed {cfg : Config} {s : Cluster} (hr : (cluster cfg).Reachable s) :
    Hashed cfg.service s.store := by
  obtain ⟨xs, hxs⟩ := hr
  have hinit : Hashed cfg.service (cluster cfg).init.store := by
    intro k r requestHash hk
    simp [cluster, Cluster.initial, Store.empty] at hk
  exact System.Reachable.stable (fun _ _ _ hr hs hx => Hashed.step hr hs hx) ⟨[], rfl⟩ hinit hxs

/-! ### Stated and omitted settings -/

/-- Requests that agree have the same settings. -/
theorem RawRequest.Agrees.get_eq {req req' : CreateRequest} (h : req.raw.Agrees req'.raw)
    (field : Setting) : field.get req = field.get req' := by
  cases field with
  | priority => exact h.priority
  | maxRetries => exact h.maxRetries
  | retryBackoffSeconds => exact h.retryBackoffSeconds
  | timeoutSeconds => exact h.timeoutSeconds

/-- What the body states is in the job unchanged, and the defaults are there exactly for the rest. -/
structure Honours (cfg : ServiceConfig) (members : List (String × BodyValue)) (j : Job) : Prop where
  stated : ∀ field v, States members field v → field.ofJob j = v
  omitted : ∀ field, Omits members field → field.ofJob j = field.default cfg
  nothingElse : ∀ field, (∃ v, States members field v) ∨ Omits members field

/-- A job with the settings of the request the body was decoded to honours the body if and only if no
setting with another default is stated to be zero. -/
theorem honours_iff {unmarshalTime : RawMessage → Option Time} {cfg : ServiceConfig}
    {members : List (String × BodyValue)} {req : CreateRequest} {j : Job}
    (hdecoded : decodeMembers unmarshalTime zeroRequest members = some req)
    (hj : ∀ field : Setting,
      field.ofJob j = if field.get req = 0 then field.default cfg else field.get req) :
    Honours cfg members j ↔ ∀ field, States members field 0 → field.default cfg = 0 := by
  constructor
  · intro h field hzero
    have hget := decodeMembers_of_states hdecoded hzero
    have hjob := hj field
    rw [h.stated field 0 hzero, if_pos hget] at hjob
    exact hjob.symm
  · intro hdefault
    refine ⟨fun field v hstates => ?_, fun field homits => ?_, states_or_omits hdecoded⟩
    · have hget := decodeMembers_of_states hdecoded hstates
      rw [hj, hget]
      split
      · rename_i hv
        rw [hv] at hstates ⊢
        exact hdefault field hstates
      · rfl
    · have hget : field.get req = 0 := by
        rw [decodeMembers_of_omits hdecoded homits]
        cases field <;> rfl
      rw [hj, if_pos hget]

/-- For every body that is accepted, in every reachable state and with every set of defaults: the row
the response names honours the body if and only if the body states no zero for a setting whose default
is another value.  This is so for a row the call inserted, and for one it found under its key if the
service uses the functions of the standard library. -/
theorem explicit_settings_stored (unmarshalTime : RawMessage → Option Time) (cfg : Config)
    {s : Cluster} (hr : (cluster cfg).Reachable s) (principal : Principal) (env : Surroundings)
    (body : CreateBody) (idempotencyKey : String) {status : ℕ} {resp : CreateResponse} {s' : Store}
    (haccepted : Handler.create unmarshalTime cfg.service principal env body idempotencyKey s.store
      = (.accepted status resp, s')) :
    ∃ members r, body = .object members ∧ s'.jobs.find? resp.jobID = some r ∧
      (s.store.jobs.find? resp.jobID = none ∨ cfg.service.Standard →
        (Honours cfg.service members r.toJob ↔
          ∀ field, States members field 0 → field.default cfg.service = 0)) := by
  obtain ⟨req, hdecoded, hcreate⟩ := Handler.create_accepted haccepted
  obtain ⟨call, j, hprep, hcases⟩ := createJob_cases hcreate
  obtain ⟨hvalid, hj, hcall⟩ := ServiceConfig.prepare_eq_ok hprep
  have hsettings : ∀ field : Setting,
      field.get (cfg.service.normalize { req with idempotencyKey := idempotencyKey })
        = if field.get req = 0 then field.default cfg.service else field.get req := by
    intro field
    rw [Setting.get_normalize]
    cases field <;> rfl
  cases body with
  | malformed => cases hdecoded
  | other => cases hdecoded
  | null =>
    obtain rfl := Option.some.inj hdecoded
    have hname : trimSpace "" = "" := by decide
    simp [ServiceConfig.validateCreate, ServiceConfig.normalize, ServiceConfig.withDefaults, zeroRequest,
      hname] at hvalid
  | object members =>
    rcases hcases with ⟨hcreates, hid⟩ | ⟨rfl, r, hrow, hid, hhash⟩
    · refine ⟨members, createRow env.now j, rfl, ?_, fun _ => honours_iff hdecoded fun field => ?_⟩
      · rw [hid]
        exact Table.find?_insert_self hcreates.jobs
      · rw [hj, Setting.ofJob_createRow]
        exact hsettings field
    · have hfound : s.store.jobs.find? resp.jobID = some r := hid ▸ Table.find?_key hrow
      refine ⟨members, r, rfl, hfound, fun hfresh => honours_iff hdecoded fun field => ?_⟩
      rcases hfresh with hnone | hstandard
      · rw [hfound] at hnone
        cases hnone
      · -- the row was stored for a request with the same hash, hence with the same settings
        obtain ⟨req₀, hvalid₀, hhash₀, hwritable₀, hrow₀⟩ := reachable_hashed hr _ r _ hfound hhash
        rw [hrow₀ field, ← hsettings field]
        refine (hstandard.agrees hvalid₀ hvalid hwritable₀ ?_).get_eq field
        rw [← hhash₀, hcall]

namespace Demo

/-- The required members, and others. -/
def webhookMembers (others : List (String × BodyValue)) : List (String × BodyValue) :=
  [("name", .string "report" "\"report\""), ("job_type", .string "CALL_WEBHOOK" "\"CALL_WEBHOOK\""),
    ("payload", .composite "\x7b\x7d"), ("run_at", .string "1970-01-01T00:00:00Z"
      "\"1970-01-01T00:00:00Z\"")] ++ others

/-- A parser that knows the one instant in use here. -/
def epochTime (raw : RawMessage) : Option Time :=
  if raw = "\"1970-01-01T00:00:00Z\"" then some 0 else none

def calling : Surroundings := ⟨10, 10, 10, drawn 1, 1, fun _ => 0, .up, .up⟩

/-- The reply to a body, in an empty database, and the stored settings. -/
def storedSettings (others : List (String × BodyValue)) : CreateReply × Option (List Int) :=
  let out := Handler.create epochTime demo.service ⟨7, "client"⟩ calling
    (.object (webhookMembers others)) "" Store.empty
  (out.1, (out.2.jobs.find? 1).map fun r =>
    [r.priority, r.maxRetries, r.retryBackoffSeconds, r.timeoutSeconds])

/-- Two settings are stated, one of them in capital letters. -/
def twoStated : List (String × BodyValue) := [("priority", .number "7"), ("MAX_RETRIES", .number "2")]

end Demo

open Demo in
theorem explicit_settings_stored_two : ∃ r s',
    Handler.create epochTime demo.service ⟨7, "client"⟩ calling (.object (webhookMembers twoStated)) ""
        (cluster demo).init.store = (.accepted 201 ⟨1, .pending, false⟩, s') ∧
      s'.jobs.find? 1 = some r ∧
      r.priority = 7 ∧ r.maxRetries = 2 ∧ r.retryBackoffSeconds = 30 ∧ r.timeoutSeconds = 300 := by
  have hrun : Handler.create epochTime demo.service ⟨7, "client"⟩ calling
      (.object (webhookMembers twoStated)) "" (cluster demo).init.store
        = (.accepted 201 ⟨1, .pending, false⟩, _) := Prod.ext (by decide +kernel) rfl
  obtain ⟨members, r, hbody, hfound, hexact⟩ := explicit_settings_stored epochTime demo ⟨[], rfl⟩
    ⟨7, "client"⟩ calling _ "" hrun
  obtain rfl := CreateBody.object.inj hbody
  have hpriority : States (webhookMembers twoStated) .priority 7 :=
    ⟨webhookMembers [], "priority", "7", _, rfl, by decide, by decide, by decide⟩
  have hretries : States (webhookMembers twoStated) .maxRetries 2 :=
    ⟨webhookMembers [("priority", .number "7")], "MAX_RETRIES", "2", _, rfl, by decide, by decide,
      by decide⟩
  have hbackoff : Omits (webhookMembers twoStated) .retryBackoffSeconds := by decide
  have htimeout : Omits (webhookMembers twoStated) .timeoutSeconds := by decide
  have hdecoded : (decodeMembers epochTime zeroRequest (webhookMembers twoStated)).isSome = true := by
    decide
  obtain ⟨req, hreq⟩ := Option.isSome_iff_exists.1 hdecoded
  have hnozero : ∀ field, States (webhookMembers twoStated) field 0 → field.default demo.service = 0 := by
    intro field hzero
    have hget := decodeMembers_of_states hreq hzero
    cases field with
    | priority => exact absurd ((decodeMembers_of_states hreq hpriority).symm.trans hget) (by decide)
    | maxRetries => exact absurd ((decodeMembers_of_states hreq hretries).symm.trans hget) (by decide)
    | retryBackoffSeconds => exact absurd hzero (hbackoff.not_states 0)
    | timeoutSeconds => exact absurd hzero (htimeout.not_states 0)
  have hhonours := (hexact (Or.inl rfl)).2 hnozero
  exact ⟨r, _, hrun, hfound, hhonours.stated _ _ hpriority, hhonours.stated _ _ hretries,
    hhonours.omitted _ hbackoff, hhonours.omitted _ htimeout⟩

open Demo in
/-- `"max_retries": 0` is accepted, within the documented range, and the job gets three retries. -/
theorem explicit_zero_replaced :
    States (webhookMembers [("max_retries", .number "0")]) .maxRetries 0 ∧
      storedSettings [("max_retries", .number "0")]
        = (.accepted 201 ⟨1, .pending, false⟩, some [5, 3, 30, 300]) :=
  ⟨⟨webhookMembers [], "max_retries", "0", [], rfl, by decide, by decide, by decide⟩, by decide +kernel⟩

end JobScheduler
