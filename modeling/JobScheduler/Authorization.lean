import JobScheduler.HttpApi

/-!
# What a key allows

Roles, tenants and revocation, seen from outside: from the request as it arrives to the reply and the
store it leaves.

* `serve_store_cases` — a request that changes the store was authenticated, routed to a handler behind
  `auth.Require`, and has the role it asks for.
* `serve_runs` — what a request does to the store is a run of the deployment, so every property of
  reachable deployments holds after any sequence of requests.
* `writes_authorized` — who can change what.
* `replies_scoped` — what a reply can depend on.
* `revoked_key_refused` — after a revocation, whatever else is done to the clients.
-/

namespace JobScheduler

open KeyedTable Transaction TransitionSystem

variable {cfg : ServerConfig} {env : Circumstances} {requestID : String} {req : Incoming}
  {p : ClientPrincipal}

/-! ### Handlers and operations -/

/-- The operations that only read. -/
def Request.reads : Request → Bool
  | .list _ => true
  | .get _ => true
  | .attempts _ => true
  | .events _ => true
  | .listDeadLetters _ _ => true
  | _ => false

theorem perform_of_reads (service : ServiceConfig) (principal : Principal) (call : Surroundings)
    (s : Store) {request : Request} (h : request.reads = true) :
    (perform service principal call s request).2 = s := by
  have hread : ∀ {α : Type} {tx : RepoTx α}, tx.ReadOnly →
      (tx.commit call.link .connection s).state = s := fun htx => htx.state_commit _ _ _
  cases request with
  | list filter =>
    simp only [perform, listJobs, answer]
    cases filter.validate with
    | error e => rfl
    | ok query => exact hread (.bind (.read _) fun _ => .bind (pageOf_readOnly ..) fun _ => .pure _)
  | get id => exact hread (getByID_readOnly ..)
  | attempts id => exact hread (.bind (.read _) fun _ => .pure _)
  | events id => exact hread (.bind (.read _) fun _ => .pure _)
  | listDeadLetters page pageSize => exact hread (.bind (.read _) fun _ => pageOf_readOnly ..)
  | create req => cases h
  | operate op id => cases h
  | requeueDeadLetter id => cases h
  | replay id => cases h

theorem conclude_store (status : ℕ) (data : Response → ReplyData)
    (out : Except ApiError Response × Store) : (conclude requestID status data out).2 = out.2 := by
  obtain ⟨r | r, s⟩ := out
  · cases r <;> rfl
  · rfl

/-- The handler of `create` is the operation, with its body decoded and its reply written. -/
theorem Handler.create_store (unmarshalTime : RawMessage → Option Time) (service : ServiceConfig)
    (principal : Principal) (call : Surroundings) (body : CreateBody) (idempotencyKey : String)
    (s : Store) :
    (Handler.create unmarshalTime service principal call body idempotencyKey s).2 = s ∨
      ∃ request, (Handler.create unmarshalTime service principal call body idempotencyKey s).2
        = (perform service principal call s (.create request)).2 := by
  unfold Handler.create
  cases decodeBody unmarshalTime body with
  | none => exact .inl rfl
  | some decoded =>
    refine .inr ⟨{ decoded with idempotencyKey := idempotencyKey }, ?_⟩
    simp only [perform, answer]
    cases createJob service principal call { decoded with idempotencyKey := idempotencyKey } s with
    | mk result s' => cases result <;> rfl

/-- **What a handler does to the store**: nothing, or one operation of its caller; and a handler that
asks for no role, only reads. -/
theorem handle_store (cfg : ServerConfig) (env : Circumstances) (requestID : String)
    (req : Incoming) (p : ClientPrincipal) (s : Store) (e : Endpoint) :
    (handle cfg env requestID req p s e).2 = s ∨
      e.required ≠ none ∧ ∃ request, (handle cfg env requestID req p s e).2
        = (perform cfg.service p.caller env.call s request).2 := by
  have hreads : ∀ {request : Request} (data : Response → ReplyData), request.reads = true →
      (conclude requestID 200 data (perform cfg.service p.caller env.call s request)).2 = s :=
    fun data h => (conclude_store 200 data _).trans (perform_of_reads _ _ _ _ h)
  cases e with
  | create =>
    rcases Handler.create_store cfg.unmarshalTime cfg.service p.caller env.call req.body
      (req.header "Idempotency-Key") s with hsame | ⟨request, hrun⟩
    · exact .inl hsame
    · exact .inr ⟨by simp [Endpoint.required], _, hrun⟩
  | list =>
    refine .inl ?_
    simp only [handle]
    split
    · rfl
    · exact hreads .response rfl
  | get jobID =>
    refine .inl ?_
    simp only [handle, withUUID]
    split
    · rfl
    · exact hreads .response rfl
  | attempts jobID =>
    refine .inl ?_
    simp only [handle, withUUID]
    split
    · rfl
    · exact hreads .response rfl
  | events jobID =>
    refine .inl ?_
    simp only [handle, withUUID]
    split
    · rfl
    · exact hreads .response rfl
  | transition op jobID =>
    simp only [handle, withUUID]
    split
    · exact .inl rfl
    · exact .inr ⟨by simp [Endpoint.required], _, conclude_store 200 _ _⟩
  | deadLetters =>
    refine .inl ?_
    simp only [handle]
    split
    · rfl
    · exact hreads .response rfl
  | requeueDeadLetter deadLetterID =>
    simp only [handle, withUUID]
    split
    · exact .inl rfl
    · exact .inr ⟨by simp [Endpoint.required], _, conclude_store 201 _ _⟩
  | workers =>
    refine .inl ?_
    simp only [handle]
    split <;> rfl
  | whoami => exact .inl rfl
  | summary => exact .inl rfl
  | replay eventID =>
    simp only [handle]
    split
    · exact .inl rfl
    · split
      · exact .inl rfl
      · exact .inr ⟨by simp [Endpoint.required], _, conclude_store 200 _ _⟩

/-! ### The way to a handler -/

/-- The request was let through to the handler `e`, which asks for `role`, as the principal `p`. -/
structure Admits (cfg : ServerConfig) (env : Circumstances) (auth : AuthStore) (req : Incoming)
    (p : ClientPrincipal) (e : Endpoint) (role : Role) : Prop where
  identified : ∃ auth', identify cfg env req auth = .ok (p, auth')
  routed : ∃ rest, req.path = "api" :: "v1" :: rest ∧ routeAPI req.method rest = .endpoint e
  required : e.required = some role
  allowed : p.allows role = true

theorem requireRole_store_cases (cfg : ServerConfig) (env : Circumstances) (requestID : String)
    (req : Incoming) (p : ClientPrincipal) (s : Store) (e : Endpoint) :
    (requireRole cfg env requestID req p s e).2 = s ∨
      ∃ role, e.required = some role ∧ p.allows role = true ∧
        (requireRole cfg env requestID req p s e).2 = (handle cfg env requestID req p s e).2 := by
  unfold requireRole
  cases hrole : e.required with
  | none =>
    rcases handle_store cfg env requestID req p s e with hsame | ⟨hne, -⟩
    · exact .inl hsame
    · exact absurd hrole hne
  | some role =>
    by_cases hallowed : p.allows role = true
    · exact .inr ⟨role, rfl, hallowed, by simp [hallowed]⟩
    · exact .inl (by simp [hallowed])

theorem limitRate_store_cases (cfg : ServerConfig) (env : Circumstances) (requestID : String)
    (next : Reply × Store) (s : Store) :
    (limitRate cfg env requestID next s).2 = s ∨ limitRate cfg env requestID next s = next := by
  unfold limitRate
  split
  · split
    · exact .inl rfl
    · exact .inl rfl
    · exact .inl rfl
    · exact .inr rfl
  · exact .inr rfl

/-- Only what is under `/api/v1` touches the database. -/
theorem serve_state_cases (cfg : ServerConfig) (env : Circumstances) (s : ServerState)
    (req : Incoming) :
    (serve cfg env s req).2 = s ∨
      ∃ rest, req.path = "api" :: "v1" :: rest ∧
        (serve cfg env s req).2 = (serveAPI cfg env (req.requestID env) req s rest).2 := by
  unfold serve route
  by_cases hoptions : req.method = .options
  · exact .inl (by simp [hoptions])
  · by_cases hunknown : req.method = .unknown
    · exact .inl (by simp [hunknown])
    · simp only [hoptions, hunknown, if_false]
      split
      · exact .inl rfl
      · exact .inl rfl
      · exact .inl rfl
      · rename_i rest hpath
        exact .inr ⟨rest, hpath, rfl⟩
      · exact .inl rfl

/-- **Only admitted requests change the store**, and they do what their handler does. -/
theorem serve_store_cases (cfg : ServerConfig) (env : Circumstances) (s : ServerState)
    (req : Incoming) :
    (serve cfg env s req).2.store = s.store ∨
      ∃ p e role, Admits cfg env s.auth req p e role ∧
        (serve cfg env s req).2.store = (handle cfg env (req.requestID env) req p s.store e).2 := by
  rcases serve_state_cases cfg env s req with hsame | ⟨rest, hpath, hrun⟩
  · exact .inl (congrArg ServerState.store hsame)
  · rw [hrun]
    unfold serveAPI
    cases hid : identify cfg env req s.auth with
    | error message => exact .inl rfl
    | ok found =>
      obtain ⟨p, auth⟩ := found
      rcases limitRate_store_cases cfg env (req.requestID env)
        (dispatch cfg env (req.requestID env) req p s.store rest) s.store with hsame | hnext
      · exact .inl hsame
      · simp only [hnext]
        unfold dispatch
        cases hroute : routeAPI req.method rest with
        | notFound => exact .inl rfl
        | methodNotAllowed => exact .inl rfl
        | endpoint e =>
          rcases requireRole_store_cases cfg env (req.requestID env) req p s.store e with
            hsame | ⟨role, hrole, hallowed, hhandled⟩
          · exact .inl hsame
          · exact .inr ⟨p, e, role, ⟨⟨auth, hid⟩, ⟨rest, hpath, hroute⟩, hrole, hallowed⟩, hhandled⟩

/-- **Requests are runs.**  What serving a request leaves of the store, the deployment reaches. -/
theorem serve_runs (cfg : DeploymentConfig) (server : ServerConfig)
    (hservice : server.service = cfg.scheduler.service) (d : Deployment) (env : Circumstances)
    (auth : AuthStore) (req : Incoming) :
    ∃ xs d', (deployment cfg).execFrom d xs = some d' ∧
      d'.store = (serve server env ⟨auth, d.store⟩ req).2.store := by
  rcases serve_store_cases server env ⟨auth, d.store⟩ req with hsame | ⟨p, e, role, -, hrun⟩
  · exact ⟨[], d, rfl, hsame.symm⟩
  · rcases handle_store server env (req.requestID env) req p d.store e with
      hsame | ⟨-, request, hperform⟩
    · exact ⟨[], d, rfl, (hrun.trans hsame).symm⟩
    · obtain ⟨xs, d', hxs, hstore⟩ := perform_runs cfg d p.caller env.call request
      exact ⟨xs, d', hxs, by rw [hstore, hrun, hperform, hservice]⟩

/-! ### Who can change what -/

/-- The two ways to a principal. -/
theorem identify_eq_ok {auth auth' : AuthStore} (h : identify cfg env req auth = .ok (p, auth')) :
    cfg.authEnabled = false ∧ p = systemPrincipal ∧ auth' = auth ∨
      cfg.authEnabled = true ∧ authenticate cfg.hashKey (trimSpace (req.header "X-API-Key"))
        env.call.now env.touched auth = .ok (p, auth') := by
  unfold identify at h
  by_cases henabled : cfg.authEnabled = false
  · rw [if_pos henabled] at h
    cases h
    exact .inl ⟨henabled, rfl, rfl⟩
  · rw [if_neg henabled] at h
    dsimp only at h
    split at h
    · cases h
    · split at h
      · cases h
      · split at h
        · cases h
        · rename_i found hauth
          obtain rfl := Except.ok.inj h
          exact .inr ⟨Bool.eq_true_of_not_eq_false henabled, hauth⟩

/-- The principal of an authenticated request is a live client with its key. -/
theorem client_of_identify {auth auth' : AuthStore} (henabled : cfg.authEnabled = true)
    (h : identify cfg env req auth = .ok (p, auth')) :
    ∃ c ∈ auth.clients.rows, c.keyHash = cfg.hashKey (trimSpace (req.header "X-API-Key")) ∧
      c.enabled = true ∧ c.revokedAt = none ∧ p.clientID = c.id ∧ p.tenantID = c.tenantID ∧
      p.role = c.role := by
  rcases identify_eq_ok h with ⟨hdisabled, -⟩ | ⟨-, hauth⟩
  · rw [henabled] at hdisabled
    cases hdisabled
  · obtain ⟨c, hc, hhash, hrest⟩ := row_of_authenticate hauth
    rw [trimSpace_trimSpace] at hhash
    exact ⟨c, hc, hhash, hrest⟩

/-- **Writes are authorized.**  With authentication on, a request that changes anything in the store
carries the key of a client that is enabled and not revoked, whose role is the one the route asks for
or a higher one, at least operator; and it changes rows of that client's tenant only. -/
theorem writes_authorized {dcfg : DeploymentConfig} {d : Deployment}
    (hd : (deployment dcfg).Reachable d) (server : ServerConfig) (henabled : server.authEnabled = true)
    (env : Circumstances) (hfresh : env.call.Fresh d.store) (auth : AuthStore) (req : Incoming)
    (hchanged : (serve server env ⟨auth, d.store⟩ req).2.store ≠ d.store) :
    ∃ c ∈ auth.clients.rows, c.keyHash = server.hashKey (trimSpace (req.header "X-API-Key")) ∧
      c.enabled = true ∧ c.revokedAt = none ∧ c.role ≠ .viewer ∧
      (∃ e rest role, req.path = "api" :: "v1" :: rest ∧ routeAPI req.method rest = .endpoint e ∧
        e.required = some role ∧ role.rank ≤ c.role.rank) ∧
      d.store.SameFor (· ≠ c.tenantID) (serve server env ⟨auth, d.store⟩ req).2.store := by
  rcases serve_store_cases server env ⟨auth, d.store⟩ req with hsame | ⟨p, e, role, hadm, hrun⟩
  · exact absurd hsame hchanged
  · obtain ⟨⟨auth', hid⟩, ⟨rest, hpath, hroute⟩, hrole, hallowed⟩ := hadm
    obtain ⟨c, hc, hhash, hlive, hkept, -, htenant, hcrole⟩ := client_of_identify henabled hid
    have hrank : role.rank ≤ c.role.rank := by
      rw [← hcrole]
      exact of_decide_eq_true hallowed
    have hviewer : c.role ≠ .viewer := by
      intro hv
      rw [hv] at hrank
      cases e <;> simp only [Endpoint.required, Option.some.injEq, reduceCtorEq] at hrole <;>
        subst hrole <;> exact absurd hrank (by decide)
    refine ⟨c, hc, hhash, hlive, hkept, hviewer, ⟨e, rest, role, hpath, hroute, hrole, hrank⟩, ?_⟩
    rcases handle_store server env (req.requestID env) req p d.store e with
      hsame | ⟨-, request, hperform⟩
    · rw [hrun, hsame]
      exact .refl _ _
    · have halike : Alike p.caller.tenantID d.store d.store
          (perform server.service p.caller env.call d.store request)
          (perform server.service p.caller env.call d.store request) :=
        perform_alike hd hd hfresh hfresh (.refl _ _) request
      rw [hrun, hperform, ← htenant]
      exact halike.apart.left

namespace Demo

/-- A server that asks for keys, with simple parsers. -/
def guarded : ServerConfig where
  service := demo.service
  authEnabled := true
  hashKey := plainHash
  limited := false
  outbox := true
  allowedOrigins := []
  unmarshalTime := fun _ => none
  parseTime := fun _ => none
  parseUUID := fun text => if text = "1" then some 1 else none

/-- Everything gets through, at the twentieth second. -/
def untroubled : Circumstances :=
  ⟨cancelling, "request", true, true, none, some [], true, [], true, true, true⟩

/-- A client of tenant `7` that may operate, and one of tenant `8` that may look. -/
def operatorClient : NewClient := ⟨7, "first", "operator", "djs_operator"⟩

def viewerClient : NewClient := ⟨8, "second", "viewer", "djs_viewer"⟩

/-- Both are created. -/
def bothClients : List AuthAct :=
  [.create operatorClient (quietly (drawn 1)), .create viewerClient (quietly (drawn 2))]

/-- A request with a key and nothing else. -/
def withKey (apiKey : String) (method : Method) (rest : List String) : Incoming where
  method := method
  path := "api" :: "v1" :: rest
  query := fun _ => ""
  header := fun name => if name = "X-API-Key" then apiKey else ""
  body := .malformed

/-- The request to cancel job `1`. -/
def cancelRequest (apiKey : String) : Incoming := withKey apiKey .post ["jobs", "1", "cancel"]

end Demo

open Demo in
/-- The operator of tenant `7` cancels its job; the job of tenant `8` stays. -/
theorem writes_authorized_cancelled :
    ∃ d auth, (deployment demoDeployment).exec (deployed [submit, submitElsewhere]) = some d ∧
      (authHistory twoTenants plainHash).exec bothClients = some auth ∧
      (serve guarded untroubled ⟨auth, d.store⟩ (cancelRequest " djs_operator ")).2.store ≠ d.store ∧
      ∃ c ∈ auth.clients.rows, c.tenantID = 7 ∧ c.role = .operator ∧
        d.store.SameFor (· ≠ c.tenantID)
          (serve guarded untroubled ⟨auth, d.store⟩ (cancelRequest " djs_operator ")).2.store := by
  obtain ⟨d, hd, hjob, hevent, hany⟩ :
      ∃ d, (deployment demoDeployment).exec (deployed [submit, submitElsewhere]) = some d ∧
        d.store.jobs.find? cancelling.jobID.val = none ∧
        d.store.events.find? cancelling.eventID = none ∧
        ((authHistory twoTenants plainHash).exec bothClients).any (fun auth => decide (
          auth.clients.rows.all (fun c => decide (c.keyHash = plainHash "djs_operator" →
            c.tenantID = 7 ∧ c.role = .operator)) = true ∧
          ((serve guarded untroubled ⟨auth, d.store⟩ (cancelRequest " djs_operator ")).2.store.jobs.find?
            1).map (·.status) ≠ (d.store.jobs.find? 1).map (·.status))) = true :=
    System.exists_of_exec (by decide +kernel)
  obtain ⟨auth, hauth, hdecided⟩ := (Option.any_eq_true _ _).1 hany
  obtain ⟨hrows, hstatus⟩ := of_decide_eq_true hdecided
  have hchanged : (serve guarded untroubled ⟨auth, d.store⟩
      (cancelRequest " djs_operator ")).2.store ≠ d.store := by
    intro hsame
    rw [hsame] at hstatus
    exact hstatus rfl
  obtain ⟨c, hc, hhash, -, -, -, -, hothers⟩ := writes_authorized ⟨_, hd⟩ guarded rfl untroubled
    ⟨hjob, hevent⟩ auth (cancelRequest " djs_operator ") hchanged
  have htrim : trimSpace " djs_operator " = "djs_operator" := by decide +kernel
  have hkey : c.keyHash = plainHash (trimSpace " djs_operator ") := hhash
  rw [htrim] at hkey
  obtain ⟨htenant, hrole⟩ := of_decide_eq_true (List.all_eq_true.1 hrows c hc) hkey
  exact ⟨d, auth, hd, hauth, hchanged, c, hc, htenant, hrole, hothers⟩

/-! ### What a reply depends on -/

section Scoped

variable {A : UUID} {s₀ t₀ s t : Store}

theorem Alike.conclude {out out' : Except ApiError Response × Store} (h : Alike A s₀ t₀ out out')
    (requestID : String) (status : ℕ) (data : Response → ReplyData) :
    Alike A s₀ t₀ (conclude requestID status data out) (conclude requestID status data out') := by
  obtain ⟨r, s⟩ := out
  obtain ⟨r', t⟩ := out'
  obtain ⟨rfl, hapart⟩ := h
  cases r with
  | error e => cases e <;> exact ⟨rfl, hapart⟩
  | ok response => exact ⟨rfl, hapart⟩

theorem Alike.withUUID {param value : String} {next next' : UUID → Reply × Store}
    (h : Apart A s₀ t₀ s t) (hnext : ∀ id, Alike A s₀ t₀ (next id) (next' id)) :
    Alike A s₀ t₀ (withUUID cfg requestID param value s next)
      (withUUID cfg requestID param value t next') := by
  unfold JobScheduler.withUUID
  cases cfg.parseUUID value with
  | none => exact ⟨rfl, h⟩
  | some id => exact hnext id

theorem Handler.create_alike {unmarshalTime : RawMessage → Option Time} {service : ServiceConfig}
    {principal : Principal} {call : Surroundings} {body : CreateBody} {idempotencyKey : String}
    (h : Apart principal.tenantID s₀ t₀ s t) (hs : call.Fresh s) (ht : call.Fresh t)
    (hus : s.KeysUnique) (hut : t.KeysUnique) :
    Alike principal.tenantID s₀ t₀
      (Handler.create unmarshalTime service principal call body idempotencyKey s)
      (Handler.create unmarshalTime service principal call body idempotencyKey t) := by
  unfold Handler.create
  cases decodeBody unmarshalTime body with
  | none => exact ⟨rfl, h⟩
  | some decoded =>
    dsimp only
    generalize { decoded with idempotencyKey := idempotencyKey } = request
    have hcreate : Alike principal.tenantID s₀ t₀ (createJob service principal call request s)
        (createJob service principal call request t) := createJob_alike h hs ht hus hut
    revert hcreate
    rcases createJob service principal call request s with ⟨r, s'⟩
    rcases createJob service principal call request t with ⟨r', t'⟩
    rintro ⟨rfl, hapart⟩
    cases r <;> exact ⟨rfl, hapart⟩

/-- The summary counts rows of the tenant only. -/
theorem summarize_eq (h : s.SameFor (· = p.tenantID) t) :
    summarize cfg env requestID p s = summarize cfg env requestID p t := by
  have hcounts : statusCounts p.tenantID s = statusCounts p.tenantID t := by
    unfold statusCounts
    congr 1
    refine List.map_congr_left fun status _ => ?_
    rw [h.jobs.count_eq (fun _ _ hr => hr.1) fun _ _ hr => hr.1]
  have hfailures : failuresLast24Hour p.tenantID env.call.now s
      = failuresLast24Hour p.tenantID env.call.now t :=
    h.attempts.count_eq (fun _ _ ha => ha.1) fun _ _ ha => ha.1
  have hbacklog : backlog (some p.tenantID) s = backlog (some p.tenantID) t :=
    h.events.count_eq (fun _ _ he => he.1 _ rfl) fun _ _ he => he.1 _ rfl
  unfold summarize
  rw [hcounts, hfailures, hbacklog]

end Scoped

section

variable {dcfg dcfg' : DeploymentConfig} {d d' : Deployment}

/-- Every handler ends alike in reachable stores that agree on its caller's tenant. -/
theorem handle_alike (hd : (deployment dcfg).Reachable d) (hd' : (deployment dcfg').Reachable d')
    (hfresh : env.call.Fresh d.store) (hfresh' : env.call.Fresh d'.store)
    (hagree : d.store.SameFor (· = p.tenantID) d'.store) (e : Endpoint) :
    Alike p.tenantID d.store d'.store (handle cfg env requestID req p d.store e)
      (handle cfg env requestID req p d'.store e) := by
  have h : Apart p.tenantID d.store d'.store d.store d'.store := ⟨hagree, .refl _ _, .refl _ _⟩
  have hperform : ∀ request, Alike p.caller.tenantID d.store d'.store
      (perform cfg.service p.caller env.call d.store request)
      (perform cfg.service p.caller env.call d'.store request) :=
    perform_alike hd hd' hfresh hfresh' hagree
  cases e with
  | create =>
    obtain ⟨hreply, hapart⟩ : Alike p.caller.tenantID d.store d'.store
        (Handler.create cfg.unmarshalTime cfg.service p.caller env.call req.body
          (req.header "Idempotency-Key") d.store)
        (Handler.create cfg.unmarshalTime cfg.service p.caller env.call req.body
          (req.header "Idempotency-Key") d'.store) :=
      Handler.create_alike h hfresh hfresh' (reachable_keysUnique hd) (reachable_keysUnique hd')
    exact ⟨congrArg (writeReply requestID) hreply, hapart⟩
  | list =>
    simp only [handle]
    cases listFilter cfg req with
    | error message => exact ⟨rfl, h⟩
    | ok filter => exact (hperform _).conclude _ _ _
  | get jobID => exact .withUUID h fun id => (hperform _).conclude _ _ _
  | attempts jobID => exact .withUUID h fun id => (hperform _).conclude _ _ _
  | events jobID => exact .withUUID h fun id => (hperform _).conclude _ _ _
  | transition op jobID => exact .withUUID h fun id => (hperform _).conclude _ _ _
  | deadLetters =>
    simp only [handle]
    cases deadLetterPage req with
    | error message => exact ⟨rfl, h⟩
    | ok page => exact (hperform _).conclude _ _ _
  | requeueDeadLetter deadLetterID => exact .withUUID h fun id => (hperform _).conclude _ _ _
  | workers =>
    simp only [handle]
    cases env.workers <;> exact ⟨rfl, h⟩
  | whoami => exact ⟨rfl, h⟩
  | summary => exact ⟨summarize_eq hagree, h⟩
  | replay eventID =>
    simp only [handle]
    by_cases houtbox : cfg.outbox = false
    · simp only [houtbox, if_true]
      exact ⟨rfl, h⟩
    · simp only [houtbox]
      cases cfg.parseUUID eventID with
      | none => exact ⟨rfl, h⟩
      | some id => exact (hperform _).conclude _ _ _

theorem dispatch_alike (hd : (deployment dcfg).Reachable d) (hd' : (deployment dcfg').Reachable d')
    (hfresh : env.call.Fresh d.store) (hfresh' : env.call.Fresh d'.store)
    (hagree : d.store.SameFor (· = p.tenantID) d'.store) (rest : List String) :
    Alike p.tenantID d.store d'.store (dispatch cfg env requestID req p d.store rest)
      (dispatch cfg env requestID req p d'.store rest) := by
  have h : Apart p.tenantID d.store d'.store d.store d'.store := ⟨hagree, .refl _ _, .refl _ _⟩
  unfold dispatch
  cases routeAPI req.method rest with
  | notFound => exact ⟨rfl, h⟩
  | methodNotAllowed => exact ⟨rfl, h⟩
  | endpoint e =>
    simp only [requireRole]
    cases e.required with
    | none => exact handle_alike hd hd' hfresh hfresh' hagree e
    | some role =>
      by_cases hallowed : p.allows role = true
      · simp only [hallowed, if_true]
        exact handle_alike hd hd' hfresh hfresh' hagree e
      · simp only [hallowed]
        exact ⟨rfl, h⟩

theorem limitRate_alike {A : UUID} {s t : Store} {next next' : Reply × Store}
    (h : Apart A s t s t) (hnext : Alike A s t next next') :
    Alike A s t (limitRate cfg env requestID next s) (limitRate cfg env requestID next' t) := by
  unfold limitRate
  cases cfg.limited with
  | false => exact hnext
  | true =>
    simp only [if_true]
    cases rateMiddleware true env.allow with
    | unauthorized => exact ⟨rfl, h⟩
    | unavailable => exact ⟨rfl, h⟩
    | limited retryAfter => exact ⟨rfl, h⟩
    | next => exact hnext

end

/-- Two runs of one request on two stores: the same reply, the same clients, and stores that agree on
every tenant they agreed on. -/
structure ServedAlike (s t : Store) (x y : Reply × ServerState) : Prop where
  reply : x.1 = y.1
  auth : x.2.auth = y.2.auth
  stores : ∀ A, s.SameFor (· = A) t → x.2.store.SameFor (· = A) y.2.store

theorem ServedAlike.refl (s t : Store) (reply : Reply) (auth : AuthStore) :
    ServedAlike s t (reply, ⟨auth, s⟩) (reply, ⟨auth, t⟩) :=
  ⟨rfl, rfl, fun _ h => h⟩

/-- Rows of another tenant are where they were. -/
theorem Apart.sameFor {A B : UUID} {s₀ t₀ s t : Store} (h : Apart A s₀ t₀ s t)
    (hB : s₀.SameFor (· = B) t₀) : s.SameFor (· = B) t := by
  by_cases hAB : B = A
  · rw [hAB]
    exact h.agree
  · have hother : ∀ {v : UUID}, v = B → v ≠ A := fun hv hA => hAB (hv.symm.trans hA)
    constructor
    · exact fun r hr => (h.left.jobs r (hother hr)).symm.trans
        ((hB.jobs r hr).trans (h.right.jobs r (hother hr)))
    · exact fun a ha => (h.left.attempts a (hother ha)).symm.trans
        ((hB.attempts a ha).trans (h.right.attempts a (hother ha)))
    · exact fun l hl => (h.left.deadLetters l (hother hl)).symm.trans
        ((hB.deadLetters l hl).trans (h.right.deadLetters l (hother hl)))
    · exact fun e he => (h.left.events e (hother he)).symm.trans
        ((hB.events e he).trans (h.right.events e (hother he)))

/-- **Replies are scoped.**  With authentication on, let two reachable stores agree on the rows of the
tenant of the client whose key the request carries, if there is one.  Then the request gets the same
reply, leaves the same clients, and leaves stores that agree on whatever tenant they agreed on: a
reply tells nothing about any other tenant, and a request without a valid key is told nothing at
all. -/
theorem replies_scoped {dcfg dcfg' : DeploymentConfig} {d d' : Deployment}
    (hd : (deployment dcfg).Reachable d) (hd' : (deployment dcfg').Reachable d')
    (server : ServerConfig) (henabled : server.authEnabled = true) (env : Circumstances)
    (hfresh : env.call.Fresh d.store) (hfresh' : env.call.Fresh d'.store) (auth : AuthStore)
    (req : Incoming)
    (hagree : ∀ c ∈ auth.clients.rows,
      c.keyHash = server.hashKey (trimSpace (req.header "X-API-Key")) → c.enabled = true →
        d.store.SameFor (· = c.tenantID) d'.store) :
    (serve server env ⟨auth, d.store⟩ req).1 = (serve server env ⟨auth, d'.store⟩ req).1 ∧
      (serve server env ⟨auth, d.store⟩ req).2.auth = (serve server env ⟨auth, d'.store⟩ req).2.auth ∧
      ∀ A, d.store.SameFor (· = A) d'.store →
        (serve server env ⟨auth, d.store⟩ req).2.store.SameFor (· = A)
          (serve server env ⟨auth, d'.store⟩ req).2.store := by
  have hrouted : ServedAlike d.store d'.store
      (route server env (req.requestID env) req ⟨auth, d.store⟩)
      (route server env (req.requestID env) req ⟨auth, d'.store⟩) := by
    unfold route
    by_cases hunknown : req.method = .unknown
    · simp only [hunknown, if_true]
      exact .refl _ _ _ _
    · simp only [hunknown, if_false]
      split
      · exact .refl _ _ _ _
      · exact .refl _ _ _ _
      · exact .refl _ _ _ _
      · rename_i rest hpath
        unfold serveAPI
        cases hid : identify server env req auth with
        | error message => exact .refl _ _ _ _
        | ok found =>
          obtain ⟨p, auth'⟩ := found
          obtain ⟨c, hc, hhash, hlive, -, -, htenant, -⟩ := client_of_identify henabled hid
          have hsame : d.store.SameFor (· = p.tenantID) d'.store := by
            rw [htenant]
            exact hagree c hc hhash hlive
          have h : Apart p.tenantID d.store d'.store d.store d'.store :=
            ⟨hsame, .refl _ _, .refl _ _⟩
          have hserved : Alike p.tenantID d.store d'.store
              (limitRate server env (req.requestID env)
                (dispatch server env (req.requestID env) req p d.store rest) d.store)
              (limitRate server env (req.requestID env)
                (dispatch server env (req.requestID env) req p d'.store rest) d'.store) :=
            limitRate_alike h (dispatch_alike hd hd' hfresh hfresh' hsame rest)
          exact ⟨hserved.result, rfl, fun A hA => hserved.apart.sameFor hA⟩
      · exact .refl _ _ _ _
  by_cases hoptions : req.method = .options
  · simp [serve, hoptions]
  · simp only [serve, hoptions, if_false]
    exact ⟨by rw [hrouted.reply], hrouted.auth, hrouted.stores⟩

open Demo in
/-- The viewer of tenant `8` looks at job `1`, where there is one of tenant `7` and where there is
none. -/
theorem replies_scoped_viewer :
    ∃ d d' auth, (deployment demoDeployment).exec (deployed [submit, submitElsewhere]) = some d ∧
      (deployment demoDeployment).exec (deployed [submitElsewhere]) = some d' ∧
      (authHistory twoTenants plainHash).exec bothClients = some auth ∧
      d.store.jobs.find? 1 ≠ none ∧ d'.store.jobs.find? 1 = none ∧
      (serve guarded untroubled ⟨auth, d.store⟩ (withKey "djs_viewer" .get ["jobs", "1"])).1
        = (serve guarded untroubled ⟨auth, d'.store⟩ (withKey "djs_viewer" .get ["jobs", "1"])).1 := by
  obtain ⟨d, hd, hjob, hevent, hone, hany⟩ :
      ∃ d, (deployment demoDeployment).exec (deployed [submit, submitElsewhere]) = some d ∧
        d.store.jobs.find? cancelling.jobID.val = none ∧
        d.store.events.find? cancelling.eventID = none ∧ (d.store.jobs.find? 1).isSome = true ∧
        ((deployment demoDeployment).exec (deployed [submitElsewhere])).any (fun d' => decide (
          d'.store.jobs.find? cancelling.jobID.val = none ∧
          d'.store.events.find? cancelling.eventID = none ∧ d'.store.jobs.find? 1 = none ∧
          d.store.SameFor (· = 8) d'.store)) = true :=
    System.exists_of_exec (by decide +kernel)
  obtain ⟨d', hd', hdecided⟩ := (Option.any_eq_true _ _).1 hany
  obtain ⟨hjob', hevent', hnone, hsame⟩ := of_decide_eq_true hdecided
  obtain ⟨auth, hauth, hrows⟩ : ∃ auth, (authHistory twoTenants plainHash).exec bothClients = some auth ∧
      auth.clients.rows.all (fun c => decide (c.keyHash = plainHash (trimSpace "djs_viewer") →
        c.tenantID = 8)) = true :=
    System.exists_of_exec (by decide +kernel)
  have hscoped := replies_scoped ⟨_, hd⟩ ⟨_, hd'⟩ guarded rfl untroubled ⟨hjob, hevent⟩
    ⟨hjob', hevent'⟩ auth (withKey "djs_viewer" .get ["jobs", "1"]) fun c hc hhash _ => by
      rw [of_decide_eq_true (List.all_eq_true.1 hrows c hc) hhash]
      exact hsame
  exact ⟨d, d', auth, hd, hd', hauth, Option.isSome_iff_ne_none.1 hone, hnone, hscoped.1⟩

/-! ### Revocation -/

/-- What happens to the tables behind the server. -/
inductive FrontAct where
  | request (env : Circumstances) (req : Incoming)
  /-- `scheduler-admin`. -/
  | admin (x : AuthAct)
  /-- Workers, relays and other servers have written to the scheduler's tables. -/
  | background (store : Store)

/-- A server with its database, from the migrated one on. -/
def frontend (cfg : ServerConfig) (tenants : UUID → Option String) : System ServerState FrontAct where
  init := ⟨.initial tenants, Store.empty⟩
  step := fun s x =>
    match x with
    | .request env req => some (serve cfg env s req).2
    | .admin x => some { s with auth := authStep cfg.hashKey s.auth x }
    | .background store => some { s with store }

/-- A request touches the clients as `Authenticate` does, or not at all. -/
theorem serve_auth_cases (cfg : ServerConfig) (env : Circumstances) (s : ServerState)
    (req : Incoming) :
    (serve cfg env s req).2.auth = s.auth ∨
      ∃ x, (serve cfg env s req).2.auth = authStep cfg.hashKey s.auth x := by
  rcases serve_state_cases cfg env s req with hsame | ⟨rest, -, hrun⟩
  · exact .inl (congrArg ServerState.auth hsame)
  · rw [hrun]
    unfold serveAPI
    cases hid : identify cfg env req s.auth with
    | error message => exact .inl rfl
    | ok found =>
      obtain ⟨p, auth⟩ := found
      rcases identify_eq_ok hid with ⟨-, -, hsame⟩ | ⟨-, hauth⟩
      · exact .inl hsame
      · refine .inr ⟨.authenticate (trimSpace (req.header "X-API-Key")) env.call.now env.touched, ?_⟩
        simp [authStep, Tx.commit, hauth]

/-- Without a principal there is a refusal, and nothing changes. -/
theorem serve_of_unidentified {s : ServerState} {message : String}
    (h : identify cfg env req s.auth = .error message) :
    (serve cfg env s req).2 = s ∧
      ∀ rest, req.path = "api" :: "v1" :: rest → req.method ≠ .options → req.method ≠ .unknown →
        (serve cfg env s req).1.status = 401 := by
  constructor
  · rcases serve_state_cases cfg env s req with hsame | ⟨rest, -, hrun⟩
    · exact hsame
    · rw [hrun, serveAPI, h]
  · intro rest hpath hoptions hunknown
    simp [serve, route, hpath, hoptions, hunknown, serveAPI, h, writeFailure]

/-- **A revoked key is refused.**  After `RevokeClient` reported success, whatever is requested, done
to the clients or written behind the server since: a request with the client's key changes nothing,
not even `last_used_at`, and every route under `/api/v1` answers it with `401`. -/
theorem revoked_key_refused (cfg : ServerConfig) (henabled : cfg.authEnabled = true)
    (tenants : UUID → Option String) {s s' : ServerState} (hs : (frontend cfg tenants).Reachable s)
    {id : UUID} {now : Time} {link : Link}
    (hrevoked : ((revokeClient id now).commit link .connection s.auth).reply = .ok ())
    {xs : List FrontAct}
    (hxs : (frontend cfg tenants).execFrom s (.admin (.revoke id now link) :: xs) = some s') :
    ∃ c, s'.auth.clients.find? id = some c ∧
      ∀ env req, cfg.hashKey (trimSpace (req.header "X-API-Key")) = c.keyHash →
        (serve cfg env s' req).2 = s' ∧
          ∀ rest, req.path = "api" :: "v1" :: rest → req.method ≠ .options → req.method ≠ .unknown →
            (serve cfg env s' req).1.status = 401 := by
  have hstep : (frontend cfg tenants).step s (.admin (.revoke id now link))
      = some { s with auth := authStep cfg.hashKey s.auth (.revoke id now link) } := rfl
  have hstays : ∀ t x t', (frontend cfg tenants).Reachable t → Retired id t.auth →
      (frontend cfg tenants).step t x = some t' → Retired id t'.auth := by
    intro t x t' _ ht hx
    cases x with
    | request env req =>
      obtain rfl := Option.some.inj hx
      rcases serve_auth_cases cfg env t req with hsame | ⟨x, hauth⟩
      · rw [hsame]
        exact ht
      · rw [hauth]
        exact ht.step x
    | admin x =>
      obtain rfl := Option.some.inj hx
      exact ht.step x
    | background store =>
      obtain rfl := Option.some.inj hx
      exact ht
  rw [System.execFrom, hstep] at hxs
  have hretired : Retired id s'.auth :=
    (hs.step hstep).stable hstays (retired_of_revoke hrevoked) hxs
  obtain ⟨c, hfound, hdisabled⟩ := hretired
  refine ⟨c, hfound, fun env req hkey => ?_⟩
  cases hid : identify cfg env req s'.auth with
  | error message => exact serve_of_unidentified hid
  | ok found =>
    -- the hash belongs to the revoked client alone
    obtain ⟨c', hc', hhash, hlive, -⟩ := client_of_identify henabled hid
    have hsame : c' = c := eq_of_keyHash hc' (Table.find?_eq_some_iff.1 hfound).1 (hhash.trans hkey)
    rw [hsame, hdisabled] at hlive
    cases hlive

open Demo in
/-- The operator is revoked, and its request to cancel is refused. -/
theorem revoked_key_refused_operator :
    ∃ s s', (frontend guarded twoTenants).exec (bothClients.map .admin) = some s ∧
      (frontend guarded twoTenants).execFrom s
        (.admin (.revoke 1 0 .up) :: [.request untroubled (cancelRequest "djs_viewer")]) = some s' ∧
      (serve guarded untroubled s' (cancelRequest "djs_operator")).2 = s' ∧
      (serve guarded untroubled s' (cancelRequest "djs_operator")).1.status = 401 := by
  obtain ⟨s, hs, hrevoked, hany⟩ :
      ∃ s, (frontend guarded twoTenants).exec (bothClients.map .admin) = some s ∧
        ((revokeClient 1 0).commit .up .connection s.auth).reply.isOk = true ∧
        ((frontend guarded twoTenants).execFrom s (.admin (.revoke 1 0 .up) ::
          [.request untroubled (cancelRequest "djs_viewer")])).any (fun s' => decide (
            (s'.auth.clients.find? 1).map ApiClient.keyHash
              = some (plainHash (trimSpace "djs_operator")))) = true :=
    System.exists_of_exec (by decide +kernel)
  obtain ⟨s', hs', hdecided⟩ := (Option.any_eq_true _ _).1 hany
  have hreply : ((revokeClient 1 0).commit .up .connection s.auth).reply = .ok () := by
    cases hr : ((revokeClient 1 0).commit .up .connection s.auth).reply with
    | error e =>
      rw [hr] at hrevoked
      cases hrevoked
    | ok u => rfl
  obtain ⟨c, hc, hrefused⟩ := revoked_key_refused guarded rfl twoTenants ⟨_, hs⟩ hreply hs'
  have hkey : c.keyHash = plainHash (trimSpace "djs_operator") := by
    have hfound := of_decide_eq_true hdecided
    rw [hc] at hfound
    exact Option.some.inj hfound
  obtain ⟨hsame, hstatus⟩ := hrefused untroubled (cancelRequest "djs_operator") hkey.symm
  exact ⟨s, s', hs, hs', hsame, hstatus _ rfl (by decide) (by decide)⟩

end JobScheduler
