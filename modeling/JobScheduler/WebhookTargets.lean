import JobScheduler.Webhook
import Mathlib.Logic.Relation

/-!
# Where the webhook transport connects to

`validateHost` runs when a URL is checked, when a redirect is followed and once more when the transport
dials; the dialer then resolves the host again by itself, and what it gets is not looked at.

The lookups, checks, dials and answers of a call are relations on what the network does, and `Reached`
says which requests a call comes to: the first one if the payload passes, the next one if the one before
is answered with a redirect that passes.

* `Follows.run_eq`, `run_of_not_follows` — one request leads to exactly one other, or ends the call.
* `executeWebhook_opened` — the connections of a call are the dials of the requests it comes to.
* `no_forbidden_connection` — no connection goes to a forbidden address if and only if, at every dial
  whose check has passed, the dialer's own lookup gives it an allowed address.
* `rebound_connection` — a resolver that changes its answer between the check and the dial gets a
  connection to the loopback address.
-/

namespace JobScheduler

open Fallible Fallible.Comp

/-- None of the addresses is loopback, private, link-local or unspecified. -/
def Allowed (addresses : List IPAddr) : Prop := ∀ ip ∈ addresses, ip.isForbidden = false

instance (addresses : List IPAddr) : Decidable (Allowed addresses) :=
  inferInstanceAs (Decidable (∀ ip ∈ addresses, ip.isForbidden = false))

/-- The URL passes the checks that need no lookup. -/
structure URL.Proper (target : URL) : Prop where
  scheme : target.scheme = "http" ∨ target.scheme = "https"
  user : target.hasUser = false
  host : target.hostname ≠ ""

/-- A request that is about to be sent, and the number of the next lookup. -/
structure Hop where
  index : ℕ
  target : URL
  lookups : ℕ

/-! ### What the network does -/

section

variable (lib : TextLib) (options : ExecutorOptions) (net : Network)

/-- A host is looked up, with `n` lookups before; `n'` counts them afterwards. -/
inductive Looked (host : String) (n : ℕ) : List IPAddr → ℕ → Prop where
  | literal {ip : IPAddr} (hliteral : lib.parseIP host = some ip) : Looked host n [ip] n
  | name {addresses : List IPAddr} (hname : lib.parseIP host = none)
      (hanswer : net.lookup n host = .ok addresses) : Looked host n addresses (n + 1)

/-- A check passes: the host is listed, or its addresses may be connected to. -/
inductive Passes (host : String) (n : ℕ) : ℕ → Prop where
  | listed (hlisted : options.allows lib host = true) : Passes host n n
  | checked {addresses : List IPAddr} {n' : ℕ} (hunlisted : options.allows lib host = false)
      (hlooked : Looked lib net host n addresses n')
      (hmay : options.allowPrivateNetworks = true ∨ Allowed addresses) : Passes host n n'

/-- A check fails: there is no answer, or a forbidden address in it. -/
inductive Rejects (host : String) (n : ℕ) : TargetError → Prop where
  | resolve {cause : LookupError} (hunlisted : options.allows lib host = false)
      (hname : lib.parseIP host = none) (hanswer : net.lookup n host = .error cause) :
      Rejects host n (.resolve cause)
  | privateAddress {addresses : List IPAddr} {n' : ℕ} (hunlisted : options.allows lib host = false)
      (hpolicy : options.allowPrivateNetworks = false)
      (hlooked : Looked lib net host n addresses n') (hbad : ¬Allowed addresses) :
      Rejects host n .privateAddress

/-- The check at the dial passes, and the dialer connects to one of the addresses it looks up. -/
inductive Dials (k : ℕ) (host : String) (n : ℕ) : IPAddr → ℕ → Prop where
  | connected {n₁ n₂ i : ℕ} {addresses : List IPAddr} {ip : IPAddr}
      (hpasses : Passes lib options net host n n₁) (hlooked : Looked lib net host n₁ addresses n₂)
      (hconnect : net.connect k = .ok i) (hip : addresses[i]? = some ip) : Dials k host n ip n₂

/-- The host that is dialed for a request. -/
def Hop.dialHost (h : Hop) : String := (net.proxy h.target.hostname).getD h.target.hostname

/-- The request is sent on a new connection, to this address. -/
structure Opens (h : Hop) (ip : IPAddr) (n : ℕ) : Prop where
  sent : net.refuse h.index = none
  new : net.reuse h.index = false
  dials : Dials lib options net h.index (h.dialHost net) h.lookups ip n

/-- The request has a connection: an idle one or a new one. -/
inductive Connects (h : Hop) : ℕ → Prop where
  | idle (hsent : net.refuse h.index = none) (hidle : net.reuse h.index = true) : Connects h h.lookups
  | opened {ip : IPAddr} {n : ℕ} (hopens : Opens lib options net h ip n) : Connects h n

/-- The request is answered. -/
structure Answered (h : Hop) (resp : HTTPResponse) (n : ℕ) : Prop where
  connects : Connects lib options net h n
  response : net.exchange h.index = .ok resp

/-- The answer is a redirect, and it is followed. -/
inductive Follows : Hop → Hop → Prop where
  | redirect {h : Hop} {resp : HTTPResponse} {n n' : ℕ} {next : URL}
      (hanswered : Answered lib options net h resp n) (hredirects : resp.redirects = true)
      (hnext : lib.resolveReference h.target resp.location = .ok next) (hleft : h.index < 2)
      (hproper : next.Proper) (hpasses : Passes lib options net next.hostname n n') :
      Follows h ⟨h.index + 1, next, n'⟩

/-- The payload makes a first request. -/
inductive Starts (j : WebhookJob) : Hop → Prop where
  | first {payload : WebhookPayload} {target : URL} {n : ℕ}
      (hpayload : lib.decodePayload j.payload = some payload)
      (hurl : lib.parseURL payload.url = some target) (hproper : target.Proper)
      (hpasses : Passes lib options net target.hostname 0 n)
      (hmethod : requestMethod lib payload ∈ ["GET", "POST", "PUT", "PATCH", "DELETE"])
      (hbuild : net.build = none) : Starts j ⟨0, target, n⟩

/-- One request leads to another, over any number of redirects. -/
abbrev Leads : Hop → Hop → Prop := Relation.ReflTransGen (Follows lib options net)

/-- The call comes to this request. -/
def Reached (j : WebhookJob) (h : Hop) : Prop :=
  ∃ first, Starts lib options net j first ∧ Leads lib options net first h

end

variable {lib : TextLib} {options : ExecutorOptions} {net : Network} {host : String}
  {s s' : NetState}

/-! ### Lookups and checks -/

theorem lookupIPAddr_eq_ok {addresses : List IPAddr} :
    lookupIPAddr lib net host s = (.ok addresses, s')
      ↔ Looked lib net host s.lookups addresses s'.lookups ∧ s'.opened = s.opened := by
  obtain ⟨n', opened'⟩ := s'
  unfold lookupIPAddr
  constructor
  · intro heq
    split at heq
    · rename_i ip hip
      obtain ⟨ha, hs⟩ := Prod.mk.inj heq
      obtain rfl := Except.ok.inj ha
      obtain rfl := hs
      exact ⟨.literal hip, rfl⟩
    · rename_i hname
      obtain ⟨ha, hs⟩ := Prod.mk.inj heq
      obtain ⟨rfl, rfl⟩ := NetState.mk.inj hs
      exact ⟨.name hname ha, rfl⟩
  · rintro ⟨hlooked, rfl⟩
    cases hlooked with
    | literal hliteral => simp only [hliteral]
    | name hname hanswer => simp only [hname, hanswer]

theorem lookupIPAddr_eq_error {e : LookupError} : lookupIPAddr lib net host s = (.error e, s')
    ↔ lib.parseIP host = none ∧ net.lookup s.lookups host = .error e
      ∧ s' = ⟨s.lookups + 1, s.opened⟩ := by
  unfold lookupIPAddr
  cases hip : lib.parseIP host with
  | some ip => simp
  | none => simp [eq_comm]

theorem forbidden_iff {addresses : List IPAddr} :
    addresses.any IPAddr.isForbidden = true ↔ ¬Allowed addresses := by
  simp [Allowed]

theorem validateHost_eq_ok {u : Unit} : validateHost lib options net host s = (.ok u, s')
    ↔ Passes lib options net host s.lookups s'.lookups ∧ s'.opened = s.opened := by
  obtain ⟨n', opened'⟩ := s'
  unfold validateHost
  constructor
  · intro heq
    split at heq
    · rename_i hlisted
      obtain ⟨-, rfl⟩ := pure_eq.1 heq
      exact ⟨.listed hlisted, rfl⟩
    · rename_i hlisted
      have hunlisted : options.allows lib host = false := by simpa using hlisted
      simp only [bind_eq_ok, mapError_eq_ok] at heq
      obtain ⟨addresses, s₁, hlooked, heq⟩ := heq
      obtain ⟨hlooked, hopened⟩ := lookupIPAddr_eq_ok.1 hlooked
      have hmay : options.allowPrivateNetworks = true ∨ Allowed addresses := by
        by_contra hno
        obtain ⟨hpolicy, hbad⟩ := not_or.1 hno
        rw [if_neg hpolicy, if_pos (forbidden_iff.2 hbad)] at heq
        cases (fail_eq.1 heq).1
      have hs : s₁ = ⟨n', opened'⟩ := by
        split at heq
        · exact (pure_eq.1 heq).2
        · split at heq
          · cases (fail_eq.1 heq).1
          · exact (pure_eq.1 heq).2
      obtain rfl := hs
      exact ⟨.checked hunlisted hlooked hmay, hopened⟩
  · rintro ⟨hpasses, rfl⟩
    cases hpasses with
    | listed hlisted =>
      rw [if_pos hlisted]
      rfl
    | checked hunlisted hlooked hmay =>
      rw [if_neg (by simp [hunlisted])]
      refine bind_eq_ok.2 ⟨_, _, mapError_eq_ok.2 (lookupIPAddr_eq_ok.2 ⟨hlooked, rfl⟩), ?_⟩
      rcases hmay with hprivate | hallowed
      · rw [if_pos hprivate]
        rfl
      · rw [if_neg (fun hany => forbidden_iff.1 hany hallowed), ite_self]
        rfl

/-- Why a check fails, and that nothing is opened for it. -/
theorem validateHost_eq_error {e : TargetError} (heq : validateHost lib options net host s = (.error e, s')) :
    Rejects lib options net host s.lookups e ∧ s'.opened = s.opened := by
  unfold validateHost at heq
  split at heq
  · cases (pure_eq.1 heq).1
  · rename_i hlisted
    have hunlisted : options.allows lib host = false := by simpa using hlisted
    rcases bind_eq_error.1 heq with hfailed | ⟨addresses, s₁, hlooked, heq⟩
    · obtain ⟨cause, hlookup, rfl⟩ := mapError_eq_error.1 hfailed
      obtain ⟨hname, hanswer, rfl⟩ := lookupIPAddr_eq_error.1 hlookup
      exact ⟨.resolve hunlisted hname hanswer, rfl⟩
    · obtain ⟨hlooked, hopened⟩ := lookupIPAddr_eq_ok.1 (mapError_eq_ok.1 hlooked)
      split at heq
      · cases (pure_eq.1 heq).1
      · rename_i hpolicy
        split at heq
        · rename_i hany
          obtain ⟨he, rfl⟩ := fail_eq.1 heq
          obtain rfl := Except.error.inj he
          exact ⟨.privateAddress hunlisted (by simpa using hpolicy) hlooked (forbidden_iff.1 hany),
            hopened⟩
        · cases (pure_eq.1 heq).1

theorem Rejects.validateHost_eq {e : TargetError} (h : Rejects lib options net host s.lookups e) :
    ∃ s', validateHost lib options net host s = (.error e, s') := by
  unfold validateHost
  cases h with
  | resolve hunlisted hname hanswer =>
    rw [if_neg (by simp [hunlisted])]
    exact ⟨_, bind_eq_error.2 (Or.inl (mapError_eq_error.2
      ⟨_, lookupIPAddr_eq_error.2 ⟨hname, hanswer, rfl⟩, rfl⟩))⟩
  | @privateAddress addresses n' hunlisted hpolicy hlooked hbad =>
    rw [if_neg (by simp [hunlisted])]
    refine ⟨⟨n', s.opened⟩, bind_eq_error.2 (Or.inr ⟨addresses, ⟨n', s.opened⟩,
      mapError_eq_ok.2 (lookupIPAddr_eq_ok.2 ⟨hlooked, rfl⟩), ?_⟩)⟩
    rw [if_neg (by simp [hpolicy]), if_pos (forbidden_iff.2 hbad)]
    rfl

/-- A check that passes is not one that fails. -/
theorem Passes.not_rejects {n n' : ℕ} (hpasses : Passes lib options net host n n') (e : TargetError) :
    ¬Rejects lib options net host n e := by
  intro hrejects
  have hok : validateHost lib options net host ⟨n, []⟩ = (.ok (), ⟨n', []⟩) :=
    validateHost_eq_ok.2 ⟨hpasses, rfl⟩
  obtain ⟨s', herror⟩ := Rejects.validateHost_eq (s := ⟨n, []⟩) hrejects
  rw [hok] at herror
  cases herror

theorem Passes.unique {n n₁ n₂ : ℕ} (hfirst : Passes lib options net host n n₁)
    (hother : Passes lib options net host n n₂) : n₂ = n₁ := by
  have heq : validateHost lib options net host ⟨n, []⟩ = (.ok (), ⟨n₁, []⟩) :=
    validateHost_eq_ok.2 ⟨hfirst, rfl⟩
  have heq' : validateHost lib options net host ⟨n, []⟩ = (.ok (), ⟨n₂, []⟩) :=
    validateHost_eq_ok.2 ⟨hother, rfl⟩
  exact (NetState.mk.inj (Prod.mk.inj (heq'.symm.trans heq)).2).1

theorem URL.Proper.validateURL_eq {target : URL} (h : target.Proper) :
    validateURL lib options net target = validateHost lib options net target.hostname := by
  unfold validateURL
  rw [if_neg, if_neg, if_neg h.host]
  · simp [h.user]
  · rintro ⟨hhttp, hhttps⟩
    rcases h.scheme with hs | hs
    · exact hhttp hs
    · exact hhttps hs

/-- Without a lookup, for good. -/
theorem validateURL_of_not_proper (lib : TextLib) (options : ExecutorOptions) (net : Network)
    {target : URL} (h : ¬target.Proper) :
    ∃ e, (e = .scheme ∨ e = .credentials ∨ e = .missingHost)
      ∧ validateURL lib options net target = Comp.fail e := by
  unfold validateURL
  by_cases hscheme : target.scheme ≠ "http" ∧ target.scheme ≠ "https"
  · exact ⟨.scheme, Or.inl rfl, if_pos hscheme⟩
  · rw [if_neg hscheme]
    by_cases huser : target.hasUser = true
    · exact ⟨.credentials, Or.inr (Or.inl rfl), if_pos huser⟩
    · rw [if_neg huser]
      by_cases hhost : target.hostname = ""
      · exact ⟨.missingHost, Or.inr (Or.inr rfl), if_pos hhost⟩
      · exact absurd ⟨by simpa [or_iff_not_imp_left] using hscheme, by simpa using huser, hhost⟩ h

theorem validateURL_eq_ok {target : URL} {u : Unit} : validateURL lib options net target s = (.ok u, s')
    ↔ target.Proper ∧ Passes lib options net target.hostname s.lookups s'.lookups
      ∧ s'.opened = s.opened := by
  by_cases hproper : target.Proper
  · rw [hproper.validateURL_eq, validateHost_eq_ok, and_iff_right hproper]
  · obtain ⟨e, -, heq⟩ := validateURL_of_not_proper lib options net hproper
    simp [heq, hproper]

theorem validateURL_error_opened {target : URL} {e : TargetError}
    (heq : validateURL lib options net target s = (.error e, s')) : s'.opened = s.opened := by
  by_cases hproper : target.Proper
  · rw [hproper.validateURL_eq] at heq
    exact (validateHost_eq_error heq).2
  · obtain ⟨e', -, hfail⟩ := validateURL_of_not_proper lib options net hproper
    rw [hfail] at heq
    rw [(fail_eq.1 heq).2]

/-! ### Connections -/

theorem transportDial_eq_ok {k : ℕ} {u : Unit} : transportDial lib options net k host s = (.ok u, s')
    ↔ ∃ ip, Dials lib options net k host s.lookups ip s'.lookups ∧ s'.opened = ip :: s.opened := by
  obtain ⟨n', opened'⟩ := s'
  unfold transportDial dialContext
  constructor
  · intro heq
    obtain ⟨_, s₁, hpasses, heq⟩ := bind_eq_ok.1 heq
    obtain ⟨hpasses, hopened₁⟩ := validateHost_eq_ok.1 (mapError_eq_ok.1 hpasses)
    obtain ⟨addresses, s₂, hlooked, heq⟩ := bind_eq_ok.1 heq
    obtain ⟨hlooked, hopened₂⟩ := lookupIPAddr_eq_ok.1 (mapError_eq_ok.1 hlooked)
    obtain ⟨i, s₃, hconnect, heq⟩ := bind_eq_ok.1 heq
    obtain ⟨hi, rfl⟩ := ofExcept_eq.1 hconnect
    have hconnected : net.connect k = .ok i := by
      cases hk : net.connect k with
      | ok i' =>
        rw [hk] at hi
        rw [Except.ok.inj hi]
      | error message =>
        rw [hk] at hi
        cases hi
    cases hip : addresses[i]? with
    | none =>
      rw [hip] at heq
      cases (fail_eq.1 heq).1
    | some ip =>
      rw [hip] at heq
      obtain ⟨rfl, rfl⟩ := NetState.mk.inj (Prod.mk.inj heq).2
      exact ⟨ip, .connected hpasses hlooked hconnected hip, by rw [hopened₂, hopened₁]⟩
  · rintro ⟨ip, hdials, rfl⟩
    cases hdials with
    | connected hpasses hlooked hconnect hip =>
      refine bind_eq_ok.2 ⟨(), ⟨_, s.opened⟩, mapError_eq_ok.2 (validateHost_eq_ok.2 ⟨hpasses, rfl⟩), ?_⟩
      refine bind_eq_ok.2 ⟨_, ⟨_, s.opened⟩, mapError_eq_ok.2 (lookupIPAddr_eq_ok.2 ⟨hlooked, rfl⟩), ?_⟩
      refine bind_eq_ok.2 ⟨_, _, ofExcept_eq.2 ⟨by rw [hconnect]; rfl, rfl⟩, ?_⟩
      simp only [hip]

/-- Why a dial fails, and that nothing is opened for it. -/
theorem transportDial_eq_error {k : ℕ} {e : ClientError}
    (heq : transportDial lib options net k host s = (.error e, s')) : s'.opened = s.opened
      ∧ ((∃ cause, e = .dialTarget cause ∧ Rejects lib options net host s.lookups cause)
        ∨ ((∃ message, e = .dial message) ∧ ∃ n, Passes lib options net host s.lookups n)) := by
  unfold transportDial dialContext at heq
  rcases bind_eq_error.1 heq with hfailed | ⟨_, s₁, hpasses, heq⟩
  · obtain ⟨cause, hrejects, rfl⟩ := mapError_eq_error.1 hfailed
    obtain ⟨hrejects, hopened⟩ := validateHost_eq_error hrejects
    exact ⟨hopened, Or.inl ⟨cause, rfl, hrejects⟩⟩
  obtain ⟨hpasses, hopened₁⟩ := validateHost_eq_ok.1 (mapError_eq_ok.1 hpasses)
  suffices hlate : s'.opened = s₁.opened ∧ ∃ message, e = .dial message from
    ⟨hlate.1.trans hopened₁, Or.inr ⟨hlate.2, _, hpasses⟩⟩
  rcases bind_eq_error.1 heq with hfailed | ⟨addresses, s₂, hlooked, heq⟩
  · obtain ⟨cause, hanswer, rfl⟩ := mapError_eq_error.1 hfailed
    obtain ⟨-, -, rfl⟩ := lookupIPAddr_eq_error.1 hanswer
    exact ⟨rfl, _, rfl⟩
  obtain ⟨-, hopened₂⟩ := lookupIPAddr_eq_ok.1 (mapError_eq_ok.1 hlooked)
  rcases bind_eq_error.1 heq with hfailed | ⟨i, s₃, hconnect, heq⟩
  · obtain ⟨hconnect, rfl⟩ := ofExcept_eq.1 hfailed
    cases hk : net.connect k with
    | ok i =>
      rw [hk] at hconnect
      cases hconnect
    | error message =>
      rw [hk] at hconnect
      obtain rfl := Except.error.inj hconnect
      exact ⟨hopened₂, _, rfl⟩
  · obtain ⟨-, rfl⟩ := ofExcept_eq.1 hconnect
    cases hip : addresses[i]? with
    | none =>
      rw [hip] at heq
      obtain ⟨he, rfl⟩ := fail_eq.1 heq
      exact ⟨hopened₂, _, (Except.error.inj he).symm⟩
    | some ip =>
      rw [hip] at heq
      cases (Prod.mk.inj heq).1

/-- The connections after a request are those before it and its own. -/
def OpenedBy (lib : TextLib) (options : ExecutorOptions) (net : Network) (h : Hop)
    (before after : List IPAddr) : Prop :=
  ∀ ip, ip ∈ after ↔ ip ∈ before ∨ ∃ n, Opens lib options net h ip n

theorem openedBy_nothing {h : Hop} {opened : List IPAddr} (hnone : ∀ ip n, ¬Opens lib options net h ip n) :
    OpenedBy lib options net h opened opened := by
  intro ip
  simp [hnone]

section

variable {h : Hop} (hs : s.lookups = h.lookups)

include hs

theorem Connects.getConn_eq {n : ℕ} (hconnects : Connects lib options net h n) :
    ∃ opened, OpenedBy lib options net h s.opened opened
      ∧ getConn lib options net h.index h.target.hostname s = (.ok (), ⟨n, opened⟩) := by
  unfold getConn
  cases hconnects with
  | idle hsent hidle =>
    refine ⟨s.opened, openedBy_nothing fun ip n hopens => ?_, ?_⟩
    · rw [hopens.new] at hidle
      cases hidle
    · rw [if_pos hidle]
      exact pure_eq.2 ⟨rfl, by rw [← hs]⟩
  | @opened ip n hopens =>
    have hdial : ∀ ip' n', Opens lib options net h ip' n' →
        transportDial lib options net h.index (h.dialHost net) s = (.ok (), ⟨n', ip' :: s.opened⟩) :=
      fun ip' n' hopens' => transportDial_eq_ok.2 ⟨ip', by rw [hs]; exact hopens'.dials, rfl⟩
    refine ⟨ip :: s.opened, fun ip' => ?_, ?_⟩
    · constructor
      · intro hmem
        rcases List.mem_cons.1 hmem with rfl | hold
        · exact Or.inr ⟨n, hopens⟩
        · exact Or.inl hold
      · rintro (hold | ⟨n', hopens'⟩)
        · exact List.mem_cons_of_mem _ hold
        · -- two dials of one request are one dial
          have hsame := (hdial ip n hopens).symm.trans (hdial ip' n' hopens')
          rw [(List.cons.inj (NetState.mk.inj (Prod.mk.inj hsame).2).2).1]
          exact List.mem_cons_self
    · rw [if_neg (by simp [hopens.new])]
      exact hdial ip n hopens

omit hs in
theorem Connects.sent {n : ℕ} (hconnects : Connects lib options net h n) : net.refuse h.index = none := by
  cases hconnects with
  | idle hsent _ => exact hsent
  | opened hopens => exact hopens.sent

omit hs in
theorem roundTrip_of_sent (hsent : net.refuse h.index = none) :
    roundTrip lib options net h.index h.target.hostname s = (do
      getConn lib options net h.index h.target.hostname
      Comp.ofExcept ((net.exchange h.index).mapError ClientError.exchange)) s := by
  unfold roundTrip
  exact bind_of_ok (a := ()) (failIf_eq_ok.2 ⟨by rw [hsent]; rfl, rfl⟩)

theorem Answered.roundTrip_eq {resp : HTTPResponse} {n : ℕ} (hanswered : Answered lib options net h resp n) :
    ∃ opened, OpenedBy lib options net h s.opened opened
      ∧ roundTrip lib options net h.index h.target.hostname s = (.ok resp, ⟨n, opened⟩) := by
  obtain ⟨opened, hopened, hget⟩ := hanswered.connects.getConn_eq hs
  refine ⟨opened, hopened, ?_⟩
  rw [roundTrip_of_sent hanswered.connects.sent, bind_of_ok hget, hanswered.response]
  rfl

omit hs in
theorem Answered.unique {resp resp' : HTTPResponse} {n n' : ℕ} (hfirst : Answered lib options net h resp n)
    (hother : Answered lib options net h resp' n') : resp' = resp ∧ n' = n := by
  obtain ⟨_, -, heq⟩ := hfirst.roundTrip_eq (s := ⟨h.lookups, []⟩) rfl
  obtain ⟨_, -, heq'⟩ := hother.roundTrip_eq (s := ⟨h.lookups, []⟩) rfl
  obtain ⟨hresp, hs⟩ := Prod.mk.inj (heq'.symm.trans heq)
  exact ⟨Except.ok.inj hresp, (NetState.mk.inj hs).1⟩

/-- A request that is not answered. -/
theorem roundTrip_of_unanswered (hnone : ∀ resp n, ¬Answered lib options net h resp n) :
    ∃ e s', OpenedBy lib options net h s.opened s'.opened
      ∧ roundTrip lib options net h.index h.target.hostname s = (.error e, s') := by
  by_cases hsent : net.refuse h.index = none
  · rw [roundTrip_of_sent hsent]
    by_cases hconn : ∃ n, Connects lib options net h n
    · obtain ⟨n, hconnects⟩ := hconn
      obtain ⟨opened, hopened, hget⟩ := hconnects.getConn_eq hs
      rw [bind_of_ok hget]
      cases hexchange : net.exchange h.index with
      | ok resp => exact absurd ⟨hconnects, hexchange⟩ (hnone resp n)
      | error cause => exact ⟨.exchange cause, ⟨n, opened⟩, hopened, rfl⟩
    · -- there is no connection: the dial has failed
      have hnew : net.reuse h.index = false := by
        by_contra hidle
        exact hconn ⟨_, .idle hsent (by simpa using hidle)⟩
      have hunopened : ∀ ip n, ¬Opens lib options net h ip n :=
        fun ip n hopens => hconn ⟨n, .opened hopens⟩
      have hget : getConn lib options net h.index h.target.hostname s
          = transportDial lib options net h.index (h.dialHost net) s := by
        unfold getConn
        rw [if_neg (by simp [hnew])]
        rfl
      cases hdial : transportDial lib options net h.index (h.dialHost net) s with
      | mk r s' =>
        cases r with
        | ok u =>
          obtain ⟨ip, hdials, -⟩ := transportDial_eq_ok.1 hdial
          rw [hs] at hdials
          exact absurd ⟨hsent, hnew, hdials⟩ (hunopened ip s'.lookups)
        | error e =>
          refine ⟨e, s', ?_, bind_of_error (hget.trans hdial)⟩
          rw [(transportDial_eq_error hdial).1]
          exact openedBy_nothing hunopened
  · obtain ⟨message, hrefused⟩ := Option.ne_none_iff_exists'.1 hsent
    refine ⟨.invalidRequest message, s, openedBy_nothing fun ip n hopens => hsent hopens.sent, ?_⟩
    unfold roundTrip
    exact bind_of_error (failIf_eq_error.2 ⟨by rw [hrefused]; rfl, rfl⟩)

end

/-! ### Requests and redirects -/

section

variable (lib : TextLib) (options : ExecutorOptions) (net : Network)

/-- `http.Client.Do` from a request on. -/
def Hop.run (h : Hop) : Comp NetState URLError HTTPResponse :=
  doRequest lib options net (2 - h.index) h.index h.target

/-- What it does with the response. -/
def Hop.respond (h : Hop) (resp : HTTPResponse) : Comp NetState URLError HTTPResponse :=
  if resp.redirects = false then pure resp
  else
    match lib.resolveReference h.target resp.location with
    | .error message => Comp.fail ⟨h.target.text, .location (lib.quote resp.location) message⟩
    | .ok next =>
      if h.index < 2 then do
        (validateURL lib options net next).mapError fun e => ⟨resp.location, .redirectTarget e⟩
        doRequest lib options net (2 - (h.index + 1)) (h.index + 1) next
      else Comp.fail ⟨resp.location, .tooManyRedirects⟩

end

theorem Hop.run_eq (h : Hop) : h.run lib options net
    = (roundTrip lib options net h.index h.target.hostname).mapError (URLError.mk h.target.text)
      >>= h.respond lib options net := by
  unfold Hop.run
  by_cases hleft : h.index < 2
  · have hpred : 2 - h.index = (2 - (h.index + 1)) + 1 := by omega
    rw [hpred, doRequest]
    refine congrArg _ (funext fun resp => if_congr Iff.rfl rfl ?_)
    cases lib.resolveReference h.target resp.location with
    | error message => rfl
    | ok next => exact (if_pos hleft).symm
  · have hzero : 2 - h.index = 0 := by omega
    rw [hzero, doRequest]
    refine congrArg _ (funext fun resp => if_congr Iff.rfl rfl ?_)
    cases lib.resolveReference h.target resp.location with
    | error message => rfl
    | ok next => exact (if_neg hleft).symm

theorem Follows.unique {h h₁ h₂ : Hop} (hfirst : Follows lib options net h h₁)
    (hother : Follows lib options net h h₂) : h₂ = h₁ := by
  cases hfirst with
  | redirect hanswered _ hnext _ _ hpasses =>
    cases hother with
    | redirect hanswered' _ hnext' _ _ hpasses' =>
      obtain ⟨rfl, rfl⟩ := hanswered.unique hanswered'
      obtain rfl := Except.ok.inj (hnext.symm.trans hnext')
      rw [hpasses.unique hpasses']

/-- A followed redirect goes on with the next request. -/
theorem Follows.run_eq {h h' : Hop} (hfollows : Follows lib options net h h') (hs : s.lookups = h.lookups) :
    ∃ s', s'.lookups = h'.lookups ∧ OpenedBy lib options net h s.opened s'.opened
      ∧ h.run lib options net s = h'.run lib options net s' := by
  cases hfollows with
  | @redirect resp n n' next hanswered hredirects hnext hleft hproper hpasses =>
    obtain ⟨opened, hopened, hround⟩ := hanswered.roundTrip_eq hs
    refine ⟨⟨n', opened⟩, rfl, hopened, ?_⟩
    have hvalid : validateURL lib options net next ⟨n, opened⟩ = (.ok (), ⟨n', opened⟩) :=
      validateURL_eq_ok.2 ⟨hproper, hpasses, rfl⟩
    rw [Hop.run_eq, bind_of_ok (mapError_eq_ok.2 hround), Hop.respond, if_neg (by simp [hredirects]), hnext]
    simp only [if_pos hleft]
    exact bind_of_ok (mapError_eq_ok.2 hvalid)

/-- A request that leads nowhere ends the call. -/
theorem run_of_not_follows {h : Hop} (hnone : ∀ h', ¬Follows lib options net h h')
    (hs : s.lookups = h.lookups) :
    OpenedBy lib options net h s.opened (h.run lib options net s).2.opened := by
  rw [Hop.run_eq]
  by_cases hanswer : ∃ resp n, Answered lib options net h resp n
  · obtain ⟨resp, n, hanswered⟩ := hanswer
    obtain ⟨opened, hopened, hround⟩ := hanswered.roundTrip_eq hs
    rw [bind_of_ok (mapError_eq_ok.2 hround), Hop.respond]
    by_cases hredirects : resp.redirects = false
    · rw [if_pos hredirects]
      exact hopened
    rw [if_neg hredirects]
    cases hnext : lib.resolveReference h.target resp.location with
    | error message => exact hopened
    | ok next =>
      by_cases hleft : h.index < 2
      · simp only [if_pos hleft]
        cases hvalid : validateURL lib options net next ⟨n, opened⟩ with
        | mk r s' =>
          cases r with
          | ok u =>
            obtain ⟨hproper, hpasses, -⟩ := validateURL_eq_ok.1 hvalid
            exact absurd (.redirect hanswered (by simpa using hredirects) hnext hleft hproper hpasses)
              (hnone _)
          | error e =>
            rw [bind_of_error (mapError_eq_error.2 ⟨e, hvalid, rfl⟩), validateURL_error_opened hvalid]
            exact hopened
      · simp only [if_neg hleft]
        exact hopened
  · obtain ⟨e, s', hopened, hround⟩ :=
      roundTrip_of_unanswered hs fun resp n hanswered => hanswer ⟨resp, n, hanswered⟩
    rw [bind_of_error (mapError_eq_error.2 ⟨e, hround, rfl⟩)]
    exact hopened

theorem Follows.index_eq {h h' : Hop} (hfollows : Follows lib options net h h') :
    h.index < 2 ∧ h'.index = h.index + 1 := by
  cases hfollows with
  | redirect _ _ _ hleft _ _ => exact ⟨hleft, rfl⟩

/-- The connections of a run of requests; the induction is on the redirects that are left. -/
theorem run_opened {h : Hop} (hs : s.lookups = h.lookups) (ip : IPAddr) :
    ip ∈ (h.run lib options net s).2.opened
      ↔ ip ∈ s.opened ∨ ∃ h' n, Leads lib options net h h' ∧ Opens lib options net h' ip n := by
  induction hleft : 2 - h.index using Nat.strong_induction_on generalizing h s with
  | _ left ih =>
    by_cases hnext : ∃ h', Follows lib options net h h'
    · obtain ⟨h', hfollows⟩ := hnext
      obtain ⟨s', hs', hopened, heq⟩ := hfollows.run_eq hs
      have hindex := hfollows.index_eq
      rw [heq, ih (2 - h'.index) (by omega) hs' rfl, hopened ip]
      constructor
      · rintro ((hold | ⟨n, hopens⟩) | ⟨h'', n, hleads, hopens⟩)
        · exact Or.inl hold
        · exact Or.inr ⟨h, n, .refl, hopens⟩
        · exact Or.inr ⟨h'', n, hleads.head hfollows, hopens⟩
      · rintro (hold | ⟨h'', n, hleads, hopens⟩)
        · exact Or.inl (Or.inl hold)
        · rcases hleads.cases_head with rfl | ⟨h₁, hfirst, hrest⟩
          · exact Or.inl (Or.inr ⟨n, hopens⟩)
          · obtain rfl := hfollows.unique hfirst
            exact Or.inr ⟨h'', n, hrest, hopens⟩
    · have hnone := not_exists.1 hnext
      rw [run_of_not_follows hnone hs ip]
      refine or_congr_right ⟨fun ⟨n, hopens⟩ => ⟨h, n, .refl, hopens⟩, ?_⟩
      rintro ⟨h', n, hleads, hopens⟩
      rcases hleads.cases_head with rfl | ⟨h₁, hfirst, -⟩
      · exact ⟨n, hopens⟩
      · exact absurd hfirst (hnone h₁)

/-! ### The whole call -/

section

variable (lib : TextLib) (options : ExecutorOptions) (net : Network)

/-- `Execute` from a request on. -/
def Hop.deliver (h : Hop) (method : String) : Comp NetState WebhookFailure (List UInt8) := do
  let resp ← (h.run lib options net).mapError fun e =>
    .plain (.client e.cause) "WEBHOOK_NETWORK_ERROR" (lib.urlError method e.url e.cause.message) true
  Comp.ofExcept (finishResponse resp net.durationMS)

/-- The call ends before its first request. -/
inductive Declines (j : WebhookJob) : WebhookCause → Prop where
  | payload (hpayload : lib.decodePayload j.payload = none) : Declines j .payload
  | url {payload : WebhookPayload} (hpayload : lib.decodePayload j.payload = some payload)
      (hurl : lib.parseURL payload.url = none) : Declines j .url
  | improper {payload : WebhookPayload} {target : URL} {e : TargetError}
      (hpayload : lib.decodePayload j.payload = some payload)
      (hurl : lib.parseURL payload.url = some target) (hproper : ¬target.Proper)
      (he : e = .scheme ∨ e = .credentials ∨ e = .missingHost) : Declines j (.target e)
  | rejected {payload : WebhookPayload} {target : URL} {e : TargetError}
      (hpayload : lib.decodePayload j.payload = some payload)
      (hurl : lib.parseURL payload.url = some target) (hproper : target.Proper)
      (hrejects : Rejects lib options net target.hostname 0 e) : Declines j (.target e)
  | method {payload : WebhookPayload} {target : URL} {n : ℕ}
      (hpayload : lib.decodePayload j.payload = some payload)
      (hurl : lib.parseURL payload.url = some target)
      (hpasses : Passes lib options net target.hostname 0 n)
      (hmethod : requestMethod lib payload ∉ ["GET", "POST", "PUT", "PATCH", "DELETE"]) :
      Declines j .method
  | build {payload : WebhookPayload} {target : URL} {n : ℕ} {message : String}
      (hpayload : lib.decodePayload j.payload = some payload)
      (hurl : lib.parseURL payload.url = some target)
      (hpasses : Passes lib options net target.hostname 0 n) (hbuild : net.build = some message) :
      Declines j (.build message)

end

variable {j : WebhookJob} {h : Hop}

theorem deliver_state (method : String) (s : NetState) :
    (h.deliver lib options net method s).2 = (h.run lib options net s).2 := by
  unfold Hop.deliver
  cases hrun : h.run lib options net s with
  | mk r s' =>
    cases r with
    | ok resp =>
      rw [bind_of_ok (mapError_eq_ok.2 hrun)]
      rfl
    | error e => rw [bind_of_error (mapError_eq_error.2 ⟨e, hrun, rfl⟩)]

theorem Starts.unique {h' : Hop} (hfirst : Starts lib options net j h)
    (hother : Starts lib options net j h') : h' = h := by
  cases hfirst with
  | first hpayload hurl _ hpasses _ _ =>
    cases hother with
    | first hpayload' hurl' _ hpasses' _ _ =>
      obtain rfl := Option.some.inj (hpayload.symm.trans hpayload')
      obtain rfl := Option.some.inj (hurl.symm.trans hurl')
      rw [hpasses.unique hpasses']

theorem Starts.executeWebhook_eq (hstarts : Starts lib options net j h) :
    ∃ method, executeWebhook lib options net j .initial
      = h.deliver lib options net method ⟨h.lookups, []⟩ := by
  cases hstarts with
  | @first payload target n hpayload hurl hproper hpasses hmethod hbuild =>
    have hvalid : validateURL lib options net target .initial = (.ok (), ⟨n, []⟩) :=
      validateURL_eq_ok.2 ⟨hproper, hpasses, rfl⟩
    refine ⟨requestMethod lib payload, ?_⟩
    unfold executeWebhook
    simp only [hpayload, hurl]
    rw [bind_of_ok (mapError_eq_ok.2 hvalid)]
    replace hmethod : (buildRequest lib j payload target).method
      ∈ ["GET", "POST", "PUT", "PATCH", "DELETE"] := hmethod
    rw [bind_of_ok (a := ()) (failIf_eq_ok.2 ⟨if_pos hmethod, rfl⟩)]
    rw [bind_of_ok (a := ()) (failIf_eq_ok.2 ⟨by rw [hbuild]; rfl, rfl⟩)]
    rfl

theorem executeWebhook_of_not_starts (hnone : ∀ h, ¬Starts lib options net j h) :
    ∃ cause code message s, Declines lib options net j cause ∧ s.opened = []
      ∧ executeWebhook lib options net j .initial = (.error (.plain cause code message false), s) := by
  unfold executeWebhook
  cases hpayload : lib.decodePayload j.payload with
  | none => exact ⟨_, _, _, _, .payload hpayload, rfl, rfl⟩
  | some payload =>
    cases hurl : lib.parseURL payload.url with
    | none =>
      simp only [hurl]
      exact ⟨_, _, _, _, .url hpayload hurl, rfl, rfl⟩
    | some target =>
      simp only [hurl]
      cases hvalid : validateURL lib options net target .initial with
      | mk r s =>
        cases r with
        | error e =>
          refine ⟨_, _, _, s, ?_, validateURL_error_opened hvalid,
            bind_of_error (mapError_eq_error.2 ⟨e, hvalid, rfl⟩)⟩
          by_cases hproper : target.Proper
          · rw [hproper.validateURL_eq] at hvalid
            exact .rejected hpayload hurl hproper (validateHost_eq_error hvalid).1
          · obtain ⟨e', he', hfail⟩ := validateURL_of_not_proper lib options net hproper
            rw [hfail] at hvalid
            obtain rfl := Except.error.inj (fail_eq.1 hvalid).1
            exact .improper hpayload hurl hproper he'
        | ok u =>
          obtain ⟨hproper, hpasses, hopened⟩ := validateURL_eq_ok.1 hvalid
          rw [bind_of_ok (mapError_eq_ok.2 hvalid)]
          by_cases hmethod : (buildRequest lib j payload target).method
            ∈ ["GET", "POST", "PUT", "PATCH", "DELETE"]
          · rw [bind_of_ok (a := ()) (failIf_eq_ok.2 ⟨if_pos hmethod, rfl⟩)]
            cases hbuild : net.build with
            | none => exact absurd (.first hpayload hurl hproper hpasses hmethod hbuild) (hnone _)
            | some message => exact ⟨_, _, _, s, .build hpayload hurl hpasses hbuild, hopened, rfl⟩
          · exact ⟨_, _, _, s, .method hpayload hurl hpasses hmethod, hopened,
              bind_of_error (failIf_eq_error.2 ⟨if_neg hmethod, rfl⟩)⟩

/-- The connections of a call are the dials of the requests it comes to. -/
theorem executeWebhook_opened (ip : IPAddr) : ip ∈ (executeWebhook lib options net j .initial).2.opened
    ↔ ∃ h n, Reached lib options net j h ∧ Opens lib options net h ip n := by
  by_cases hstart : ∃ first, Starts lib options net j first
  · obtain ⟨first, hstarts⟩ := hstart
    obtain ⟨method, heq⟩ := hstarts.executeWebhook_eq
    rw [heq, deliver_state, run_opened rfl]
    constructor
    · rintro (hold | ⟨h, n, hleads, hopens⟩)
      · exact absurd hold List.not_mem_nil
      · exact ⟨h, n, ⟨first, hstarts, hleads⟩, hopens⟩
    · rintro ⟨h, n, ⟨first', hstarts', hleads⟩, hopens⟩
      obtain rfl := hstarts.unique hstarts'
      exact Or.inr ⟨h, n, hleads, hopens⟩
  · obtain ⟨_, _, _, s, -, hopened, heq⟩ := executeWebhook_of_not_starts (not_exists.1 hstart)
    rw [heq, hopened]
    refine ⟨fun hmem => absurd hmem List.not_mem_nil, ?_⟩
    rintro ⟨h, n, ⟨first, hstarts, -⟩, -⟩
    exact absurd ⟨first, hstarts⟩ hstart

/-- After the check at a dial has passed, the dialer's own lookup of the name gives it an allowed address
to connect to. -/
def DialsAllowed (lib : TextLib) (options : ExecutorOptions) (net : Network) (h : Hop) : Prop :=
  net.refuse h.index = none → net.reuse h.index = false → lib.parseIP h.target.hostname = none →
    ∀ n addresses, Passes lib options net h.target.hostname h.lookups n →
      net.lookup n h.target.hostname = .ok addresses →
        ∀ i ip, net.connect h.index = .ok i → addresses[i]? = some ip → ip.isForbidden = false

/-- Where no name is listed and private networks are not allowed, a check that passes has seen the
addresses. -/
theorem Passes.literal_allowed (hpolicy : options.allowPrivateNetworks = false)
    (hlist : options.allows lib host = false) {n n' : ℕ} {ip : IPAddr}
    (hpasses : Passes lib options net host n n') (hliteral : lib.parseIP host = some ip) :
    ip.isForbidden = false := by
  cases hpasses with
  | listed hlisted =>
    rw [hlist] at hlisted
    cases hlisted
  | checked _ hlooked hmay =>
    have hallowed := hmay.resolve_left (by simp [hpolicy])
    cases hlooked with
    | literal hliteral' =>
      obtain rfl := Option.some.inj (hliteral.symm.trans hliteral')
      exact hallowed _ (List.mem_singleton_self _)
    | name hname _ =>
      rw [hname] at hliteral
      cases hliteral

/-- A dial goes wrong only through the dialer's own lookup of a name. -/
theorem opens_allowed_iff (hpolicy : options.allowPrivateNetworks = false)
    (hlist : ∀ host, options.allows lib host = false) (hproxy : ∀ host, net.proxy host = none) (h : Hop) :
    (∀ ip n, Opens lib options net h ip n → ip.isForbidden = false) ↔ DialsAllowed lib options net h := by
  have hhost : h.dialHost net = h.target.hostname := by rw [Hop.dialHost, hproxy]; rfl
  constructor
  · intro hall hsent hnew hname n addresses hpasses hanswer i ip hconnect hip
    refine hall ip (n + 1) ⟨hsent, hnew, ?_⟩
    rw [hhost]
    exact .connected hpasses (.name hname hanswer) hconnect hip
  · intro hdials ip n hopens
    obtain ⟨hsent, hnew, hdial⟩ := hopens
    rw [hhost] at hdial
    cases hdial with
    | connected hpasses hlooked hconnect hip =>
      cases hlooked with
      | literal hliteral =>
        obtain rfl := List.mem_singleton.1 (List.mem_of_getElem? hip)
        exact hpasses.literal_allowed hpolicy (hlist _) hliteral
      | name hname hanswer => exact hdials hsent hnew hname _ _ hpasses hanswer _ ip hconnect hip

/-- Private networks are not allowed, no entry of `AllowedHosts` matches and there is no proxy.  For every
payload, every chain of redirects and every resolver, no connection goes to a forbidden address if and only
if this holds of the requests the call comes to: once the check at the dial has passed, the dialer's own
lookup of the name gives it an allowed address to connect to. -/
theorem no_forbidden_connection (lib : TextLib) {options : ExecutorOptions} {net : Network}
    (hpolicy : options.allowPrivateNetworks = false) (hlist : ∀ host, options.allows lib host = false)
    (hproxy : ∀ host, net.proxy host = none) (j : WebhookJob) :
    (∀ ip ∈ (executeWebhook lib options net j .initial).2.opened, ip.isLoopback = false
      ∧ ip.isPrivate = false ∧ ip.isLinkLocalUnicast = false ∧ ip.isLinkLocalMulticast = false
      ∧ ip.isUnspecified = false) ↔
    ∀ h, Reached lib options net j h → DialsAllowed lib options net h := by
  have hforbidden : ∀ ip : IPAddr, (ip.isLoopback = false ∧ ip.isPrivate = false
      ∧ ip.isLinkLocalUnicast = false ∧ ip.isLinkLocalMulticast = false ∧ ip.isUnspecified = false)
        ↔ ip.isForbidden = false := by
    intro ip
    simp only [IPAddr.isForbidden, Bool.or_eq_false_iff]
    tauto
  simp only [hforbidden, executeWebhook_opened]
  constructor
  · intro hall h hreached
    exact (opens_allowed_iff hpolicy hlist hproxy h).1 fun ip n hopens => hall ip ⟨h, n, hreached, hopens⟩
  · rintro hdials ip ⟨h, n, hreached, hopens⟩
    exact (opens_allowed_iff hpolicy hlist hproxy h).2 (hdials h hreached) ip n hopens

namespace Demo

/-- An IPv4 address. -/
def ipv4 (v : BitVec 32) : IPAddr := ⟨0xFFFF#96 ++ v⟩

/-- The URLs of the examples. -/
def knownURLs : List URL :=
  [⟨"http", false, "webhook.example", "http://webhook.example/hook"⟩,
    ⟨"http", false, "intranet.example", "http://intranet.example/"⟩]

/-- The standard library, on the texts of the examples. -/
def exampleLib : TextLib where
  decodePayload payload :=
    if payload = "\x7b\"url\":\"http://webhook.example/hook\"\x7d" then
      some ⟨"http://webhook.example/hook", "", [], ""⟩
    else none
  parseURL text := knownURLs.find? (·.text = text)
  resolveReference _ text :=
    match knownURLs.find? (·.text = text) with
    | some target => .ok target
    | none => .error "parse error"
  parseIP _ := none
  equalFold a b := a.toLower == b.toLower
  toUpper text := text.toUpper
  quote text := "\"" ++ text ++ "\""
  urlError method url message := method.toLower.capitalize ++ " \"" ++ url ++ "\": " ++ message

/-- The defaults: no private networks, no host listed. -/
def strict : ExecutorOptions := ⟨[], false⟩

/-- Every request gets a new connection and the response `200`. -/
def quickNet (lookup : ℕ → String → Except LookupError (List IPAddr)) : Network where
  lookup := lookup
  proxy _ := none
  refuse _ := none
  reuse _ := false
  connect _ := .ok 0
  exchange _ := .ok ⟨200, "", "", [], none⟩
  build := none
  durationMS := 1

/-- A public address at every lookup. -/
def publicOnly (_ : ℕ) (_ : String) : Except LookupError (List IPAddr) := .ok [ipv4 0x5DB8D822]

/-- A public address for the two checks, the loopback address for the dial. -/
def rebinding (n : ℕ) (_ : String) : Except LookupError (List IPAddr) :=
  if n < 2 then .ok [ipv4 0x5DB8D822] else .ok [ipv4 0x7F000001]

/-- A job for a host. -/
def callHost : WebhookJob := ⟨1, 1, "\x7b\"url\":\"http://webhook.example/hook\"\x7d"⟩

end Demo

open Demo in
/-- The connection of a call to a host with a fixed public address. -/
theorem no_forbidden_connection_public :
    (executeWebhook exampleLib strict (quickNet publicOnly) callHost .initial).2.opened
        = [ipv4 0x5DB8D822]
      ∧ ∀ ip ∈ (executeWebhook exampleLib strict (quickNet publicOnly) callHost .initial).2.opened,
        ip.isLoopback = false ∧ ip.isPrivate = false ∧ ip.isLinkLocalUnicast = false
          ∧ ip.isLinkLocalMulticast = false ∧ ip.isUnspecified = false := by
  refine ⟨by decide +kernel, (no_forbidden_connection exampleLib rfl (fun _ => rfl) (fun _ => rfl)
    callHost).2 ?_⟩
  intro h _ _ _ _ n addresses _ hanswer i ip _ hip
  obtain rfl := Except.ok.inj hanswer
  rw [List.mem_singleton.1 (List.mem_of_getElem? hip)]
  decide

open Demo in
/-- With the default options, a resolver that answers the checks with a public address and the dial
with the loopback address gets the request sent to the loopback address. -/
theorem rebound_connection : strict.allowPrivateNetworks = false
    ∧ (∀ host, strict.allows exampleLib host = false)
    ∧ ∃ ip ∈ (executeWebhook exampleLib strict (quickNet rebinding) callHost .initial).2.opened,
      ip.isLoopback = true :=
  ⟨rfl, fun _ => rfl, by decide +kernel⟩

end JobScheduler
