import JobScheduler.WebhookTargets

/-!
# What the webhook executor reports

Two properties of the outcome of `Execute`, over every payload, resolver and exchange.

*Retryability.*  `WebhookCause.transient` says which causes are transient.  `validateHost` is reached on
three paths; the first one reports whatever it says as permanent, the other two as transient.

* `run_breaks_iff` — the errors of the client whose cause is not transient come from a request that
  `Breaks`.
* `retryable_iff_transient` — every error is classified by its cause if and only if the lookup for the
  payload's URL is answered and no request the call comes to breaks.
* `retryable_against_cause` — a name that does not resolve is dead-lettered at once, a redirect to a
  private address is tried again.

*Metadata.*  The excerpt of the response is quoted as JSON and stored as `jsonb`.

* `metadata_storable` — the metadata is accepted if and only if the excerpt has no zero byte.
-/

namespace JobScheduler

open Fallible Fallible.Comp

/-! ### Causes -/

/-- A failed lookup is transient, a target that breaks the rules is not. -/
def TargetError.transient : TargetError → Bool
  | .resolve _ => true
  | _ => false

def ClientError.transient : ClientError → Bool
  | .invalidRequest _ => false
  | .dialTarget cause => cause.transient
  | .dial _ => true
  | .exchange _ => true
  | .location _ _ => false
  | .tooManyRedirects => false
  | .redirectTarget cause => cause.transient

/-- A lookup, the context, a connection or a read failed, or the target asks for another try. -/
def WebhookCause.transient : WebhookCause → Bool
  | .payload => false
  | .url => false
  | .target cause => cause.transient
  | .method => false
  | .build _ => false
  | .client cause => cause.transient
  | .read _ => true
  | .status code => decide (code = 408 ∨ code = 429 ∨ code ≥ 500)

/-! ### Requests that break -/

section

variable (lib : TextLib) (options : ExecutorOptions) (net : Network)

/-- The lookup for the payload's URL fails. -/
def Unresolved (j : WebhookJob) : Prop :=
  ∃ payload target cause, lib.decodePayload j.payload = some payload
    ∧ lib.parseURL payload.url = some target ∧ target.Proper
    ∧ Rejects lib options net target.hostname 0 (.resolve cause)

/-- The request cannot succeed: the transport refuses it, the check at the dial meets a forbidden address,
or it is redirected to a `Location` that does not parse, once too often, or to a target that breaks the
rules. -/
inductive Breaks (h : Hop) : Prop where
  | refused {message : String} (hrefused : net.refuse h.index = some message)
  | rejected (hsent : net.refuse h.index = none) (hnew : net.reuse h.index = false)
      (hrejects : Rejects lib options net (h.dialHost net) h.lookups .privateAddress)
  | location {resp : HTTPResponse} {n : ℕ} {message : String}
      (hanswered : Answered lib options net h resp n) (hredirects : resp.redirects = true)
      (hnext : lib.resolveReference h.target resp.location = .error message)
  | limit {resp : HTTPResponse} {n : ℕ} {next : URL}
      (hanswered : Answered lib options net h resp n) (hredirects : resp.redirects = true)
      (hnext : lib.resolveReference h.target resp.location = .ok next) (hlast : 2 ≤ h.index)
  | target {resp : HTTPResponse} {n : ℕ} {next : URL}
      (hanswered : Answered lib options net h resp n) (hredirects : resp.redirects = true)
      (hnext : lib.resolveReference h.target resp.location = .ok next) (hleft : h.index < 2)
      (hunfit : ¬next.Proper ∨ Rejects lib options net next.hostname n .privateAddress)

end

variable {lib : TextLib} {options : ExecutorOptions} {net : Network} {host : String}
  {s s' : NetState} {h h' : Hop}

theorem Rejects.unique {n : ℕ} {e e' : TargetError} (hfirst : Rejects lib options net host n e)
    (hother : Rejects lib options net host n e') : e' = e := by
  obtain ⟨_, heq⟩ := Rejects.validateHost_eq (s := ⟨n, []⟩) hfirst
  obtain ⟨_, heq'⟩ := Rejects.validateHost_eq (s := ⟨n, []⟩) hother
  exact Except.error.inj (Prod.mk.inj (heq'.symm.trans heq)).1

/-- A check that fails is against the rules only if it meets a forbidden address. -/
theorem Rejects.transient_iff {n : ℕ} {e : TargetError} (hrejects : Rejects lib options net host n e) :
    e.transient = false ↔ Rejects lib options net host n .privateAddress := by
  constructor
  · intro he
    cases hrejects with
    | resolve => cases he
    | privateAddress hunlisted hpolicy hlooked hbad =>
      exact .privateAddress hunlisted hpolicy hlooked hbad
  · intro hprivate
    rw [← hrejects.unique hprivate]
    rfl

/-- A request that is not answered breaks if it is refused, or rejected at the dial. -/
theorem breaks_of_unanswered (hnone : ∀ resp n, ¬Answered lib options net h resp n) :
    Breaks lib options net h ↔ (∃ message, net.refuse h.index = some message)
      ∨ (net.refuse h.index = none ∧ net.reuse h.index = false
        ∧ Rejects lib options net (h.dialHost net) h.lookups .privateAddress) := by
  constructor
  · intro hbreaks
    cases hbreaks with
    | refused hrefused => exact Or.inl ⟨_, hrefused⟩
    | rejected hsent hnew hrejects => exact Or.inr ⟨hsent, hnew, hrejects⟩
    | location hanswered _ _ => exact absurd hanswered (hnone _ _)
    | limit hanswered _ _ _ => exact absurd hanswered (hnone _ _)
    | target hanswered _ _ _ _ => exact absurd hanswered (hnone _ _)
  · rintro (⟨message, hrefused⟩ | ⟨hsent, hnew, hrejects⟩)
    · exact .refused hrefused
    · exact .rejected hsent hnew hrejects

/-- A request that has a connection is neither. -/
theorem Connects.not_rejected {n : ℕ} (hconnects : Connects lib options net h n)
    (hnew : net.reuse h.index = false) (e : TargetError) :
    ¬Rejects lib options net (h.dialHost net) h.lookups e := by
  cases hconnects with
  | idle _ hidle =>
    rw [hnew] at hidle
    cases hidle
  | opened hopens =>
    cases hopens.dials with
    | connected hpasses _ _ _ => exact hpasses.not_rejects e

/-- A connection fails for good only if the check at the dial meets a forbidden address. -/
theorem getConn_error_transient (hs : s.lookups = h.lookups) {e : ClientError}
    (heq : getConn lib options net h.index h.target.hostname s = (.error e, s')) :
    e.transient = false ↔ net.reuse h.index = false
      ∧ Rejects lib options net (h.dialHost net) h.lookups .privateAddress := by
  unfold getConn at heq
  by_cases hidle : net.reuse h.index = true
  · rw [if_pos hidle] at heq
    cases heq
  · rw [if_neg hidle] at heq
    have hnew : net.reuse h.index = false := by simpa using hidle
    rw [and_iff_right hnew]
    rcases (transportDial_eq_error heq).2 with ⟨cause, rfl, hrejects⟩ | ⟨⟨message, rfl⟩, n, hpasses⟩
    · rw [hs] at hrejects
      exact hrejects.transient_iff
    · rw [hs] at hpasses
      exact iff_of_false (by simp [ClientError.transient]) (hpasses.not_rejects _)

/-- Where there is a connection, no check has failed. -/
theorem not_rejects_of_getConn (hs : s.lookups = h.lookups) {u : Unit}
    (heq : getConn lib options net h.index h.target.hostname s = (.ok u, s')) :
    ¬(net.reuse h.index = false
      ∧ Rejects lib options net (h.dialHost net) h.lookups .privateAddress) := by
  rintro ⟨hnew, hrejects⟩
  unfold getConn at heq
  rw [if_neg (by simp [hnew])] at heq
  obtain ⟨ip, hdials, -⟩ := transportDial_eq_ok.1 heq
  rw [hs] at hdials
  cases hdials with
  | connected hpasses _ _ _ => exact hpasses.not_rejects _ hrejects

theorem roundTrip_error_transient (hs : s.lookups = h.lookups) {e : ClientError}
    (heq : roundTrip lib options net h.index h.target.hostname s = (.error e, s')) :
    e.transient = false ↔ Breaks lib options net h := by
  have hnone : ∀ resp n, ¬Answered lib options net h resp n := by
    intro resp n hanswered
    obtain ⟨_, -, hok⟩ := hanswered.roundTrip_eq hs
    rw [hok] at heq
    cases heq
  rw [breaks_of_unanswered hnone]
  cases hrefuse : net.refuse h.index with
  | some message =>
    unfold roundTrip at heq
    rw [hrefuse] at heq
    obtain rfl := Except.error.inj (Prod.mk.inj heq).1
    simp [ClientError.transient]
  | none =>
    rw [roundTrip_of_sent hrefuse] at heq
    simp only [reduceCtorEq, exists_false, false_or, true_and]
    rcases bind_eq_error.1 heq with hfailed | ⟨_, s₁, hget, hexchange⟩
    · exact getConn_error_transient hs hfailed
    · -- there was a connection, and the exchange over it failed
      obtain ⟨hcause, -⟩ := ofExcept_eq.1 hexchange
      cases hresp : net.exchange h.index with
      | ok resp =>
        rw [hresp] at hcause
        cases hcause
      | error cause =>
        rw [hresp] at hcause
        obtain rfl := Except.error.inj hcause
        simp [ClientError.transient, not_rejects_of_getConn hs hget]

/-- A request that is answered breaks only by its answer. -/
theorem Answered.breaks_iff {resp : HTTPResponse} {n : ℕ} (hanswered : Answered lib options net h resp n) :
    Breaks lib options net h ↔ resp.redirects = true
      ∧ ∀ next, lib.resolveReference h.target resp.location = .ok next → h.index < 2 →
        ¬next.Proper ∨ Rejects lib options net next.hostname n .privateAddress := by
  constructor
  · intro hbreaks
    cases hbreaks with
    | refused hrefused =>
      rw [hanswered.connects.sent] at hrefused
      cases hrefused
    | rejected _ hnew hrejects => exact absurd hrejects (hanswered.connects.not_rejected hnew _)
    | location hanswered' hredirects hnext =>
      obtain ⟨rfl, rfl⟩ := hanswered.unique hanswered'
      refine ⟨hredirects, fun next hnext' => ?_⟩
      rw [hnext] at hnext'
      cases hnext'
    | limit hanswered' hredirects _ hlast =>
      obtain ⟨rfl, rfl⟩ := hanswered.unique hanswered'
      exact ⟨hredirects, fun _ _ hleft => absurd hleft (by omega)⟩
    | target hanswered' hredirects hnext _ hunfit =>
      obtain ⟨rfl, rfl⟩ := hanswered.unique hanswered'
      refine ⟨hredirects, fun next hnext' _ => ?_⟩
      obtain rfl := Except.ok.inj (hnext.symm.trans hnext')
      exact hunfit
  · rintro ⟨hredirects, hunfit⟩
    cases hnext : lib.resolveReference h.target resp.location with
    | error message => exact .location hanswered hredirects hnext
    | ok next =>
      by_cases hleft : h.index < 2
      · exact .target hanswered hredirects hnext hleft (hunfit next hnext hleft)
      · exact .limit hanswered hredirects hnext (by omega)

theorem Follows.not_breaks (hfollows : Follows lib options net h h') : ¬Breaks lib options net h := by
  cases hfollows with
  | redirect hanswered _ hnext hleft hproper hpasses =>
    intro hbreaks
    rcases (hanswered.breaks_iff.1 hbreaks).2 _ hnext hleft with himproper | hrejects
    · exact himproper hproper
    · exact hpasses.not_rejects _ hrejects

/-- An error of the client that no other try will mend. -/
def FailsForGood (r : Except URLError HTTPResponse × NetState) : Prop :=
  ∃ e, r.1 = .error e ∧ e.cause.transient = false

/-- `validateURL` fails for good on a target that is not proper or has a forbidden address. -/
theorem validateURL_error_transient {target : URL} {e : TargetError}
    (heq : validateURL lib options net target s = (.error e, s')) :
    e.transient = false
      ↔ ¬target.Proper ∨ Rejects lib options net target.hostname s.lookups .privateAddress := by
  by_cases hproper : target.Proper
  · rw [hproper.validateURL_eq] at heq
    simp only [hproper, not_true_eq_false, false_or]
    exact (validateHost_eq_error heq).1.transient_iff
  · obtain ⟨e', he', hfail⟩ := validateURL_of_not_proper lib options net hproper
    rw [hfail] at heq
    obtain rfl := Except.error.inj (fail_eq.1 heq).1
    refine iff_of_true ?_ (Or.inl hproper)
    rcases he' with rfl | rfl | rfl <;> rfl

/-- The last request of a call: it breaks if and only if the client fails for good. -/
theorem failsForGood_of_last (hnone : ∀ h', ¬Follows lib options net h h') (hs : s.lookups = h.lookups) :
    FailsForGood (h.run lib options net s) ↔ Breaks lib options net h := by
  rw [Hop.run_eq]
  by_cases hanswer : ∃ resp n, Answered lib options net h resp n
  · obtain ⟨resp, n, hanswered⟩ := hanswer
    obtain ⟨opened, -, hround⟩ := hanswered.roundTrip_eq hs
    rw [bind_of_ok (mapError_eq_ok.2 hround), Hop.respond, hanswered.breaks_iff]
    by_cases hredirects : resp.redirects = false
    · rw [if_pos hredirects]
      refine iff_of_false ?_ (by simp [hredirects])
      rintro ⟨e, he, -⟩
      cases he
    rw [if_neg hredirects, and_iff_right (by simpa using hredirects)]
    cases hnext : lib.resolveReference h.target resp.location with
    | error message => exact iff_of_true ⟨_, rfl, rfl⟩ (by simp)
    | ok next =>
      by_cases hleft : h.index < 2
      · simp only [if_pos hleft]
        simp only [Except.ok.injEq, forall_eq', hleft, true_imp_iff]
        cases hvalid : validateURL lib options net next ⟨n, opened⟩ with
        | mk r s' =>
          cases r with
          | ok u =>
            obtain ⟨hproper, hpasses, -⟩ := validateURL_eq_ok.1 hvalid
            exact absurd (.redirect hanswered (by simpa using hredirects) hnext hleft hproper hpasses)
              (hnone _)
          | error e =>
            rw [bind_of_error (mapError_eq_error.2 ⟨e, hvalid, rfl⟩),
              ← validateURL_error_transient hvalid]
            simp [FailsForGood, ClientError.transient]
      · simp only [if_neg hleft]
        exact iff_of_true ⟨_, rfl, rfl⟩ fun _ _ h2 => absurd h2 hleft
  · obtain ⟨e, s', -, hround⟩ :=
      roundTrip_of_unanswered hs fun resp n hanswered => hanswer ⟨resp, n, hanswered⟩
    rw [bind_of_error (mapError_eq_error.2 ⟨e, hround, rfl⟩), ← roundTrip_error_transient hs hround]
    simp [FailsForGood]

/-- Along the redirects; the induction is on those that are left. -/
theorem run_breaks_iff (hs : s.lookups = h.lookups) : FailsForGood (h.run lib options net s)
    ↔ ∃ h', Leads lib options net h h' ∧ Breaks lib options net h' := by
  induction hleft : 2 - h.index using Nat.strong_induction_on generalizing h s with
  | _ left ih =>
    by_cases hnext : ∃ h', Follows lib options net h h'
    · obtain ⟨h', hfollows⟩ := hnext
      obtain ⟨s', hs', -, heq⟩ := hfollows.run_eq hs
      have hindex := hfollows.index_eq
      rw [heq, ih (2 - h'.index) (by omega) hs' rfl]
      constructor
      · rintro ⟨h'', hleads, hbreaks⟩
        exact ⟨h'', hleads.head hfollows, hbreaks⟩
      · rintro ⟨h'', hleads, hbreaks⟩
        rcases hleads.cases_head with rfl | ⟨h₁, hfirst, hrest⟩
        · exact absurd hbreaks hfollows.not_breaks
        · obtain rfl := hfollows.unique hfirst
          exact ⟨h'', hrest, hbreaks⟩
    · have hnone := not_exists.1 hnext
      rw [failsForGood_of_last hnone hs]
      refine ⟨fun hbreaks => ⟨h, .refl, hbreaks⟩, ?_⟩
      rintro ⟨h', hleads, hbreaks⟩
      rcases hleads.cases_head with rfl | ⟨h₁, hfirst, -⟩
      · exact hbreaks
      · exact absurd hfirst (hnone h₁)

/-! ### Retryability -/

/-- `ClassifyError` says of every error of the call whether its cause is transient. -/
def ClassifiedByCause (lib : TextLib) (options : ExecutorOptions) (net : Network) (j : WebhookJob) : Prop :=
  ∀ f s, executeWebhook lib options net j .initial = (.error f, s) →
    ((classifyError f.error.toExecError).retryable = true ↔ f.cause.transient = true)

theorem retryable_toExecError (e : ExecutionError) :
    (classifyError e.toExecError).retryable = e.retryable := rfl

theorem finishResponse_retryable {resp : HTTPResponse} {durationMS : Int} {f : WebhookFailure}
    (heq : finishResponse resp durationMS = .error f) : f.error.retryable = f.cause.transient := by
  unfold finishResponse at heq
  split at heq
  · obtain rfl := Except.error.inj heq
    rfl
  · dsimp only at heq
    split at heq
    · cases heq
    · obtain rfl := Except.error.inj heq
      rfl

variable {j : WebhookJob}

/-- Once there is a request, the client's errors are the only ones that can be misjudged: all of them are
reported as retryable. -/
theorem Starts.classified_iff (hstarts : Starts lib options net j h) :
    ClassifiedByCause lib options net j ↔ ¬FailsForGood (h.run lib options net ⟨h.lookups, []⟩) := by
  obtain ⟨method, heq⟩ := hstarts.executeWebhook_eq
  unfold ClassifiedByCause
  rw [heq]
  unfold Hop.deliver
  cases hrun : h.run lib options net ⟨h.lookups, []⟩ with
  | mk r s =>
    cases r with
    | ok resp =>
      rw [bind_of_ok (mapError_eq_ok.2 hrun)]
      refine iff_of_true ?_ (by simp [FailsForGood])
      intro f s' hfailed
      rw [retryable_toExecError, finishResponse_retryable (ofExcept_eq.1 hfailed).1]
    | error e =>
      rw [bind_of_error (mapError_eq_error.2 ⟨e, hrun, rfl⟩)]
      constructor
      · rintro hright ⟨e', he', hpermanent⟩
        obtain rfl := Except.error.inj he'
        have htransient : e.cause.transient = true := (hright _ _ rfl).1 rfl
        rw [hpermanent] at htransient
        cases htransient
      · intro htransient f s' hfailed
        obtain rfl := Except.error.inj (Prod.mk.inj hfailed).1
        refine iff_of_true rfl ?_
        by_contra hpermanent
        exact htransient ⟨e, rfl, Bool.eq_false_iff.2 hpermanent⟩

/-- Before the first request everything is reported as permanent, and only a failed lookup is not. -/
theorem Declines.transient_iff {cause : WebhookCause} (hdeclines : Declines lib options net j cause) :
    cause.transient = true ↔ Unresolved lib options net j := by
  constructor
  · intro htransient
    cases hdeclines with
    | payload | url | method | build => cases htransient
    | improper _ _ _ he => rcases he with rfl | rfl | rfl <;> cases htransient
    | rejected hpayload hurl hproper hrejects =>
      cases hrejects with
      | privateAddress => cases htransient
      | resolve hunlisted hname hanswer =>
        exact ⟨_, _, _, hpayload, hurl, hproper, .resolve hunlisted hname hanswer⟩
  · rintro ⟨payload, target, cause, hpayload, hurl, hproper, hrejects⟩
    cases hdeclines with
    | payload hpayload' =>
      rw [hpayload] at hpayload'
      cases hpayload'
    | url hpayload' hurl' =>
      obtain rfl := Option.some.inj (hpayload.symm.trans hpayload')
      rw [hurl] at hurl'
      cases hurl'
    | improper hpayload' hurl' himproper _ =>
      obtain rfl := Option.some.inj (hpayload.symm.trans hpayload')
      obtain rfl := Option.some.inj (hurl.symm.trans hurl')
      exact absurd hproper himproper
    | rejected hpayload' hurl' _ hrejects' =>
      obtain rfl := Option.some.inj (hpayload.symm.trans hpayload')
      obtain rfl := Option.some.inj (hurl.symm.trans hurl')
      rw [hrejects.unique hrejects']
      rfl
    | method hpayload' hurl' hpasses _ | build hpayload' hurl' hpasses _ =>
      obtain rfl := Option.some.inj (hpayload.symm.trans hpayload')
      obtain rfl := Option.some.inj (hurl.symm.trans hurl')
      exact absurd hrejects (hpasses.not_rejects _)

theorem Starts.not_unresolved (hstarts : Starts lib options net j h) : ¬Unresolved lib options net j := by
  rintro ⟨payload, target, cause, hpayload, hurl, -, hrejects⟩
  cases hstarts with
  | first hpayload' hurl' _ hpasses _ _ =>
    obtain rfl := Option.some.inj (hpayload.symm.trans hpayload')
    obtain rfl := Option.some.inj (hurl.symm.trans hurl')
    exact hpasses.not_rejects _ hrejects

/-- For every payload, resolver, context and exchange: every error is classified as its cause asks if and
only if the lookup for the payload's URL does not fail and no request that the call comes to breaks. -/
theorem retryable_iff_transient (lib : TextLib) (options : ExecutorOptions) (net : Network)
    (j : WebhookJob) :
    (∀ f s, executeWebhook lib options net j .initial = (.error f, s) →
      ((classifyError f.error.toExecError).retryable = true ↔ f.cause.transient = true)) ↔
    ¬Unresolved lib options net j ∧ ∀ h, Reached lib options net j h → ¬Breaks lib options net h := by
  change ClassifiedByCause lib options net j ↔ _
  by_cases hstart : ∃ first, Starts lib options net j first
  · obtain ⟨first, hstarts⟩ := hstart
    rw [hstarts.classified_iff, run_breaks_iff rfl, and_iff_right hstarts.not_unresolved]
    constructor
    · rintro hnone h ⟨first', hstarts', hleads⟩ hbreaks
      obtain rfl := hstarts.unique hstarts'
      exact hnone ⟨h, hleads, hbreaks⟩
    · rintro hnone ⟨h, hleads, hbreaks⟩
      exact hnone h ⟨first, hstarts, hleads⟩ hbreaks
  · obtain ⟨cause, code, message, s, hdeclines, -, heq⟩ :=
      executeWebhook_of_not_starts (not_exists.1 hstart)
    rw [← hdeclines.transient_iff]
    constructor
    · intro hright
      refine ⟨fun htransient => ?_, fun h hreached => absurd ⟨_, hreached.choose_spec.1⟩ hstart⟩
      cases (hright _ s heq).2 htransient
    · rintro ⟨hpermanent, -⟩ f s' hfailed
      obtain rfl := Except.error.inj (Prod.mk.inj (heq.symm.trans hfailed)).1
      exact iff_of_false (by simp [retryable_toExecError, WebhookFailure.plain]) hpermanent

namespace Demo

/-- A resolver that does not know the host. -/
def unknownHost (_ : ℕ) (_ : String) : Except LookupError (List IPAddr) := .error (.dns "no such host")

/-- A public address, except for one host. -/
def privateIntranet (_ : ℕ) (host : String) : Except LookupError (List IPAddr) :=
  if host = "intranet.example" then .ok [ipv4 0x0A000001] else .ok [ipv4 0x5DB8D822]

/-- The target answers with this. -/
def answering (lookup : ℕ → String → Except LookupError (List IPAddr)) (resp : HTTPResponse) : Network :=
  { quickNet lookup with exchange := fun _ => .ok resp }

/-- A run of `Execute` on these networks: the cause of its error, and whether it is retryable. -/
def verdict (net : Network) : Option (WebhookCause × Bool) :=
  match (executeWebhook exampleLib strict net callHost .initial).1 with
  | .ok _ => none
  | .error f => some (f.cause, (classifyError f.error.toExecError).retryable)

end Demo

open Demo in
/-- A target with a fixed public address that answers `503`. -/
theorem retryable_iff_transient_503 :
    verdict (answering publicOnly ⟨503, "", "", [], none⟩) = some (.status 503, true)
      ∧ ∀ f s, executeWebhook exampleLib strict (answering publicOnly ⟨503, "", "", [], none⟩) callHost
          .initial = (.error f, s) →
        ((classifyError f.error.toExecError).retryable = true ↔ f.cause.transient = true) := by
  have hrejects : ∀ host n e,
      ¬Rejects exampleLib strict (answering publicOnly ⟨503, "", "", [], none⟩) host n e := by
    intro host n e hrejects
    cases hrejects with
    | resolve _ _ hanswer => cases hanswer
    | privateAddress _ _ hlooked hbad =>
      cases hlooked with
      | literal hliteral => cases hliteral
      | name _ hanswer =>
        obtain rfl := Except.ok.inj hanswer
        exact hbad (by decide)
  have hstays : ∀ h resp n,
      Answered exampleLib strict (answering publicOnly ⟨503, "", "", [], none⟩) h resp n →
        resp.redirects ≠ true := by
    intro h resp n hanswered
    obtain rfl := Except.ok.inj hanswered.response
    decide
  refine ⟨by decide +kernel, (retryable_iff_transient _ _ _ _).2 ⟨?_, fun h _ hbreaks => ?_⟩⟩
  · rintro ⟨_, _, _, -, -, -, hunresolved⟩
    exact hrejects _ _ _ hunresolved
  · cases hbreaks with
    | refused hrefused => cases hrefused
    | rejected _ _ hrejected => exact hrejects _ _ _ hrejected
    | location hanswered hredirects _ => exact hstays _ _ _ hanswered hredirects
    | limit hanswered hredirects _ _ => exact hstays _ _ _ hanswered hredirects
    | target hanswered hredirects _ _ _ => exact hstays _ _ _ hanswered hredirects

open Demo in
/-- A host that cannot be resolved just now is given up for good; a redirect to a private address is
tried again. -/
theorem retryable_against_cause :
    verdict (quickNet unknownHost) = some (.target (.resolve (.dns "no such host")), false)
      ∧ verdict (answering privateIntranet ⟨302, "http://intranet.example/", "", [], none⟩)
        = some (.client (.redirectTarget .privateAddress), true) := by
  decide +kernel

/-! ### Metadata -/

/-- PostgreSQL's `jsonb`: JSON without an escaped zero character. -/
def jsonbAccepts (doc : List UInt8) : Bool := Json.valid doc && !Json.hasNulEscape doc

open Json in
/-- The object is read member by member. -/
theorem valid_marshalMetadata (statusCode durationMS : Int) (excerpt : List UInt8) (truncated : Bool) :
    valid (marshalMetadata statusCode durationMS excerpt truncated) = true := by
  have hcomma : EndsNumber 0x2C := by unfold EndsNumber; decide
  have hbrace : EndsNumber 0x7D := by unfold EndsNumber; decide
  have hfirst : scan ⟨.beginValue, []⟩ (text "\x7b\"duration_ms\":")
      = some ⟨.beginValue, [.objectValue]⟩ := by decide
  have hexcerpt : text ",\"response_excerpt\":" = 0x2C :: text "\"response_excerpt\":" := by decide
  have hmember : afterValue [.objectValue] 0x2C = some ⟨.beginString, [.objectKey]⟩ := by decide
  have hname : scan ⟨.beginString, [.objectKey]⟩ (text "\"response_excerpt\":")
      = some ⟨.beginValue, [.objectValue]⟩ := by decide
  have htruncated : scan ⟨.endValue, [.objectValue]⟩ (text ",\"response_truncated\":")
      = some ⟨.beginValue, [.objectValue]⟩ := by decide
  have hstatus : scan ⟨.endValue, [.objectValue]⟩ (text ",\"status_code\":")
      = some ⟨.beginValue, [.objectValue]⟩ := by decide
  have hlast : text "\x7d" ++ [0x20] = [0x7D, 0x20] := by decide
  have hclose : afterValue [.objectValue] 0x7D = some ⟨.endValue, []⟩ := by decide
  have hblank : scan ⟨.endValue, []⟩ [0x20] = some ⟨.endValue, []⟩ := by decide
  have hdoc : scan ⟨.beginValue, []⟩ (marshalMetadata statusCode durationMS excerpt truncated ++ [0x20])
      = some ⟨.endValue, []⟩ := by
    simp only [marshalMetadata, List.append_assoc]
    rw [scan_append_of hfirst, hexcerpt, List.cons_append, scan_itoa durationMS hcomma, hmember,
      Option.bind_some, scan_append_of hname, scan_append_of (scan_quote excerpt),
      scan_append_of htruncated, scan_append_of (scan_boolText truncated), scan_append_of hstatus, hlast,
      scan_itoa statusCode hbrace, hclose, Option.bind_some, hblank]
  rw [valid, hdoc, beq_self_eq_true]

open Json in
/-- The members in front of the excerpt hold no escape. -/
theorem quiet_durationMember (durationMS : Int) :
    Quiet (text "\x7b\"duration_ms\":" ++ itoa durationMS ++ text ",\"response_excerpt\":") :=
  (((quiet_of_plain (by decide) : Quiet (text "\x7b\"duration_ms\":")).append (quiet_itoa _)).append
    (quiet_of_plain (by decide)))

open Json in
theorem quiet_marshalMetadata (statusCode durationMS : Int) {excerpt : List UInt8}
    (h : (0 : UInt8) ∉ excerpt) (truncated : Bool) :
    Quiet (marshalMetadata statusCode durationMS excerpt truncated) := by
  have htext : ∀ s : String, (0x5C : UInt8) ∉ text s → Quiet (text s) := fun _ => quiet_of_plain
  have hfront := (quiet_durationMember durationMS).append (quiet_quote h)
  have hmembers := (hfront.append (htext ",\"response_truncated\":" (by decide))).append
    (quiet_boolText truncated)
  have hstatus := (hmembers.append (htext ",\"status_code\":" (by decide))).append
    (quiet_itoa statusCode)
  exact hstatus.append (htext "\x7d" (by decide))

open Json in
/-- The metadata can be stored if and only if the excerpt has no zero byte. -/
theorem storable_marshalMetadata_iff (statusCode durationMS : Int) (excerpt : List UInt8)
    (truncated : Bool) :
    jsonbAccepts (marshalMetadata statusCode durationMS excerpt truncated) = true
      ↔ (0 : UInt8) ∉ excerpt := by
  rw [jsonbAccepts, valid_marshalMetadata, Bool.true_and, Bool.not_eq_true']
  constructor
  · intro hquiet hzero
    rw [marshalMetadata, List.append_assoc, List.append_assoc, List.append_assoc, List.append_assoc,
      List.append_assoc, quiet_durationMember, hasNulEscape_quote hzero] at hquiet
    cases hquiet
  · intro hzero
    exact (quiet_marshalMetadata statusCode durationMS hzero truncated).hasNulEscape_eq

theorem readExcerpt_take {resp : HTTPResponse} {excerpt : List UInt8} (h : readExcerpt resp = .ok excerpt) :
    excerpt.take 4096 = resp.body.take 4096 := by
  unfold readExcerpt at h
  split at h
  · have hmin : min 4096 4097 = 4096 := by decide
    rw [← Except.ok.inj h, List.take_take, hmin]
  · split at h
    · cases h
    · rw [← Except.ok.inj h]

/-- The metadata describes the response, as far as it is kept. -/
def Describes (metadata : List UInt8) (resp : HTTPResponse) : Prop :=
  ∃ durationMS truncated,
    metadata = marshalMetadata resp.statusCode durationMS (resp.body.take 4096) truncated

theorem Describes.storable_iff {metadata : List UInt8} {resp : HTTPResponse} (h : Describes metadata resp) :
    jsonbAccepts metadata = true ↔ (0 : UInt8) ∉ resp.body.take 4096 := by
  obtain ⟨durationMS, truncated, rfl⟩ := h
  exact storable_marshalMetadata_iff _ _ _ _

theorem finishResponse_describes (resp : HTTPResponse) (durationMS : Int) :
    (∀ metadata, finishResponse resp durationMS = .ok metadata → Describes metadata resp)
      ∧ ∀ f, finishResponse resp durationMS = .error f →
        f.error.metadata = [] ∨ Describes f.error.metadata resp := by
  unfold finishResponse
  cases hread : readExcerpt resp with
  | error message =>
    refine ⟨fun _ heq => (by cases heq), fun f heq => ?_⟩
    obtain rfl := Except.error.inj heq
    exact Or.inl rfl
  | ok excerpt =>
    have hdescribes : Describes (marshalMetadata resp.statusCode durationMS (excerpt.take 4096)
        (decide (excerpt.length > 4096))) resp := by
      rw [readExcerpt_take hread]
      exact ⟨durationMS, _, rfl⟩
    dsimp only
    split
    · refine ⟨fun metadata heq => ?_, fun _ heq => by cases heq⟩
      obtain rfl := Except.ok.inj heq
      exact hdescribes
    · refine ⟨fun _ heq => (by cases heq), fun f heq => ?_⟩
      obtain rfl := Except.error.inj heq
      exact Or.inr hdescribes

theorem roundTrip_exchange {k : ℕ} {resp : HTTPResponse}
    (heq : roundTrip lib options net k host s = (.ok resp, s')) : net.exchange k = .ok resp := by
  unfold roundTrip at heq
  obtain ⟨_, _, -, heq⟩ := bind_eq_ok.1 heq
  obtain ⟨_, _, -, heq⟩ := bind_eq_ok.1 heq
  obtain ⟨hresp, -⟩ := ofExcept_eq.1 heq
  cases hexchange : net.exchange k with
  | ok resp' =>
    rw [hexchange] at hresp
    rw [Except.ok.inj hresp]
  | error cause =>
    rw [hexchange] at hresp
    cases hresp

/-- A response is that of the request, or comes from the redirect that was followed. -/
theorem doRequest_eq_ok {left k : ℕ} {target : URL} {resp : HTTPResponse}
    (heq : doRequest lib options net left k target s = (.ok resp, s')) : net.exchange k = .ok resp
      ∨ ∃ rest next s₁, left = rest + 1
        ∧ doRequest lib options net rest (k + 1) next s₁ = (.ok resp, s') := by
  unfold doRequest at heq
  obtain ⟨first, s₁, hround, heq⟩ := bind_eq_ok.1 heq
  by_cases hredirects : first.redirects = false
  · rw [if_pos hredirects] at heq
    obtain rfl := Except.ok.inj (pure_eq.1 heq).1
    exact Or.inl (roundTrip_exchange (mapError_eq_ok.1 hround))
  · rw [if_neg hredirects] at heq
    cases hnext : lib.resolveReference target first.location with
    | error message =>
      rw [hnext] at heq
      cases heq
    | ok next =>
      rw [hnext] at heq
      cases left with
      | zero => cases heq
      | succ rest =>
        obtain ⟨_, s₂, -, heq⟩ := bind_eq_ok.1 heq
        exact Or.inr ⟨rest, next, s₂, rfl, heq⟩

/-- Whatever holds before, a response that is returned is one the target sent. -/
theorem doRequest_exchange {left k : ℕ} {target : URL} {resp : HTTPResponse}
    (heq : doRequest lib options net left k target s = (.ok resp, s')) :
    ∃ k, net.exchange k = .ok resp := by
  induction left generalizing k target s with
  | zero =>
    rcases doRequest_eq_ok heq with hresp | ⟨rest, _, _, hleft, -⟩
    · exact ⟨k, hresp⟩
    · cases hleft
  | succ left ih =>
    rcases doRequest_eq_ok heq with hresp | ⟨rest, next, s₁, hleft, hrest⟩
    · exact ⟨k, hresp⟩
    · obtain rfl := Nat.succ.inj hleft
      exact ih hrest

/-- `Execute` hands over what `finishResponse` makes of a response, or has no metadata. -/
theorem executeWebhook_response {r : Except WebhookFailure (List UInt8)}
    (heq : executeWebhook lib options net j s = (r, s')) :
    (∃ f, r = .error f ∧ f.error.metadata = [])
      ∨ ∃ k resp, net.exchange k = .ok resp ∧ finishResponse resp net.durationMS = r := by
  unfold executeWebhook at heq
  cases hpayload : lib.decodePayload j.payload with
  | none =>
    rw [hpayload] at heq
    exact Or.inl ⟨_, (Prod.mk.inj heq).1.symm, rfl⟩
  | some payload =>
    rw [hpayload] at heq
    cases hurl : lib.parseURL payload.url with
    | none =>
      simp only [hurl] at heq
      exact Or.inl ⟨_, (Prod.mk.inj heq).1.symm, rfl⟩
    | some target =>
      simp only [hurl] at heq
      rcases mapError_bind_cases heq with ⟨e, -, rfl⟩ | ⟨_, s₁, -, heq⟩
      · exact Or.inl ⟨_, rfl, rfl⟩
      rcases failIf_bind_cases heq with ⟨f, hf, rfl⟩ | ⟨-, heq⟩
      · obtain ⟨-, hplain⟩ := Option.ite_none_left_eq_some.1 hf
        obtain rfl := Option.some.inj hplain
        exact Or.inl ⟨_, rfl, rfl⟩
      rcases failIf_bind_cases heq with ⟨f, hf, rfl⟩ | ⟨-, heq⟩
      · obtain ⟨message, -, rfl⟩ := Option.map_eq_some_iff.1 hf
        exact Or.inl ⟨_, rfl, rfl⟩
      rcases mapError_bind_cases heq with ⟨e, -, rfl⟩ | ⟨resp, s₂, hrun, heq⟩
      · exact Or.inl ⟨_, rfl, rfl⟩
      obtain ⟨k, hresp⟩ := doRequest_exchange hrun
      exact Or.inr ⟨k, resp, hresp, (ofExcept_eq.1 heq).1⟩

/-- For every status code and every response body: the metadata `Execute` returns describes a response
of the target, and `jsonb` accepts it if and only if the first 4096 bytes of the body have no zero byte.
The same holds for what an error carries, if it carries any. -/
theorem metadata_storable (lib : TextLib) (options : ExecutorOptions) (net : Network) (j : WebhookJob)
    (s : NetState) :
    (∀ metadata s', executeWebhook lib options net j s = (.ok metadata, s') →
        ∃ k resp, net.exchange k = .ok resp ∧ Describes metadata resp ∧
          (jsonbAccepts metadata = true ↔ (0 : UInt8) ∉ resp.body.take 4096))
      ∧ ∀ f s', executeWebhook lib options net j s = (.error f, s') →
        f.error.metadata = [] ∨ ∃ k resp, net.exchange k = .ok resp ∧ Describes f.error.metadata resp ∧
          (jsonbAccepts f.error.metadata = true ↔ (0 : UInt8) ∉ resp.body.take 4096) := by
  refine ⟨fun metadata s' hexec => ?_, fun f s' hexec => ?_⟩
  · rcases executeWebhook_response hexec with ⟨f, herror, -⟩ | ⟨k, resp, hresp, hfinish⟩
    · cases herror
    · have hdescribes := (finishResponse_describes resp _).1 metadata hfinish
      exact ⟨k, resp, hresp, hdescribes, hdescribes.storable_iff⟩
  · rcases executeWebhook_response hexec with ⟨f', herror, hnone⟩ | ⟨k, resp, hresp, hfinish⟩
    · obtain rfl := Except.error.inj herror
      exact Or.inl hnone
    · rcases (finishResponse_describes resp _).2 f hfinish with hnone | hdescribes
      · exact Or.inl hnone
      · exact Or.inr ⟨k, resp, hresp, hdescribes, hdescribes.storable_iff⟩

open Demo in
/-- A zero byte in the body of a `200`: the metadata has an escaped zero character. -/
theorem metadata_of_zero_byte :
    ((executeWebhook exampleLib strict (answering publicOnly ⟨200, "", "", [0], none⟩) callHost
      .initial).1.toOption.map jsonbAccepts) = some false := by
  decide +kernel

end JobScheduler
