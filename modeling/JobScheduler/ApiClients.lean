import JobScheduler.CreateRequest
import JobScheduler.Library.KeyedTable
import JobScheduler.Library.Transaction
import JobScheduler.Library.TransitionSystem
import JobScheduler.Library.Utf8
import Mathlib.Data.List.DropRight

/-!
# API clients

`internal/auth/auth.go`: the table `api_clients`, `Authenticate`, `CreateClient` and `RevokeClient`.
The table carries its constraints: ids and key hashes are unique, every client has a tenant.  The hash
is any function of the key; nothing here needs it to be injective.

* `authenticate_row` — the key of a live row authenticates as that row.
* `Retired.step` — a client that was revoked stays so, whatever is done later.
* `created_client_served_iff` — a client that `CreateClient` returns is the one that was asked for,
  unless its key was there already for another one; a revoked client is never authenticated again.
* `client_returned_is_another` — a supplied key that a client of another tenant has, or a revoked one,
  is no error.
-/

namespace JobScheduler

open KeyedTable Transaction TransitionSystem

/-! ### The table -/

/-- `Role`, as the `CHECK` of the column allows it. -/
inductive Role where
  | viewer
  | operator
  | admin
  deriving DecidableEq

def Role.text : Role → String
  | .viewer => "viewer"
  | .operator => "operator"
  | .admin => "admin"

def Role.parse (text : String) : Option Role :=
  [Role.viewer, .operator, .admin].find? fun role => role.text = text

/-- A row of `api_clients`. -/
structure ApiClient where
  id : UUID
  tenantID : UUID
  name : String
  keyPrefix : String
  keyHash : String
  role : Role
  enabled : Bool
  lastUsedAt : Option Time
  revokedAt : Option Time

instance : Keyed ApiClient UUID := ⟨ApiClient.id⟩

/-- The slugs of the tenants, and the clients under the constraints of the table. -/
structure AuthStore where
  tenants : UUID → Option String
  clients : Table ApiClient
  /-- `key_hash … UNIQUE`. -/
  unique : (clients.rows.map ApiClient.keyHash).Nodup
  /-- `REFERENCES tenants(id)`. -/
  housed : ∀ c ∈ clients.rows, (tenants c.tenantID).isSome = true

inductive AuthError where
  /-- `ErrUnauthorized`. -/
  | unauthorized
  /-- `crypto/rand` failed. -/
  | random
  | noRows
  | postgres (code : String)
  | connection
  deriving DecidableEq

abbrev AuthTx := Tx AuthStore AuthError

/-- `unique_violation`. -/
def duplicateRow : AuthError := .postgres "23505"

/-- `INSERT INTO api_clients`: the unique indexes are checked before the foreign key. -/
def insertRow (c : ApiClient) : AuthTx Unit := fun s =>
  match hins : s.clients.insert c with
  | none => .error duplicateRow
  | some clients =>
    if hhash : c.keyHash ∈ s.clients.rows.map ApiClient.keyHash then .error duplicateRow
    else if htenant : (s.tenants c.tenantID).isSome = true then
      .ok ((), {
        tenants := s.tenants
        clients
        unique := by
          rw [(Table.insert_eq_some hins).2, List.map_append, List.nodup_append]
          refine ⟨s.unique, by simp, ?_⟩
          intro a ha b hb hab
          obtain rfl : b = c.keyHash := by simpa using hb
          exact hhash (hab ▸ ha)
        housed := by
          intro c' hc'
          rcases (Table.mem_insert hins).1 hc' with hold | rfl
          · exact s.housed c' hold
          · exact htenant })
    else .error (.postgres "23503")

/-- An update that leaves ids, tenants and hashes alone. -/
def AuthStore.update (s : AuthStore) (id : UUID) (f : ApiClient → ApiClient)
    (hid : ∀ c, (f c).id = c.id) (htenant : ∀ c, (f c).tenantID = c.tenantID)
    (hhash : ∀ c, (f c).keyHash = c.keyHash) : AuthStore where
  tenants := s.tenants
  clients := s.clients.modify id f hid
  unique := by
    have hsame : (s.clients.modify id f hid).rows.map ApiClient.keyHash
        = s.clients.rows.map ApiClient.keyHash := by
      simp only [Table.modify, Table.update, List.map_map]
      apply List.map_congr_left
      intro c _
      simp only [Function.comp_apply]
      split
      · exact hhash c
      · rfl
    rw [hsame]
    exact s.unique
  housed := by
    intro c hc
    obtain ⟨c₀, hc₀, rfl⟩ := List.mem_map.1 hc
    split
    · rw [htenant]
      exact s.housed c₀ hc₀
    · exact s.housed c₀ hc₀

/-! ### Keys -/

/-- The alphabet of `base64.RawURLEncoding`. -/
def base64Alphabet : List Char :=
  "ABCDEFGHIJKLMNOPQRSTUVWXYZabcdefghijklmnopqrstuvwxyz0123456789-_".toList

def base64Digit (n : ℕ) : Char := base64Alphabet.getD n '_'

/-- `base64.RawURLEncoding.EncodeToString`. -/
def base64URL : List UInt8 → List Char
  | a :: b :: c :: rest =>
    base64Digit (a.toNat / 4) :: base64Digit (a.toNat % 4 * 16 + b.toNat / 16)
      :: base64Digit (b.toNat % 16 * 4 + c.toNat / 64) :: base64Digit (c.toNat % 64) :: base64URL rest
  | [a, b] =>
    [base64Digit (a.toNat / 4), base64Digit (a.toNat % 4 * 16 + b.toNat / 16),
      base64Digit (b.toNat % 16 * 4)]
  | [a] => [base64Digit (a.toNat / 4), base64Digit (a.toNat % 4 * 16)]
  | [] => []

/-- `GenerateKey`, given what `rand.Read` fills the buffer with. -/
def generateKey (raw : List UInt8) : String := "djs_" ++ String.ofList (base64URL raw)

/-! ### The three operations -/

/-- `Principal`. -/
structure ClientPrincipal where
  clientID : UUID
  tenantID : UUID
  tenantSlug : String
  clientName : String
  role : Role

/-- The row of `Authenticate`'s join, if it is selected, with its `key_hash`. -/
def AuthStore.principalOf (s : AuthStore) (hash : String) (c : ApiClient) :
    Option (ClientPrincipal × String) :=
  if c.keyHash = hash ∧ c.enabled = true ∧ c.revokedAt = none then
    (s.tenants c.tenantID).map fun slug => (⟨c.id, c.tenantID, slug, c.name, c.role⟩, c.keyHash)
  else none

/-- `Authenticate`; the update of `last_used_at` may fail unseen. -/
def authenticate (hashKey : String → String) (apiKey : String) (now : Time) (touched : Bool) :
    AuthTx ClientPrincipal := fun s =>
  let hash := hashKey (trimSpace apiKey)
  match s.clients.rows.findSome? (s.principalOf hash) with
  | none => .error .unauthorized
  | some (principal, storedHash) =>
    if storedHash ≠ hash then .error .unauthorized
    else if touched then
      .ok (principal, s.update principal.clientID (fun c => { c with lastUsedAt := some now })
        (fun _ => rfl) (fun _ => rfl) (fun _ => rfl))
    else .ok (principal, s)

/-- The arguments of `CreateClient`. -/
structure NewClient where
  tenantID : UUID
  name : String
  role : String
  suppliedKey : String

/-- What `CreateClient` meets: the id it draws, the random bytes if there are any, and the
connection. -/
structure ClientEnv where
  id : NewUUID
  random : Option (List UInt8)
  insertLink : Link
  lookupLink : Link

/-- The key of the new client. -/
def clientKey (suppliedKey : String) (random : Option (List UInt8)) : Except AuthError String :=
  if trimSpace suppliedKey = "" then
    match random with
    | none => .error .random
    | some raw => .ok (generateKey raw)
  else .ok (trimSpace suppliedKey)

/-- The `INSERT` of `CreateClient`. -/
def insertClient (hashKey : String → String) (call : NewClient) (id : UUID) (key : String) :
    AuthTx Unit := do
  let start := (Utf8.encode key.toList).take 14
  Tx.require (Utf8.Storable start ∧ Utf8.Storable (Utf8.encode call.name.toList)) (.postgres "22021")
  let role ← Tx.orAbort (Role.parse call.role) (.postgres "23514")
  insertRow ⟨id, call.tenantID, call.name, String.ofList (Utf8.decode start), hashKey key, role, true,
    none, none⟩

/-- `SELECT id FROM api_clients WHERE key_hash=$1`. -/
def lookupClient (hash : String) : AuthTx UUID := do
  let found ← Tx.read fun s => s.clients.rows.find? fun c => decide (c.keyHash = hash)
  let c ← Tx.orAbort found .noRows
  pure c.id

/-- `CreateClient`. -/
def createClient (hashKey : String → String) (call : NewClient) (env : ClientEnv) (s : AuthStore) :
    Except AuthError (UUID × String) × AuthStore :=
  match clientKey call.suppliedKey env.random with
  | .error e => (.error e, s)
  | .ok key =>
    let out := (insertClient hashKey call env.id key).commit env.insertLink .connection s
    match out.reply with
    | .ok () => (.ok (env.id, key), out.state)
    | .error e =>
      if e = duplicateRow ∧ call.suppliedKey ≠ "" then
        let found := (lookupClient (hashKey key)).commit env.lookupLink .connection out.state
        (found.reply.map fun existing => (existing, key), found.state)
      else (.error e, out.state)

/-- `RevokeClient`. -/
def revokeClient (id : UUID) (now : Time) : AuthTx Unit := fun s =>
  if s.clients.find? id = none then .error .noRows
  else .ok ((), s.update id (fun c => { c with enabled := false, revokedAt := some now })
    (fun _ => rfl) (fun _ => rfl) (fun _ => rfl))

/-! ### Histories -/

inductive AuthAct where
  | create (call : NewClient) (env : ClientEnv)
  | revoke (id : UUID) (now : Time) (link : Link)
  | authenticate (apiKey : String) (now : Time) (touched : Bool)

def authStep (hashKey : String → String) (s : AuthStore) : AuthAct → AuthStore
  | .create call env => (createClient hashKey call env s).2
  | .revoke id now link => ((revokeClient id now).commit link .connection s).state
  | .authenticate apiKey now touched =>
    ((authenticate hashKey apiKey now touched).commit .up .connection s).state

/-- The migrated database: the tenants, and no client. -/
def AuthStore.initial (tenants : UUID → Option String) : AuthStore :=
  ⟨tenants, Table.empty, List.nodup_nil, by simp [Table.empty]⟩

def authHistory (tenants : UUID → Option String) (hashKey : String → String) :
    System AuthStore AuthAct where
  init := .initial tenants
  step := fun s x => some (authStep hashKey s x)

/-! ### Trimming -/

theorem trimSpace_trimSpace (text : String) : trimSpace (trimSpace text) = trimSpace text := by
  have hinner : ∀ l : List Char,
      (l.dropWhile isSpace).rdropWhile isSpace
        = (((l.dropWhile isSpace).rdropWhile isSpace).dropWhile isSpace).rdropWhile isSpace := by
    intro l
    have hhead : ((l.dropWhile isSpace).rdropWhile isSpace).dropWhile isSpace
        = (l.dropWhile isSpace).rdropWhile isSpace := by
      rw [List.dropWhile_eq_self_iff]
      intro hlength
      have htrimmed : (l.dropWhile isSpace).rdropWhile isSpace <+: l.dropWhile isSpace :=
        List.rdropWhile_prefix isSpace _
      have hpos : 0 < (l.dropWhile isSpace).length := hlength.trans_le htrimmed.length_le
      have hfirst := List.dropWhile_get_zero_not isSpace l hpos
      rw [List.get_eq_getElem] at hfirst
      rwa [htrimmed.getElem hlength]
    rw [hhead, List.rdropWhile_idempotent]
  have hlist := hinner text.toList
  simp only [List.rdropWhile] at hlist
  simp only [trimSpace, String.toList_ofList]
  exact congrArg String.ofList hlist.symm

theorem trimSpace_of_no_space {text : String} (h : ∀ c ∈ text.toList, isSpace c = false) :
    trimSpace text = text := by
  have hdrop : ∀ l : List Char, (∀ c ∈ l, isSpace c = false) → l.dropWhile isSpace = l := by
    intro l hl
    cases l with
    | nil => rfl
    | cons c l => simp [hl c (by simp)]
  rw [trimSpace, hdrop _ h, hdrop _ (by simpa using h), List.reverse_reverse, String.ofList_toList]

theorem isSpace_base64Digit (n : ℕ) : isSpace (base64Digit n) = false := by
  have halphabet : base64Alphabet.all (fun c => !isSpace c) = true := by decide
  unfold base64Digit
  rw [List.getD_eq_getElem?_getD]
  cases hdigit : base64Alphabet[n]? with
  | none => decide
  | some c => simpa using List.all_eq_true.1 halphabet c (List.mem_of_getElem? hdigit)

theorem isSpace_of_mem_base64URL (raw : List UInt8) : ∀ c ∈ base64URL raw, isSpace c = false := by
  fun_induction base64URL raw with
  | case1 a b c rest ih => simpa [isSpace_base64Digit] using ih
  | case2 a b => simp [isSpace_base64Digit]
  | case3 a => simp [isSpace_base64Digit]
  | case4 => simp

/-- The key of a new client has nothing to trim. -/
theorem trimSpace_clientKey {suppliedKey key : String} {random : Option (List UInt8)}
    (h : clientKey suppliedKey random = .ok key) : trimSpace key = key := by
  unfold clientKey at h
  split at h
  · split at h
    · cases h
    · rename_i raw
      cases h
      apply trimSpace_of_no_space
      intro c hc
      rw [generateKey, String.toList_append, List.mem_append] at hc
      rcases hc with hc | hc
      · have hstart : "djs_".toList.all (fun c => !isSpace c) = true := by decide
        simpa using List.all_eq_true.1 hstart c hc
      · exact isSpace_of_mem_base64URL raw c (by simpa using hc)
  · cases h
    exact trimSpace_trimSpace suppliedKey

/-! ### Authentication -/

variable {hashKey : String → String} {s s' : AuthStore} {id : UUID} {now : Time} {key : String}

theorem eq_of_keyHash {c c' : ApiClient} (hc : c ∈ s.clients.rows) (hc' : c' ∈ s.clients.rows)
    (h : c.keyHash = c'.keyHash) : c = c' :=
  List.inj_on_of_nodup_map s.unique hc hc' h

/-- What `Authenticate` returns is a live row under the hash of the key. -/
theorem row_of_authenticate {apiKey : String} {touched : Bool} {p : ClientPrincipal}
    (h : authenticate hashKey apiKey now touched s = .ok (p, s')) :
    ∃ c ∈ s.clients.rows, c.keyHash = hashKey (trimSpace apiKey) ∧ c.enabled = true ∧ c.revokedAt = none
      ∧ p.clientID = c.id ∧ p.tenantID = c.tenantID ∧ p.role = c.role := by
  cases hfound : s.clients.rows.findSome? (s.principalOf (hashKey (trimSpace apiKey))) with
  | none =>
    simp only [authenticate, hfound] at h
    cases h
  | some found =>
    simp only [authenticate, hfound] at h
    have hp : found.1 = p := by
      split at h
      · cases h
      · split at h <;> cases h <;> rfl
    obtain ⟨c, hc, hrow⟩ := List.exists_of_findSome?_eq_some hfound
    unfold AuthStore.principalOf at hrow
    split at hrow
    · rename_i hlive
      obtain ⟨slug, -, heq⟩ := Option.map_eq_some_iff.1 hrow
      rw [← hp, ← heq]
      exact ⟨c, hc, hlive.1, hlive.2.1, hlive.2.2, rfl, rfl, rfl⟩
    · cases hrow

/-- The key of a live row authenticates as that row. -/
theorem authenticate_row {c : ApiClient} (hc : c ∈ s.clients.rows) (hlive : c.enabled = true)
    (hkept : c.revokedAt = none) {apiKey : String} (hkey : c.keyHash = hashKey (trimSpace apiKey))
    (now : Time) (touched : Bool) :
    ∃ p s', authenticate hashKey apiKey now touched s = .ok (p, s') ∧ p.clientID = c.id
      ∧ p.tenantID = c.tenantID ∧ p.role = c.role := by
  obtain ⟨slug, hslug⟩ := Option.isSome_iff_exists.1 (s.housed c hc)
  have hrow : s.principalOf (hashKey (trimSpace apiKey)) c
      = some (⟨c.id, c.tenantID, slug, c.name, c.role⟩, c.keyHash) := by
    rw [AuthStore.principalOf, if_pos ⟨hkey, hlive, hkept⟩, hslug]
    rfl
  have hfound : s.clients.rows.findSome? (s.principalOf (hashKey (trimSpace apiKey)))
      = some (⟨c.id, c.tenantID, slug, c.name, c.role⟩, c.keyHash) := by
    cases hsome : s.clients.rows.findSome? (s.principalOf (hashKey (trimSpace apiKey))) with
    | none =>
      rw [List.findSome?_eq_none_iff.1 hsome c hc] at hrow
      cases hrow
    | some found =>
      -- the hash is unique, so the row found is `c`
      obtain ⟨c', hc', hrow'⟩ := List.exists_of_findSome?_eq_some hsome
      have hhash : c'.keyHash = hashKey (trimSpace apiKey) := by
        unfold AuthStore.principalOf at hrow'
        split at hrow'
        · rename_i hsel
          exact hsel.1
        · cases hrow'
      rw [eq_of_keyHash hc' hc (hhash.trans hkey.symm), hrow] at hrow'
      exact hrow'.symm
  simp only [authenticate, hfound, hkey, ne_eq, not_true_eq_false, if_false]
  cases touched with
  | true => exact ⟨_, _, rfl, rfl, rfl, rfl⟩
  | false => exact ⟨_, _, rfl, rfl, rfl, rfl⟩

/-! ### Creation -/

theorem insertRow_eq_ok {c : ApiClient} {u : Unit} (h : insertRow c s = .ok (u, s')) :
    s.clients.insert c = some s'.clients ∧ ∀ c' ∈ s.clients.rows, c'.keyHash ≠ c.keyHash := by
  unfold insertRow at h
  split at h
  · cases h
  · rename_i clients hins
    split at h
    · cases h
    · rename_i hfree
      split at h
      · cases h
        exact ⟨hins, fun c' hc' heq => hfree (heq ▸ List.mem_map_of_mem hc')⟩
      · cases h

theorem Role.text_of_parse {text : String} {role : Role} (h : Role.parse text = some role) :
    role.text = text := by
  simpa using List.find?_some h

/-- A successful `INSERT` adds one live row as it was asked for. -/
theorem insertClient_eq_ok {call : NewClient} {u : Unit}
    (h : insertClient hashKey call id key s = .ok (u, s')) :
    ∃ c, s.clients.insert c = some s'.clients ∧ c.id = id ∧ c.tenantID = call.tenantID
      ∧ c.role.text = call.role ∧ c.keyHash = hashKey key ∧ c.enabled = true ∧ c.revokedAt = none
      ∧ ∀ c' ∈ s.clients.rows, c'.keyHash ≠ hashKey key := by
  simp only [insertClient, Tx.bind_eq_ok, Tx.orAbort_eq_ok, Tx.require_eq_ok] at h
  obtain ⟨_, _, ⟨-, rfl⟩, role, _, ⟨hrole, rfl⟩, hins⟩ := h
  obtain ⟨hrow, hfree⟩ := insertRow_eq_ok hins
  exact ⟨_, hrow, rfl, rfl, Role.text_of_parse hrole, rfl, rfl, rfl, hfree⟩

theorem lookupClient_eq_ok {hash : String} (h : lookupClient hash s = .ok (id, s')) :
    s' = s ∧ ∃ c ∈ s.clients.rows, c.keyHash = hash ∧ c.id = id := by
  simp only [lookupClient, Tx.bind_eq_ok, Tx.read_eq_ok, Tx.orAbort_eq_ok, Tx.pure_eq_ok] at h
  obtain ⟨_, _, ⟨rfl, rfl⟩, c, _, ⟨hfound, rfl⟩, rfl, rfl⟩ := h
  exact ⟨rfl, c, List.mem_of_find?_eq_some hfound, by simpa using List.find?_some hfound, rfl⟩

/-- The two ways in which `CreateClient` succeeds: a row is added, or one with the key was there. -/
theorem createClient_eq_ok {call : NewClient} {env : ClientEnv}
    (h : createClient hashKey call env s = (.ok (id, key), s')) :
    clientKey call.suppliedKey env.random = .ok key ∧
      ((∃ u, insertClient hashKey call id key s = .ok (u, s'))
        ∨ (s' = s ∧ ∃ c ∈ s.clients.rows, c.keyHash = hashKey key ∧ c.id = id)) := by
  unfold createClient at h
  split at h
  · cases h
  · rename_i drawn hdrawn
    simp only at h
    split at h
    · rename_i hreply
      obtain ⟨hids, rfl⟩ := Prod.mk.inj h
      obtain ⟨rfl, rfl⟩ := Prod.mk.inj (Except.ok.inj hids)
      exact ⟨hdrawn, Or.inl ⟨(), Tx.eq_ok_of_reply_ok hreply⟩⟩
    · rename_i e hreply
      split at h
      · rename_i hfallback
        have hstate := Tx.state_of_reply_error hreply (by rw [hfallback.1]; decide)
        rw [hstate] at h
        obtain ⟨hfound, hs'⟩ := Prod.mk.inj h
        cases hlookup : ((lookupClient (hashKey drawn)).commit env.lookupLink .connection s).reply with
        | error e' =>
          rw [hlookup] at hfound
          cases hfound
        | ok existing =>
          rw [hlookup] at hfound
          obtain ⟨rfl, rfl⟩ := Prod.mk.inj (Except.ok.inj hfound)
          have hrun := Tx.eq_ok_of_reply_ok hlookup
          rw [hs'] at hrun
          exact ⟨hdrawn, Or.inr (lookupClient_eq_ok hrun)⟩
      · cases h

/-- The request can only be taken for what it says: whoever has its key already is live, in the
tenant and the role that are asked for. -/
def NewClient.Honest (hashKey : String → String) (call : NewClient) (env : ClientEnv) (s : AuthStore) :
    Prop :=
  ∀ key, clientKey call.suppliedKey env.random = .ok key → ∀ c ∈ s.clients.rows,
    c.keyHash = hashKey key → c.enabled = true ∧ c.revokedAt = none ∧ c.tenantID = call.tenantID
      ∧ c.role.text = call.role

/-- The key authenticates as the client that was asked for, under the id that was returned. -/
def NewClient.Served (hashKey : String → String) (call : NewClient) (id : UUID) (key : String)
    (s : AuthStore) : Prop :=
  ∀ now touched, ∃ p s', authenticate hashKey key now touched s = .ok (p, s') ∧ p.clientID = id
    ∧ p.tenantID = call.tenantID ∧ p.role.text = call.role

/-- A call that succeeds does what it says if and only if it can only be taken for what it says. -/
theorem createClient_served_iff {call : NewClient} {env : ClientEnv}
    (h : createClient hashKey call env s = (.ok (id, key), s')) :
    call.Served hashKey id key s' ↔ call.Honest hashKey env s := by
  obtain ⟨hkey, hway⟩ := createClient_eq_ok h
  have htrim := trimSpace_clientKey hkey
  rcases hway with ⟨u, hins⟩ | ⟨rfl, c, hc, hhash, rfl⟩
  · -- the row that was added is the only one with the key
    obtain ⟨c, hrow, rfl, htenant, hrole, hhash, hlive, hkept, hfree⟩ := insertClient_eq_ok hins
    have hc : c ∈ s'.clients.rows := (Table.mem_insert hrow).2 (Or.inr rfl)
    refine iff_of_true (fun now touched => ?_) fun key' hkey' c' hc' hhash' => ?_
    · obtain ⟨p, s'', hauth, hid, hp, hr⟩ :=
        authenticate_row hc hlive hkept (hhash.trans (by rw [htrim])) now touched
      exact ⟨p, s'', hauth, hid, hp.trans htenant, by rw [hr, hrole]⟩
    · obtain rfl := Except.ok.inj (hkey.symm.trans hkey')
      exact absurd hhash' (hfree c' hc')
  · constructor
    · intro hserved key' hkey' c' hc' hhash'
      obtain rfl := Except.ok.inj (hkey.symm.trans hkey')
      obtain ⟨p, s'', hauth, -, hp, hr⟩ := hserved 0 false
      obtain ⟨c₀, hc₀, hhash₀, hlive, hkept, -, htenant, hrole⟩ := row_of_authenticate hauth
      rw [htrim] at hhash₀
      rw [eq_of_keyHash hc' hc₀ (hhash'.trans hhash₀.symm)]
      exact ⟨hlive, hkept, htenant.symm.trans hp, by rw [← hrole, hr]⟩
    · intro hhonest now touched
      obtain ⟨hlive, hkept, htenant, hrole⟩ := hhonest key hkey c hc hhash
      obtain ⟨p, s'', hauth, hid, hp, hr⟩ :=
        authenticate_row hc hlive hkept (hhash.trans (by rw [htrim])) now touched
      exact ⟨p, s'', hauth, hid, hp.trans htenant, by rw [hr, hrole]⟩

/-! ### Revocation -/

/-- The client is in the table and not enabled. -/
def Retired (id : UUID) (s : AuthStore) : Prop := ∃ c, s.clients.find? id = some c ∧ c.enabled = false

theorem Retired.update {k : UUID} {f : ApiClient → ApiClient} {hid : ∀ c, (f c).id = c.id}
    {htenant : ∀ c, (f c).tenantID = c.tenantID} {hhash : ∀ c, (f c).keyHash = c.keyHash}
    (hf : ∀ c, c.enabled = false → (f c).enabled = false) (h : Retired id s) :
    Retired id (s.update k f hid htenant hhash) := by
  obtain ⟨c, hc, hdisabled⟩ := h
  refine ⟨if c.id = k then f c else c, ?_, ?_⟩
  · exact (Table.find?_update s.clients _ f hid id).trans (by rw [hc]; rfl)
  · split
    · exact hf c hdisabled
    · exact hdisabled

theorem Retired.insert {c : ApiClient} (h : Retired id s)
    (hins : s.clients.insert c = some s'.clients) : Retired id s' := by
  obtain ⟨c₀, hc₀, hdisabled⟩ := h
  refine ⟨c₀, ?_, hdisabled⟩
  rcases Table.find?_insert_cases hins id with ⟨-, hsame⟩ | ⟨-, hnone, -⟩
  · rw [hsame, hc₀]
  · rw [hc₀] at hnone
    cases hnone

theorem Retired.commit {α : Type} {tx : AuthTx α} {link : Link} {io : AuthError}
    (htx : ∀ a s', tx s = .ok (a, s') → Retired id s') (h : Retired id s) :
    Retired id (tx.commit link io s).state := by
  rcases tx.commit_cases link io s with ⟨-, hs⟩ | ⟨a, s', hok, -, hs⟩
  · rwa [hs]
  · rw [hs]
    exact htx a s' hok

theorem Retired.create {call : NewClient} {env : ClientEnv} (h : Retired id s) :
    Retired id (createClient hashKey call env s).2 := by
  have hinserted : ∀ key, Retired id
      ((insertClient hashKey call env.id key).commit env.insertLink .connection s).state := by
    intro key
    refine Retired.commit (fun _ s' hok => ?_) h
    obtain ⟨c, hins, -⟩ := insertClient_eq_ok hok
    exact h.insert hins
  unfold createClient
  split
  · exact h
  · rename_i key _
    simp only
    split
    · exact hinserted key
    · split
      · refine Retired.commit (fun k s' hok => ?_) (hinserted key)
        rw [(lookupClient_eq_ok hok).1]
        exact hinserted key
      · exact hinserted key

/-- A client that was revoked stays so. -/
theorem Retired.step (x : AuthAct) (h : Retired id s) : Retired id (authStep hashKey s x) := by
  cases x with
  | create call env => exact h.create
  | revoke k now link =>
    refine Retired.commit (fun _ s' hok => ?_) h
    unfold revokeClient at hok
    split at hok
    · cases hok
    · cases hok
      exact h.update fun _ _ => rfl
  | authenticate apiKey now touched =>
    refine Retired.commit (fun p s' hok => ?_) h
    simp only [authenticate] at hok
    split at hok
    · cases hok
    · split at hok
      · cases hok
      · split at hok
        · cases hok
          exact h.update fun _ hc => hc
        · cases hok
          exact h

theorem retired_of_revoke {now : Time} {link : Link}
    (h : ((revokeClient id now).commit link .connection s).reply = .ok ()) :
    Retired id ((revokeClient id now).commit link .connection s).state := by
  have hrun := Tx.eq_ok_of_reply_ok h
  generalize ((revokeClient id now).commit link .connection s).state = s' at hrun
  unfold revokeClient at hrun
  split at hrun
  · cases hrun
  · rename_i hsome
    obtain ⟨c, hc⟩ := Option.ne_none_iff_exists'.1 hsome
    cases hrun
    have hrow := Table.find?_modify_self hc
      (fun c : ApiClient => { c with enabled := false, revokedAt := some now }) fun _ => rfl
    exact ⟨_, hrow, rfl⟩

theorem not_authenticated_of_retired {apiKey : String} {touched : Bool} {p : ClientPrincipal}
    (h : Retired id s) (hauth : authenticate hashKey apiKey now touched s = .ok (p, s')) :
    p.clientID ≠ id := by
  rintro rfl
  obtain ⟨c, hfound, hdisabled⟩ := h
  obtain ⟨c', hc', -, hlive, -, hid, -⟩ := row_of_authenticate hauth
  obtain ⟨hc, hkey⟩ := Table.find?_eq_some_iff.1 hfound
  rw [s.clients.eq_of_key_eq hc' hc (hid.symm.trans hkey.symm), hdisabled] at hlive
  cases hlive

/-- Whatever was created and revoked before: when `CreateClient` succeeds, its key authenticates as the
client, in the tenant and the role asked for, if and only if a client that has the key already is live
and in that tenant and role; and after `RevokeClient` no key ever authenticates as the client again. -/
theorem created_client_served_iff (tenants : UUID → Option String) (hashKey : String → String)
    {s : AuthStore} (hr : (authHistory tenants hashKey).Reachable s) :
    (∀ call env id key s', createClient hashKey call env s = (.ok (id, key), s') →
        (call.Served hashKey id key s' ↔ call.Honest hashKey env s))
      ∧ ∀ id now link, ((revokeClient id now).commit link .connection s).reply = .ok () →
        ∀ xs s', (authHistory tenants hashKey).execFrom
            ((revokeClient id now).commit link .connection s).state xs = some s' →
          ∀ apiKey now touched p s'',
            authenticate hashKey apiKey now touched s' = .ok (p, s'') → p.clientID ≠ id := by
  refine ⟨fun call env id key s' hok => createClient_served_iff hok, ?_⟩
  intro id now link hrevoked xs s' hxs apiKey now' touched p s'' hauth
  have hr' : (authHistory tenants hashKey).Reachable
      ((revokeClient id now).commit link .connection s).state :=
    hr.step (x := .revoke id now link) rfl
  have hstays : ∀ t x t', (authHistory tenants hashKey).Reachable t → Retired id t →
      (authHistory tenants hashKey).step t x = some t' → Retired id t' := by
    intro t x t' _ ht hstep
    obtain rfl := Option.some.inj hstep
    exact ht.step x
  have hretired : Retired id s' := hr'.stable hstays (retired_of_revoke hrevoked) hxs
  exact not_authenticated_of_retired hretired hauth

namespace Demo

/-- Two tenants. -/
def twoTenants (id : UUID) : Option String :=
  if id = 7 then some "seven" else if id = 8 then some "eight" else none

/-- An administrator of tenant `7` with a key of its own. -/
def firstClient : NewClient := ⟨7, "first", "admin", " djs_shared "⟩

/-- A viewer of tenant `8` is to have the same key. -/
def secondClient : NewClient := ⟨8, "second", "viewer", "djs_shared"⟩

/-- Any injective function will do. -/
def plainHash (key : String) : String := "hash of " ++ key

/-- A call that draws this id and meets no failure. -/
def quietly (id : NewUUID) : ClientEnv := ⟨id, some [], .up, .up⟩

end Demo

open Demo in
/-- The first client can log in with the key it was given. -/
theorem created_client_served_iff_first :
    ∃ s', createClient plainHash firstClient (quietly ⟨1, by decide⟩)
          (authHistory twoTenants plainHash).init = (.ok (1, "djs_shared"), s') ∧
      ∃ p s'', authenticate plainHash "djs_shared" 0 true s' = .ok (p, s'') ∧ p.clientID = 1
        ∧ p.tenantID = 7 ∧ p.role.text = "admin" := by
  have hreply : (createClient plainHash firstClient (quietly ⟨1, by decide⟩)
      (authHistory twoTenants plainHash).init).1 = .ok (1, "djs_shared") := by decide +kernel
  generalize hout : createClient plainHash firstClient (quietly ⟨1, by decide⟩)
      (authHistory twoTenants plainHash).init = out at hreply ⊢
  obtain ⟨reply, s'⟩ := out
  obtain rfl := hreply
  have hhonest : firstClient.Honest plainHash (quietly ⟨1, by decide⟩)
      (authHistory twoTenants plainHash).init := fun _ _ c hc => absurd hc (by simp [authHistory,
        AuthStore.initial, Table.empty])
  have hserved := ((created_client_served_iff twoTenants plainHash ⟨[], rfl⟩).1 _ _ _ _ _ hout).2 hhonest
  exact ⟨s', rfl, hserved 0 true⟩

open Demo in
/-- With a key that an administrator of tenant `7` has, `CreateClient` succeeds for a viewer of tenant
`8`, and the key it returns is the administrator's; after the administrator is revoked it still
succeeds, and the key it returns is refused. -/
theorem client_returned_is_another :
    (∃ s, (authHistory twoTenants plainHash).exec
        [.create firstClient (quietly ⟨1, by decide⟩)] = some s
      ∧ (createClient plainHash secondClient (quietly ⟨2, by decide⟩) s).1 = .ok (1, "djs_shared")
      ∧ ((authenticate plainHash "djs_shared" 0 true
          (createClient plainHash secondClient (quietly ⟨2, by decide⟩) s).2).toOption.map
            fun r => (r.1.clientID, r.1.tenantID, r.1.role)) = some (1, 7, .admin))
      ∧ ∃ s, (authHistory twoTenants plainHash).exec
          [.create firstClient (quietly ⟨1, by decide⟩), .revoke 1 0 .up] = some s
        ∧ (createClient plainHash firstClient (quietly ⟨2, by decide⟩) s).1
          = .ok (1, "djs_shared")
        ∧ ((authenticate plainHash "djs_shared" 0 true
            (createClient plainHash firstClient (quietly ⟨2, by decide⟩) s).2).toOption.map
              fun r => r.1.clientID) = none :=
  ⟨System.exists_of_exec (by decide +kernel), System.exists_of_exec (by decide +kernel)⟩

end JobScheduler
