import Mathlib.Data.List.Basic

/-!
# Transactions that roll back

A transaction reads and writes a state and either commits or fails.  `Tx σ ε α` is the function that
does it: a failure carries its error and *no* state, so a transaction that fails halfway leaves
nothing behind.  Statements are sequenced with `do`; the lemmas below take a committed sequence
apart again, one statement at a time (`bind_eq_ok`, `require_eq_ok`, `forEach_cons_eq_ok`).

`Commits` says that a transaction gets through from a state, and what holds then; `Agrees` compares
two runs of one transaction, on states that a relation ties together; `Keeps` says that a transaction
preserves an invariant; `Adds` says what it appends to a list kept in the state; `Follows` says which
labelled steps it goes through.  The rules of all five follow the statements of the transaction.

`commit` runs a transaction over a connection.  The caller and the state can disagree about the
outcome: a connection can fail before the transaction ran (`down`) or after it committed (`lost`),
and the caller sees the same error in both cases.
-/

namespace Transaction

variable {σ ε α β : Type}

/-- A transaction on states `σ` with errors `ε` and result `α`. -/
def Tx (σ ε α : Type) : Type := σ → Except ε (α × σ)

instance : Monad (Tx σ ε) where
  pure a := fun s => .ok (a, s)
  bind x f := fun s =>
    match x s with
    | .ok (a, s') => f a s'
    | .error e => .error e

namespace Tx

/-- Fail, rolling everything back. -/
def abort (e : ε) : Tx σ ε α := fun _ => .error e

/-- Read the state. -/
def read (f : σ → α) : Tx σ ε α := fun s => .ok (f s, s)

/-- Go on only under a condition. -/
def require (c : Prop) [Decidable c] (e : ε) : Tx σ ε Unit := if c then pure () else abort e

/-- Go on with the value of an option. -/
def orAbort (o : Option α) (e : ε) : Tx σ ε α :=
  match o with
  | some a => pure a
  | none => abort e

/-- Run the body for each element in turn, collecting the results. -/
def forEach (f : α → Tx σ ε β) : List α → Tx σ ε (List β)
  | [] => pure []
  | a :: as => do
    let b ← f a
    let bs ← forEach f as
    pure (b :: bs)

/-! ### Taking a committed transaction apart -/

@[simp] theorem pure_eq_ok {a : α} {b : α} {s s' : σ} :
    (pure a : Tx σ ε α) s = .ok (b, s') ↔ a = b ∧ s = s' := by
  show Except.ok (a, s) = Except.ok (b, s') ↔ _
  simp

@[simp] theorem bind_eq_ok {x : Tx σ ε α} {f : α → Tx σ ε β} {s s'' : σ} {b : β} :
    (x >>= f) s = .ok (b, s'') ↔ ∃ a s', x s = .ok (a, s') ∧ f a s' = .ok (b, s'') := by
  show (match x s with | .ok (a, s') => f a s' | .error e => .error e) = _ ↔ _
  cases hx : x s with
  | error e => simp
  | ok p =>
    obtain ⟨a, s'⟩ := p
    constructor
    · exact fun h => ⟨a, s', rfl, h⟩
    · rintro ⟨a', t, h, hf⟩
      obtain ⟨rfl, rfl⟩ := Prod.mk.inj (Except.ok.inj h)
      exact hf

theorem bind_of_ok {x : Tx σ ε α} {f : α → Tx σ ε β} {s s' : σ} {a : α}
    (h : x s = .ok (a, s')) : (x >>= f) s = f a s' := by
  show (match x s with | .ok (a, s') => f a s' | .error e => .error e) = _
  rw [h]

theorem bind_of_error {x : Tx σ ε α} {f : α → Tx σ ε β} {s : σ} {e : ε}
    (h : x s = .error e) : (x >>= f) s = .error e := by
  show (match x s with | .ok (a, s') => f a s' | .error e => .error e) = _
  rw [h]

/-- A transaction that fails does so in its first part, or after it. -/
theorem bind_eq_error {x : Tx σ ε α} {f : α → Tx σ ε β} {s : σ} {e : ε}
    (h : (x >>= f) s = .error e) :
    x s = .error e ∨ ∃ a s', x s = .ok (a, s') ∧ f a s' = .error e := by
  cases hx : x s with
  | error e' =>
    rw [bind_of_error hx] at h
    exact .inl (congrArg Except.error (Except.error.inj h))
  | ok p =>
    rw [bind_of_ok hx] at h
    exact .inr ⟨p.1, p.2, rfl, h⟩

@[simp] theorem abort_eq_ok {e : ε} {a : α} {s s' : σ} :
    (abort e : Tx σ ε α) s = .ok (a, s') ↔ False := by
  simp [abort]

@[simp] theorem read_eq_ok {f : σ → α} {a : α} {s s' : σ} :
    (read f : Tx σ ε α) s = .ok (a, s') ↔ f s = a ∧ s = s' := by
  simp [read]

@[simp] theorem require_eq_ok {c : Prop} [Decidable c] {e : ε} {u : Unit} {s s' : σ} :
    (require c e : Tx σ ε Unit) s = .ok (u, s') ↔ c ∧ s = s' := by
  by_cases hc : c
  · simp [require, hc]
  · simp [require, hc]

@[simp] theorem orAbort_eq_ok {o : Option α} {e : ε} {a : α} {s s' : σ} :
    (orAbort o e : Tx σ ε α) s = .ok (a, s') ↔ o = some a ∧ s = s' := by
  cases o with
  | none => simp [orAbort]
  | some b => simp [orAbort]

theorem require_of_not {c : Prop} [Decidable c] {e : ε} {s : σ} (h : ¬c) :
    (require c e : Tx σ ε Unit) s = .error e := by
  simp [require, h, abort]

@[simp] theorem forEach_nil_eq_ok {f : α → Tx σ ε β} {bs : List β} {s s' : σ} :
    forEach f [] s = .ok (bs, s') ↔ bs = [] ∧ s = s' := by
  rw [forEach, pure_eq_ok]
  exact and_congr_left' eq_comm

theorem forEach_cons_eq_ok {f : α → Tx σ ε β} {a : α} {as : List α} {bs : List β} {s s' : σ} :
    forEach f (a :: as) s = .ok (bs, s') ↔
      ∃ b s₁ bs', f a s = .ok (b, s₁) ∧ forEach f as s₁ = .ok (bs', s') ∧ bs = b :: bs' := by
  simp only [forEach, bind_eq_ok, pure_eq_ok]
  constructor
  · rintro ⟨b, s₁, hb, bs', s₂, hbs, rfl, rfl⟩
    exact ⟨b, s₁, bs', hb, hbs, rfl⟩
  · rintro ⟨b, s₁, bs', hb, hbs, rfl⟩
    exact ⟨b, s₁, hb, bs', s', hbs, rfl, rfl⟩

end Tx

/-! ### Transactions that get through -/

/-- Run on `s`, the transaction commits, with a result and a state that satisfy `Q`. -/
def Tx.Commits (x : Tx σ ε α) (s : σ) (Q : α → σ → Prop) : Prop :=
  ∃ a s', x s = .ok (a, s') ∧ Q a s'

namespace Tx.Commits

variable {x : Tx σ ε α} {s : σ} {Q Q' : α → σ → Prop} {P : β → σ → Prop}

theorem mono (hx : x.Commits s Q) (hQ : ∀ a s', Q a s' → Q' a s') : x.Commits s Q' := by
  obtain ⟨a, s', hs, hq⟩ := hx
  exact ⟨a, s', hs, hQ a s' hq⟩

theorem bind {f : α → Tx σ ε β} (hx : x.Commits s Q) (hf : ∀ a s', Q a s' → (f a).Commits s' P) :
    (x >>= f).Commits s P := by
  obtain ⟨a, s', hs, hq⟩ := hx
  obtain ⟨b, s'', hb, hp⟩ := hf a s' hq
  exact ⟨b, s'', (bind_of_ok hs).trans hb, hp⟩

theorem require {c : Prop} [Decidable c] {e : ε} (hc : c) :
    (Tx.require c e : Tx σ ε Unit).Commits s fun _ s' => s' = s :=
  ⟨(), s, require_eq_ok.2 ⟨hc, rfl⟩, rfl⟩

/-- A loop gets through if its body does in every state that suits the items left. -/
theorem forEach {f : α → Tx σ ε β} {I : List α → σ → Prop}
    (hf : ∀ a as s, I (a :: as) s → (f a).Commits s fun _ s' => I as s') {as : List α}
    (h : I as s) : (Tx.forEach f as).Commits s fun _ s' => I [] s' := by
  induction as generalizing s with
  | nil => exact ⟨[], s, forEach_nil_eq_ok.2 ⟨rfl, rfl⟩, h⟩
  | cons a as ih =>
    obtain ⟨b, s₁, hb, h₁⟩ := hf a as s h
    obtain ⟨bs, s', hbs, h'⟩ := ih h₁
    exact ⟨b :: bs, s', forEach_cons_eq_ok.2 ⟨b, s₁, bs, hb, hbs, rfl⟩, h'⟩

end Tx.Commits

/-! ### Transactions that only read -/

/-- The transaction leaves the state as it finds it. -/
structure Tx.ReadOnly (x : Tx σ ε α) : Prop where
  state_eq : ∀ {s a s'}, x s = .ok (a, s') → s' = s

namespace Tx.ReadOnly

theorem pure (a : α) : Tx.ReadOnly (Pure.pure a : Tx σ ε α) := ⟨fun h => (pure_eq_ok.1 h).2.symm⟩

theorem read (f : σ → α) : Tx.ReadOnly (Tx.read f : Tx σ ε α) := ⟨fun h => (read_eq_ok.1 h).2.symm⟩

theorem require (c : Prop) [Decidable c] (e : ε) : Tx.ReadOnly (Tx.require c e : Tx σ ε Unit) :=
  ⟨fun h => (require_eq_ok.1 h).2.symm⟩

theorem orAbort (o : Option α) (e : ε) : Tx.ReadOnly (Tx.orAbort o e : Tx σ ε α) :=
  ⟨fun h => (orAbort_eq_ok.1 h).2.symm⟩

theorem bind {x : Tx σ ε α} {f : α → Tx σ ε β} (hx : x.ReadOnly) (hf : ∀ a, (f a).ReadOnly) :
    (x >>= f).ReadOnly := by
  constructor
  intro s b s'' h
  obtain ⟨a, s', h₁, h₂⟩ := bind_eq_ok.1 h
  exact ((hf a).state_eq h₂).trans (hx.state_eq h₁)

end Tx.ReadOnly

/-! ### Two runs of one transaction -/

/-- Run on two states that `R` relates, the transaction fails in both with one error, or returns one
result in both and leaves states that `Q` relates. -/
def Tx.Agrees (R : σ → σ → Prop) (Q : α → σ → σ → Prop) (x : Tx σ ε α) : Prop :=
  ∀ s t, R s t → (∃ e, x s = .error e ∧ x t = .error e) ∨
    ∃ a s' t', x s = .ok (a, s') ∧ x t = .ok (a, t') ∧ Q a s' t'

namespace Tx.Agrees

variable {R R' : σ → σ → Prop} {Q Q' : α → σ → σ → Prop} {P : β → σ → σ → Prop} {x : Tx σ ε α}

theorem mono (h : Tx.Agrees R Q x) (hR : ∀ s t, R' s t → R s t)
    (hQ : ∀ a s t, Q a s t → Q' a s t) : Tx.Agrees R' Q' x := by
  intro s t hst
  rcases h s t (hR s t hst) with he | ⟨a, s', t', hs, ht, hq⟩
  · exact .inl he
  · exact .inr ⟨a, s', t', hs, ht, hQ a s' t' hq⟩

theorem pure {a : α} (h : ∀ s t, R s t → Q a s t) : Tx.Agrees R Q (Pure.pure a : Tx σ ε α) :=
  fun s t hst => .inr ⟨a, s, t, rfl, rfl, h s t hst⟩

theorem bind {f : α → Tx σ ε β} (hx : Tx.Agrees R Q x) (hf : ∀ a, Tx.Agrees (Q a) P (f a)) :
    Tx.Agrees R P (x >>= f) := by
  intro s t hst
  rcases hx s t hst with ⟨e, hs, ht⟩ | ⟨a, s', t', hs, ht, hq⟩
  · exact .inl ⟨e, bind_of_error hs, bind_of_error ht⟩
  · rw [bind_of_ok hs, bind_of_ok ht]
    exact hf a s' t' hq

theorem abort {e : ε} : Tx.Agrees R Q (Tx.abort e : Tx σ ε α) := fun _ _ _ => .inl ⟨e, rfl, rfl⟩

/-- A read that sees the same in related states. -/
theorem read {f : σ → α} (hf : ∀ s t, R s t → f s = f t) (hq : ∀ s t, R s t → Q (f s) s t) :
    Tx.Agrees R Q (Tx.read f : Tx σ ε α) := by
  intro s t hst
  refine .inr ⟨f s, s, t, rfl, ?_, hq s t hst⟩
  rw [hf s t hst]
  rfl

theorem require {c : Prop} [Decidable c] {e : ε} {Q : Unit → σ → σ → Prop}
    (h : ∀ s t, c → R s t → Q () s t) : Tx.Agrees R Q (Tx.require c e : Tx σ ε Unit) := by
  by_cases hc : c
  · rw [Tx.require, if_pos hc]
    exact .pure fun s t => h s t hc
  · rw [Tx.require, if_neg hc]
    exact .abort

theorem orAbort {o : Option α} {e : ε} (h : ∀ a s t, o = some a → R s t → Q a s t) :
    Tx.Agrees R Q (Tx.orAbort o e : Tx σ ε α) := by
  cases o with
  | none => exact .abort
  | some a => exact .pure fun s t => h a s t rfl

/-- A loop whose body agrees on each element. -/
theorem forEach {f : α → Tx σ ε β} {as : List α}
    (hf : ∀ a ∈ as, Tx.Agrees R (fun _ => R) (f a)) :
    Tx.Agrees R (fun _ => R) (Tx.forEach f as) := by
  induction as with
  | nil => exact .pure fun _ _ => id
  | cons a as ih =>
    refine .bind (hf a List.mem_cons_self) fun b => ?_
    refine .bind (ih fun a' ha' => hf a' (List.mem_cons_of_mem _ ha')) fun bs => ?_
    exact .pure fun _ _ => id

end Tx.Agrees

/-! ### Invariants -/

/-- Committed from a state with `I`, the transaction leaves one with `I`. -/
structure Tx.Keeps (I : σ → Prop) (x : Tx σ ε α) : Prop where
  keeps : ∀ {s a s'}, I s → x s = .ok (a, s') → I s'

namespace Tx.Keeps

variable {γ : Type} {I : σ → Prop} {x : Tx σ ε α}

theorem of_readOnly (hx : x.ReadOnly) : Tx.Keeps I x :=
  ⟨fun hi h => by rwa [hx.state_eq h]⟩

theorem bind {f : α → Tx σ ε β} (hx : Tx.Keeps I x) (hf : ∀ a, Tx.Keeps I (f a)) :
    Tx.Keeps I (x >>= f) := by
  constructor
  intro s b s'' hi h
  obtain ⟨a, s', h₁, h₂⟩ := bind_eq_ok.1 h
  exact (hf a).keeps (hx.keeps hi h₁) h₂

/-- A loop keeps what its body keeps. -/
theorem forEach {f : γ → Tx σ ε β} (hf : ∀ c, Tx.Keeps I (f c)) (cs : List γ) :
    Tx.Keeps I (Tx.forEach f cs) := by
  induction cs with
  | nil => exact .of_readOnly (.pure [])
  | cons c cs ih => exact (hf c).bind fun b => ih.bind fun bs => .of_readOnly (.pure (b :: bs))

end Tx.Keeps

/-! ### What a transaction adds to a log -/

/-- Committed, the transaction adds `l` to the list that `obs` sees in the state. -/
structure Tx.Adds (obs : σ → List β) (x : Tx σ ε α) (l : List β) : Prop where
  eq : ∀ {s a s'}, x s = .ok (a, s') → obs s' = obs s ++ l

namespace Tx.Adds

variable {γ δ : Type} {obs : σ → List β} {x : Tx σ ε α} {l m : List β}

/-- A transaction that leaves the list alone. -/
theorem of_eq (h : ∀ {s a s'}, x s = .ok (a, s') → obs s' = obs s) : Tx.Adds obs x [] :=
  ⟨fun hx => by rw [h hx, List.append_nil]⟩

theorem pure (a : α) : Tx.Adds obs (Pure.pure a : Tx σ ε α) [] :=
  .of_eq fun h => by rw [(pure_eq_ok.1 h).2]

theorem require (c : Prop) [Decidable c] (e : ε) : Tx.Adds obs (Tx.require c e) [] :=
  .of_eq fun h => by rw [(require_eq_ok.1 h).2]

theorem orAbort (o : Option α) (e : ε) : Tx.Adds obs (Tx.orAbort o e) [] :=
  .of_eq fun h => by rw [(orAbort_eq_ok.1 h).2]

theorem bind {f : α → Tx σ ε γ} (hx : Tx.Adds obs x l) (hf : ∀ a, Tx.Adds obs (f a) m) :
    Tx.Adds obs (x >>= f) (l ++ m) := by
  constructor
  intro s c s'' h
  obtain ⟨a, s', h₁, h₂⟩ := bind_eq_ok.1 h
  rw [(hf a).eq h₂, hx.eq h₁, List.append_assoc]

/-- A loop adds what its body adds for each element in turn. -/
theorem forEach {f : γ → Tx σ ε δ} {g : γ → List β} (hf : ∀ c, Tx.Adds obs (f c) (g c))
    (cs : List γ) : Tx.Adds obs (Tx.forEach f cs) (cs.flatMap g) := by
  induction cs with
  | nil => exact .pure []
  | cons c cs ih =>
    have hrest := (hf c).bind fun d => ih.bind fun ds => Tx.Adds.pure (d :: ds)
    rwa [List.append_nil] at hrest

end Tx.Adds

/-! ### The steps a transaction goes through -/

/-- From `s` to `s'` in one step for each label, and whatever needs no label after them; `covers` says
what a label, or none, allows a step to do. -/
def Chain {κ : Type} (covers : Option κ → σ → σ → Prop) : List κ → σ → σ → Prop
  | [], s, s' => covers none s s'
  | k :: l, s, s' => ∃ s₁, covers (some k) s s₁ ∧ Chain covers l s₁ s'

/-- Steps without a label may do nothing, and may come before any step. -/
structure Covering {κ : Type} (covers : Option κ → σ → σ → Prop) : Prop where
  refl : ∀ s, covers none s s
  trans : ∀ {o s s₁ s₂}, covers none s s₁ → covers o s₁ s₂ → covers o s s₂

/-- Committed, the transaction has gone through the labelled steps in turn. -/
structure Tx.Follows {κ : Type} (covers : Option κ → σ → σ → Prop) (x : Tx σ ε α) (l : List κ) :
    Prop where
  chain : ∀ {s a s'}, x s = .ok (a, s') → Chain covers l s s'

section

variable {κ γ : Type} {covers : Option κ → σ → σ → Prop} {x : Tx σ ε α} {k : κ} {l m : List κ}

theorem Chain.append (hc : Covering covers) {s s₁ s₂ : σ} (h : Chain covers l s s₁)
    (h' : Chain covers m s₁ s₂) : Chain covers (l ++ m) s s₂ := by
  induction l generalizing s with
  | nil =>
    cases m with
    | nil => exact hc.trans h h'
    | cons k m =>
      obtain ⟨s', hk, hrest⟩ := h'
      exact ⟨s', hc.trans h hk, hrest⟩
  | cons k l ih =>
    obtain ⟨s', hk, hrest⟩ := h
    exact ⟨s', hk, ih hrest⟩

namespace Tx.Follows

theorem quiet (h : ∀ {s a s'}, x s = .ok (a, s') → covers none s s') : Tx.Follows covers x [] :=
  ⟨h⟩

theorem single (hc : Covering covers) (h : ∀ {s a s'}, x s = .ok (a, s') → covers (some k) s s') :
    Tx.Follows covers x [k] :=
  ⟨fun hx => ⟨_, h hx, hc.refl _⟩⟩

theorem pure (hc : Covering covers) (a : α) : Tx.Follows covers (Pure.pure a : Tx σ ε α) [] :=
  .quiet fun h => (pure_eq_ok.1 h).2 ▸ hc.refl _

theorem require (hc : Covering covers) (c : Prop) [Decidable c] (e : ε) :
    Tx.Follows covers (Tx.require c e) [] :=
  .quiet fun h => (require_eq_ok.1 h).2 ▸ hc.refl _

theorem orAbort (hc : Covering covers) (o : Option α) (e : ε) :
    Tx.Follows covers (Tx.orAbort o e) [] :=
  .quiet fun h => (orAbort_eq_ok.1 h).2 ▸ hc.refl _

theorem bind (hc : Covering covers) {f : α → Tx σ ε β} (hx : Tx.Follows covers x l)
    (hf : ∀ a, Tx.Follows covers (f a) m) : Tx.Follows covers (x >>= f) (l ++ m) := by
  constructor
  intro s b s'' h
  obtain ⟨a, s', h₁, h₂⟩ := bind_eq_ok.1 h
  exact (hx.chain h₁).append hc ((hf a).chain h₂)

theorem next (hc : Covering covers) {f : α → Tx σ ε β} (hx : Tx.Follows covers x [k])
    (hf : ∀ a, Tx.Follows covers (f a) m) : Tx.Follows covers (x >>= f) (k :: m) :=
  hx.bind hc hf

theorem skip (hc : Covering covers) {f : α → Tx σ ε β} (hx : Tx.Follows covers x [])
    (hf : ∀ a, Tx.Follows covers (f a) m) : Tx.Follows covers (x >>= f) m :=
  hx.bind hc hf

/-- A loop goes through the steps of its body for each element in turn. -/
theorem forEach (hc : Covering covers) {f : γ → Tx σ ε β} {g : γ → List κ}
    (hf : ∀ c, Tx.Follows covers (f c) (g c)) (cs : List γ) :
    Tx.Follows covers (Tx.forEach f cs) (cs.flatMap g) := by
  induction cs with
  | nil => exact .pure hc []
  | cons c cs ih =>
    have hrest := (hf c).bind hc fun b => ih.bind hc fun bs => Tx.Follows.pure hc (b :: bs)
    rwa [List.append_nil] at hrest

end Tx.Follows

end

/-! ### Connections -/

/-- What the connection does to one transaction. -/
inductive Link where
  /-- The transaction runs and its outcome is reported. -/
  | up
  /-- The transaction never runs; the caller sees a connection error. -/
  | down
  /-- The transaction runs; the report of it is replaced by a connection error. -/
  | lost
  deriving DecidableEq

/-- The state after a transaction, what was committed, and what the caller is told. -/
structure Outcome (σ ε α : Type) where
  state : σ
  committed : Option α
  reply : Except ε α

/-- Run a transaction over a connection whose failures are reported as `io`. -/
def Tx.commit (tx : Tx σ ε α) (link : Link) (io : ε) (s : σ) : Outcome σ ε α :=
  match link with
  | .down => ⟨s, none, .error io⟩
  | .up =>
    match tx s with
    | .ok (a, s') => ⟨s', some a, .ok a⟩
    | .error e => ⟨s, none, .error e⟩
  | .lost =>
    match tx s with
    | .ok (a, s') => ⟨s', some a, .error io⟩
    | .error _ => ⟨s, none, .error io⟩

namespace Tx

variable {tx : Tx σ ε α} {link : Link} {io : ε} {s : σ}

/-- Either the transaction committed, or the state is the one before. -/
theorem commit_cases (tx : Tx σ ε α) (link : Link) (io : ε) (s : σ) :
    ((tx.commit link io s).committed = none ∧ (tx.commit link io s).state = s) ∨
      ∃ a s', tx s = .ok (a, s') ∧ (tx.commit link io s).committed = some a ∧
        (tx.commit link io s).state = s' := by
  cases link with
  | down => exact .inl ⟨rfl, rfl⟩
  | up =>
    cases h : tx s with
    | error e => exact .inl (by simp [commit, h])
    | ok p => exact .inr ⟨p.1, p.2, rfl, by simp [commit, h]⟩
  | lost =>
    cases h : tx s with
    | error e => exact .inl (by simp [commit, h])
    | ok p => exact .inr ⟨p.1, p.2, rfl, by simp [commit, h]⟩

/-- The three outcomes: not committed and reported as an error, committed and reported, committed and
reported as a connection error. -/
theorem commit_outcome (tx : Tx σ ε α) (link : Link) (io : ε) (s : σ) :
    (∃ e, tx.commit link io s = ⟨s, none, .error e⟩) ∨
      ∃ a s', tx s = .ok (a, s') ∧
        (tx.commit link io s = ⟨s', some a, .ok a⟩ ∨ tx.commit link io s = ⟨s', some a, .error io⟩) := by
  cases link with
  | down => exact .inl ⟨io, rfl⟩
  | up =>
    cases h : tx s with
    | error e => exact .inl ⟨e, by simp [commit, h]⟩
    | ok p => exact .inr ⟨p.1, p.2, rfl, .inl (by simp [commit, h])⟩
  | lost =>
    cases h : tx s with
    | error e => exact .inl ⟨io, by simp [commit, h]⟩
    | ok p => exact .inr ⟨p.1, p.2, rfl, .inr (by simp [commit, h])⟩

/-- A transaction that gets through is reported when the connection holds. -/
theorem Commits.commit_up (h : tx.Commits s fun _ _ => True) (io : ε) :
    ∃ a, (tx.commit .up io s).committed = some a := by
  obtain ⟨a, s', hs, -⟩ := h
  exact ⟨a, by simp [commit, hs]⟩

/-- Over a connection that holds, what was committed is reported. -/
theorem reply_of_committed_up {a : α} (h : (tx.commit .up io s).committed = some a) :
    (tx.commit .up io s).reply = .ok a := by
  cases ht : tx s <;> simp_all [commit]

/-- A reported success is a committed one. -/
theorem committed_of_reply_ok {a : α} (h : (tx.commit link io s).reply = .ok a) :
    (tx.commit link io s).committed = some a := by
  cases link with
  | down => simp [commit] at h
  | up => cases ht : tx s <;> simp_all [commit]
  | lost => cases ht : tx s <;> simp_all [commit]

/-- A reported success ran, and left the state it ended in. -/
theorem eq_ok_of_reply_ok {a : α} (h : (tx.commit link io s).reply = .ok a) :
    tx s = .ok (a, (tx.commit link io s).state) := by
  have hcommitted := committed_of_reply_ok h
  rcases tx.commit_cases link io s with ⟨hnone, -⟩ | ⟨a', s', ht, hsome, hs⟩
  · rw [hcommitted] at hnone
    cases hnone
  · rw [hcommitted] at hsome
    rw [ht, hs, Option.some.inj hsome]

theorem ReadOnly.state_commit (h : tx.ReadOnly) (link : Link) (io : ε) (s : σ) :
    (tx.commit link io s).state = s := by
  rcases tx.commit_cases link io s with ⟨-, hs⟩ | ⟨a, s', ht, -, hs⟩
  · exact hs
  · exact hs.trans (h.state_eq ht)

theorem Keeps.commit {I : σ → Prop} (h : Tx.Keeps I tx) (hi : I s) (link : Link) (io : ε) :
    I (tx.commit link io s).state := by
  rcases tx.commit_cases link io s with ⟨-, hs⟩ | ⟨a, s', ht, -, hs⟩
  · rwa [hs]
  · rw [hs]
    exact h.keeps hi ht

/-- A reported error other than that of the connection leaves the state as it was. -/
theorem state_of_reply_error {e : ε} (h : (tx.commit link io s).reply = .error e) (he : e ≠ io) :
    (tx.commit link io s).state = s := by
  cases link with
  | down => rfl
  | up => cases ht : tx s <;> simp_all [commit]
  | lost => cases ht : tx s <;> simp_all [commit]

/-- Two runs that agree are reported in one way, whatever the connection does, and leave the states as
they were or related. -/
theorem Agrees.commit {R : σ → σ → Prop} {Q : α → σ → σ → Prop} {t : σ} (h : Tx.Agrees R Q tx)
    (hst : R s t) (link : Link) (io : ε) :
    (tx.commit link io s).reply = (tx.commit link io t).reply ∧
      (((tx.commit link io s).state = s ∧ (tx.commit link io t).state = t) ∨
        ∃ a, Q a (tx.commit link io s).state (tx.commit link io t).state) := by
  cases link with
  | down => exact ⟨rfl, .inl ⟨rfl, rfl⟩⟩
  | up =>
    rcases h s t hst with ⟨e, hs, ht⟩ | ⟨a, s', t', hs, ht, hq⟩
    · simp [Tx.commit, hs, ht]
    · refine ⟨by simp [Tx.commit, hs, ht], .inr ⟨a, ?_⟩⟩
      simpa [Tx.commit, hs, ht] using hq
  | lost =>
    rcases h s t hst with ⟨e, hs, ht⟩ | ⟨a, s', t', hs, ht, hq⟩
    · simp [Tx.commit, hs, ht]
    · refine ⟨by simp [Tx.commit, hs, ht], .inr ⟨a, ?_⟩⟩
      simpa [Tx.commit, hs, ht] using hq

/-- A transaction that a map of the states commutes with commutes with it over every connection. -/
theorem Agrees.commit_map {f : σ → σ}
    (h : Tx.Agrees (fun s t => t = f s) (fun _ s t => t = f s) tx) :
    tx.commit link io (f s) = ⟨f (tx.commit link io s).state, (tx.commit link io s).committed,
      (tx.commit link io s).reply⟩ := by
  rcases h s (f s) rfl with ⟨e, hs, ht⟩ | ⟨a, s', t', hs, ht, rfl⟩
  · cases link <;> simp [Tx.commit, hs, ht]
  · cases link <;> simp [Tx.commit, hs, ht]

end Tx

end Transaction
