/-!
# Computations that fail and still have had effects

`Comp σ ε α` runs from a state to a result or an error, and to a state in either case: what was done
before a failure stays done.  There is one equation for each way to put such computations together and
each way they can end; read from left to right it takes a run apart, from right to left it makes one.
-/

namespace Fallible

variable {σ ε ε' α β : Type}

/-- A computation with effects on `σ` that may fail with an `ε`. -/
def Comp (σ ε α : Type) : Type := σ → Except ε α × σ

instance : Monad (Comp σ ε) where
  pure a := fun s => (.ok a, s)
  bind x f := fun s =>
    match x s with
    | (.ok a, s') => f a s'
    | (.error e, s') => (.error e, s')

namespace Comp

def fail (e : ε) : Comp σ ε α := fun s => (.error e, s)

/-- The same effects, with the error seen differently. -/
def mapError (f : ε → ε') (x : Comp σ ε α) : Comp σ ε' α := fun s =>
  match x s with
  | (.ok a, s') => (.ok a, s')
  | (.error e, s') => (.error (f e), s')

/-- A result or an error that is already there. -/
def ofExcept (r : Except ε α) : Comp σ ε α := fun s => (r, s)

/-- Fail if there is an error. -/
def failIf (e : Option ε) : Comp σ ε Unit :=
  match e with
  | some e => fail e
  | none => pure ()

variable {x : Comp σ ε α} {f : α → Comp σ ε β} {s s' : σ}

theorem bind_of_ok {a : α} {s₁ : σ} (h : x s = (.ok a, s₁)) : (x >>= f) s = f a s₁ := by
  have hrun : (x >>= f) s = match x s with
      | (.ok a, s') => f a s'
      | (.error e, s') => (.error e, s') := rfl
  rw [hrun, h]

theorem bind_of_error {e : ε} (h : x s = (.error e, s')) : (x >>= f) s = (.error e, s') := by
  have hrun : (x >>= f) s = match x s with
      | (.ok a, s') => f a s'
      | (.error e, s') => (.error e, s') := rfl
  rw [hrun, h]

@[simp]
theorem bind_eq_ok {b : β} :
    (x >>= f) s = (.ok b, s') ↔ ∃ a s₁, x s = (.ok a, s₁) ∧ f a s₁ = (.ok b, s') := by
  cases hx : x s with
  | mk r s₁ =>
    cases r with
    | ok a => simp [bind_of_ok hx, and_assoc]
    | error e => simp [bind_of_error hx]

@[simp]
theorem bind_eq_error {e : ε} : (x >>= f) s = (.error e, s')
    ↔ x s = (.error e, s') ∨ ∃ a s₁, x s = (.ok a, s₁) ∧ f a s₁ = (.error e, s') := by
  cases hx : x s with
  | mk r s₁ =>
    cases r with
    | ok a => simp [bind_of_ok hx, and_assoc]
    | error e => simp [bind_of_error hx]

@[simp]
theorem pure_eq {a : α} {r : Except ε α} :
    (Pure.pure a : Comp σ ε α) s = (r, s') ↔ .ok a = r ∧ s = s' :=
  Iff.of_eq (Prod.mk.injEq ..)

@[simp]
theorem fail_eq {e : ε} {r : Except ε α} : (fail e : Comp σ ε α) s = (r, s') ↔ .error e = r ∧ s = s' :=
  Iff.of_eq (Prod.mk.injEq ..)

@[simp]
theorem ofExcept_eq {r r' : Except ε α} : ofExcept r s = (r', s') ↔ r = r' ∧ s = s' :=
  Iff.of_eq (Prod.mk.injEq ..)

@[simp]
theorem mapError_eq_ok {g : ε → ε'} {a : α} : x.mapError g s = (.ok a, s') ↔ x s = (.ok a, s') := by
  unfold mapError
  cases hx : x s with
  | mk r s₁ => cases r <;> simp

@[simp]
theorem mapError_eq_error {g : ε → ε'} {e' : ε'} :
    x.mapError g s = (.error e', s') ↔ ∃ e, x s = (.error e, s') ∧ g e = e' := by
  unfold mapError
  cases hx : x s with
  | mk r s₁ =>
    cases r with
    | ok a => simp
    | error e =>
      constructor
      · intro heq
        obtain ⟨he, rfl⟩ := Prod.mk.inj heq
        exact ⟨e, rfl, Except.error.inj he⟩
      · rintro ⟨_, heq, rfl⟩
        obtain ⟨he, rfl⟩ := Prod.mk.inj heq
        rw [Except.error.inj he]

@[simp]
theorem failIf_eq_ok {o : Option ε} {u : Unit} : failIf o s = (.ok u, s') ↔ o = none ∧ s = s' := by
  cases o <;> simp [failIf]

@[simp]
theorem failIf_eq_error {o : Option ε} {e : ε} :
    failIf o s = (.error e, s') ↔ o = some e ∧ s = s' := by
  cases o <;> simp [failIf]

/-- A computation with its errors seen differently, and what follows it. -/
theorem mapError_bind_cases {g : ε → ε'} {k : α → Comp σ ε' β} {r : Except ε' β}
    (h : (x.mapError g >>= k) s = (r, s')) :
    (∃ e, x s = (.error e, s') ∧ r = .error (g e)) ∨ ∃ a s₁, x s = (.ok a, s₁) ∧ k a s₁ = (r, s') := by
  cases hx : x s with
  | mk v s₁ =>
    cases v with
    | ok a =>
      rw [bind_of_ok (mapError_eq_ok.2 hx)] at h
      exact Or.inr ⟨a, s₁, rfl, h⟩
    | error e =>
      rw [bind_of_error (mapError_eq_error.2 ⟨e, hx, rfl⟩)] at h
      obtain ⟨rfl, rfl⟩ := Prod.mk.inj h
      exact Or.inl ⟨e, rfl, rfl⟩

theorem failIf_bind_cases {o : Option ε} {k : Unit → Comp σ ε β} {r : Except ε β}
    (h : (failIf o >>= k) s = (r, s')) :
    (∃ e, o = some e ∧ r = .error e) ∨ o = none ∧ k () s = (r, s') := by
  cases o with
  | none => exact Or.inr ⟨rfl, h⟩
  | some e => exact Or.inl ⟨e, rfl, (Prod.mk.inj h).1.symm⟩

end Comp

end Fallible
