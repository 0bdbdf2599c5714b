import Mathlib.Data.List.Infix

/-!
# Transition systems, runs and what holds along them

A transition system has an initial state and a partial step function; the labels carry every choice
the environment makes, so a run is determined by its list of labels.

* `exec` runs a list of labels; `Reachable` is reachability from the initial state.
* `Always P xs` — `P` holds in every state the run of `xs` passes through; `EachStep C xs` — every
  step of that run is taken from a state and with a label that satisfy `C`.
* `Reachable.invariant` and `always_of_eachStep` are the two induction rules: an invariant of all
  runs, and an invariant of the runs whose steps all meet a condition; `always_iff_eachStep` is the
  second with an exact condition.
* `Reachable.stable` — what every step keeps is kept along every run from a reachable state.
* `tally` — what the steps of a run cost together, each in the state it is taken in; `le_tally` is the
  rule for what grows by no more than the cost of a step.
* `checkFrom` tests a condition along one run; `eachStep_of_check` turns a passed test into
  `EachStep`, and `exists_of_exec` a test of the state one run ends in into that state.
* `Simulation` — one system inside another, with steps the other does not see; `Simulation.always`
  carries what holds along restricted runs over.
-/

namespace TransitionSystem

/-- An initial state and a step function; `none` is a label that is not enabled. -/
structure System (σ α : Type) where
  init : σ
  step : σ → α → Option σ

namespace System

variable {σ α : Type} (S : System σ α)

/-- Run a list of labels from a state. -/
def execFrom (s : σ) : List α → Option σ
  | [] => some s
  | x :: xs => (S.step s x).bind fun s' => execFrom s' xs

/-- Run a list of labels from the initial state. -/
def exec (xs : List α) : Option σ := S.execFrom S.init xs

/-- The states some run ends in. -/
def Reachable (s : σ) : Prop := ∃ xs, S.exec xs = some s

/-- `P` holds in every state along the run of `xs`. -/
def Always (P : σ → Prop) (xs : List α) : Prop :=
  ∀ ys s, ys <+: xs → S.exec ys = some s → P s

/-- Every step along the run of `xs` is taken in a state, and with a label, that satisfy `C`. -/
def EachStep (C : σ → α → Prop) (xs : List α) : Prop :=
  ∀ ys x s, ys ++ [x] <+: xs → S.exec ys = some s → C s x

/-- What the steps of a run cost, from a state on. -/
def tallyFrom (cost : σ → α → ℕ) (s : σ) : List α → ℕ
  | [] => 0
  | x :: xs =>
    match S.step s x with
    | some s' => cost s x + tallyFrom cost s' xs
    | none => 0

/-- What the steps of a run cost. -/
def tally (cost : σ → α → ℕ) (xs : List α) : ℕ := S.tallyFrom cost S.init xs

variable {S}

theorem execFrom_append (s : σ) (xs ys : List α) :
    S.execFrom s (xs ++ ys) = (S.execFrom s xs).bind fun s' => S.execFrom s' ys := by
  induction xs generalizing s with
  | nil => rfl
  | cons x xs ih =>
    simp only [List.cons_append, execFrom]
    cases S.step s x with
    | none => rfl
    | some s' => exact ih s'

theorem execFrom_single {s s' : σ} {x : α} (h : S.step s x = some s') :
    S.execFrom s [x] = some s' := by
  rw [execFrom, h]
  rfl

theorem execFrom_pair {s s' s'' : σ} {x y : α} (h : S.step s x = some s')
    (h' : S.step s' y = some s'') : S.execFrom s [x, y] = some s'' := by
  rw [execFrom, h]
  exact execFrom_single h'

theorem execFrom_snoc {s s' : σ} {xs : List α} {x : α} :
    S.execFrom s (xs ++ [x]) = some s' ↔ ∃ s₁, S.execFrom s xs = some s₁ ∧ S.step s₁ x = some s' := by
  rw [execFrom_append, Option.bind_eq_some_iff]
  simp [execFrom]

theorem exec_snoc {xs : List α} {x : α} {s : σ} :
    S.exec (xs ++ [x]) = some s ↔ ∃ s₀, S.exec xs = some s₀ ∧ S.step s₀ x = some s :=
  execFrom_snoc

theorem Reachable.step {s s' : σ} {x : α} (h : S.Reachable s) (hs : S.step s x = some s') :
    S.Reachable s' := by
  obtain ⟨xs, hx⟩ := h
  exact ⟨xs ++ [x], exec_snoc.2 ⟨s, hx, hs⟩⟩

theorem Reachable.execFrom {s s' : σ} {ys : List α} (h : S.Reachable s)
    (hx : S.execFrom s ys = some s') : S.Reachable s' := by
  obtain ⟨xs, hxs⟩ := h
  rw [exec] at hxs
  refine ⟨xs ++ ys, ?_⟩
  rw [exec, execFrom_append, hxs]
  exact hx

/-- **Invariants.**  What holds initially and is kept by every step holds in every reachable
state. -/
theorem Reachable.invariant {P : σ → Prop} (h₀ : P S.init)
    (hstep : ∀ s x s', P s → S.step s x = some s' → P s') {s : σ} (h : S.Reachable s) : P s := by
  obtain ⟨xs, hx⟩ := h
  induction xs using List.reverseRecOn generalizing s with
  | nil => exact Option.some.inj hx ▸ h₀
  | append_singleton xs x ih =>
    obtain ⟨s₀, h₁, h₂⟩ := exec_snoc.1 hx
    exact hstep s₀ x s (ih h₁) h₂

/-- **Invariants of restricted runs.**  A step that meets `C` keeps `P`, so a run whose steps all
meet `C` keeps `P` throughout. -/
theorem always_of_eachStep {P : σ → Prop} {C : σ → α → Prop} (h₀ : P S.init)
    (hstep : ∀ s x s', S.Reachable s → P s → C s x → S.step s x = some s' → P s') {xs : List α}
    (h : S.EachStep C xs) : S.Always P xs := by
  intro ys
  induction ys using List.reverseRecOn with
  | nil =>
    intro s _ hs
    exact Option.some.inj hs ▸ h₀
  | append_singleton ys y ih =>
    intro s hp hs
    obtain ⟨s₀, h₁, h₂⟩ := exec_snoc.1 hs
    have hpre : ys <+: xs := (List.prefix_append ys [y]).trans hp
    exact hstep s₀ y s ⟨ys, h₁⟩ (ih s₀ hpre h₁) (h ys y s₀ hp h₁) h₂

/-- A run passes through a state after each of its steps. -/
theorem exec_of_isPrefix {xs ys : List α} {s : σ} (hx : S.exec xs = some s) (hp : ys <+: xs) :
    ∃ t, S.exec ys = some t := by
  obtain ⟨zs, rfl⟩ := hp
  rw [exec, execFrom_append] at hx
  obtain ⟨t, ht, -⟩ := Option.bind_eq_some_iff.1 hx
  exact ⟨t, ht⟩

/-- **Exact conditions.**  If a step from a state with `P` keeps it exactly if it meets `C`, the runs that
keep `P` throughout are those whose steps all meet `C`. -/
theorem always_iff_eachStep {P : σ → Prop} {C : σ → α → Prop} (h₀ : P S.init)
    (hstep : ∀ s x s', S.Reachable s → P s → S.step s x = some s' → (P s' ↔ C s x)) {xs : List α}
    {s : σ} (hx : S.exec xs = some s) : S.Always P xs ↔ S.EachStep C xs := by
  constructor
  · intro h ys x t hp ht
    obtain ⟨t', ht'⟩ := exec_of_isPrefix hx hp
    obtain ⟨t₀, ht₀, hs⟩ := exec_snoc.1 ht'
    obtain rfl := Option.some.inj (ht₀.symm.trans ht)
    have hpre : ys <+: xs := (List.prefix_append ys [x]).trans hp
    exact (hstep t₀ x t' ⟨ys, ht⟩ (h ys t₀ hpre ht) hs).1 (h _ t' hp ht')
  · exact always_of_eachStep h₀ fun t x t' hr hP hC hs => (hstep t x t' hr hP hs).2 hC

theorem Always.last {P : σ → Prop} {xs : List α} {s : σ} (h : S.Always P xs)
    (hs : S.exec xs = some s) : P s :=
  h xs s List.prefix_rfl hs

/-- **Stability.**  What every step from a reachable state keeps holds at the end of every run that
starts where it holds. -/
theorem Reachable.stable {P : σ → Prop}
    (hstep : ∀ s x s', S.Reachable s → P s → S.step s x = some s' → P s') {s s' : σ}
    (hr : S.Reachable s) (hs : P s) {xs : List α} (hx : S.execFrom s xs = some s') : P s' := by
  induction xs generalizing s with
  | nil => exact Option.some.inj hx ▸ hs
  | cons x xs ih =>
    obtain ⟨s₁, h₁, h₂⟩ := Option.bind_eq_some_iff.1 hx
    exact ih (hr.step h₁) (hstep s x s₁ hr hs h₁) h₂

theorem tallyFrom_snoc {cost : σ → α → ℕ} {s s₁ s' : σ} {xs : List α} {x : α}
    (h : S.execFrom s xs = some s₁) (hx : S.step s₁ x = some s') :
    S.tallyFrom cost s (xs ++ [x]) = S.tallyFrom cost s xs + cost s₁ x := by
  induction xs generalizing s with
  | nil =>
    obtain rfl := Option.some.inj h
    simp [tallyFrom, hx]
  | cons y ys ih =>
    rw [execFrom, Option.bind_eq_some_iff] at h
    obtain ⟨s₂, hy, hys⟩ := h
    simp only [List.cons_append, tallyFrom, hy, ih hys]
    omega

/-- **Amortized counting.**  What grows by at most the cost of a step grows along a run by at most what
its steps cost. -/
theorem le_tally {cost : σ → α → ℕ} {size : σ → ℕ} {C : α → Prop}
    (hstep : ∀ s x s', C x → S.step s x = some s' → size s' ≤ size s + cost s x) {xs : List α} {s : σ}
    (hC : ∀ x ∈ xs, C x) (h : S.exec xs = some s) : size s ≤ size S.init + S.tally cost xs := by
  induction xs using List.reverseRecOn generalizing s with
  | nil =>
    obtain rfl := Option.some.inj h
    exact Nat.le_add_right _ _
  | append_singleton xs x ih =>
    obtain ⟨s₀, h₀, hx⟩ := exec_snoc.1 h
    have hbefore := ih (fun y hy => hC y (List.mem_append_left _ hy)) h₀
    have hlast := hstep s₀ x s (hC x (by simp)) hx
    rw [tally, tallyFrom_snoc h₀ hx]
    rw [tally] at hbefore
    omega

/-- Run a list of labels and test every step on the way. -/
def checkFrom (S : System σ α) (C : σ → α → Bool) (s : σ) : List α → Bool
  | [] => true
  | x :: xs => C s x && (S.step s x).all fun s' => checkFrom S C s' xs

theorem of_checkFrom {C : σ → α → Bool} {s : σ} {xs : List α} (h : S.checkFrom C s xs = true) :
    ∀ ys x t, ys ++ [x] <+: xs → S.execFrom s ys = some t → C t x = true := by
  induction xs generalizing s with
  | nil =>
    intro ys x t hp
    simp at hp
  | cons y xs ih =>
    rw [checkFrom, Bool.and_eq_true] at h
    intro ys x t hp ht
    cases ys with
    | nil =>
      obtain rfl : x = y := (List.cons_prefix_cons.1 hp).1
      obtain rfl := Option.some.inj ht
      exact h.1
    | cons z ys =>
      obtain ⟨rfl, hp'⟩ := List.cons_prefix_cons.1 hp
      obtain ⟨s₁, h₁, h₂⟩ := Option.bind_eq_some_iff.1 ht
      have hrest := h.2
      rw [h₁, Option.all_some] at hrest
      exact ih hrest ys x t hp' h₂

/-- A run whose steps all pass the test of `C`. -/
theorem eachStep_of_check {C : σ → α → Prop} [∀ s, DecidablePred (C s)] {xs : List α}
    (h : S.checkFrom (fun s x => decide (C s x)) S.init xs = true) : S.EachStep C xs := by
  intro ys x t hp ht
  exact of_decide_eq_true (of_checkFrom h ys x t hp ht)

/-- A test passed at the end of one run. -/
theorem exists_of_exec {P : σ → Prop} [DecidablePred P] {xs : List α}
    (h : (S.exec xs).any (fun s => decide (P s)) = true) : ∃ s, S.exec xs = some s ∧ P s := by
  obtain ⟨s, hs, hp⟩ := (Option.any_eq_true _ _).1 h
  exact ⟨s, hs, of_decide_eq_true hp⟩

/-! ### Simulations -/

/-- `S` runs inside `T`: seen through `f`, a step of `S` is the step of `T` that `g` names, or no step
at all. -/
structure Simulation {τ β : Type} (S : System σ α) (T : System τ β) (f : σ → τ) (g : α → Option β) :
    Prop where
  init : f S.init = T.init
  step : ∀ {s x s' y}, S.step s x = some s' → g x = some y → T.step (f s) y = some (f s')
  silent : ∀ {s x s'}, S.step s x = some s' → g x = none → f s' = f s

namespace Simulation

variable {τ β : Type} {T : System τ β} {f : σ → τ} {g : α → Option β}

/-- A run of `S` is a run of `T`, without the steps `T` does not see. -/
theorem exec (h : S.Simulation T f g) {xs : List α} {s : σ} (hx : S.exec xs = some s) :
    T.exec (xs.filterMap g) = some (f s) := by
  induction xs using List.reverseRecOn generalizing s with
  | nil =>
    obtain rfl := Option.some.inj hx
    rw [h.init]
    rfl
  | append_singleton xs x ih =>
    obtain ⟨s₀, h₀, hstep⟩ := exec_snoc.1 hx
    rw [List.filterMap_append]
    cases hg : g x with
    | none =>
      rw [h.silent hstep hg, ← ih h₀]
      simp [hg]
    | some y =>
      have hy : [x].filterMap g = [y] := by simp [hg]
      rw [hy]
      exact exec_snoc.2 ⟨f s₀, ih h₀, h.step hstep hg⟩

theorem reachable (h : S.Simulation T f g) {s : σ} (hr : S.Reachable s) : T.Reachable (f s) := by
  obtain ⟨xs, hx⟩ := hr
  exact ⟨_, h.exec hx⟩

/-- A condition on the steps of `S` becomes one on the steps of `T`. -/
theorem eachStep (h : S.Simulation T f g) {C : σ → α → Prop} {D : τ → β → Prop}
    (hCD : ∀ s x y, g x = some y → C s x → D (f s) y) {xs : List α} {s : σ}
    (hx : S.exec xs = some s) (hC : S.EachStep C xs) : T.EachStep D (xs.filterMap g) := by
  induction xs using List.reverseRecOn generalizing s with
  | nil =>
    intro ys y t hp
    simp at hp
  | append_singleton xs x ih =>
    obtain ⟨s₀, h₀, -⟩ := exec_snoc.1 hx
    have hrest := ih h₀ fun ys y t hp => hC ys y t (hp.trans (List.prefix_append xs [x]))
    rw [List.filterMap_append]
    cases hg : g x with
    | none => simpa [hg] using hrest
    | some y =>
      have hy : [x].filterMap g = [y] := by simp [hg]
      rw [hy]
      intro zs z t hp ht
      rcases List.prefix_concat_iff.1 hp with heq | hp
      · -- the last step of `T` is the last step of `S`
        obtain ⟨rfl, hz⟩ := List.append_inj' heq rfl
        obtain rfl := List.singleton_inj.1 hz
        obtain rfl := Option.some.inj ((h.exec h₀).symm.trans ht)
        exact hCD s₀ x z hg (hC xs x s₀ List.prefix_rfl h₀)
      · exact hrest zs z t hp ht

/-- **Transfer.**  What holds along the restricted runs of `T` holds along those of `S`. -/
theorem always (h : S.Simulation T f g) {C : σ → α → Prop} {D : τ → β → Prop} {P : τ → Prop}
    (hCD : ∀ s x y, g x = some y → C s x → D (f s) y)
    (hT : ∀ ys, T.EachStep D ys → T.Always P ys) {xs : List α} (hC : S.EachStep C xs) :
    S.Always (fun s => P (f s)) xs := by
  intro ys s hp hs
  have hCy : S.EachStep C ys := fun zs z t hz => hC zs z t (hz.trans hp)
  exact (hT _ (h.eachStep hCD hs hCy)).last (h.exec hs)

end Simulation

end System

end TransitionSystem
