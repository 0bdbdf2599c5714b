import Mathlib.Logic.Relation

/-!
# Exclusive locks and deadlocks

Transactions hold resources exclusively and ask for one more at a time.  A transaction waits for the
one that holds what it asks for; a deadlock is a cycle of waits.

* `not_deadlocked` — a transaction in a cycle holds something and waits for one that waits.  If no
  transaction that holds something does that, there is no cycle.
* `Anchored` — a transaction holds, with each resource, the resource that anchors it.  Anchored
  transactions do not block one another below an anchor (`Exclusive.not_held_of_anchored`).
-/

namespace RowLocks

open Relation

/-- Who holds what, and who asks for what. -/
structure LockTable (ρ τ : Type) where
  Holds : τ → ρ → Prop
  Asks : τ → ρ → Prop

namespace LockTable

variable {ρ τ : Type} {l : LockTable ρ τ} {t t' : τ} {r : ρ}

/-- `t` asks for something another transaction `t'` holds. -/
def WaitsFor (l : LockTable ρ τ) (t t' : τ) : Prop := t ≠ t' ∧ ∃ r, l.Asks t r ∧ l.Holds t' r

/-- There is a cycle of transactions each waiting for the next. -/
def Deadlocked (l : LockTable ρ τ) : Prop := ∃ t, TransGen l.WaitsFor t t

/-- Nothing is held twice. -/
def Exclusive (l : LockTable ρ τ) : Prop := ∀ r t t', l.Holds t r → l.Holds t' r → t = t'

/-- In a cycle everyone is waited for, so holds something, and waits for someone who waits. -/
theorem not_deadlocked
    (h : ∀ t r t', l.Holds t r → l.WaitsFor t t' → ∀ t'', ¬l.WaitsFor t' t'') : ¬l.Deadlocked := by
  rintro ⟨t, hcycle⟩
  obtain ⟨b, hb, hrest⟩ := TransGen.head'_iff.1 hcycle
  obtain ⟨c, -, hc⟩ := TransGen.tail'_iff.1 hcycle
  obtain ⟨-, r, -, hr⟩ := hc
  rcases ReflTransGen.cases_head hrest with rfl | ⟨d, hd, -⟩
  · exact hb.1 rfl
  · exact h t r b hr hb d hd

/-- With each resource, the transaction holds the one that anchors it. -/
def Anchored (l : LockTable ρ τ) (anchor : ρ → ρ) (t : τ) : Prop :=
  ∀ r, l.Holds t r → l.Holds t (anchor r)

/-- Below an anchor it holds, a transaction meets no other anchored one. -/
theorem Exclusive.not_held_of_anchored {anchor : ρ → ρ} (hl : l.Exclusive) (ht : l.Holds t (anchor r))
    (ht' : l.Anchored anchor t') (hne : t ≠ t') : ¬l.Holds t' r :=
  fun hr => hne (hl _ t t' ht (ht' r hr))

end LockTable

end RowLocks
