import Mathlib.Algebra.Order.BigOperators.Group.List
import Mathlib.Algebra.Order.Ring.Nat
import Mathlib.Data.List.Count
import Mathlib.Data.List.Nodup

/-!
# Keyed tables: rows under a primary key

A table is a list of rows whose keys are pairwise distinct; the distinctness is a field of the
structure, so a table with two rows under one key cannot be built.  The operations are the ones a
SQL statement needs, and each comes with the lemma that describes it through `find?`:

* `insert` — appends a row, or refuses it when its key is taken;
* `update` — rewrites every row that satisfies a predicate (`UPDATE … WHERE`), leaving keys alone;
* `modify` — `update` at a single key, the form every guarded single-row update collapses to
  (`update_key_and`);
* `count` — how many rows satisfy a predicate, with the lemmas that follow it through the other
  operations (`count_insert`, `count_update_congr`, `count_update_add`);
* `total` — the sum of a weight over the rows, followed in the same way (`total_insert`,
  `total_update_add_le`), and over the groups of a `GROUP BY` (`sum_groups`);
* `Same` — two tables with the same rows among some, with the lemmas that follow it through the other
  operations, whether both tables go through them (`Same.update`, `Same.insert`) or one of them does
  (`same_update`, `same_insert`).

Nothing here knows which tables it will be used for.
-/

namespace KeyedTable

/-- A type of rows with a primary key. -/
class Keyed (R : Type) (K : outParam Type) where
  key : R → K

export Keyed (key)

/-- Rows with pairwise distinct keys, in insertion order. -/
structure Table (R : Type) {K : Type} [Keyed R K] where
  rows : List R
  nodup : (rows.map key).Nodup

namespace Table

variable {R K : Type} [Keyed R K]

/-- The table without rows. -/
def empty : Table R := ⟨[], List.nodup_nil⟩

/-- Two rows of one table under one key are one row. -/
theorem eq_of_key_eq (t : Table R) {r r' : R} (h : r ∈ t.rows) (h' : r' ∈ t.rows)
    (hk : key r = key r') : r = r' :=
  List.inj_on_of_nodup_map t.nodup h h' hk

/-- Tables with the same rows are one table. -/
theorem ext {t t' : Table R} (h : t.rows = t'.rows) : t = t' := by
  cases t
  cases t'
  cases h
  rfl

variable [DecidableEq K]

/-- The row under a key. -/
def find? (t : Table R) (k : K) : Option R := t.rows.find? (fun r => decide (key r = k))

theorem find?_eq_some_iff {t : Table R} {k : K} {r : R} :
    t.find? k = some r ↔ r ∈ t.rows ∧ key r = k := by
  constructor
  · intro h
    exact ⟨List.mem_of_find?_eq_some h, by simpa using List.find?_some h⟩
  · rintro ⟨hmem, rfl⟩
    cases hf : t.find? (key r) with
    | none =>
      rw [find?, List.find?_eq_none] at hf
      exact absurd (by simp) (hf r hmem)
    | some r' =>
      have hk : key r' = key r := by simpa using List.find?_some hf
      rw [t.eq_of_key_eq (List.mem_of_find?_eq_some hf) hmem hk]

theorem find?_eq_none_iff {t : Table R} {k : K} :
    t.find? k = none ↔ ∀ r ∈ t.rows, key r ≠ k := by
  simp [find?, List.find?_eq_none]

theorem find?_key {t : Table R} {r : R} (h : r ∈ t.rows) : t.find? (key r) = some r :=
  find?_eq_some_iff.2 ⟨h, rfl⟩

@[simp] theorem find?_empty (k : K) : (empty : Table R).find? k = none := rfl

/-! ### Updating -/

omit [DecidableEq K] in
theorem map_key_update (rows : List R) (p : R → Prop) [DecidablePred p] (f : R → R)
    (hf : ∀ r, key (f r) = key r) :
    (rows.map fun r => if p r then f r else r).map key = rows.map key := by
  rw [List.map_map]
  apply List.map_congr_left
  intro r _
  by_cases hp : p r
  · simp [hp, hf]
  · simp [hp]

/-- Rewrite every row that satisfies `p`; the rewriting keeps keys. -/
def update (t : Table R) (p : R → Prop) [DecidablePred p] (f : R → R)
    (hf : ∀ r, key (f r) = key r) : Table R where
  rows := t.rows.map fun r => if p r then f r else r
  nodup := by rw [map_key_update t.rows p f hf]; exact t.nodup

/-- Rewrite the row under one key. -/
def modify (t : Table R) (k : K) (f : R → R) (hf : ∀ r, key (f r) = key r) : Table R :=
  t.update (fun r => key r = k) f hf

theorem find?_update (t : Table R) (p : R → Prop) [DecidablePred p] (f : R → R)
    (hf : ∀ r, key (f r) = key r) (k : K) :
    (t.update p f hf).find? k = (t.find? k).map fun r => if p r then f r else r := by
  cases h : t.find? k with
  | none =>
    rw [find?_eq_none_iff] at h
    rw [Option.map_none, find?_eq_none_iff]
    intro r hr
    obtain ⟨r₀, hr₀, rfl⟩ := List.mem_map.1 hr
    by_cases hp : p r₀
    · simpa [hp, hf] using h r₀ hr₀
    · simpa [hp] using h r₀ hr₀
  | some r =>
    obtain ⟨hmem, hk⟩ := find?_eq_some_iff.1 h
    rw [Option.map_some, find?_eq_some_iff]
    refine ⟨List.mem_map.2 ⟨r, hmem, rfl⟩, ?_⟩
    by_cases hp : p r
    · simpa [hp, hf] using hk
    · simpa [hp] using hk

/-- An update leaves the row under a key alone, or selects and rewrites it. -/
theorem find?_update_cases (t : Table R) (p : R → Prop) [DecidablePred p] (f : R → R)
    (hf : ∀ r, key (f r) = key r) (k : K) :
    ((t.update p f hf).find? k = t.find? k ∧ ∀ r, t.find? k = some r → ¬p r) ∨
      ∃ r, t.find? k = some r ∧ p r ∧ (t.update p f hf).find? k = some (f r) := by
  rw [find?_update]
  cases h : t.find? k with
  | none => exact .inl ⟨rfl, by simp⟩
  | some r =>
    by_cases hp : p r
    · exact .inr ⟨r, rfl, hp, by simp [hp]⟩
    · refine .inl ⟨by simp [hp], ?_⟩
      intro r' hr'
      rwa [← Option.some.inj hr']

theorem find?_modify (t : Table R) (k : K) (f : R → R) (hf : ∀ r, key (f r) = key r) (k' : K) :
    (t.modify k f hf).find? k' = if k' = k then (t.find? k').map f else t.find? k' := by
  rw [modify, find?_update]
  cases h : t.find? k' with
  | none => simp
  | some r =>
    obtain ⟨-, rfl⟩ := find?_eq_some_iff.1 h
    by_cases hk : key r = k <;> simp [hk]

theorem find?_modify_self {t : Table R} {k : K} {r : R} (h : t.find? k = some r) (f : R → R)
    (hf : ∀ r, key (f r) = key r) : (t.modify k f hf).find? k = some (f r) := by
  simp [find?_modify, h]

theorem find?_modify_ne (t : Table R) {k k' : K} (hk : k' ≠ k) (f : R → R)
    (hf : ∀ r, key (f r) = key r) : (t.modify k f hf).find? k' = t.find? k' := by
  simp [find?_modify, hk]

/-- After rewriting the row under `k`, a key is `k` itself or holds what it held. -/
theorem find?_modify_cases {t : Table R} {k : K} {r : R} (h : t.find? k = some r) (f : R → R)
    (hf : ∀ r, key (f r) = key r) (k' : K) :
    (k' ≠ k ∧ (t.modify k f hf).find? k' = t.find? k') ∨
      (k' = k ∧ (t.modify k f hf).find? k' = some (f r)) := by
  by_cases hk : k' = k
  · subst hk
    exact .inr ⟨rfl, find?_modify_self h f hf⟩
  · exact .inl ⟨hk, find?_modify_ne t hk f hf⟩

/-- A guarded update at a key is `modify` once the row under the key passes the guard. -/
theorem update_key_and {t : Table R} {k : K} {r : R} (h : t.find? k = some r) (g : R → Prop)
    [DecidablePred g] (hg : g r) (f : R → R) (hf : ∀ r, key (f r) = key r) :
    t.update (fun r => key r = k ∧ g r) f hf = t.modify k f hf := by
  have hrows : (t.rows.map fun r => if key r = k ∧ g r then f r else r)
      = t.rows.map fun r => if key r = k then f r else r := by
    apply List.map_congr_left
    intro r' hr'
    by_cases hk : key r' = k
    · obtain ⟨hmem, hkr⟩ := find?_eq_some_iff.1 h
      have : r' = r := t.eq_of_key_eq hr' hmem (hk.trans hkr.symm)
      simp [hk, this ▸ hg]
    · simp [hk]
  simp only [modify, update, hrows]

omit [DecidableEq K] in
/-- A row after an update was there before, or is the rewriting of a selected one. -/
theorem mem_update {t : Table R} {p : R → Prop} [DecidablePred p] (f : R → R)
    (hf : ∀ r, key (f r) = key r) {r' : R} (h : r' ∈ (t.update p f hf).rows) :
    (r' ∈ t.rows ∧ ¬p r') ∨ ∃ r ∈ t.rows, p r ∧ r' = f r := by
  obtain ⟨r, hr, rfl⟩ := List.mem_map.1 h
  by_cases hp : p r
  · exact .inr ⟨r, hr, hp, if_pos hp⟩
  · rw [if_neg hp]
    exact .inl ⟨hr, hp⟩

omit [DecidableEq K] in
/-- An update keeps what it keeps of each row. -/
theorem forall_update {t : Table R} {P : R → Prop} (h : ∀ r ∈ t.rows, P r) (p : R → Prop)
    [DecidablePred p] {f : R → R} (hf : ∀ r, key (f r) = key r) (hP : ∀ r, P r → P (f r)) :
    ∀ r ∈ (t.update p f hf).rows, P r := by
  intro r' hr'
  rcases mem_update f hf hr' with ⟨hr, -⟩ | ⟨r, hr, -, rfl⟩
  · exact h r' hr
  · exact hP r (h r hr)

omit [DecidableEq K] in
/-- What is selected by a condition that an update does not change. -/
theorem filter_update (t : Table R) {p : R → Prop} [DecidablePred p] {f : R → R}
    (hf : ∀ r, key (f r) = key r) {q : R → Bool} (hq : ∀ r, q (f r) = q r) :
    (t.update p f hf).rows.filter q = (t.rows.filter q).map fun r => if p r then f r else r := by
  have hkeeps : (q ∘ fun r => if p r then f r else r) = q := by
    funext r
    by_cases hp : p r
    · simp [hp, hq]
    · simp [hp]
  rw [update, List.filter_map, hkeeps]

/-- A table to which a row was appended has no other new key. -/
theorem find?_eq_none_of_append {t t' : Table R} {e : R} {u : K} (h : t'.rows = t.rows ++ [e])
    (hu : t.find? u = none) (hne : key e ≠ u) : t'.find? u = none := by
  rw [find?_eq_none_iff] at hu ⊢
  intro r hr
  rw [h, List.mem_append, List.mem_singleton] at hr
  rcases hr with hold | rfl
  · exact hu r hold
  · exact hne

omit [DecidableEq K] in
/-- An update none of whose rows is selected changes nothing. -/
theorem update_eq_self {t : Table R} {p : R → Prop} [DecidablePred p] (h : ∀ r ∈ t.rows, ¬p r)
    (f : R → R) (hf : ∀ r, key (f r) = key r) : t.update p f hf = t := by
  have hrows : (t.rows.map fun r => if p r then f r else r) = t.rows := by
    conv_rhs => rw [← List.map_id t.rows]
    exact List.map_congr_left fun r hr => by simp [h r hr]
  cases t
  simp only [update, hrows]

/-! ### Inserting -/

/-- Append a row, unless its key is taken. -/
def insert (t : Table R) (r : R) : Option (Table R) :=
  if h : key r ∈ t.rows.map key then none
  else some ⟨t.rows ++ [r], by
    rw [List.map_append, List.nodup_append]
    refine ⟨t.nodup, by simp, ?_⟩
    intro a ha b hb
    simp only [List.map_cons, List.map_nil, List.mem_singleton] at hb
    subst hb
    exact fun e => h (e ▸ ha)⟩

theorem insert_eq_some {t t' : Table R} {r : R} (h : t.insert r = some t') :
    t.find? (key r) = none ∧ t'.rows = t.rows ++ [r] := by
  unfold insert at h
  split at h
  · exact absurd h (by simp)
  · rename_i hk
    obtain rfl := Option.some.inj h
    refine ⟨find?_eq_none_iff.2 fun r' hr' he => hk ?_, rfl⟩
    exact he ▸ List.mem_map_of_mem hr'

theorem insert_eq_none {t : Table R} {r : R} : t.insert r = none ↔ t.find? (key r) ≠ none := by
  rw [ne_eq, find?_eq_none_iff, insert]
  split
  · rename_i hk
    simpa using hk
  · rename_i hk
    simpa using hk

/-- A row with a free key can be inserted. -/
theorem exists_insert {t : Table R} {r : R} (h : t.find? (key r) = none) :
    ∃ t', t.insert r = some t' := by
  cases hins : t.insert r with
  | some t' => exact ⟨t', rfl⟩
  | none => exact absurd h (insert_eq_none.1 hins)

theorem find?_insert {t t' : Table R} {r : R} (h : t.insert r = some t') (k : K) :
    t'.find? k = if k = key r then some r else t.find? k := by
  obtain ⟨hnone, hrows⟩ := insert_eq_some h
  rw [find?_eq_none_iff] at hnone
  rw [find?, find?, hrows, List.find?_append]
  by_cases hk : k = key r
  · subst hk
    have : t.rows.find? (fun r' => decide (key r' = key r)) = none := by
      simpa [List.find?_eq_none] using hnone
    simp [this]
  · have hk' : ¬ key r = k := fun e => hk e.symm
    simp [hk, hk']

theorem find?_insert_self {t t' : Table R} {r : R} (h : t.insert r = some t') :
    t'.find? (key r) = some r := by
  simp [find?_insert h]

/-- After an insertion, a key is the inserted row's, free before, or holds what it held. -/
theorem find?_insert_cases {t t' : Table R} {r : R} (h : t.insert r = some t') (k : K) :
    (k ≠ key r ∧ t'.find? k = t.find? k) ∨
      (k = key r ∧ t.find? k = none ∧ t'.find? k = some r) := by
  by_cases hk : k = key r
  · subst hk
    exact .inr ⟨rfl, (insert_eq_some h).1, find?_insert_self h⟩
  · refine .inl ⟨hk, ?_⟩
    rw [find?_insert h, if_neg hk]

/-- Inserting the rewritten row into the rewritten table is rewriting after the insertion. -/
theorem insert_update (t : Table R) (p : R → Prop) [DecidablePred p] (f : R → R)
    (hf : ∀ r, key (f r) = key r) (r : R) :
    (t.update p f hf).insert (if p r then f r else r)
      = (t.insert r).map fun t' => t'.update p f hf := by
  have hkey : key (if p r then f r else r) = key r := by
    split
    · exact hf r
    · rfl
  cases hins : t.insert r with
  | none =>
    rw [Option.map_none, insert_eq_none, hkey, find?_update]
    simpa using insert_eq_none.1 hins
  | some t' =>
    obtain ⟨hnone, hrows⟩ := insert_eq_some hins
    have hfree : (t.update p f hf).find? (key (if p r then f r else r)) = none := by
      rw [hkey, find?_update, hnone, Option.map_none]
    obtain ⟨t₁, ht₁⟩ := exists_insert hfree
    rw [Option.map_some, ht₁, Option.some_inj]
    apply ext
    rw [(insert_eq_some ht₁).2]
    simp [update, hrows]

theorem mem_insert {t t' : Table R} {r r' : R} (h : t.insert r = some t') :
    r' ∈ t'.rows ↔ r' ∈ t.rows ∨ r' = r := by
  rw [(insert_eq_some h).2]
  simp

/-! ### Counting -/

section Count

omit [DecidableEq K]

/-- How many rows satisfy `q`. -/
def count (t : Table R) (q : R → Prop) [DecidablePred q] : ℕ := t.rows.countP fun r => decide (q r)

variable {t t' : Table R} {q : R → Prop} [DecidablePred q]

theorem count_eq_zero : t.count q = 0 ↔ ∀ r ∈ t.rows, ¬q r := by
  simp [count, List.countP_eq_zero]

theorem count_pos : 0 < t.count q ↔ ∃ r ∈ t.rows, q r := by
  simp [count, List.countP_pos_iff]

theorem count_ne_zero : t.count q ≠ 0 ↔ ∃ r ∈ t.rows, q r := by
  rw [← count_pos]; omega

theorem count_congr {q' : R → Prop} [DecidablePred q'] (h : ∀ r ∈ t.rows, q r ↔ q' r) :
    t.count q = t.count q' := by
  apply List.countP_congr
  intro r hr
  simp [h r hr]

theorem count_update_congr {p : R → Prop} [DecidablePred p] {f : R → R}
    {hf : ∀ r, key (f r) = key r} (h : ∀ r ∈ t.rows, p r → (q (f r) ↔ q r)) :
    (t.update p f hf).count q = t.count q := by
  rw [count, update, List.countP_map]
  apply List.countP_congr
  intro r hr
  by_cases hp : p r
  · simp [hp, h r hr hp]
  · simp [hp]

/-- An update that takes every row it selects into `q` adds as many rows to `q`. -/
theorem count_update_add {p : R → Prop} [DecidablePred p] {f : R → R}
    {hf : ∀ r, key (f r) = key r} (h : ∀ r ∈ t.rows, p r → ¬q r ∧ q (f r)) :
    (t.update p f hf).count q = t.count q + t.count p := by
  rw [count, count, count, update, List.countP_map]
  generalize t.rows = rows at h
  induction rows with
  | nil => rfl
  | cons r rows ih =>
    have ih := ih fun r' hr' => h r' (List.mem_cons_of_mem _ hr')
    simp only [List.countP_cons, ih, Function.comp_apply]
    by_cases hp : p r
    · obtain ⟨hno, hyes⟩ := h r List.mem_cons_self hp
      simp only [hp, hno, hyes, if_true, if_false, decide_true, decide_false, Bool.false_eq_true]
      omega
    · simp only [hp, if_false, decide_false, Bool.false_eq_true]
      omega

end Count

section CountKey

variable {t t' : Table R} {q : R → Prop} [DecidablePred q]

theorem count_insert {r : R} (h : t.insert r = some t') :
    t'.count q = t.count q + if q r then 1 else 0 := by
  rw [count, (insert_eq_some h).2, List.countP_append]
  by_cases hq : q r <;> simp [count, hq]

/-- The row a guarded single-key update selects. -/
theorem exists_of_count_key_ne_zero {k : K} {g : R → Prop} [DecidablePred g]
    (h : t.count (fun r => key r = k ∧ g r) ≠ 0) : ∃ r, t.find? k = some r ∧ g r := by
  obtain ⟨r, hmem, hk, hg⟩ := count_ne_zero.1 h
  exact ⟨r, find?_eq_some_iff.2 ⟨hmem, hk⟩, hg⟩

/-- At most one row stands under a key. -/
theorem count_key_le_one (t : Table R) (k : K) (g : R → Prop) [DecidablePred g] :
    t.count (fun r => key r = k ∧ g r) ≤ 1 := by
  have hone : (t.rows.map key).count k ≤ 1 := List.nodup_iff_count_le_one.1 t.nodup k
  rw [List.count, List.countP_map] at hone
  refine Nat.le_trans (List.countP_mono_left ?_) hone
  intro r _ hr
  simpa using (of_decide_eq_true hr).1

/-- Exactly one row satisfies `q` when one does and no other. -/
theorem count_eq_one {r : R} (hr : r ∈ t.rows) (hq : q r) (hu : ∀ r' ∈ t.rows, q r' → r' = r) :
    t.count q = 1 := by
  have hkey : t.count q = t.count fun r' => key r' = key r ∧ q r' := by
    apply count_congr
    intro r' hr'
    constructor
    · intro hq'
      rw [hu r' hr' hq']
      exact ⟨rfl, hq⟩
    · exact fun h => h.2
  have hle := t.count_key_le_one (key r) q
  have hpos : 0 < t.count q := count_pos.2 ⟨r, hr, hq⟩
  omega

theorem count_key_eq_zero {k : K} {g : R → Prop} [DecidablePred g] :
    t.count (fun r => key r = k ∧ g r) = 0 ↔ ∀ r, t.find? k = some r → ¬g r := by
  rw [count_eq_zero]
  constructor
  · intro h r hr hg
    obtain ⟨hmem, hk⟩ := find?_eq_some_iff.1 hr
    exact h r hmem ⟨hk, hg⟩
  · rintro h r hmem ⟨hk, hg⟩
    exact h r (find?_eq_some_iff.2 ⟨hmem, hk⟩) hg

end CountKey

/-! ### Adding up -/

section Total

/-- A sum that changes at one element. -/
theorem sum_map_change {R : Type} {f g : R → ℕ} {l : List R} (hl : l.Nodup) {a : R} (ha : a ∈ l)
    (h : ∀ r, r ≠ a → g r = f r) : (l.map g).sum + f a = (l.map f).sum + g a := by
  obtain ⟨before, after, rfl⟩ := List.append_of_mem ha
  have hne : ∀ r ∈ before ++ after, r ≠ a := by
    intro r hr hra
    subst hra
    exact (List.nodup_middle.1 hl).notMem hr
  have hbefore : before.map g = before.map f :=
    List.map_congr_left fun r hr => h r (hne r (List.mem_append_left _ hr))
  have hafter : after.map g = after.map f :=
    List.map_congr_left fun r hr => h r (hne r (List.mem_append_right _ hr))
  simp only [List.map_append, List.map_cons, List.sum_append, List.sum_cons, hbefore, hafter]
  omega

theorem sum_map_indicator {R : Type} [DecidableEq R] {l : List R} (hl : l.Nodup) (a : R) :
    (l.map fun r => if a = r then 1 else 0).sum = if a ∈ l then 1 else 0 := by
  induction l with
  | nil => rfl
  | cons r l ih =>
    obtain ⟨hr, hrest⟩ := List.nodup_cons.1 hl
    by_cases har : a = r
    · subst har
      simp [ih hrest, hr]
    · simp [ih hrest, har]

/-- `GROUP BY`: the counts of the groups add up to the count of all. -/
theorem sum_groups {R G : Type} [DecidableEq G] (p : R → Prop) [DecidablePred p] (group : R → G)
    {groups : List G} (hnodup : groups.Nodup) (hall : ∀ r, group r ∈ groups) (rows : List R) :
    (groups.map fun g => rows.countP fun r => decide (p r ∧ group r = g)).sum
      = rows.countP fun r => decide (p r) := by
  induction rows with
  | nil => simp
  | cons r rows ih =>
    simp only [List.countP_cons, decide_eq_true_eq, List.sum_map_add, ih]
    by_cases hr : p r
    · simp [hr, sum_map_indicator hnodup, hall r]
    · simp [hr]

/-- The sum of a weight over the rows. -/
def total (t : Table R) (f : R → ℕ) : ℕ := (t.rows.map f).sum

variable {t t' : Table R} {f : R → ℕ}

omit [DecidableEq K] in
theorem total_eq_zero (h : ∀ r ∈ t.rows, f r = 0) : t.total f = 0 :=
  List.sum_eq_zero (by simpa using h)

theorem total_insert {r : R} (h : t.insert r = some t') : t'.total f = t.total f + f r := by
  simp [total, (insert_eq_some h).2]

variable {p : R → Prop} [DecidablePred p] {g : R → R} {hg : ∀ r, key (g r) = key r}

/-- An update that raises no selected row's weight raises none. -/
theorem sum_update_le {R : Type} {p : R → Prop} [DecidablePred p] {f : R → ℕ} {g : R → R}
    {l : List R} (h : ∀ r ∈ l, p r → f (g r) ≤ f r) :
    ((l.map fun r => if p r then g r else r).map f).sum ≤ (l.map f).sum := by
  rw [List.map_map]
  refine List.sum_le_sum fun r hr => ?_
  by_cases hp : p r
  · simpa [hp] using h r hr hp
  · simp [hp]

omit [DecidableEq K] in
theorem total_update_le (h : ∀ r ∈ t.rows, p r → f (g r) ≤ f r) :
    (t.update p g hg).total f ≤ t.total f :=
  sum_update_le h

omit [DecidableEq K] in
/-- An update that raises no selected row's weight lowers the sum by what one of them loses. -/
theorem total_update_add_le {r : R} (hr : r ∈ t.rows) (hp : p r)
    (h : ∀ r ∈ t.rows, p r → f (g r) ≤ f r) :
    (t.update p g hg).total f + f r ≤ t.total f + f (g r) := by
  obtain ⟨before, after, hrows⟩ := List.append_of_mem hr
  -- away from `r` nothing is raised
  have hbefore : ((before.map fun r => if p r then g r else r).map f).sum ≤ (before.map f).sum :=
    sum_update_le fun r' hr' => h r' (by simp [hrows, hr'])
  have hafter : ((after.map fun r => if p r then g r else r).map f).sum ≤ (after.map f).sum :=
    sum_update_le fun r' hr' => h r' (by simp [hrows, hr'])
  simp only [total, update, hrows, List.map_append, List.map_cons, List.sum_append, List.sum_cons,
    if_pos hp]
  omega

end Total

/-! ### Tables with common rows -/

section Same

omit [DecidableEq K]

/-- The tables have the same rows among those that satisfy `v`. -/
def Same (v : R → Prop) (t t' : Table R) : Prop := ∀ r, v r → (r ∈ t.rows ↔ r ∈ t'.rows)

variable {v p : R → Prop} {t t' t₁ : Table R}

theorem same_iff : Same v t t' ↔
    (∀ r ∈ t.rows, v r → r ∈ t'.rows) ∧ ∀ r ∈ t'.rows, v r → r ∈ t.rows := by
  constructor
  · intro h
    exact ⟨fun r hr hv => (h r hv).1 hr, fun r hr hv => (h r hv).2 hr⟩
  · rintro ⟨h, h'⟩ r hv
    exact ⟨fun hr => h r hr hv, fun hr => h' r hr hv⟩

instance [DecidableEq R] [DecidablePred v] : Decidable (Same v t t') := decidable_of_iff _ same_iff.symm

theorem Same.refl (v : R → Prop) (t : Table R) : Same v t t := fun _ _ => Iff.rfl

theorem Same.symm (h : Same v t t') : Same v t' t := fun r hv => (h r hv).symm

theorem Same.trans (h : Same v t t₁) (h' : Same v t₁ t') : Same v t t' :=
  fun r hv => (h r hv).trans (h' r hv)

/-- A selection of common rows is one of the same rows. -/
theorem Same.filter_perm (h : Same v t t') [DecidablePred p] (hp : ∀ r ∈ t.rows, p r → v r)
    (hp' : ∀ r ∈ t'.rows, p r → v r) :
    (t.rows.filter fun r => decide (p r)).Perm (t'.rows.filter fun r => decide (p r)) := by
  have hnodup : ∀ u : Table R, (u.rows.filter fun r => decide (p r)).Nodup :=
    fun u => u.nodup.of_map.filter _
  rw [List.perm_ext_iff_of_nodup (hnodup t) (hnodup t')]
  intro r
  simp only [List.mem_filter, decide_eq_true_eq]
  constructor
  · rintro ⟨hr, hpr⟩
    exact ⟨(h r (hp r hr hpr)).1 hr, hpr⟩
  · rintro ⟨hr, hpr⟩
    exact ⟨(h r (hp' r hr hpr)).2 hr, hpr⟩

theorem Same.count_eq (h : Same v t t') [DecidablePred p] (hp : ∀ r ∈ t.rows, p r → v r)
    (hp' : ∀ r ∈ t'.rows, p r → v r) : t.count p = t'.count p := by
  rw [count, count, List.countP_eq_length_filter, List.countP_eq_length_filter]
  exact (h.filter_perm hp hp').length_eq

/-- Looking for a common row, of which there is one at most, finds it in both tables or in none. -/
theorem Same.find_eq (h : Same v t t') [DecidablePred p] (hp : ∀ r, p r → v r)
    (hone : ∀ r ∈ t.rows, ∀ r' ∈ t.rows, p r → p r' → r = r') :
    t.rows.find? (fun r => decide (p r)) = t'.rows.find? fun r => decide (p r) := by
  cases hfind : t'.rows.find? fun r => decide (p r) with
  | none =>
    rw [List.find?_eq_none] at hfind ⊢
    intro r hr hpr
    exact hfind r ((h r (hp r (of_decide_eq_true hpr))).1 hr) hpr
  | some r' =>
    have hpr' : p r' := by simpa using List.find?_some hfind
    have hr' : r' ∈ t.rows := (h r' (hp r' hpr')).2 (List.mem_of_find?_eq_some hfind)
    have hsome : (t.rows.find? fun r => decide (p r)).isSome :=
      List.find?_isSome.2 ⟨r', hr', decide_eq_true hpr'⟩
    obtain ⟨r, hr⟩ := Option.isSome_iff_exists.1 hsome
    have hpr : p r := by simpa using List.find?_some hr
    rw [hr, hone r (List.mem_of_find?_eq_some hr) r' hr' hpr hpr']

/-- Both tables are rewritten, and no row becomes common. -/
theorem Same.update (h : Same v t t') [DecidablePred p] {f : R → R}
    (hf : ∀ r, key (f r) = key r) (hv : ∀ r, p r → v (f r) → v r) :
    Same v (t.update p f hf) (t'.update p f hf) := by
  have half : ∀ {t t' : Table R}, Same v t t' → ∀ r' ∈ (t.update p f hf).rows, v r' →
      r' ∈ (t'.update p f hf).rows := by
    intro t t' h r' hr' hv'
    obtain ⟨r, hr, rfl⟩ := List.mem_map.1 hr'
    by_cases hpr : p r
    · rw [if_pos hpr] at hv' ⊢
      exact List.mem_map.2 ⟨r, (h r (hv r hpr hv')).1 hr, if_pos hpr⟩
    · rw [if_neg hpr] at hv' ⊢
      exact List.mem_map.2 ⟨r, (h r hv').1 hr, if_neg hpr⟩
  exact same_iff.2 ⟨half h, half h.symm⟩

/-- What an update does not select stays. -/
theorem same_update [DecidablePred p] {f : R → R} (hf : ∀ r, key (f r) = key r)
    (hv : ∀ r ∈ t.rows, p r → ¬v r ∧ ¬v (f r)) : Same v t (t.update p f hf) := by
  refine same_iff.2 ⟨fun r hr hvr => ?_, fun r' hr' hvr => ?_⟩
  · exact List.mem_map.2 ⟨r, hr, if_neg fun hpr => (hv r hr hpr).1 hvr⟩
  · rcases mem_update f hf hr' with ⟨hr, -⟩ | ⟨r, hr, hpr, rfl⟩
    · exact hr
    · exact absurd hvr (hv r hr hpr).2

end Same

section SameInsert

variable {v : R → Prop} {t t' t₁ t₁' : Table R} {r : R}

theorem Same.insert (h : Same v t t') (hins : t.insert r = some t₁) (hins' : t'.insert r = some t₁') :
    Same v t₁ t₁' := by
  intro r' hv
  rw [mem_insert hins, mem_insert hins', h r' hv]

theorem same_insert (hins : t.insert r = some t') (hv : ¬v r) : Same v t t' := by
  intro r' hv'
  rw [mem_insert hins]
  constructor
  · exact .inl
  · rintro (hr | rfl)
    · exact hr
    · exact absurd hv' hv

end SameInsert

end Table

end KeyedTable
