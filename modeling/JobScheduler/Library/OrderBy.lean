import Mathlib.Data.List.Sort
import Mathlib.Data.Prod.Lex

/-!
# `ORDER BY … LIMIT … OFFSET`

Rows are sorted by a key and a stretch of them is kept.  `ByKey r key` says that the comparison `r` of
the rows is the comparison of their keys in a linear order; the keys of different rows may coincide.

* `pairwise` — the sort is in order; `eq_of_perm`, `insertionSort_eq` — with distinct keys it is the
  only list of these rows that is, in whatever order they come.
* `strict` — with distinct keys, of two rows one comes before the other and not the reverse.
* `le_of_cut` — what the limit cuts off does not come before what it keeps.
* `slice l s k` — the `k`-th page of `s` rows; `flatten_slices` and `disjoint_slice` say that the pages
  are a partition.
-/

namespace OrderBy

variable {α κ : Type} [LinearOrder κ]

/-- The relation compares rows by their keys. -/
structure ByKey (r : α → α → Prop) (key : α → κ) : Prop where
  iff : ∀ a b, r a b ↔ key a ≤ key b

namespace ByKey

variable {r : α → α → Prop} {key : α → κ} (h : ByKey r key)

include h

theorem pairwise [DecidableRel r] (l : List α) : (l.insertionSort r).Pairwise r := by
  have htotal : Std.Total r := by
    constructor
    intro a b
    rw [h.iff, h.iff]
    exact le_total _ _
  have htrans : IsTrans α r := by
    constructor
    intro a b c hab hbc
    rw [h.iff] at hab hbc ⊢
    exact hab.trans hbc
  exact List.pairwise_insertionSort r l

/-- Rows with distinct keys can be put in order in one way only. -/
theorem eq_of_perm {l l' : List α} (hkey : ∀ a ∈ l, ∀ b ∈ l, key a = key b → a = b)
    (hperm : l.Perm l') (hl : l.Pairwise r) (hl' : l'.Pairwise r) : l = l' := by
  refine List.Perm.eq_of_pairwise ?_ hl hl' hperm
  intro a b ha hb hab hba
  rw [h.iff] at hab hba
  exact hkey a ha b (hperm.mem_iff.2 hb) (le_antisymm hab hba)

/-- The sort depends on the rows only, not on the order they come in. -/
theorem insertionSort_eq [DecidableRel r] {l l' : List α}
    (hkey : ∀ a ∈ l, ∀ b ∈ l, key a = key b → a = b) (hperm : l.Perm l') :
    l.insertionSort r = l'.insertionSort r := by
  have hsort := List.perm_insertionSort r l
  refine h.eq_of_perm ?_ (hsort.trans (hperm.trans (List.perm_insertionSort r l').symm))
    (h.pairwise l) (h.pairwise l')
  intro a ha b hb
  exact hkey a (hsort.mem_iff.1 ha) b (hsort.mem_iff.1 hb)

/-- Rows with distinct keys are in strict order. -/
theorem strict [DecidableRel r] {l : List α} (hkey : ∀ a ∈ l, ∀ b ∈ l, key a = key b → a = b)
    (hl : l.Nodup) : (l.insertionSort r).Pairwise fun a b => r a b ∧ ¬r b a := by
  have hsort := List.perm_insertionSort r l
  have hne : (l.insertionSort r).Pairwise (· ≠ ·) := hsort.nodup_iff.2 hl
  refine ((h.pairwise l).and hne).imp_of_mem ?_
  rintro a b ha hb ⟨hab, hdistinct⟩
  refine ⟨hab, fun hba => hdistinct ?_⟩
  rw [h.iff] at hab hba
  exact hkey a (hsort.mem_iff.1 ha) b (hsort.mem_iff.1 hb) (le_antisymm hab hba)

/-- A row the limit cuts off does not come before one it keeps. -/
theorem le_of_cut [DecidableRel r] {l : List α} {k : ℕ} {a b : α}
    (hb : b ∈ (l.insertionSort r).take k) (ha : a ∈ l) (hcut : a ∉ (l.insertionSort r).take k) :
    key b ≤ key a := by
  have hsplit : ((l.insertionSort r).take k ++ (l.insertionSort r).drop k).Pairwise r := by
    rw [List.take_append_drop]
    exact h.pairwise l
  have hmem : a ∈ (l.insertionSort r).take k ++ (l.insertionSort r).drop k := by
    rw [List.take_append_drop]
    exact (List.perm_insertionSort r l).mem_iff.2 ha
  rcases List.mem_append.1 hmem with hkept | hdropped
  · exact absurd hkept hcut
  · exact (h.iff b a).1 ((List.pairwise_append.1 hsplit).2.2 b hb a hdropped)

end ByKey

/-! ### Pages -/

/-- `LIMIT s OFFSET k * s`. -/
def slice (l : List α) (s k : ℕ) : List α := (l.drop (k * s)).take s

theorem slice_eq_nil {l : List α} {s k : ℕ} (h : l.length ≤ k * s) : slice l s k = [] := by
  rw [slice, List.drop_eq_nil_of_le h, List.take_nil]

/-- The first pages, one after the other. -/
theorem flatten_slices (l : List α) (s n : ℕ) :
    ((List.range n).map (slice l s)).flatten = l.take (n * s) := by
  induction n with
  | zero => simp
  | succ n ih =>
    rw [List.range_succ, List.map_append, List.flatten_append, ih, Nat.succ_mul, List.take_add]
    simp [slice]

/-- A page and a later one have no row in common. -/
theorem disjoint_slice {l : List α} (hl : l.Nodup) (s : ℕ) {j k : ℕ} (hjk : j < k) :
    List.Disjoint (slice l s j) (slice l s k) := by
  have hle : j * s + s ≤ k * s := by
    rw [← Nat.succ_mul]
    exact Nat.mul_le_mul_right s hjk
  have hearly : slice l s j ⊆ l.take (k * s) := by
    have htake : l.take (j * s + s) <+: l.take (k * s) := List.take_prefix_take_left hle
    rw [List.take_add] at htake
    exact fun a ha => htake.subset (List.mem_append_right _ ha)
  have hlate : slice l s k ⊆ l.drop (k * s) := List.take_subset s _
  intro a haj hak
  have hsplit : (l.take (k * s) ++ l.drop (k * s)).Nodup := by
    rw [List.take_append_drop]
    exact hl
  exact (List.disjoint_of_nodup_append hsplit) (hearly haj) (hlate hak)

end OrderBy
