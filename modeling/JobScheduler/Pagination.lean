import JobScheduler.Cluster
import JobScheduler.Queries

/-!
# Pages

What a client that walks through `List` or `ListDeadLetters` is shown.  `queryInt` accepts every
positive 64-bit integer as a page number, the repository multiplies it in 64 bits, and nothing
bounds the product: past `2 ^ 63` it wraps.

* `Paged` — page `p` is the `p`-th stretch of the selected rows in one strict order, pages have no row
  in common, and together they are all of them.
* `listings_paged` — both listings are so if and only if the offset does not wrap: a page behind the
  wrap has a page before it, or is one itself, whose offset is negative and which is an error.
* `page_wraps` — far behind the last row, and the first page is shown again.
-/

namespace JobScheduler

open KeyedTable Transaction OrderBy TransitionSystem

/-! ### `queryInt` -/

/-- `queryInt`, given the text of the parameter. -/
def queryInt (key value : String) (fallback : Int) : Except String Int :=
  if value = "" then .ok fallback
  else
    match atoi value with
    | none => .error (key ++ " must be an integer")
    | some parsed => if parsed < 1 then .error (key ++ " must be at least 1") else .ok parsed

theorem queryInt_range {key value : String} {fallback n : Int}
    (hfallback : 1 ≤ fallback ∧ fallback < 2 ^ 63) (h : queryInt key value fallback = .ok n) :
    1 ≤ n ∧ n < 2 ^ 63 := by
  unfold queryInt at h
  split at h
  · cases h
    exact hfallback
  · split at h
    · cases h
    · rename_i parsed hparsed
      split at h
      · cases h
      · cases h
        exact ⟨by omega, atoi_lt hparsed⟩

/-! ### Pages of a listing -/

/-- `answer p`, for the pages up to `page`, is page `p` of the selected rows, `s` rows each, in the
order `before`; `rows` is that order. -/
structure Paged {ρ β : Type} (before : ρ → ρ → Prop) (selected rows : List ρ) (view : ρ → β)
    (s page : ℕ) (answer : ℕ → Except AppError (List β)) : Prop where
  /-- The rows are the selected ones, each as often as it was selected. -/
  perm : rows.Perm selected
  /-- The order is strict and total on them. -/
  ordered : rows.Pairwise fun a b => before a b ∧ ¬before b a
  exact : answer page = .ok (((rows.drop ((page - 1) * s)).take s).map view)
  beyond : selected.length ≤ (page - 1) * s → answer page = .ok []
  /-- No row is on two pages. -/
  apart : ∀ p, 1 ≤ p → p < page → ∃ xs ys : List ρ, answer p = .ok (xs.map view) ∧
    answer page = .ok (ys.map view) ∧ xs.Disjoint ys
  /-- Enough pages have every row once. -/
  covered : selected.length ≤ page * s → ∃ pages : List (List ρ),
    (List.range page).mapM (fun i => answer (i + 1)) = .ok (pages.map fun xs => xs.map view) ∧
      pages.flatten = rows

theorem mapM_ok {α β ε : Type} {f : α → Except ε β} {g : α → β} {l : List α}
    (h : ∀ a ∈ l, f a = .ok (g a)) : l.mapM f = .ok (l.map g) := by
  induction l with
  | nil => rfl
  | cons a l ih =>
    rw [List.mapM_cons, h a (by simp), ih fun b hb => h b (by simp [hb])]
    rfl

/-- A sort whose answers are its slices. -/
theorem paged_of_slices {ρ β κ : Type} [LinearOrder κ] {before : ρ → ρ → Prop} [DecidableRel before]
    {rank : ρ → κ} (hkey : ByKey before rank) {selected : List ρ}
    (hrank : ∀ a ∈ selected, ∀ b ∈ selected, rank a = rank b → a = b) (hnodup : selected.Nodup)
    {view : ρ → β} {s page : ℕ} (hpage : 1 ≤ page) {answer : ℕ → Except AppError (List β)}
    (hanswer : ∀ p, 1 ≤ p → p ≤ page →
      answer p = .ok ((slice (selected.insertionSort before) s (p - 1)).map view)) :
    Paged before selected (selected.insertionSort before) view s page answer := by
  have hperm := List.perm_insertionSort before selected
  refine ⟨hperm, hkey.strict hrank hnodup, hanswer page hpage le_rfl, ?_, ?_, ?_⟩
  · intro hbeyond
    rw [hanswer page hpage le_rfl, slice_eq_nil (by rwa [hperm.length_eq])]
    rfl
  · intro p hp hlt
    exact ⟨_, _, hanswer p hp hlt.le, hanswer page hpage le_rfl,
      disjoint_slice (hperm.nodup_iff.2 hnodup) s (by omega)⟩
  · intro hall
    refine ⟨(List.range page).map (slice (selected.insertionSort before) s), ?_, ?_⟩
    · rw [List.map_map]
      apply mapM_ok
      intro i hi
      have hlt := List.mem_range.1 hi
      exact hanswer (i + 1) (by omega) (by omega)
    · rw [flatten_slices, List.take_of_length_le]
      rwa [hperm.length_eq]

/-! ### The offset -/

theorem normalizePage_of_pos {page : Int} (h : 1 ≤ page) : normalizePage page = page := by
  unfold normalizePage
  split <;> omega

theorem normalizePageSize_pos (pageSize : Int) : 1 ≤ normalizePageSize pageSize := by
  unfold normalizePageSize
  split
  · omega
  · split <;> omega

theorem normalizePageSize_le (pageSize : Int) : normalizePageSize pageSize ≤ 100 := by
  unfold normalizePageSize
  split
  · omega
  · split <;> omega

/-- An offset that fits into 64 bits is the exact one. -/
theorem pageOffset_of_fits {page s : Int} (hpage : 1 ≤ page) (hs : 1 ≤ s)
    (hfits : (page - 1) * s < 2 ^ 63) : pageOffset page s = (page - 1) * s := by
  have hnonneg : 0 ≤ (page - 1) * s := Int.mul_nonneg (by omega) (by omega)
  unfold pageOffset
  apply Int.bmod_eq_of_le
  · omega
  · omega

theorem pageOf_eq_slice {α : Type} {page s : Int} (hpage : 1 ≤ page) (hs : 1 ≤ s)
    (hfits : (page - 1) * s < 2 ^ 63) (rows : List α) (store : Store) :
    pageOf page s rows store = .ok (slice rows s.toNat (page.toNat - 1), store) := by
  have hoffset := pageOffset_of_fits hpage hs hfits
  have hnonneg : 0 ≤ pageOffset page s := by
    rw [hoffset]
    exact Int.mul_nonneg (by omega) (by omega)
  have hnat : (pageOffset page s).toNat = (page.toNat - 1) * s.toNat := by
    rw [hoffset, Int.toNat_mul (by omega) (by omega)]
    congr 1
    omega
  simp [pageOf, slice, hnonneg, hnat]

/-! ### The two listings -/

theorem validate_filter {filter : ListFilter} {query : ListQuery}
    (h : filter.validate = .ok query) : query.filter = filter := by
  simp only [ListFilter.validate] at h
  repeat' split at h
  all_goals cases h
  all_goals rfl

/-- The query for another page of the same listing. -/
def ListQuery.atPage (query : ListQuery) (page : ℕ) : ListQuery :=
  { query with filter := { query.filter with page } }

/-- The jobs on a page of `List`. -/
def jobsOnPage (tenantID : UUID) (query : ListQuery) (store : Store) (page : ℕ) :
    Except AppError (List Job) :=
  (list tenantID (query.atPage page) store).map fun r => r.1.items

/-- The dead letters on a page of `ListDeadLetters`. -/
def deadLettersOnPage (tenantID : UUID) (pageSize : Int) (store : Store) (page : ℕ) :
    Except AppError (List DeadLetterJob) :=
  (listDeadLetters tenantID page pageSize store).map fun r => r.1

theorem list_of_fits (tenantID : UUID) (query : ListQuery) (store : Store)
    (hpage : 1 ≤ query.filter.page)
    (hfits : (query.filter.page - 1) * normalizePageSize query.filter.pageSize < 2 ^ 63) :
    list tenantID query store = .ok (⟨(slice (listRows tenantID query store)
      (normalizePageSize query.filter.pageSize).toNat (query.filter.page.toNat - 1)).map JobRow.toJob,
      query.filter.page, normalizePageSize query.filter.pageSize,
      (listRows tenantID query store).length⟩, store) := by
  have hcut := pageOf_eq_slice hpage (normalizePageSize_pos query.filter.pageSize) hfits
    (listRows tenantID query store) store
  simp only [list, normalizePage_of_pos hpage, Tx.bind_eq_ok, Tx.read_eq_ok, Tx.pure_eq_ok]
  exact ⟨_, _, ⟨rfl, rfl⟩, _, _, hcut, rfl, rfl⟩

theorem listDeadLetters_of_fits (tenantID : UUID) {page pageSize : Int} (store : Store)
    (hpage : 1 ≤ page) (hfits : (page - 1) * normalizePageSize pageSize < 2 ^ 63) :
    listDeadLetters tenantID page pageSize store = .ok (slice (deadLetterRows tenantID store)
      (normalizePageSize pageSize).toNat (page.toNat - 1), store) := by
  have hcut := pageOf_eq_slice hpage (normalizePageSize_pos pageSize) hfits
    (deadLetterRows tenantID store) store
  simp only [listDeadLetters, normalizePage_of_pos hpage, Tx.bind_eq_ok, Tx.read_eq_ok]
  exact ⟨_, _, ⟨rfl, rfl⟩, hcut⟩

/-- The offsets of the earlier pages fit when that of a page does. -/
theorem fits_of_le {page s : Int} (hs : 1 ≤ s) (hfits : (page - 1) * s < 2 ^ 63) {p : ℕ}
    (hp : (p : Int) ≤ page) : ((p : Int) - 1) * s < 2 ^ 63 := by
  have hle : ((p : Int) - 1) * s ≤ (page - 1) * s := Int.mul_le_mul_of_nonneg_right (by omega) (by omega)
  omega

/-- The matching rows of a tenant are different ones. -/
theorem nodup_filter {R : Type} [Keyed R UUID] (t : Table R) (p : R → Bool) : (t.rows.filter p).Nodup :=
  t.nodup.of_map.filter p

theorem jobs_paged (tenantID : UUID) (query : ListQuery) (store : Store)
    (hpage : 1 ≤ query.filter.page)
    (hfits : (query.filter.page - 1) * normalizePageSize query.filter.pageSize < 2 ^ 63) :
    Paged query.Before (store.jobs.rows.filter fun r => decide (query.filter.Selects tenantID r))
      (listRows tenantID query store) JobRow.toJob (normalizePageSize query.filter.pageSize).toNat
      query.filter.page.toNat (jobsOnPage tenantID query store) := by
  have hanswer : ∀ p : ℕ, 1 ≤ p → p ≤ query.filter.page.toNat → jobsOnPage tenantID query store p
      = .ok ((slice (listRows tenantID query store) (normalizePageSize query.filter.pageSize).toNat
        (p - 1)).map JobRow.toJob) := by
    intro p hp hle
    have hlist := list_of_fits tenantID (query.atPage p) store (Int.ofNat_le.2 hp)
      (fits_of_le (normalizePageSize_pos _) hfits (by omega))
    rw [jobsOnPage, hlist]
    rfl
  have hsame : ∀ a ∈ store.jobs.rows.filter fun r => decide (query.filter.Selects tenantID r),
      ∀ b ∈ store.jobs.rows.filter fun r => decide (query.filter.Selects tenantID r),
        a.id = b.id → a = b := by
    intro a ha b hb hid
    exact store.jobs.eq_of_key_eq (List.mem_of_mem_filter ha) (List.mem_of_mem_filter hb) hid
  obtain ⟨filter, column, descending⟩ := query
  cases descending with
  | true =>
    have hkey : ByKey (ListQuery.Before ⟨filter, column, true⟩)
        (fun r => OrderDual.toDual (column.rank r)) := ⟨fun a b => column.before_iff b a⟩
    exact paged_of_slices hkey (fun a ha b hb hab => hsame a ha b hb (column.id_of_rank hab))
      (nodup_filter _ _) (by omega) hanswer
  | false =>
    have hkey : ByKey (ListQuery.Before ⟨filter, column, false⟩) column.rank :=
      ⟨fun a b => column.before_iff a b⟩
    exact paged_of_slices hkey (fun a ha b hb hab => hsame a ha b hb (column.id_of_rank hab))
      (nodup_filter _ _) (by omega) hanswer

theorem deadLetters_paged (tenantID : UUID) {page pageSize : Int} (store : Store) (hpage : 1 ≤ page)
    (hfits : (page - 1) * normalizePageSize pageSize < 2 ^ 63) :
    Paged DeadLetterJob.Before (store.deadLetters.rows.filter fun d => decide (d.tenantID = tenantID))
      (deadLetterRows tenantID store) id (normalizePageSize pageSize).toNat page.toNat
      (deadLettersOnPage tenantID pageSize store) := by
  apply paged_of_slices DeadLetterJob.before_byKey ?_ (nodup_filter _ _) (by omega)
  · intro p hp hle
    have hlist := listDeadLetters_of_fits tenantID store (Int.ofNat_le.2 hp)
      (fits_of_le (normalizePageSize_pos pageSize) hfits (by omega))
    rw [deadLettersOnPage, hlist, List.map_id]
    rfl
  · intro a ha b hb hab
    exact store.deadLetters.eq_of_key_eq (List.mem_of_mem_filter ha) (List.mem_of_mem_filter hb)
      (DeadLetterJob.id_of_rank hab)

/-! ### Behind the wrap -/

theorem Paged.answered {ρ β : Type} {before : ρ → ρ → Prop} {selected rows : List ρ} {view : ρ → β}
    {s page : ℕ} {answer : ℕ → Except AppError (List β)}
    (h : Paged before selected rows view s page answer) {p : ℕ} (hp : 1 ≤ p) (hle : p ≤ page) :
    ∃ items, answer p = .ok items := by
  by_cases heq : p = page
  · exact ⟨_, heq ▸ h.exact⟩
  · obtain ⟨xs, -, hxs, -⟩ := h.apart p hp (by omega)
    exact ⟨_, hxs⟩

/-- The first page whose offset does not fit has a negative one. -/
theorem exists_negative_offset {page s : Int} (hs : 1 ≤ s) (hle : s ≤ 100)
    (hwraps : 2 ^ 63 ≤ (page - 1) * s) :
    ∃ p : ℕ, 1 ≤ p ∧ (p : Int) ≤ page ∧ pageOffset p s < 0 := by
  obtain ⟨q, hq, hlow, hhigh⟩ : ∃ q : Int, 0 ≤ q ∧ 2 ^ 63 ≤ q * s ∧ q * s < 2 ^ 63 + s := by
    have hless := Int.ediv_mul_le (2 ^ 63 + s - 1) (by omega : s ≠ 0)
    have hmore := Int.lt_ediv_add_one_mul_self (2 ^ 63 + s - 1) (by omega : 0 < s)
    rw [Int.add_mul, one_mul] at hmore
    exact ⟨(2 ^ 63 + s - 1) / s, Int.ediv_nonneg (by omega) (by omega), by omega, by omega⟩
  have hpage : q ≤ page - 1 := by
    by_contra hlt
    have hless : (page - 1) * s ≤ (q - 1) * s :=
      Int.mul_le_mul_of_nonneg_right (by omega) (by omega)
    rw [Int.sub_mul q, one_mul] at hless
    omega
  refine ⟨q.toNat + 1, by omega, by omega, ?_⟩
  have hoffset : ((q.toNat + 1 : ℕ) : Int) - 1 = q := by omega
  rw [pageOffset, hoffset]
  have hmod : (q * s).bmod (2 ^ 64) = q * s - 2 ^ 64 := by
    rw [← Int.sub_bmod_right]
    apply Int.bmod_eq_of_le
    · omega
    · omega
  omega

theorem pageOf_negative {α : Type} {page s : Int} (h : pageOffset page s < 0) (rows : List α)
    (store : Store) : pageOf page s rows store = .error negativeOffset := by
  exact Tx.bind_of_error (Tx.require_of_not (not_le.2 h))

theorem jobsOnPage_negative (tenantID : UUID) (query : ListQuery) (store : Store) {p : ℕ} (hp : 1 ≤ p)
    (h : pageOffset p (normalizePageSize query.filter.pageSize) < 0) :
    jobsOnPage tenantID query store p = .error negativeOffset := by
  have hpage : normalizePage (query.atPage p).filter.page = p := normalizePage_of_pos (Int.ofNat_le.2 hp)
  have hcut := pageOf_negative h (listRows tenantID (query.atPage p) store) store
  have hlist : list tenantID (query.atPage p) store = .error negativeOffset := by
    unfold list
    rw [hpage]
    exact (Tx.bind_of_ok rfl).trans (Tx.bind_of_error hcut)
  rw [jobsOnPage, hlist]
  rfl

theorem deadLettersOnPage_negative (tenantID : UUID) {pageSize : Int} (store : Store) {p : ℕ}
    (hp : 1 ≤ p) (h : pageOffset p (normalizePageSize pageSize) < 0) :
    deadLettersOnPage tenantID pageSize store p = .error negativeOffset := by
  have hpage : normalizePage p = p := normalizePage_of_pos (Int.ofNat_le.2 hp)
  have hcut := pageOf_negative h (deadLetterRows tenantID store) store
  have hlist : listDeadLetters tenantID p pageSize store = .error negativeOffset := by
    unfold listDeadLetters
    rw [hpage]
    exact (Tx.bind_of_ok rfl).trans hcut
  rw [deadLettersOnPage, hlist]
  rfl

/-- Whatever a tenant asks for and `queryInt` accepts: both listings are the pages of the tenant's
matching rows if and only if `(page - 1) * s` fits into 64 bits, and then `List` reports their number. -/
theorem listings_paged (tenantID : UUID) (store : Store) {filter : ListFilter} {query : ListQuery}
    (hvalid : filter.validate = .ok query) {page pageSize : String}
    (hpage : queryInt "page" page 1 = .ok filter.page)
    (hsize : queryInt "page_size" pageSize 20 = .ok filter.pageSize) :
    (Paged query.Before (store.jobs.rows.filter fun r => decide (filter.Selects tenantID r))
        (listRows tenantID query store) JobRow.toJob (normalizePageSize filter.pageSize).toNat
        filter.page.toNat (jobsOnPage tenantID query store)
      ↔ (filter.page - 1) * normalizePageSize filter.pageSize < 2 ^ 63)
    ∧ (Paged DeadLetterJob.Before
          (store.deadLetters.rows.filter fun d => decide (d.tenantID = tenantID))
          (deadLetterRows tenantID store) id (normalizePageSize filter.pageSize).toNat
          filter.page.toNat (deadLettersOnPage tenantID filter.pageSize store)
      ↔ (filter.page - 1) * normalizePageSize filter.pageSize < 2 ^ 63)
    ∧ ((filter.page - 1) * normalizePageSize filter.pageSize < 2 ^ 63 →
        ∃ items, list tenantID query store = .ok (⟨items, filter.page,
          normalizePageSize filter.pageSize,
          (store.jobs.rows.filter fun r => decide (filter.Selects tenantID r)).length⟩, store)) := by
  have hfilter : query.filter = filter := validate_filter hvalid
  subst hfilter
  have hone : 1 ≤ query.filter.page := (queryInt_range (by decide) hpage).1
  have hpos := normalizePageSize_pos query.filter.pageSize
  have hbound := normalizePageSize_le query.filter.pageSize
  refine ⟨⟨fun hpaged => ?_, jobs_paged tenantID query store hone⟩,
    ⟨fun hpaged => ?_, deadLetters_paged tenantID store hone⟩, fun hfits => ?_⟩
  · by_contra hwraps
    obtain ⟨p, hp, hle, hnegative⟩ := exists_negative_offset hpos hbound (not_lt.1 hwraps)
    obtain ⟨items, hitems⟩ := hpaged.answered hp (by omega)
    rw [jobsOnPage_negative tenantID query store hp hnegative] at hitems
    cases hitems
  · by_contra hwraps
    obtain ⟨p, hp, hle, hnegative⟩ := exists_negative_offset hpos hbound (not_lt.1 hwraps)
    obtain ⟨items, hitems⟩ := hpaged.answered hp (by omega)
    rw [deadLettersOnPage_negative tenantID store hp hnegative] at hitems
    cases hitems
  · have hlength : (listRows tenantID query store).length = _ := (List.perm_insertionSort _ _).length_eq
    rw [list_of_fits tenantID query store hone hfits, hlength]
    exact ⟨_, rfl⟩

namespace Demo

/-- Every job of a tenant, newest first. -/
def everything (page pageSize : Int) : ListFilter := ⟨"", "", page, pageSize, "", "", none, none⟩

end Demo

/-- The ids on a page of `List`. -/
def idsOnPage (tenantID : UUID) (query : ListQuery) (store : Store) (page : ℕ) : Option (List UUID) :=
  (jobsOnPage tenantID query store page).toOption.map fun jobs => jobs.map Job.id

/-- The only job of tenant `7` is on the first page. -/
theorem listings_paged_first : ∃ s, (cluster demo).exec [Demo.submit] = some s
    ∧ idsOnPage 7 ⟨Demo.everything 1 20, .createdAt, true⟩ s.store 1 = some [1]
    ∧ Paged (ListQuery.Before ⟨Demo.everything 1 20, .createdAt, true⟩)
        (s.store.jobs.rows.filter fun r => decide ((Demo.everything 1 20).Selects 7 r))
        (listRows 7 ⟨Demo.everything 1 20, .createdAt, true⟩ s.store) JobRow.toJob 20 1
        (jobsOnPage 7 ⟨Demo.everything 1 20, .createdAt, true⟩ s.store) := by
  obtain ⟨s, hs, hone⟩ : ∃ s, (cluster demo).exec [Demo.submit] = some s
      ∧ idsOnPage 7 ⟨Demo.everything 1 20, .createdAt, true⟩ s.store 1 = some [1] :=
    System.exists_of_exec (by decide +kernel)
  have hvalid : (Demo.everything 1 20).validate = .ok ⟨Demo.everything 1 20, .createdAt, true⟩ := rfl
  have hpage : queryInt "page" "1" 1 = .ok (Demo.everything 1 20).page := by decide
  have hsize : queryInt "page_size" "20" 20 = .ok (Demo.everything 1 20).pageSize := by decide
  exact ⟨s, hs, hone, (listings_paged 7 s.store hvalid hpage hsize).1.2 (by decide)⟩

/-- Page `2 ^ 58 + 1` of 64 jobs each, of a tenant that has one job, shows that job: the offset is
`2 ^ 64`, which is zero. -/
theorem page_wraps : ∃ s, (cluster demo).exec [Demo.submit] = some s
    ∧ queryInt "page" "288230376151711745" 1 = .ok 288230376151711745
    ∧ queryInt "page_size" "64" 20 = .ok 64
    ∧ (Demo.everything 288230376151711745 64).validate
        = .ok ⟨Demo.everything 288230376151711745 64, .createdAt, true⟩
    ∧ (listRows 7 ⟨Demo.everything 288230376151711745 64, .createdAt, true⟩ s.store).length
        ≤ (288230376151711745 - 1) * normalizePageSize 64
    ∧ idsOnPage 7 ⟨Demo.everything 288230376151711745 64, .createdAt, true⟩ s.store
        288230376151711745 = some [1] := by
  obtain ⟨s, hs, hlength, hshown⟩ : ∃ s, (cluster demo).exec [Demo.submit] = some s
      ∧ (listRows 7 ⟨Demo.everything 288230376151711745 64, .createdAt, true⟩ s.store).length
        ≤ (288230376151711745 - 1) * normalizePageSize 64
      ∧ idsOnPage 7 ⟨Demo.everything 288230376151711745 64, .createdAt, true⟩ s.store
        288230376151711745 = some [1] :=
    System.exists_of_exec (by decide +kernel)
  exact ⟨s, hs, by decide, by decide, rfl, hlength, hshown⟩

end JobScheduler
