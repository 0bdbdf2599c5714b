import Mathlib.Algebra.Order.Field.Basic
import Mathlib.Tactic.GCongr
import Mathlib.Tactic.Linarith
import Mathlib.Tactic.Ring

/-!
# Token buckets

A bucket holds at most `c` tokens and gains `ρ` of them per unit of time.  A request takes one token or
is refused; what is kept is the number of tokens left and the time of the last request, refused ones
included.  A bucket nothing is known of is full.

* `serve` — the answers to requests at given times, in order; `after` — the bucket they leave.
* `Fits` — between none and `c` tokens, and not from the future; `Fits.draw` keeps it.
* `served_le` — the amortised bound: within any window the requests that were granted are at most the
  tokens of a full bucket and those the window adds.
* `draw_forgotten` — a bucket that has had the time to fill up may be forgotten.
-/

namespace TokenBucket

variable {K : Type} [Field K] [LinearOrder K] [IsStrictOrderedRing K]

/-- The tokens left, and when they were counted. -/
structure Bucket (K : Type) where
  tokens : K
  updated : K

variable (c ρ : K)

/-- The tokens there are at a time. -/
def level (now : K) : Option (Bucket K) → K
  | none => c
  | some b => min c (b.tokens + (now - b.updated) * ρ)

/-- One request. -/
def draw (now : K) (o : Option (Bucket K)) : Bool × Bucket K :=
  if 1 ≤ level c ρ now o then (true, ⟨level c ρ now o - 1, now⟩) else (false, ⟨level c ρ now o, now⟩)

/-- The answers to requests at these times. -/
def serve : Option (Bucket K) → List K → List (K × Bool)
  | _, [] => []
  | o, t :: ts => (t, (draw c ρ t o).1) :: serve (some (draw c ρ t o).2) ts

/-- The bucket after requests at these times. -/
def after : Option (Bucket K) → List K → Option (Bucket K)
  | o, [] => o
  | o, t :: ts => after (some (draw c ρ t o).2) ts

/-- Granted between `a` and `e`. -/
def Granted (a e : K) (p : K × Bool) : Prop := p.2 = true ∧ a ≤ p.1 ∧ p.1 ≤ e

instance (a e : K) : DecidablePred (Granted a e) := fun _ => inferInstanceAs (Decidable (_ ∧ _ ∧ _))

/-- Not fewer than no tokens, not more than `c`, counted at `now` or before. -/
def Fits (now : K) (o : Option (Bucket K)) : Prop :=
  ∀ b, o = some b → 0 ≤ b.tokens ∧ b.tokens ≤ c ∧ b.updated ≤ now

/-! ### One request -/

variable {c ρ} {now t a e : K} {o : Option (Bucket K)} {b : Bucket K} {ts : List K}

omit [IsStrictOrderedRing K] in
theorem Fits.mono (h : Fits c now o) (ht : now ≤ t) : Fits c t o :=
  fun b hb => ⟨(h b hb).1, (h b hb).2.1, (h b hb).2.2.trans ht⟩

omit [IsStrictOrderedRing K] in
theorem level_le (now : K) (o : Option (Bucket K)) : level c ρ now o ≤ c := by
  cases o with
  | none => exact le_refl c
  | some b => exact min_le_left _ _

theorem level_nonneg (hc : 0 ≤ c) (hρ : 0 ≤ ρ) (h : Fits c now o) : 0 ≤ level c ρ now o := by
  cases o with
  | none => exact hc
  | some b =>
    obtain ⟨htokens, -, hupdated⟩ := h b rfl
    apply le_min hc
    have := mul_nonneg (sub_nonneg.2 hupdated) hρ
    linarith

omit [IsStrictOrderedRing K] in
@[simp] theorem draw_updated (now : K) (o : Option (Bucket K)) : (draw c ρ now o).2.updated = now := by
  unfold draw
  split <;> rfl

omit [IsStrictOrderedRing K] in
theorem draw_tokens (now : K) (o : Option (Bucket K)) :
    (draw c ρ now o).2.tokens + (if (draw c ρ now o).1 then 1 else 0) = level c ρ now o := by
  unfold draw
  split <;> simp

theorem Fits.draw (hc : 0 ≤ c) (hρ : 0 ≤ ρ) (h : Fits c now o) :
    Fits c now (some (draw c ρ now o).2) := by
  rintro b hb
  obtain rfl := Option.some.inj hb
  have hle := level_le (c := c) (ρ := ρ) now o
  have hnonneg := level_nonneg hc hρ h
  unfold TokenBucket.draw
  split
  · rename_i hone
    exact ⟨by linarith, by linarith, le_refl now⟩
  · exact ⟨hnonneg, hle, le_refl now⟩

/-- After `c / ρ` units of time the bucket is full, as one nothing is known of. -/
theorem draw_forgotten (hb : 0 ≤ b.tokens) (hfull : c ≤ (now - b.updated) * ρ) :
    draw c ρ now (some b) = draw c ρ now none := by
  have hlevel : level c ρ now (some b) = c := by
    apply min_eq_left
    linarith
  have hnone : level c ρ now none = c := rfl
  simp only [TokenBucket.draw, hlevel, hnone]

/-! ### Runs of requests -/

omit [IsStrictOrderedRing K] in
theorem serve_append (o : Option (Bucket K)) (ts : List K) (t : K) :
    serve c ρ o (ts ++ [t]) = serve c ρ o ts ++ [(t, (draw c ρ t (after c ρ o ts)).1)] := by
  induction ts generalizing o with
  | nil => rfl
  | cons t' ts ih => simp only [List.cons_append, serve, after, ih]

omit [IsStrictOrderedRing K] in
theorem after_append (o : Option (Bucket K)) (ts : List K) (t : K) :
    after c ρ o (ts ++ [t]) = some (draw c ρ t (after c ρ o ts)).2 := by
  induction ts generalizing o with
  | nil => rfl
  | cons t' ts ih => simp only [List.cons_append, after, ih]

/-- How many of the requests at these times are granted within the window. -/
def served (c ρ a e : K) (o : Option (Bucket K)) (ts : List K) : ℕ :=
  (serve c ρ o ts).countP fun p => decide (Granted a e p)

omit [IsStrictOrderedRing K] in
/-- Requests after the window count nothing. -/
theorem served_of_late (h : ∀ t ∈ ts, e < t) (o : Option (Bucket K)) : served c ρ a e o ts = 0 := by
  induction ts generalizing o with
  | nil => rfl
  | cons t ts ih =>
    have hlate : ¬Granted a e (t, (draw c ρ t o).1) := by
      rintro ⟨-, -, hle⟩
      exact absurd (h t (by simp)) (not_lt.2 hle)
    rw [served, serve, List.countP_cons_of_neg (by simpa using hlate)]
    exact ih (fun t' ht' => h t' (by simp [ht'])) _

omit [IsStrictOrderedRing K] in
theorem served_of_late_head (hsorted : (t :: ts).Pairwise (· ≤ ·)) (h : e < t)
    (o : Option (Bucket K)) : served c ρ a e o (t :: ts) = 0 := by
  apply served_of_late
  intro t' ht'
  rcases List.mem_cons.1 ht' with rfl | ht'
  · exact h
  · exact h.trans_le ((List.pairwise_cons.1 hsorted).1 t' ht')

/-- A request counts at most the token it takes. -/
theorem served_cons_le (o : Option (Bucket K)) (t : K) (ts : List K) :
    (served c ρ a e o (t :: ts) : K) ≤ served c ρ a e (some (draw c ρ t o).2) ts
      + if (draw c ρ t o).1 then 1 else 0 := by
  rw [served, served, serve, List.countP_cons, Nat.cast_add]
  apply add_le_add_right
  by_cases hgranted : (draw c ρ t o).1 = true
  · simp only [hgranted, if_true]
    split <;> norm_num
  · simp [Granted, hgranted]

/-- Inside the window: the tokens that are there, and those still to come. -/
theorem served_le_of_bucket (hc : 0 ≤ c) (hρ : 0 ≤ ρ) (hsorted : ts.Pairwise (· ≤ ·))
    (hfits : Fits c b.updated (some b)) (hfrom : ∀ t ∈ ts, b.updated ≤ t) (hin : b.updated ≤ e) :
    (served c ρ a e (some b) ts : K) ≤ b.tokens + (e - b.updated) * ρ := by
  induction ts generalizing b with
  | nil =>
    have hcoming := mul_nonneg (sub_nonneg.2 hin) hρ
    have hthere := (hfits b rfl).1
    simp only [served, serve, List.countP_nil, Nat.cast_zero]
    linarith
  | cons t ts ih =>
    obtain ⟨hhead, htail⟩ := List.pairwise_cons.1 hsorted
    have ht : b.updated ≤ t := hfrom t (by simp)
    by_cases hte : t ≤ e
    · have hdraw := (hfits.mono ht).draw hc hρ
      have hrest := ih (b := (draw c ρ t (some b)).2) htail (by simpa using hdraw)
        (by simpa using hhead) (by simpa using hte)
      have htokens := draw_tokens (c := c) (ρ := ρ) t (some b)
      have hlevel : level c ρ t (some b) ≤ b.tokens + (t - b.updated) * ρ := min_le_right _ _
      have hone := served_cons_le (c := c) (ρ := ρ) (a := a) (e := e) (some b) t ts
      have hsplit : (e - b.updated) * ρ = (e - t) * ρ + (t - b.updated) * ρ := by ring
      rw [draw_updated] at hrest
      linarith
    · have hcoming := mul_nonneg (sub_nonneg.2 hin) hρ
      have hthere := (hfits b rfl).1
      rw [served_of_late_head hsorted (not_le.1 hte), Nat.cast_zero]
      linarith

/-- **The amortised bound.**  However the requests before the window went, it grants at most a full
bucket and what the window adds. -/
theorem served_le (hc : 0 ≤ c) (hρ : 0 ≤ ρ) (hsorted : ts.Pairwise (· ≤ ·)) (hfits : Fits c now o)
    (hfrom : ∀ t ∈ ts, now ≤ t) (hae : a ≤ e) :
    (served c ρ a e o ts : K) ≤ c + (e - a) * ρ := by
  have hwindow : 0 ≤ (e - a) * ρ := mul_nonneg (sub_nonneg.2 hae) hρ
  induction ts generalizing o now with
  | nil =>
    simp only [served, serve, List.countP_nil, Nat.cast_zero]
    linarith
  | cons t ts ih =>
    obtain ⟨hhead, htail⟩ := List.pairwise_cons.1 hsorted
    have hdraw := (hfits.mono (hfrom t (by simp))).draw hc hρ
    by_cases hat : a ≤ t
    · by_cases hte : t ≤ e
      · -- the first request of the window finds at most `c` tokens
        have hrest := served_le_of_bucket (a := a) (b := (draw c ρ t o).2) hc hρ htail
          (by simpa using hdraw) (by simpa using hhead) (by simpa using hte)
        have htokens := draw_tokens (c := c) (ρ := ρ) t o
        have hlevel := level_le (c := c) (ρ := ρ) t o
        have hone := served_cons_le (c := c) (ρ := ρ) (a := a) (e := e) o t ts
        have hshrink : (e - t) * ρ ≤ (e - a) * ρ := by gcongr
        rw [draw_updated] at hrest
        linarith
      · rw [served_of_late_head hsorted (not_le.1 hte), Nat.cast_zero]
        linarith
    · have hearly : ¬Granted a e (t, (draw c ρ t o).1) := fun h => hat h.2.1
      rw [served, serve, List.countP_cons_of_neg (by simpa using hearly)]
      exact ih htail hdraw (fun t' ht' => hhead t' ht')

end TokenBucket
