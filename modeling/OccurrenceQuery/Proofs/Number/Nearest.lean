/-
Rounding of exact numbers to 53 significant bits, the last place bounded from below. A number goes to
the nearest multiple of its last place, a tie to the even one. Rounding keeps the order of the numbers
and takes to a number of the format what lies between the midpoints to its neighbours, and so the
number itself.
-/
import Mathlib

namespace OccurrenceQuery.Number

/-! ## The nearest integer -/

/-- Whether `r` is rounded to `n`: it lies between the midpoints on both sides of `n`, which belong to
the even ones. -/
def IsNearest (n : ℕ) (r : ℚ) : Prop :=
  (n - 1 / 2 < r ∨ Even n ∧ n - 1 / 2 = r) ∧ (r < n + 1 / 2 ∨ Even n ∧ r = n + 1 / 2)

section

variable {n k : ℕ} {r t : ℚ}

theorem isNearest_self (n : ℕ) : IsNearest n n := ⟨.inl (by linarith), .inl (by linarith)⟩

theorem IsNearest.bounds (h : IsNearest n r) : n - 1 / 2 ≤ r ∧ r ≤ n + 1 / 2 :=
  ⟨h.1.elim le_of_lt fun h => h.2.le, h.2.elim le_of_lt fun h => h.2.le⟩

theorem IsNearest.le (hn : IsNearest n r) (hk : IsNearest k t) (h : r ≤ t) : n ≤ k := by
  by_contra hless
  have hstep : (k : ℚ) + 1 ≤ n := by exact_mod_cast not_le.1 hless
  have hlower := hn.bounds.1
  have hupper := hk.bounds.2
  -- two neighbours would both get the midpoint between them, though only one of them is even
  have hn' : Even n := hn.1.resolve_left (by linarith) |>.1
  have hk' : Even k := hk.2.resolve_left (by linarith) |>.1
  have hnext : n = k + 1 := by
    have heq : (n : ℚ) = k + 1 := by linarith
    exact_mod_cast heq
  rw [hnext, Nat.even_add_one] at hn'
  exact hn' hk'

/-- The integer that `r` is rounded to. -/
def nearest (r : ℚ) : ℕ :=
  if r - ⌊r⌋₊ < 1 / 2 ∨ r - ⌊r⌋₊ = 1 / 2 ∧ Even ⌊r⌋₊ then ⌊r⌋₊ else ⌊r⌋₊ + 1

theorem isNearest_nearest (hr : 0 ≤ r) : IsNearest (nearest r) r := by
  have hlower := Nat.floor_le hr
  have hupper := Nat.lt_floor_add_one r
  unfold nearest
  split
  · rename_i h
    refine ⟨.inl (by linarith), ?_⟩
    rcases h with h | ⟨h, heven⟩
    · exact .inl (by linarith)
    · exact .inr ⟨heven, by linarith⟩
  · rename_i h
    rw [not_or, not_lt, not_and] at h
    obtain ⟨hhalf, htie⟩ := h
    refine ⟨?_, .inl (by push_cast; linarith)⟩
    rcases eq_or_lt_of_le hhalf with heq | hlt
    · refine .inr ⟨Nat.even_add_one.2 (htie heq.symm), ?_⟩
      push_cast
      linarith
    · refine .inl ?_
      push_cast
      linarith

theorem nearest_eq (hr : 0 ≤ r) (h : IsNearest n r) : nearest r = n :=
  le_antisymm ((isNearest_nearest hr).le h le_rfl) (h.le (isNearest_nearest hr) le_rfl)

theorem nearest_mono (hr : 0 ≤ r) (h : r ≤ t) : nearest r ≤ nearest t :=
  (isNearest_nearest hr).le (isNearest_nearest (hr.trans h)) h

@[simp]
theorem nearest_natCast (n : ℕ) : nearest n = n := nearest_eq (Nat.cast_nonneg n) (isNearest_self n)

end

/-! ## The last place -/

/-- The exponent of the last of 53 significant bits. -/
def lastPlace (q : ℚ) : ℤ := max (Int.log 2 q - 52) (-1074)

section

variable {q t : ℚ} {e : ℤ}

theorem two_zpow_pos (e : ℤ) : (0 : ℚ) < 2 ^ e := zpow_pos (by norm_num) e

theorem two_pow_mul_zpow (n : ℕ) (e : ℤ) : (2 : ℚ) ^ n * 2 ^ e = 2 ^ (e + n) := by
  rw [← zpow_natCast, ← zpow_add₀ (by norm_num), add_comm]

/-- Quarters of the place `e`, counted in units of that place. -/
theorem quarters_div (c : ℚ) (e : ℤ) : c * 2 ^ (e - 2) / 2 ^ e = c / 4 := by
  have hquarter : (2 : ℚ) ^ (-2 : ℤ) = 1 / 4 := by norm_num
  rw [mul_div_assoc, ← zpow_sub₀ (by norm_num), sub_sub_cancel_left, hquarter, mul_one_div]

theorem lastPlace_mono (hq : 0 < q) (h : q ≤ t) : lastPlace q ≤ lastPlace t :=
  max_le_max (sub_le_sub_right (Int.log_mono_right hq h) 52) le_rfl

theorem lt_of_lastPlace (q : ℚ) : q < 2 ^ (lastPlace q + 53) := by
  have hlog : q < 2 ^ (Int.log 2 q + 1) := by
    exact_mod_cast Int.lt_zpow_succ_log_self (b := 2) (by norm_num) q
  refine hlog.trans_le (zpow_le_zpow_right₀ (by norm_num) ?_)
  simp only [lastPlace]
  omega

theorem le_of_lastPlace (hq : 0 < q) (h : -1074 < lastPlace q) : 2 ^ (lastPlace q + 52) ≤ q := by
  have hlog : (2 : ℚ) ^ Int.log 2 q ≤ q := by
    exact_mod_cast Int.zpow_log_le_self (b := 2) (by norm_num) hq
  have hplace : lastPlace q + 52 = Int.log 2 q := by
    simp only [lastPlace] at h ⊢
    omega
  rwa [hplace]

theorem lastPlace_eq (hq : 0 < q) (he : -1074 ≤ e) (hlower : 2 ^ (e + 52) ≤ q ∨ e = -1074)
    (hupper : q < 2 ^ (e + 53)) : lastPlace q = e := by
  have hhigh : Int.log 2 q < e + 53 :=
    (Int.lt_zpow_iff_log_lt (by norm_num) hq).1 (by exact_mod_cast hupper)
  rcases hlower with hlower | rfl
  · have hlow : e + 52 ≤ Int.log 2 q :=
      (Int.zpow_le_iff_le_log (by norm_num) hq).1 (by exact_mod_cast hlower)
    simp only [lastPlace]
    omega
  · simp only [lastPlace]
    omega

end

/-! ## Magnitudes -/

/-- The magnitude `q` rounded to a multiple of its last place. -/
def roundMagnitude (q : ℚ) : ℚ := nearest (q / 2 ^ lastPlace q) * 2 ^ lastPlace q

section

variable {q t : ℚ} {m : ℕ} {e : ℤ}

theorem roundMagnitude_nonneg (q : ℚ) : 0 ≤ roundMagnitude q :=
  mul_nonneg (Nat.cast_nonneg _) (two_zpow_pos _).le

@[simp]
theorem roundMagnitude_zero : roundMagnitude 0 = 0 := by
  have hzero : nearest 0 = 0 := nearest_natCast 0
  simp [roundMagnitude, hzero]

theorem nearest_div_le (hq : 0 ≤ q) : nearest (q / 2 ^ lastPlace q) ≤ 2 ^ 53 := by
  have hpos := two_zpow_pos (lastPlace q)
  have hupper : q / 2 ^ lastPlace q ≤ (2 ^ 53 : ℕ) := by
    rw [div_le_iff₀ hpos, Nat.cast_pow, Nat.cast_ofNat, two_pow_mul_zpow]
    exact (lt_of_lastPlace q).le
  exact (nearest_mono (by positivity) hupper).trans_eq (nearest_natCast _)

theorem le_nearest_div (hq : 0 < q) (h : -1074 < lastPlace q) :
    2 ^ 52 ≤ nearest (q / 2 ^ lastPlace q) := by
  have hpos := two_zpow_pos (lastPlace q)
  have hlower : ((2 ^ 52 : ℕ) : ℚ) ≤ q / 2 ^ lastPlace q := by
    rw [le_div_iff₀ hpos, Nat.cast_pow, Nat.cast_ofNat, two_pow_mul_zpow]
    exact le_of_lastPlace hq h
  exact (nearest_natCast _).symm.trans_le (nearest_mono (Nat.cast_nonneg _) hlower)

theorem roundMagnitude_le (hq : 0 ≤ q) : roundMagnitude q ≤ 2 ^ (lastPlace q + 53) := by
  rw [← Nat.cast_ofNat (R := ℤ), ← two_pow_mul_zpow]
  exact mul_le_mul_of_nonneg_right (by exact_mod_cast nearest_div_le hq) (two_zpow_pos _).le

theorem le_roundMagnitude (hq : 0 < q) (h : -1074 < lastPlace q) :
    2 ^ (lastPlace q + 52) ≤ roundMagnitude q := by
  rw [← Nat.cast_ofNat (R := ℤ), ← two_pow_mul_zpow]
  exact mul_le_mul_of_nonneg_right (by exact_mod_cast le_nearest_div hq h) (two_zpow_pos _).le

theorem roundMagnitude_mono (hq : 0 ≤ q) (h : q ≤ t) : roundMagnitude q ≤ roundMagnitude t := by
  rcases hq.eq_or_lt with rfl | hpos
  · rw [roundMagnitude_zero]
    exact roundMagnitude_nonneg t
  rcases (lastPlace_mono hpos h).eq_or_lt with heq | hlt
  · have hplace := two_zpow_pos (lastPlace t)
    rw [roundMagnitude, roundMagnitude, heq]
    refine mul_le_mul_of_nonneg_right (Nat.cast_le.2 (nearest_mono ?_ ?_)) hplace.le
    · positivity
    · exact div_le_div_of_nonneg_right h hplace.le
  -- a lower place ends before the next one starts
  · have hlow : -1074 ≤ lastPlace q := le_max_right _ _
    calc roundMagnitude q
        ≤ 2 ^ (lastPlace q + 53) := roundMagnitude_le hq
      _ ≤ 2 ^ (lastPlace t + 52) := zpow_le_zpow_right₀ (by norm_num) (by omega)
      _ ≤ roundMagnitude t := le_roundMagnitude (hpos.trans_le h) (by omega)

/-- Rounding to 53 bits moves a magnitude by at most one part in `2 ^ 53`, unless it is so small that it
has fewer bits. -/
theorem abs_roundMagnitude_sub_le (h : 2 ^ (-1022 : ℤ) ≤ q) : |roundMagnitude q - q| ≤ q / 2 ^ 53 := by
  have hq : 0 < q := (two_zpow_pos _).trans_le h
  have hpos := two_zpow_pos (lastPlace q)
  have hbits : 2 ^ (lastPlace q + (52 : ℕ)) ≤ q := by
    rcases (le_max_right (Int.log 2 q - 52) (-1074)).eq_or_lt with heq | hlt
    · rw [lastPlace, ← heq]
      exact h
    · exact le_of_lastPlace hq hlt
  have hhalf : 2 ^ lastPlace q / 2 ≤ q / 2 ^ 53 := by
    rw [← two_pow_mul_zpow] at hbits
    rw [div_le_div_iff₀ two_pos (by positivity)]
    linarith
  obtain ⟨hlower, hupper⟩ := (isNearest_nearest (div_nonneg hq.le hpos.le)).bounds
  rw [le_div_iff₀ hpos, sub_mul] at hlower
  rw [div_le_iff₀ hpos, add_mul] at hupper
  exact abs_le.2 ⟨by rw [roundMagnitude]; linarith, by rw [roundMagnitude]; linarith⟩

/-! ## Numbers of the format -/

/-- Whether a mantissa and an exponent are those of a number of the format, its exponent unbounded from
above. -/
structure InFormat (m : ℕ) (e : ℤ) : Prop where
  lt : m < 2 ^ 53
  le : -1074 ≤ e
  normal : 2 ^ 52 ≤ m ∨ e = -1074

/-- The midpoint below a number of the format, in units of its last place. Below a power of two the
neighbour is half as far away, unless that would take a place below the least one. -/
def lowerMidpoint (m : ℕ) (e : ℤ) : ℚ := if m = 2 ^ 52 ∧ -1074 < e then m - 1 / 4 else m - 1 / 2

/-- Whether a magnitude lies between the midpoints to the neighbours of a number of the format, which
belong to the even mantissas. -/
def IsAttracted (m : ℕ) (e : ℤ) (q : ℚ) : Prop :=
  (lowerMidpoint m e < q / 2 ^ e ∨ Even m ∧ lowerMidpoint m e = q / 2 ^ e) ∧
    (q / 2 ^ e < m + 1 / 2 ∨ Even m ∧ q / 2 ^ e = m + 1 / 2)

theorem sub_half_le_lowerMidpoint (m : ℕ) (e : ℤ) : m - 1 / 2 ≤ lowerMidpoint m e := by
  unfold lowerMidpoint
  split <;> linarith

theorem lowerMidpoint_lt (m : ℕ) (e : ℤ) : lowerMidpoint m e < m := by
  unfold lowerMidpoint
  split <;> linarith

theorem isAttracted_self (m : ℕ) (e : ℤ) : IsAttracted m e (m * 2 ^ e) := by
  have hself : (m : ℚ) * 2 ^ e / 2 ^ e = m := mul_div_cancel_right₀ _ (two_zpow_pos e).ne'
  rw [IsAttracted, hself]
  exact ⟨.inl (lowerMidpoint_lt m e), .inl (by linarith)⟩

theorem IsAttracted.bounds (h : IsAttracted m e q) :
    lowerMidpoint m e ≤ q / 2 ^ e ∧ q / 2 ^ e ≤ m + 1 / 2 :=
  ⟨h.1.elim le_of_lt fun h => h.2.le, h.2.elim le_of_lt fun h => h.2.le⟩

theorem IsAttracted.pos (hm : 0 < m) (h : IsAttracted m e q) : 0 < q := by
  have hone : (1 : ℚ) ≤ m := by exact_mod_cast hm
  have hsub := sub_half_le_lowerMidpoint m e
  have hdiv : 0 < q / 2 ^ e := by linarith [h.bounds.1]
  exact (div_pos_iff_of_pos_right (two_zpow_pos e)).1 hdiv

theorem IsAttracted.lt (hm : m < 2 ^ 53) (h : IsAttracted m e q) : q < 2 ^ (e + 53) := by
  have hmantissa : (m : ℚ) ≤ 2 ^ 53 - 1 := by
    rw [le_sub_iff_add_le]
    exact_mod_cast hm
  rw [← Nat.cast_ofNat (R := ℤ), ← two_pow_mul_zpow, ← div_lt_iff₀ (two_zpow_pos e)]
  linarith [h.bounds.2]

/-- In the place of the number, rounding goes to the mantissa between the midpoints. -/
theorem IsAttracted.isNearest (h : IsAttracted m e q) (hbinade : 2 ^ (e + 52) ≤ q ∨ e = -1074) :
    IsNearest m (q / 2 ^ e) := by
  refine ⟨?_, h.2⟩
  by_cases htight : m = 2 ^ 52 ∧ -1074 < e
  · -- the quarter of a place below a power of two belongs to the places below
    refine .inl ?_
    have hpower : 2 ^ 52 ≤ q / 2 ^ e := by
      rw [le_div_iff₀ (two_zpow_pos e), two_pow_mul_zpow]
      exact hbinade.resolve_right htight.2.ne'
    rw [htight.1]
    push_cast
    linarith
  · rw [show m - 1 / 2 = lowerMidpoint m e by rw [lowerMidpoint, if_neg htight]]
    exact h.1

/-- Below a power of two the place is the next lower one, and from its last quarter on rounding goes up to
the power. -/
theorem roundMagnitude_below_power (he : -1074 < e) (hlower : 2 ^ 52 - 1 / 4 ≤ q / 2 ^ e)
    (hupper : q < 2 ^ (e + 52)) : roundMagnitude q = 2 ^ 52 * 2 ^ e := by
  have hpos := two_zpow_pos e
  have hq : 0 < q := by
    have hdiv : 0 < q / 2 ^ e := by linarith
    exact (div_pos_iff_of_pos_right hpos).1 hdiv
  have hlt : q / 2 ^ e < 2 ^ 52 := by
    rw [div_lt_iff₀ hpos, two_pow_mul_zpow]
    exact hupper
  have hhalf : (2 : ℚ) ^ (e - 1) = 2 ^ e / 2 := by rw [zpow_sub_one₀ (by norm_num), div_eq_mul_inv]
  have hdouble : q / 2 ^ (e - 1) = 2 * (q / 2 ^ e) := by
    rw [hhalf]
    field_simp
  have hplace : lastPlace q = e - 1 := by
    refine lastPlace_eq hq (by omega) (.inl ?_) ?_
    · rw [show e - 1 + 52 = e - 1 + (52 : ℕ) from rfl, ← two_pow_mul_zpow, ← le_div_iff₀
        (two_zpow_pos _), hdouble]
      linarith
    · rwa [show e - 1 + 53 = e + 52 by ring]
  have hnearest : nearest (q / 2 ^ (e - 1)) = 2 ^ 53 := by
    rw [hdouble]
    refine nearest_eq (by positivity) ⟨?_, .inl ?_⟩
    · rcases hlower.lt_or_eq with hlt' | heq
      · exact .inl (by push_cast; linarith)
      · exact .inr ⟨by decide, by push_cast; linarith⟩
    · push_cast
      linarith
  rw [roundMagnitude, hplace, hnearest, hhalf]
  push_cast
  ring

/-- The magnitudes between the midpoints are rounded to the number between them. -/
theorem roundMagnitude_of_isAttracted (hformat : InFormat m e) (hm : 0 < m) (h : IsAttracted m e q) :
    roundMagnitude q = m * 2 ^ e := by
  have hq := h.pos hm
  by_cases hbinade : 2 ^ (e + 52) ≤ q ∨ e = -1074
  · rw [roundMagnitude, lastPlace_eq hq hformat.le hbinade (h.lt hformat.lt),
      nearest_eq (div_nonneg hq.le (two_zpow_pos e).le) (h.isNearest hbinade)]
  · rw [not_or, not_le] at hbinade
    obtain ⟨hbelow, hleast⟩ := hbinade
    have he : -1074 < e := lt_of_le_of_ne hformat.le (Ne.symm hleast)
    have hsub := sub_half_le_lowerMidpoint m e
    have hlt : q / 2 ^ e < 2 ^ 52 := by
      rw [div_lt_iff₀ (two_zpow_pos e), two_pow_mul_zpow]
      exact hbelow
    have hm52 : m = 2 ^ 52 := by
      refine le_antisymm ?_ (hformat.normal.resolve_right hleast)
      have hless : (m : ℚ) < 2 ^ 52 + 1 := by linarith [h.bounds.1]
      exact Nat.lt_succ_iff.1 (by exact_mod_cast hless)
    have htight : lowerMidpoint m e = 2 ^ 52 - 1 / 4 := by
      rw [lowerMidpoint, if_pos ⟨hm52, he⟩, hm52]
      norm_num
    rw [roundMagnitude_below_power he (htight ▸ h.bounds.1) hbelow, hm52]
    norm_num

theorem roundMagnitude_self (hformat : InFormat m e) : roundMagnitude (m * 2 ^ e) = m * 2 ^ e := by
  rcases m.eq_zero_or_pos with rfl | hm
  · simp
  · exact roundMagnitude_of_isAttracted hformat hm (isAttracted_self m e)

end

/-! ## The line of numbers -/

/-- The least power of two beyond all finite numbers. The infinities stand there on the line. -/
def limit : ℚ := 2 ^ 1024

/-- The point on the line of numbers that the exact number `q` is rounded to. -/
def rounded (q : ℚ) : ℚ :=
  if q < 0 then -min (roundMagnitude (-q)) limit else min (roundMagnitude q) limit

section

variable {q t : ℚ} {m : ℕ} {e : ℤ}

theorem limit_pos : 0 < limit := by
  unfold limit
  positivity

theorem limit_eq_zpow : limit = 2 ^ (1024 : ℤ) := (zpow_natCast 2 1024).symm

theorem limit_eq : limit = ((2 ^ 52 : ℕ) : ℚ) * 2 ^ (972 : ℤ) := by
  rw [Nat.cast_pow, Nat.cast_ofNat, two_pow_mul_zpow]
  exact limit_eq_zpow

theorem roundMagnitude_limit : roundMagnitude limit = limit := by
  rw [limit_eq]
  exact roundMagnitude_self ⟨by norm_num, by norm_num, .inl le_rfl⟩

theorem rounded_of_nonneg (hq : 0 ≤ q) : rounded q = min (roundMagnitude q) limit := if_neg hq.not_gt

@[simp]
theorem rounded_zero : rounded 0 = 0 := by
  rw [rounded_of_nonneg le_rfl, roundMagnitude_zero, min_eq_left limit_pos.le]

theorem rounded_nonneg (hq : 0 ≤ q) : 0 ≤ rounded q := by
  rw [rounded_of_nonneg hq]
  exact le_min (roundMagnitude_nonneg q) limit_pos.le

@[simp]
theorem rounded_neg (q : ℚ) : rounded (-q) = -rounded q := by
  rcases lt_trichotomy q 0 with hq | rfl | hq
  · rw [rounded_of_nonneg (neg_nonneg.2 hq.le), rounded, if_pos hq, neg_neg]
  · rw [neg_zero, rounded_zero, neg_zero]
  · rw [rounded_of_nonneg hq.le, rounded, if_pos (neg_neg_of_pos hq), neg_neg]

theorem rounded_mono (h : q ≤ t) : rounded q ≤ rounded t := by
  rcases le_total 0 q with hq | hq
  · rw [rounded_of_nonneg hq, rounded_of_nonneg (hq.trans h)]
    exact min_le_min_right _ (roundMagnitude_mono hq h)
  have hq' := rounded_nonneg (neg_nonneg.2 hq)
  rw [rounded_neg] at hq'
  rcases le_total 0 t with ht | ht
  · exact (neg_nonneg.1 hq').trans (rounded_nonneg ht)
  · have hneg : rounded (-t) ≤ rounded (-q) := by
      rw [rounded_of_nonneg (neg_nonneg.2 ht), rounded_of_nonneg (neg_nonneg.2 hq)]
      exact min_le_min_right _ (roundMagnitude_mono (neg_nonneg.2 ht) (neg_le_neg h))
    rw [rounded_neg, rounded_neg] at hneg
    exact neg_le_neg_iff.1 hneg

/-- In the range of magnitudes that neither lose bits nor come near the infinities, rounding moves a number
by at most one part in `2 ^ 53`. -/
theorem abs_rounded_sub_le (hlower : 2 ^ (-1022 : ℤ) ≤ |q|) (hupper : |q| ≤ 2 ^ (1023 : ℤ)) :
    |rounded q - q| ≤ |q| / 2 ^ 53 := by
  have hmagnitude := abs_roundMagnitude_sub_le hlower
  have hbelow : roundMagnitude |q| ≤ limit := by
    have hsmall : |q| / 2 ^ 53 ≤ |q| := div_le_self (abs_nonneg q) (by norm_num)
    calc roundMagnitude |q|
        ≤ |q| + |q| / 2 ^ 53 := sub_le_iff_le_add'.1 (abs_le.1 hmagnitude).2
      _ ≤ 2 * |q| := by linarith only [hsmall]
      _ ≤ 2 * 2 ^ (1023 : ℤ) := mul_le_mul_of_nonneg_left hupper zero_le_two
      _ = 2 ^ (1024 : ℤ) := (zpow_one_add₀ two_ne_zero 1023).symm
      _ = limit := limit_eq_zpow.symm
  have hrounded : rounded |q| = roundMagnitude |q| := by
    rw [rounded_of_nonneg (abs_nonneg q), min_eq_left hbelow]
  rw [← hrounded] at hmagnitude
  rcases abs_cases q with ⟨habs, -⟩ | ⟨habs, -⟩ <;> simp only [habs] at hmagnitude ⊢
  · exact hmagnitude
  · rw [rounded_neg, neg_sub_neg, abs_sub_comm] at hmagnitude
    exact hmagnitude

/-- The numbers of the format up to the last exponent are below the limit. -/
theorem magnitude_lt_limit (hformat : InFormat m e) (he : e ≤ 971) : (m : ℚ) * 2 ^ e < limit := by
  have hmantissa : (m : ℚ) < 2 ^ 53 := by exact_mod_cast hformat.lt
  calc (m : ℚ) * 2 ^ e
      < 2 ^ 53 * 2 ^ e := mul_lt_mul_of_pos_right hmantissa (two_zpow_pos e)
    _ = 2 ^ (e + (53 : ℕ)) := two_pow_mul_zpow 53 e
    _ ≤ 2 ^ (1024 : ℤ) := zpow_le_zpow_right₀ (by norm_num) (by omega)
    _ = limit := limit_eq_zpow.symm

theorem limit_le_magnitude (hformat : InFormat m e) (he : 971 < e) : limit ≤ (m : ℚ) * 2 ^ e := by
  have hmantissa : (2 : ℚ) ^ 52 ≤ m := by
    exact_mod_cast hformat.normal.resolve_right (by omega)
  calc limit
      = 2 ^ (1024 : ℤ) := limit_eq_zpow
    _ ≤ 2 ^ (e + (52 : ℕ)) := zpow_le_zpow_right₀ (by norm_num) (by omega)
    _ = 2 ^ 52 * 2 ^ e := (two_pow_mul_zpow 52 e).symm
    _ ≤ m * 2 ^ e := mul_le_mul_of_nonneg_right hmantissa (two_zpow_pos e).le

end

end OccurrenceQuery.Number
