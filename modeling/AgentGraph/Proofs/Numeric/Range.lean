import AgentGraph.Proofs.Numeric.Nearest

/-!
# The end of the range

Beyond a certain size a number is rounded to infinity: for 64-bit numbers that is half a unit before
`2 ^ 1024` (`Double.isFinite_round_iff`).
-/

namespace AgentGraph.Numeric

namespace Binary

variable {w : Width}

theorem infinityBits_lt : w.infinityBits < 2 ^ (w.size - 1) := by cases w <;> decide

/-- The patterns of the finite numbers come before that of infinity. -/
theorem isFinite_iff {x : Binary w} : x.isFinite = true ↔ x.magnitude < w.infinityBits := by
  have hfraction : 0 < 2 ^ w.fractionBits := Nat.pow_pos Nat.two_pos
  have hbits : 2 ^ (w.size - 1) = (2 ^ w.exponentBits - 1 + 1) * 2 ^ w.fractionBits := by
    cases w <;> rfl
  -- the greatest exponent is the one that is left over for infinity and what is no number
  have hbiased : x.magnitude / 2 ^ w.fractionBits = 2 ^ w.exponentBits - 1 ↔
      ¬ x.magnitude < w.infinityBits := by
    have hlt : x.magnitude / 2 ^ w.fractionBits < 2 ^ w.exponentBits - 1 + 1 :=
      (Nat.div_lt_iff_lt_mul hfraction).mpr (hbits ▸ magnitude_lt x)
    rw [Width.infinityBits, Nat.pow_eq, Nat.pow_eq, ← Nat.div_lt_iff_lt_mul hfraction]
    omega
  rw [isFinite, parts]
  simp only [Nat.pow_eq, hbiased]
  by_cases hlt : x.magnitude < w.infinityBits
  · by_cases hleast : x.magnitude / 2 ^ w.fractionBits = 0 <;> simp [hlt, hleast]
  · by_cases hnone : x.magnitude % 2 ^ w.fractionBits = 0 <;> simp [hlt, hnone]

/-- A number that is cut off at infinity is finite just when there was nothing to cut off. -/
theorem isFinite_ofMagnitude_min (negative : Bool) (n : Nat) :
    (ofMagnitude negative (min n w.infinityBits) : Binary w).isFinite = true ↔
    n < w.infinityBits := by
  rw [isFinite_iff, (fields_ofMagnitude negative ((min_le_right ..).trans_lt infinityBits_lt)).2,
    min_lt_iff, or_iff_left (lt_irrefl _)]

/-- A positive fraction is rounded to a multiple of some power of two, and is so many times as great
as that power as a significand is. -/
theorem exists_round_eq (negative : Bool) {num den : Nat} (hnum : 0 < num) (hden : 0 < den)
    (e : Int) :
    ∃ k n : Nat, (round negative num den e : Binary w) =
        ofMagnitude negative (min (k * 2 ^ w.fractionBits + n) w.infinityBits) ∧
      IsNearest (num / den * 2 ^ e / 2 ^ (w.quantum + k)) n ∧
      (k = 0 ∨ (2 : ℚ) ^ w.fractionBits ≤ num / den * 2 ^ e / 2 ^ (w.quantum + k)) ∧
      (num / den * 2 ^ e / 2 ^ (w.quantum + k) : ℚ) < 2 ^ (w.fractionBits + 1) := by
  obtain ⟨htopLow, htopHigh⟩ := floorLog2_add_spec hnum hden (e := e)
  obtain ⟨k, hk⟩ : ∃ k : Nat, k = (floorLog2 num den + e - w.fractionBits - w.quantum).toNat :=
    ⟨_, rfl⟩
  -- the unit is that of the leading digit, or the least one
  have hlow : k = 0 ∨ (2 : ℚ) ^ (w.fractionBits + (w.quantum + k)) ≤ num / den * 2 ^ e := by
    refine or_iff_not_imp_left.mpr fun hne => le_trans ?_ htopLow
    exact zpow_le_zpow_right₀ one_le_two (by omega)
  have hhigh : (num / den * 2 ^ e : ℚ) < 2 ^ (w.fractionBits + (w.quantum + k) + 1) :=
    htopHigh.trans_le (zpow_le_zpow_right₀ one_le_two (by omega))
  have hnearest := isNearest_scale num hden e (w.quantum + k)
  refine ⟨k, _, round_eq negative hnum hden hlow hhigh hnearest, hnearest,
    hlow.imp_right two_pow_le_div_iff.mpr, ?_⟩
  rw [div_lt_two_pow_iff]
  push_cast
  rwa [add_right_comm]

theorem round_eq_infinity {negative : Bool} {num den : Nat} {e : Int} (hnum : 0 < num)
    (hden : 0 < den) (h : (round negative num den e : Binary w).isFinite = false) :
    (round negative num den e : Binary w) = infinity negative := by
  obtain ⟨k, n, hround, -⟩ := exists_round_eq (w := w) negative hnum hden e
  rw [hround, Bool.eq_false_iff, Ne, isFinite_ofMagnitude_min, not_lt] at h
  rw [hround, infinity, min_eq_right h]

/-- What is less than half the least positive number is rounded to zero. -/
theorem round_eq_zero (negative : Bool) {num den : Nat} {e : Int} (hden : 0 < den)
    (h : (num / den * 2 ^ e : ℚ) < 2 ^ (w.quantum - 1)) :
    (round negative num den e : Binary w) = ofMagnitude negative 0 := by
  rcases Nat.eq_zero_or_pos num with rfl | hnum
  · rw [round, if_pos rfl]
  obtain ⟨k, n, hround, hnearest, hlow, -⟩ := exists_round_eq (w := w) negative hnum hden e
  -- in any unit the number is less than half a unit
  have hhalf : (num / den * 2 ^ e / 2 ^ (w.quantum + k) : ℚ) < 1 / 2 := by
    rw [div_lt_iff₀ (by positivity)]
    calc (num / den * 2 ^ e : ℚ) < 2 ^ (w.quantum - 1) := h
      _ ≤ 2 ^ (w.quantum + k - 1) := zpow_le_zpow_right₀ one_le_two (by omega)
      _ = 1 / 2 * 2 ^ (w.quantum + k) := by rw [zpow_sub_one₀ two_ne_zero]; ring
  have hzero : n = 0 := by
    have hlt : (n : ℚ) < 1 := by linarith [hnearest.low]
    exact Nat.lt_one_iff.mp (by exact_mod_cast hlt)
  have hleast : k = 0 := hlow.resolve_right fun hlow => by
    have hone : (1 : ℚ) ≤ 2 ^ w.fractionBits := one_le_pow₀ one_le_two
    linarith
  rw [hround, hzero, hleast, Nat.zero_mul, Nat.zero_add, Nat.zero_min]

end Binary

namespace Double

open Binary

/-- From here on numbers are rounded to infinity. -/
def overflow : ℚ := 2 ^ 1024 - 2 ^ 970

theorem overflow_eq : overflow = (2 ^ 54 - 1) * 2 ^ (970 : ℤ) := by
  have hpow : (2 : ℚ) ^ 1024 = 2 ^ 54 * 2 ^ 970 := by rw [← pow_add]
  have hunit : (2 : ℚ) ^ (970 : ℤ) = 2 ^ 970 := zpow_natCast 2 970
  rw [overflow, hpow, hunit, sub_one_mul]

/-- **A positive number is rounded to a finite one just when it lies below half a unit before
`2 ^ 1024`.** -/
theorem isFinite_round_iff (negative : Bool) {num den : Nat} (hnum : 0 < num) (hden : 0 < den)
    (e : Int) :
    (round negative num den e : Double).isFinite = true ↔ (num / den * 2 ^ e : ℚ) < overflow := by
  obtain ⟨k, n, hround, hnearest, hlow, hhigh⟩ :=
    exists_round_eq (w := .double) negative hnum hden e
  have hunit : (2 : ℚ) ^ (Width.double.quantum + k) = 2 ^ (970 : ℤ) * 2 ^ ((k : ℤ) - 2044) := by
    rw [← zpow_add₀ two_ne_zero]
    congr 1
    show -1074 + (k : ℤ) = _
    ring
  have hbits : Width.double.infinityBits = 2047 * 2 ^ 52 := rfl
  rw [hround, isFinite_ofMagnitude_min, hbits, overflow_eq, ← div_lt_iff₀ (by positivity)]
  rw [hunit, ← div_div] at hnearest hlow hhigh
  generalize (num / den * 2 ^ e : ℚ) / 2 ^ (970 : ℤ) = t at *
  simp only [Width.fractionBits] at *
  rcases Nat.lt_trichotomy k 2045 with hlt | rfl | hgt
  · -- far below the end, whatever the significand
    have hpow : (2 : ℚ) ^ ((k : ℤ) - 2044) ≤ 1 := zpow_le_one_of_nonpos₀ one_le_two (by omega)
    have ht : t < 2 ^ 53 * 1 := by
      rw [div_lt_iff₀ (by positivity)] at hhigh
      exact hhigh.trans_le (by gcongr)
    have hn : n ≤ 2 ^ 53 := hnearest.ge_of_ge (by exact_mod_cast hhigh.le)
    exact iff_of_true (by omega) (by linarith)
  · -- the end is where the significand is rounded up to the next power of two
    have hpow : (2 : ℚ) ^ (((2045 : ℕ) : ℤ) - 2044) = 2 := by norm_num
    rw [hpow] at hnearest
    constructor
    · intro hn
      rcases Nat.mod_two_eq_zero_or_one n with heven | hodd
      · have hn' : (n : ℚ) + 2 ≤ 2 ^ 53 := by exact_mod_cast (show n + 2 ≤ 2 ^ 53 by omega)
        linarith only [hn', hnearest.high]
      · have hn' : (n : ℚ) + 1 ≤ 2 ^ 53 := by exact_mod_cast (show n + 1 ≤ 2 ^ 53 by omega)
        linarith only [hn', (hnearest.odd hodd).2]
    · intro ht
      have hn : (n : ℚ) < (2 ^ 53 : Nat) := by
        push_cast
        linarith only [ht, hnearest.low]
      have : n < 2 ^ 53 := by exact_mod_cast hn
      omega
  · -- far above the end, whatever the significand
    have hpow : (4 : ℚ) ≤ 2 ^ ((k : ℤ) - 2044) := by
      calc (4 : ℚ) = 2 ^ (2 : ℤ) := by norm_num
        _ ≤ 2 ^ ((k : ℤ) - 2044) := zpow_le_zpow_right₀ one_le_two (by omega)
    have hlow' := hlow.resolve_left (by omega)
    have hn : 2 ^ 52 ≤ n := hnearest.le_of_le (by exact_mod_cast hlow')
    have ht : 2 ^ 52 * 4 ≤ t := by
      rw [le_div_iff₀ (by positivity)] at hlow'
      exact le_trans (by gcongr) hlow'
    exact iff_of_false (by omega) (by linarith)

end Double

end AgentGraph.Numeric
