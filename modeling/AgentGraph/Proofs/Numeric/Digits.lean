import AgentGraph.Proofs.Numeric.Neighbours
import AgentGraph.Proofs.Numeric.Within
import Mathlib.Algebra.Order.Floor.Semifield
import Mathlib.Data.Rat.Floor

/-!
# What the shortest decimal says

The shortest decimal of a 32-bit number lies in its interval, and is there even when it is computed
with an error of two roundings (`Shortest.has_of_near`): a decimal near an end of the interval has
so few digits that it must be that end.
-/

namespace AgentGraph.Numeric

namespace Shortest

variable {i : Interval} {k : Int} {d : Nat}

theorem Interval.has_of_lt {v : ℚ} (hlow : (i.low / i.den : ℚ) < v)
    (hhigh : v < (i.high / i.den : ℚ)) : i.Has v := by
  unfold Interval.Has
  split
  · exact ⟨hlow.le, hhigh.le⟩
  · exact ⟨hlow, hhigh⟩

theorem Interval.high_le_of_not_has {v : ℚ} (h : ¬ i.Has v) (hlow : (i.low / i.den : ℚ) < v) :
    (i.high / i.den : ℚ) ≤ v :=
  not_lt.mp fun hlt => h (Interval.has_of_lt hlow hlt)

theorem Interval.le_low_of_not_has {v : ℚ} (h : ¬ i.Has v) (hhigh : v < (i.high / i.den : ℚ)) :
    v ≤ (i.low / i.den : ℚ) :=
  not_lt.mp fun hlt => h (Interval.has_of_lt hlt hhigh)

/-- `v` is as near to the number as a point of a grid is, or the only neighbour on the grid that
lies in the interval. -/
def Interval.Best (i : Interval) (grid v : ℚ) : Prop :=
  |v - i.value / i.den| ≤ grid / 2 ∨
    (v ≤ i.value / i.den ∧ (i.high / i.den : ℚ) ≤ v + grid) ∨
    ((i.value / i.den : ℚ) < v ∧ v - grid ≤ i.low / i.den)

theorem best_of_nearest? (hden : 0 < i.den) (hlow : i.low < i.value) (hhigh : i.value < i.high)
    (h : i.nearest? k = some d) : i.Best (10 ^ k) (d * 10 ^ k) := by
  have hgrid : (0 : ℚ) < 10 ^ k := by positivity
  have hden' : (0 : ℚ) < i.den := by exact_mod_cast hden
  have hlow' : (i.low / i.den : ℚ) < i.value / i.den := by
    gcongr
  have hhigh' : (i.value / i.den : ℚ) < i.high / i.den := by
    gcongr
  -- on the grid of `10 ^ k` the value is the fraction that the search looks at
  have hvalue : (i.value / i.den : ℚ) =
      (inUnits i.value i.den k).1 / (inUnits i.value i.den k).2 * 10 ^ k := by
    rw [inUnits_ratio, zpow_neg]
    field_simp
  have hunits := inUnits_den_pos hden i.value k
  unfold Interval.nearest? at h
  dsimp only at h
  generalize (inUnits i.value i.den k).1 = num at *
  generalize (inUnits i.value i.den k).2 = den at *
  -- it lies between the two neighbours that are tried
  have hfloor : ((num / den : Nat) : ℚ) ≤ num / den := by
    rw [← Nat.floor_div_eq_div (K := ℚ)]
    exact Nat.floor_le (by positivity)
  have hceil : (num / den : ℚ) < (num / den : Nat) + 1 := by
    rw [← Nat.floor_div_eq_div (K := ℚ)]
    exact Nat.lt_floor_add_one _
  unfold Interval.Best
  rw [hvalue] at hlow' hhigh' ⊢
  split at h
  · -- both neighbours lie in the interval
    rw [← apply_ite some, ← apply_ite some] at h
    obtain rfl : roundHalfEven num den = d := Option.some.inj h
    have hhalf := (isNearest_roundHalfEven num hunits).abs_sub_le
    refine .inl ?_
    calc |(roundHalfEven num den * 10 ^ k - num / den * 10 ^ k : ℚ)|
        = |(roundHalfEven num den - num / den : ℚ)| *
          10 ^ k := by rw [← sub_mul, abs_mul, abs_of_pos hgrid]
      _ ≤ 1 / 2 * 10 ^ k := by gcongr
      _ = 10 ^ k / 2 := by ring
  -- only the lower neighbour lies in it, so its upper end is before the other one
  · next _ habove =>
    cases h
    rw [← Bool.not_eq_true, contains_iff hden] at habove
    push_cast at habove
    have hpoint : ((num / den : Nat) + 1 : ℚ) * 10 ^ k = (num / den : Nat) * 10 ^ k + 10 ^ k := by
      ring
    refine .inr (.inl ⟨by gcongr, ?_⟩)
    rw [← hpoint]
    exact Interval.high_le_of_not_has habove (hlow'.trans (by gcongr))
  -- only the upper neighbour does, so the lower end is behind the other one
  · next hbelow _ =>
    cases h
    rw [← Bool.not_eq_true, contains_iff hden] at hbelow
    have hpoint : ((num / den + 1 : Nat) : ℚ) * 10 ^ k - 10 ^ k = (num / den : Nat) * 10 ^ k := by
      push_cast
      ring
    refine .inr (.inr ⟨?_, ?_⟩)
    · push_cast
      gcongr
    · rw [hpoint]
      exact Interval.le_low_of_not_has hbelow (lt_of_le_of_lt (by gcongr) hhigh')
  · cases h

/-- The greatest relative error of two roundings. -/
def slack (v : ℚ) : ℚ := 3 / 2 ^ 53 * v

section

variable {m : Nat} {q : Int} {grid v : ℚ}

/-- On a fine grid there is a better point than one near an end of the interval. -/
theorem grid_ge_of_near_end (hm : 0 < m) (hm24 : m < 2 ^ 24)
    (hbest : (intervalOf .single m q).Best grid v) (hv : (intervalOf .single m q).Has v)
    (hnear : |((intervalOf .single m q).low / (intervalOf .single m q).den : ℚ) - v| ≤ slack v ∨
      |((intervalOf .single m q).high / (intervalOf .single m q).den : ℚ) - v| ≤ slack v) :
    v < 17000000 * grid := by
  obtain ⟨hlow, hhigh⟩ := ends_ratio .single hm q
  have hvalue := value_ratio m q
  obtain ⟨hlowEnd, hhighEnd⟩ := hv.le
  have hunit : (0 : ℚ) < 2 ^ (q - 2) := by positivity
  -- everything is counted in quarters of the unit of the number
  have hquarters : (2 : ℚ) ^ q = 4 * 2 ^ (q - 2) := by
    rw [zpow_sub₀ two_ne_zero]
    norm_num
    ring
  have hm24' : (m : ℚ) * 2 ^ (q - 2) ≤ (2 ^ 24 - 1) * 2 ^ (q - 2) := by
    gcongr
    rw [le_sub_iff_add_le]
    exact_mod_cast hm24
  have hgap : lowGap .single m q = 2 ∨ lowGap .single m q = 1 ∧ m = 2 ^ 23 :=
    lowGap_cases .single m q
  unfold Interval.Best at hbest
  unfold slack at hnear
  rw [hlow] at hlowEnd hnear hbest
  rw [hhigh] at hhighEnd hnear hbest
  rw [hvalue, hquarters] at hbest
  generalize (2 : ℚ) ^ (q - 2) = unit at *
  simp only [abs_le] at hnear hbest
  -- which end is near and which neighbour was chosen: in each case the grid is not much finer than
  -- the interval
  rcases hgap with hgap | ⟨hgap, rfl⟩
  · rw [hgap] at hlowEnd hnear hbest
    push_cast at *
    norm_num only at *
    rcases hnear with hnear | hnear <;> rcases hbest with hbest | hbest | hbest <;> linarith
  · rw [hgap] at hlowEnd hnear hbest
    push_cast at *
    norm_num only at *
    rcases hnear with hnear | hnear <;> rcases hbest with hbest | hbest | hbest <;> linarith

/-- The ends of the interval have 25 binary digits. -/
theorem exists_ends (hm : 0 < m) (hm24 : m < 2 ^ 24) :
    (∃ (n : Nat) (r : Int), n < 2 ^ 25 ∧
      ((intervalOf .single m q).low / (intervalOf .single m q).den : ℚ) = n * 2 ^ r) ∧
    ∃ (n : Nat) (r : Int), n < 2 ^ 25 ∧
      ((intervalOf .single m q).high / (intervalOf .single m q).den : ℚ) = n * 2 ^ r := by
  obtain ⟨hlow, hhigh⟩ := ends_ratio .single hm q
  have hhalf : (2 : ℚ) ^ (q - 1) = 2 * 2 ^ (q - 2) := by
    rw [show q - 1 = q - 2 + 1 by ring, zpow_add_one₀ two_ne_zero, mul_comm]
  rw [hlow, hhigh]
  refine ⟨?_, 2 * m + 1, q - 1, by omega, ?_⟩
  -- the lower end is half a unit down, or a quarter below a power of two
  · rcases lowGap_cases .single m q with hgap | ⟨hgap, hpower⟩
    · obtain ⟨m, rfl⟩ := Nat.exists_eq_succ_of_ne_zero hm.ne'
      refine ⟨2 * m + 1, q - 1, by omega, ?_⟩
      rw [hhalf, hgap]
      push_cast
      ring
    · obtain rfl : m = 2 ^ 23 := hpower
      refine ⟨2 ^ 25 - 1, q - 2, by decide, ?_⟩
      rw [hgap]
      norm_num
  · rw [hhalf]
    push_cast
    ring

/-- **The shortest decimal is read back.** Whatever it is computed as, with at most two roundings,
lies in the interval, but for two decimals that are left to be computed. -/
theorem has_of_near (hm : 0 < m) (hm24 : m < 2 ^ 24) (hleast : -54 ≤ k) (hgreatest : k ≤ 39)
    (hd : 0 < d) (hfound : (intervalOf .single m q).nearest? k = some d) {u : ℚ}
    (hclose : |u - d * 10 ^ k| ≤ slack (d * 10 ^ k))
    (hexact : k.natAbs ≤ 11 → ∀ (n : Nat) (r : Int), n < 2 ^ 53 → (d * 10 ^ k : ℚ) = n * 2 ^ r →
      u = d * 10 ^ k) :
    (intervalOf .single m q).Has u ∨ k = -32 ∧ (d = 7038531 ∨ d = 14077062) := by
  have hden := den_pos m q
  obtain ⟨unit, hunit, -, -, hlow, hhigh⟩ := ends_spec (q := q) hm
  have hhas := (contains_iff hden d k).mp (nearest?_eq_some hfound).1
  have hbest := best_of_nearest? hden (by omega) hhigh hfound
  obtain ⟨⟨n, r, hn, hlowEnd⟩, n', r', hn', hhighEnd⟩ := exists_ends (q := q) hm hm24
  obtain ⟨hle, hge⟩ := hhas.le
  have hgrid : (0 : ℚ) < 10 ^ k := by positivity
  by_cases hnear : |((intervalOf .single m q).low / (intervalOf .single m q).den : ℚ) -
      d * 10 ^ k| ≤ slack (d * 10 ^ k) ∨
    |((intervalOf .single m q).high / (intervalOf .single m q).den : ℚ) - d * 10 ^ k| ≤
    slack (d * 10 ^ k)
  · -- the decimal is an end of the interval
    have hlt := grid_ge_of_near_end hm hm24 hbest hhas hnear
    have hd' : d < 17000000 := by
      have := lt_of_mul_lt_mul_right hlt hgrid.le
      exact_mod_cast this
    -- a decimal so near to `n * 2 ^ r` is equal to it, and so it is computed exactly, but for two
    -- of them
    have key : ∀ {n : Nat} {r : Int}, n < 2 ^ 25 →
        |(n * 2 ^ r - d * 10 ^ k : ℚ)| ≤ slack (d * 10 ^ k) → (intervalOf .single m q).Has u ∨
        k = -32 ∧ (d = 7038531 ∨ d = 14077062) := by
      intro n r hn hnear
      refine (eq_of_near_power hleast hgreatest hn hd' hd hnear).imp_left ?_
      rintro ⟨hk, heq⟩
      rw [hexact hk n r (by omega) heq.symm]
      exact hhas
    rcases hnear with hnear | hnear
    · exact key hn (hlowEnd ▸ hnear)
    · exact key hn' (hhighEnd ▸ hnear)
  · -- both ends are far away
    left
    rw [not_or, not_le, not_le] at hnear
    obtain ⟨hlowFar, hhighFar⟩ := hnear
    rw [abs_of_nonpos (by linarith)] at hlowFar
    rw [abs_of_nonneg (by linarith)] at hhighFar
    obtain ⟨hdown, hup⟩ := abs_le.mp hclose
    exact Interval.has_of_lt (by linarith) (by linarith)

end

end Shortest

/-! ### The number that is read -/

namespace Decimal

/-- The digits as a whole number. -/
def significand (d : Decimal) : Nat := Nat.ofDigitChars 10 d.digits 0

/-- The power of ten that the significand is multiplied with. -/
def power (d : Decimal) : Int := d.exponent - (d.digits.length - 1 : Nat)

end Decimal

namespace Shortest

open Double

variable {m : Nat} {q : Int}

/-- What is found is the significand, with the zeros that are not written. -/
theorem exists_nearest?_digits (hm : 0 < m) (hm24 : m < 2 ^ 24) (hlow : -149 ≤ q)
    (hhigh : q ≤ 104) :
    ∃ (k : Int) (zeros : Nat), -54 ≤ k ∧ k ≤ 39 ∧ zeros ≤ 9 ∧
    (digits .single m q).power = k + zeros ∧
      0 < (digits .single m q).significand ∧
      (intervalOf .single m q).nearest? k =
        some ((digits .single m q).significand * 10 ^ zeros) := by
  obtain ⟨d, k, hk, hfound, hpos, hlt, hdigits⟩ := exists_digits_eq (q := q) hm hm24
  obtain ⟨htopLow, htopHigh⟩ := order_single hm hm24 hlow hhigh
  have hlength := (length_decimalDigits_le_iff (by decide)).mpr hlt
  have hne := List.length_pos_iff.mpr (rdropWhile_decimalDigits_ne_nil hpos)
  -- the zeros at the end of the decimal are split off
  have hsplit : (decimalDigits d).rdropWhile (· = '0') ++ (decimalDigits d).rtakeWhile (· = '0') =
      decimalDigits d :=
    List.rdropWhile_append_rtakeWhile
  have hzeros : (decimalDigits d).rtakeWhile (· = '0') =
      List.replicate ((decimalDigits d).rtakeWhile (· = '0')).length '0' :=
    List.eq_replicate_iff.mpr ⟨rfl, fun c hc => by simpa using List.mem_rtakeWhile_imp hc⟩
  have hlengths := congrArg List.length hsplit
  rw [List.length_append] at hlengths
  -- with the zeros back the significand is the number that was found
  have hvalue : (digits .single m q).significand *
      10 ^ ((decimalDigits d).rtakeWhile (· = '0')).length = d := by
    have hdigits' : Nat.ofDigitChars 10 (decimalDigits d) 0 = d := Nat.ofDigitChars_ten_toDigits
    rw [← hsplit, hzeros, Nat.ofDigitChars_append, Nat.ofDigitChars_replicate_zero] at hdigits'
    rw [Decimal.significand, hdigits, Nat.mul_comm]
    simpa only [List.length_replicate] using hdigits'
  refine ⟨_, _, by omega, by omega, ?_, ?_, ?_, hvalue ▸ hfound⟩
  · omega
  · rw [Decimal.power, hdigits]
    dsimp only
    omega
  · exact Nat.pos_of_ne_zero fun hzero => by simp [hzero] at hvalue; omega

theorem zeros_mul_power (n t : Nat) (k : Int) :
    ((n * 10 ^ t : Nat) * 10 ^ k : ℚ) = n * 10 ^ (k + t) := by
  push_cast
  rw [zpow_add₀ (by norm_num), zpow_natCast]
  ring

/-- The two decimals that are very near an end of an interval. -/
theorem convert_exception (negative : Bool) {d : Nat} (hd : d = 7038531 ∨ d = 14077062) :
    (signed negative (timesPowerOfTen d (-32))).convert =
      (Binary.round negative d (10 ^ 32) 0 : Single) := by
  rcases hd with rfl | rfl <;> cases negative <;> decide +kernel

/-- **The digits of a number are read back as the number**, also with zeros written after them. -/
theorem convert_signed_timesPowerOfTen {x : Single} {negative : Bool}
    (hx : x.parts = .finite negative m q) (hm : 0 < m) {pad : Nat}
    (hpad : pad = 0 ∨ (digits .single m q).power - pad = -1)
    (hfit : (digits .single m q).significand * 10 ^ pad < 2 ^ 53) :
    (signed negative (timesPowerOfTen ((digits .single m q).significand * 10 ^ pad)
      ((digits .single m q).power - pad))).convert = x := by
  obtain ⟨hm24, hlow, hhigh⟩ := Single.parts_bounds hx
  obtain ⟨k, zeros, hleast, hgreatest, hzeros, hpower, hpos, hfound⟩ :=
    exists_nearest?_digits hm hm24 hlow hhigh
  generalize (digits .single m q).significand = n at *
  generalize (digits .single m q).power = e at *
  have hten : ∀ t, 0 < n * 10 ^ t := fun t => Nat.mul_pos hpos (Nat.pow_pos (by decide))
  -- however the digits are padded, they stand for the decimal that was found
  have hvalue : ((n * 10 ^ pad : Nat) * 10 ^ (e - pad) : ℚ) = (n * 10 ^ zeros : Nat) * 10 ^ k := by
    rw [zeros_mul_power, zeros_mul_power, hpower, sub_add_cancel]
  obtain ⟨u, hu, hclose, hexact⟩ :=
    exists_stands_timesPowerOfTen (hten pad) hfit (e := e - pad) (by omega)
  rw [hvalue] at hclose hexact
  have hsmall : k.natAbs ≤ 11 → (e - pad).natAbs ≤ 22 := by omega
  rcases has_of_near hm hm24 hleast hgreatest (hten zeros) hfound hclose
    (fun hk => hexact (hsmall hk)) with
    hhas | ⟨rfl, hexception⟩
  -- what was computed lies in the interval, so rounding it gives the number back
  · obtain ⟨m', q', hparts, rfl⟩ := stands_signed hu negative
    have hpositive : 0 < m' := by
      refine significand_pos (lt_of_lt_of_le ?_ hhas.le.1)
      obtain ⟨_, -, -, hlowPos, -, -⟩ := ends_spec (q := q) hm
      have := den_pos m q
      positivity
    rw [Binary.convert, hparts]
    exact Binary.round_of_has hx hm hpositive Nat.one_pos (by simpa using hhas)
  -- Two decimals remain. Neither ends in a zero, and they are computed.
  · obtain rfl : zeros = 0 := by
      by_contra hne
      obtain ⟨t, rfl⟩ := Nat.exists_eq_succ_of_ne_zero hne
      rw [pow_succ, ← mul_assoc] at hexception
      omega
    obtain rfl : pad = 0 := by omega
    rw [pow_zero, mul_one] at *
    subst hpower
    rw [Nat.cast_zero, sub_zero, add_zero, convert_exception negative hexception]
    refine Binary.round_of_has hx hm hpos (by decide) ?_
    have hhas := (contains_iff (den_pos m q) n (-32)).mp (nearest?_eq_some hfound).1
    rw [zpow_zero, mul_one]
    rw [zpow_neg, ← div_eq_mul_inv] at hhas
    exact_mod_cast hhas

end Shortest

end AgentGraph.Numeric
