import AgentGraph.Proofs.Numeric.Rounding

/-!
# The nearest number

What a pattern of bits stands for is a rational number (`Binary.Stands`), and every pattern of a
finite number is made of its significand and exponent (`Binary.exists_encodes_of_parts`), which are
found in it again (`Binary.parts_ofMagnitude`). Rounding finds the nearest of these numbers
(`Binary.exists_stands_round`), and so do the product and the quotient of 64-bit numbers
(`Double.exists_stands_scaleUp`, `Double.exists_stands_scaleDown`). A whole number times a power of
ten takes two of these steps, and what comes of it is near enough
(`Double.exists_stands_timesPowerOfTen`).
-/

namespace AgentGraph.Numeric

variable {w : Width}

/-! ### Rounding to a whole number -/

/-- `n` is the whole number nearest to `v`; the even one of two. -/
structure IsNearest (v : ℚ) (n : Nat) : Prop where
  low : n - 1 / 2 ≤ v
  high : v ≤ n + 1 / 2
  odd : n % 2 = 1 → n - 1 / 2 < v ∧ v < n + 1 / 2

/-- A greater number has no smaller whole number next to it. -/
theorem IsNearest.mono {v u : ℚ} {n m : Nat} (hn : IsNearest v n) (hm : IsNearest u m)
    (hvu : v ≤ u) : n ≤ m := by
  by_contra hlt
  have hlow := hn.low
  have hhigh := hm.high
  have hle : (n : ℚ) ≤ (m + 1 : Nat) := by
    push_cast
    linarith
  obtain rfl : n = m + 1 := le_antisymm (by exact_mod_cast hle) (not_le.mp hlt)
  push_cast at hlow
  -- one of the two is odd
  rcases Nat.mod_two_eq_zero_or_one m with heven | hodd
  · have := (hn.odd (by omega)).1
    push_cast at this
    linarith
  · have := (hm.odd hodd).2
    linarith

theorem IsNearest.unique {v : ℚ} {n m : Nat} (hn : IsNearest v n) (hm : IsNearest v m) : n = m :=
  Nat.le_antisymm (hn.mono hm le_rfl) (hm.mono hn le_rfl)

theorem IsNearest.abs_sub_le {v : ℚ} {n : Nat} (hn : IsNearest v n) : |n - v| ≤ 1 / 2 := by
  rw [abs_le]
  constructor <;> linarith [hn.low, hn.high]

theorem isNearest_self (n : Nat) : IsNearest n n :=
  ⟨by linarith, by linarith, fun _ => ⟨by linarith, by linarith⟩⟩

theorem IsNearest.le_of_le {v : ℚ} {n m : Nat} (hn : IsNearest v n) (hm : m ≤ v) : m ≤ n :=
  (isNearest_self m).mono hn hm

theorem IsNearest.ge_of_ge {v : ℚ} {n m : Nat} (hn : IsNearest v n) (hm : v ≤ m) : n ≤ m :=
  hn.mono (isNearest_self m) hm

theorem isNearest_roundHalfEven (num : Nat) {den : Nat} (hden : 0 < den) :
    IsNearest (num / den) (roundHalfEven num den) := by
  have hden' : (0 : ℚ) < den := by exact_mod_cast hden
  -- only the part behind the point decides
  set rest : ℚ := (num % den : Nat) / den with hrest
  have hsplit : (num / den : ℚ) = (num / den : Nat) + rest := by
    rw [hrest, div_eq_iff hden'.ne', add_mul, div_mul_cancel₀ _ hden'.ne']
    exact_mod_cast (Nat.div_add_mod' num den).symm
  have hpos : 0 ≤ rest := by positivity
  have hone : rest < 1 := by
    rw [div_lt_one hden']
    exact_mod_cast Nat.mod_lt num hden
  have hless : 2 * (num % den) < den ↔ rest < 1 / 2 := by
    rw [hrest, div_lt_iff₀ hden', ← Nat.cast_lt (α := ℚ)]
    push_cast
    constructor <;> intro h <;> linarith
  have hmore : den < 2 * (num % den) ↔ 1 / 2 < rest := by
    rw [hrest, lt_div_iff₀ hden', ← Nat.cast_lt (α := ℚ)]
    push_cast
    constructor <;> intro h <;> linarith
  rw [hsplit]
  simp only [roundHalfEven, hless, hmore]
  generalize num / den = floor
  split
  · next h => exact ⟨by linarith, by linarith, fun _ => ⟨by linarith, by linarith⟩⟩
  split
  · next h =>
    exact ⟨by push_cast; linarith, by push_cast; linarith,
      fun _ => ⟨by push_cast; linarith, by push_cast; linarith⟩⟩
  -- exactly half way, the even neighbour is taken
  · next hge hle =>
    obtain hhalf : rest = 1 / 2 := le_antisymm (not_lt.mp hle) (not_lt.mp hge)
    rcases Nat.mod_two_eq_zero_or_one floor with heven | hodd
    · rw [heven, hhalf]
      exact ⟨by push_cast; linarith, by push_cast; linarith, fun h => by omega⟩
    · rw [hodd, hhalf]
      exact ⟨by push_cast; linarith, by push_cast; linarith, fun h => by omega⟩

/-! ### Units -/

theorem two_zpow_add (n : Nat) (q : Int) : (2 : ℚ) ^ (n + q) = 2 ^ n * 2 ^ q := by
  rw [zpow_add₀ two_ne_zero, zpow_natCast]

theorem two_pow_le_div_iff {v : ℚ} {n : Nat} {q : Int} :
    2 ^ n ≤ v / 2 ^ q ↔ (2 : ℚ) ^ (n + q) ≤ v := by
  rw [le_div_iff₀ (by positivity), two_zpow_add]

theorem div_lt_two_pow_iff {v : ℚ} {n : Nat} {q : Int} :
    v / 2 ^ q < 2 ^ n ↔ v < (2 : ℚ) ^ (n + q) := by
  rw [div_lt_iff₀ (by positivity), two_zpow_add]

/-- In units of any power of two a fraction is rounded as what `scale` makes of it. -/
theorem isNearest_scale (num : Nat) {den : Nat} (hden : 0 < den) (e q : Int) :
    IsNearest (num / den * 2 ^ e / 2 ^ q)
      (roundHalfEven (scale num den (e - q)).1 (scale num den (e - q)).2) := by
  have hnearest :=
    isNearest_roundHalfEven (scale num den (e - q)).1 (scale_den_pos hden num (e - q))
  rwa [scale_ratio, zpow_sub₀ two_ne_zero, ← mul_div_assoc] at hnearest

/-! ### Patterns of finite numbers -/

namespace Binary

theorem fields_ofMagnitude (negative : Bool) {n : Nat} (hn : n < 2 ^ (w.size - 1)) :
    (ofMagnitude negative n : Binary w).isNegative = negative ∧
    (ofMagnitude negative n : Binary w).magnitude = n := by
  cases w <;> cases negative <;>
    simp only [isNegative, magnitude, ofMagnitude, Width.size, BitVec.msb_eq_decide,
      BitVec.toNat_ofNat, Nat.pow_eq, Bool.false_eq_true, ↓reduceIte, decide_eq_false_iff_not,
      decide_eq_true_eq] at hn ⊢ <;>
    omega

theorem ofMagnitude_fields (x : Binary w) : ofMagnitude x.isNegative x.magnitude = x := by
  obtain ⟨bits⟩ := x
  refine congrArg Binary.mk (BitVec.eq_of_toNat_eq ?_)
  have hlt := bits.isLt
  simp only [BitVec.toNat_ofNat, isNegative, magnitude, BitVec.msb_eq_decide,
    decide_eq_true_eq, Nat.pow_eq]
  by_cases hsign : 2 ^ (w.size - 1) ≤ bits.toNat
  · rw [if_pos hsign]
    cases w <;> simp only [Width.size] at hlt hsign ⊢ <;> omega
  · rw [if_neg hsign]
    cases w <;> simp only [Width.size] at hlt hsign ⊢ <;> omega

theorem magnitude_lt (x : Binary w) :
    x.magnitude < 2 ^ (w.size - 1) := Nat.mod_lt _ (Nat.pow_pos Nat.two_pos)

/-- The significand and the exponent of a finite number, `k` steps above the least one. Only the
numbers with the least exponent have a small significand. -/
structure Encodes (w : Width) (m k : Nat) : Prop where
  lt : m < 2 ^ (w.fractionBits + 1)
  normal : k = 0 ∨ 2 ^ w.fractionBits ≤ m
  finite : k * 2 ^ w.fractionBits + m < w.infinityBits

theorem pow_fractionBits_le : 2 ^ w.fractionBits ≤ w.infinityBits := by cases w <;> decide

/-- Every significand that fits an exponent is found again in the pattern that is made of them. -/
theorem parts_ofMagnitude (negative : Bool) {m k : Nat} (h : Encodes w m k) :
    (ofMagnitude negative (k * 2 ^ w.fractionBits + m) : Binary w).parts =
      .finite negative m (w.quantum + k) := by
  obtain ⟨hlt, hnormal, hfinite⟩ := h
  obtain ⟨hsign, hmagnitude⟩ :=
    fields_ofMagnitude (w := w) negative (n := k * 2 ^ w.fractionBits + m)
      (hfinite.trans (by cases w <;> decide))
  simp only [parts, hsign, hmagnitude, Nat.pow_eq]
  -- without the leading digit the exponent field is zero; with it, one more than `k`
  by_cases hleast : m < 2 ^ w.fractionBits
  · obtain rfl : k = 0 := by omega
    rw [Nat.zero_mul, Nat.zero_add, Nat.div_eq_of_lt hleast, Nat.mod_eq_of_lt hleast,
      if_neg (by cases w <;> decide), if_pos rfl, Nat.cast_zero, add_zero]
  · obtain ⟨f, rfl⟩ := Nat.exists_eq_add_of_le (not_lt.mp hleast)
    have hf : f < 2 ^ w.fractionBits := by
      rw [pow_succ] at hlt
      omega
    have hfields : k * 2 ^ w.fractionBits + (2 ^ w.fractionBits + f) =
        2 ^ w.fractionBits * (k + 1) + f := by
      ring
    rw [hfields] at hfinite ⊢
    rw [Nat.mul_add_div (Nat.pow_pos Nat.two_pos), Nat.mul_add_mod, Nat.div_eq_of_lt hf,
      Nat.mod_eq_of_lt hf, Nat.add_zero, if_neg, if_neg (Nat.succ_ne_zero k), Nat.add_sub_cancel]
    rintro hk
    rw [hk, Width.infinityBits, Nat.pow_eq, Nat.pow_eq, Nat.mul_comm] at hfinite
    omega

/-- The pattern of a finite number is made of its significand and exponent. -/
theorem exists_encodes_of_parts {x : Binary w} {negative : Bool} {m : Nat} {q : Int}
    (h : x.parts = .finite negative m q) :
    ∃ k : Nat, q = w.quantum + k ∧ Encodes w m k ∧
    x = ofMagnitude negative (k * 2 ^ w.fractionBits + m) := by
  have hx := ofMagnitude_fields x
  have hlt := magnitude_lt x
  have hfraction : x.magnitude % 2 ^ w.fractionBits < 2 ^ w.fractionBits :=
    Nat.mod_lt _ (Nat.pow_pos Nat.two_pos)
  have hsplit := Nat.div_add_mod' x.magnitude (2 ^ w.fractionBits)
  unfold parts at h
  simp only [Nat.pow_eq] at h
  split at h
  · split at h <;> cases h
  next hgreatest =>
  split at h
  -- the exponent field is zero, and the unit is the least one
  · next hleast =>
    cases h
    rw [hleast, Nat.zero_mul, Nat.zero_add] at hsplit
    refine ⟨0, (Int.add_zero _).symm, ⟨?_, .inl rfl, ?_⟩, ?_⟩
    · rw [pow_succ]
      omega
    · rw [Nat.zero_mul, Nat.zero_add]
      exact hfraction.trans_le pow_fractionBits_le
    · rw [Nat.zero_mul, Nat.zero_add, hsplit, hx]
  · next hleast =>
    cases h
    -- the leading digit is not stored, so it is put back
    obtain ⟨k, hk⟩ := Nat.exists_eq_succ_of_ne_zero hleast
    refine ⟨k, by rw [hk]; rfl, ⟨?_, .inr (Nat.le_add_right _ _), ?_⟩, ?_⟩
    · rw [pow_succ]
      omega
    · cases w <;>
        simp only [Width.size, Width.fractionBits, Width.exponentBits, Width.infinityBits,
          Nat.pow_eq] at * <;>
        omega
    · have hmagnitude :
          k * 2 ^ w.fractionBits + (2 ^ w.fractionBits + x.magnitude % 2 ^ w.fractionBits) =
            x.magnitude := by
        rw [← Nat.add_assoc, ← Nat.succ_mul, ← hk, hsplit]
      rw [hmagnitude, hx]

/-- The finite number stands for `v`, or for the negative of `v`. -/
def Stands (x : Binary w) (negative : Bool) (v : ℚ) : Prop :=
  ∃ m q, x.parts = .finite negative m q ∧ (m : ℚ) * 2 ^ q = v

/-- A significand may also be the power of two that comes with the next exponent. -/
theorem stands_ofMagnitude (negative : Bool) {n k : Nat} (hle : n ≤ 2 ^ (w.fractionBits + 1))
    (hnormal : k = 0 ∨ 2 ^ w.fractionBits ≤ n)
    (hfinite : k * 2 ^ w.fractionBits + n < w.infinityBits) :
    (ofMagnitude negative (k * 2 ^ w.fractionBits + n) : Binary w).Stands negative
    (n * 2 ^ (w.quantum + k)) := by
  rcases hle.lt_or_eq with hlt | rfl
  · exact ⟨n, _, parts_ofMagnitude negative ⟨hlt, hnormal, hfinite⟩, rfl⟩
  -- a significand of one digit more is the least one of the next exponent
  · have hcarry : k * 2 ^ w.fractionBits + 2 ^ (w.fractionBits + 1) =
        (k + 1) * 2 ^ w.fractionBits + 2 ^ w.fractionBits := by ring
    have hlt : 2 ^ w.fractionBits < 2 ^ (w.fractionBits + 1) :=
      Nat.pow_lt_pow_right (by decide) (Nat.lt_succ_self _)
    rw [hcarry] at hfinite ⊢
    refine ⟨_, _, parts_ofMagnitude negative ⟨hlt, .inr le_rfl, hfinite⟩, ?_⟩
    push_cast
    rw [← add_assoc, zpow_add_one₀ two_ne_zero]
    ring

/-! ### Rounding -/

section

variable {num den : Nat} {e : Int}

theorem floorLog2_add_spec (hnum : 0 < num) (hden : 0 < den) :
    (2 : ℚ) ^ (floorLog2 num den + e) ≤ num / den * 2 ^ e ∧
      (num / den * 2 ^ e : ℚ) < 2 ^ (floorLog2 num den + e + 1) := by
  obtain ⟨hlow, hhigh⟩ := floorLog2_spec hnum hden
  constructor
  · rw [zpow_add₀ two_ne_zero]
    gcongr
  · rw [add_right_comm, zpow_add₀ two_ne_zero]
    gcongr

/-- The fraction is rounded in units of the least power of two for which the significand is not too
great. -/
theorem round_eq (negative : Bool) (hnum : 0 < num) (hden : 0 < den) {k n : Nat}
    (hlow : k = 0 ∨ (2 : ℚ) ^ (w.fractionBits + (w.quantum + k)) ≤ num / den * 2 ^ e)
    (hhigh : (num / den * 2 ^ e : ℚ) < 2 ^ (w.fractionBits + (w.quantum + k) + 1))
    (hn : IsNearest (num / den * 2 ^ e / 2 ^ (w.quantum + k)) n) :
    (round negative num den e : Binary w) =
      ofMagnitude negative (min (k * 2 ^ w.fractionBits + n) w.infinityBits) := by
  obtain ⟨htopLow, htopHigh⟩ := floorLog2_add_spec hnum hden (e := e)
  have hle : floorLog2 num den + e < w.fractionBits + (w.quantum + k) + 1 :=
    (zpow_lt_zpow_iff_right₀ one_lt_two).mp (htopLow.trans_lt hhigh)
  have hge : k = 0 ∨ w.fractionBits + (w.quantum + k) < floorLog2 num den + e + 1 :=
    hlow.imp_right fun hlow => (zpow_lt_zpow_iff_right₀ one_lt_two).mp (hlow.trans_lt htopHigh)
  -- so the unit that is chosen is the one given
  have hq : max w.quantum (floorLog2 num den + e - w.fractionBits) = w.quantum + k := by omega
  have hnearest := isNearest_scale num hden e (w.quantum + k)
  simp only [round, if_neg hnum.ne', hq, hnearest.unique hn, add_sub_cancel_left,
    Int.toNat_natCast, Nat.pow_eq]

/-- `u` is as near to `v` as a number of width `w` is, in the range where these have all their
digits. -/
structure Near (w : Width) (v u : ℚ) : Prop where
  close : |u - v| ≤ v / 2 ^ (w.fractionBits + 1)
  exact : ∀ (n : Nat) (r : Int), n < 2 ^ (w.fractionBits + 1) → v = n * 2 ^ r → u = v

/-- What is rounded to a multiple of a unit is near to that, if it has enough units for all
digits. -/
theorem near_of_isNearest {v : ℚ} {q : Int} {n : Nat} (hlow : (2 : ℚ) ^ (w.fractionBits + q) ≤ v)
    (hn : IsNearest (v / 2 ^ q) n) : Near w v (n * 2 ^ q) := by
  have hunit : (0 : ℚ) < 2 ^ q := by positivity
  constructor
  case close =>
    -- half a unit is small beside a value that has a leading digit in it
    have hdistance := hn.abs_sub_le
    calc |n * 2 ^ q - v| = |n - v / 2 ^ q| * 2 ^ q := by
          rw [← abs_of_pos hunit, ← abs_mul, abs_of_pos hunit, sub_mul, div_mul_cancel₀ _ hunit.ne']
      _ ≤ 1 / 2 * 2 ^ q := by gcongr
      _ = 2 ^ (w.fractionBits + q) / 2 ^ (w.fractionBits + 1) := by
          rw [two_zpow_add, pow_succ]
          field_simp
      _ ≤ v / 2 ^ (w.fractionBits + 1) := by gcongr
  case exact =>
    -- a number with few digits is a multiple of the unit
    intro c r hc hcr
    have hqr : q < r + 1 := by
      have hlt : (2 : ℚ) ^ (w.fractionBits + q : ℤ) < 2 ^ (w.fractionBits + 1 + r : ℤ) := by
        calc (2 : ℚ) ^ (w.fractionBits + q : ℤ) ≤ c * 2 ^ r := hcr ▸ hlow
          _ < 2 ^ (w.fractionBits + 1) * 2 ^ r := by
              gcongr
              exact_mod_cast hc
          _ = 2 ^ (w.fractionBits + 1 + r : ℤ) := by
              exact_mod_cast (two_zpow_add (w.fractionBits + 1) r).symm
      have := (zpow_lt_zpow_iff_right₀ one_lt_two).mp hlt
      omega
    obtain ⟨j, rfl⟩ : ∃ j : Nat, r = q + j := ⟨(r - q).toNat, by omega⟩
    have hmultiple : v / 2 ^ q = (c * 2 ^ j : Nat) := by
      rw [div_eq_iff hunit.ne', hcr, add_comm q, two_zpow_add]
      push_cast
      ring
    rw [hmultiple] at hn
    rw [hn.unique (isNearest_self _), ← hmultiple, div_mul_cancel₀ _ hunit.ne']

theorem exists_stands_round (negative : Bool) (hnum : 0 < num) (hden : 0 < den) {k : Nat}
    (hlow : (2 : ℚ) ^ (w.fractionBits + (w.quantum + k)) ≤ num / den * 2 ^ e)
    (hhigh : (num / den * 2 ^ e : ℚ) < 2 ^ (w.fractionBits + (w.quantum + k) + 1))
    (hfinite : (k + 2) * 2 ^ w.fractionBits < w.infinityBits) :
    ∃ u, (round negative num den e : Binary w).Stands negative u ∧
    Near w (num / den * 2 ^ e) u := by
  obtain ⟨n, hn⟩ : ∃ n, IsNearest (num / den * 2 ^ e / 2 ^ (w.quantum + k)) n :=
    ⟨_, isNearest_scale num hden e _⟩
  have hnormal : 2 ^ w.fractionBits ≤ (num / den * 2 ^ e / 2 ^ (w.quantum + k) : ℚ) :=
    two_pow_le_div_iff.mpr hlow
  have hbelow : (num / den * 2 ^ e / 2 ^ (w.quantum + k) : ℚ) < 2 ^ (w.fractionBits + 1) := by
    rw [div_lt_two_pow_iff]
    push_cast
    rwa [add_right_comm]
  have hleast : 2 ^ w.fractionBits ≤ n := hn.le_of_le (by exact_mod_cast hnormal)
  have hgreatest : n ≤ 2 ^ (w.fractionBits + 1) := hn.ge_of_ge (by exact_mod_cast hbelow.le)
  have hlt : k * 2 ^ w.fractionBits + n < w.infinityBits := by
    refine lt_of_le_of_lt ?_ hfinite
    rw [pow_succ] at hgreatest
    rw [Nat.add_mul]
    omega
  rw [round_eq negative hnum hden (.inr hlow) hhigh hn, min_eq_left hlt.le]
  exact ⟨_, stands_ofMagnitude negative hgreatest (.inr hleast) hlt, near_of_isNearest hlow hn⟩

end

theorem Stands.neg {x : Binary w} {negative : Bool} {v : ℚ} (hx : x.Stands negative v) :
    x.neg.Stands (!negative) v := by
  obtain ⟨m, q, hparts, hv⟩ := hx
  obtain ⟨k, rfl, hencodes, rfl⟩ := exists_encodes_of_parts hparts
  obtain ⟨hsign, hmagnitude⟩ := fields_ofMagnitude (w := w) negative
    (hencodes.finite.trans (by cases w <;> decide))
  refine ⟨m, _, ?_, hv⟩
  rw [Binary.neg, hsign, hmagnitude]
  exact parts_ofMagnitude (!negative) hencodes

end Binary

/-! ### Arithmetic of 64-bit numbers -/

namespace Double

open Binary

variable {x y : Double} {s t : Bool} {a b : ℚ}

/-- Far from both ends of the range. -/
def InRange (v : ℚ) : Prop := 2 ^ (-500 : ℤ) ≤ v ∧ v < 2 ^ (500 : ℤ)

theorem inRange_of_le {v : ℚ} {i j : ℤ} (hi : -500 ≤ i) (hj : j ≤ 500) (hlow : 2 ^ i ≤ v)
    (hhigh : v < 2 ^ j) : InRange v :=
  ⟨(zpow_le_zpow_right₀ one_le_two hi).trans hlow,
    hhigh.trans_le (zpow_le_zpow_right₀ one_le_two hj)⟩

theorem exists_stands_round (negative : Bool) {num den : Nat} {e : Int} (hnum : 0 < num)
    (hden : 0 < den) (hrange : InRange (num / den * 2 ^ e)) :
    ∃ u, (round negative num den e : Double).Stands negative u ∧
    Near .double (num / den * 2 ^ e) u := by
  obtain ⟨hlow, hhigh⟩ := hrange
  obtain ⟨hlogLow, hlogHigh⟩ := floorLog2_add_spec hnum hden (e := e)
  generalize floorLog2 num den + e = top at hlogLow hlogHigh
  have htopLow : -500 < top + 1 := (zpow_lt_zpow_iff_right₀ one_lt_two).mp (hlow.trans_lt hlogHigh)
  have htopHigh : top < 500 := (zpow_lt_zpow_iff_right₀ one_lt_two).mp (hlogLow.trans_lt hhigh)
  obtain ⟨k, hk⟩ : ∃ k : Nat, (52 : Int) + (-1074 + k) = top := ⟨(top + 1022).toNat, by omega⟩
  refine Binary.exists_stands_round negative hnum hden (k := k) ?_ ?_ ?_
  · simpa [Width.fractionBits, Width.quantum, hk] using hlogLow
  · simpa [Width.fractionBits, Width.quantum, hk] using hlogHigh
  · have : Width.double.infinityBits = 2047 * 2 ^ 52 := by decide
    rw [this]
    exact Nat.mul_lt_mul_of_pos_right (by omega) (by decide)

theorem exists_stands_ofNat {n : Nat} (hpos : 0 < n) (hlt : n < 2 ^ 250) :
    ∃ u, (ofNat n : Double).Stands false u ∧ Near .double n u := by
  have hvalue : (n / (1 : Nat) * 2 ^ (0 : Int) : ℚ) = n := by simp
  have hrange : InRange (n / (1 : Nat) * 2 ^ (0 : Int)) := by
    rw [hvalue]
    refine inRange_of_le (i := 0) (j := 250) (by decide) (by decide) ?_ (by exact_mod_cast hlt)
    rw [zpow_zero]
    exact_mod_cast hpos
  have hround := exists_stands_round false hpos Nat.one_pos hrange
  rwa [hvalue] at hround

theorem significand_pos {m : Nat} {q : Int} (h : 0 < (m * 2 ^ q : ℚ)) : 0 < m :=
  Nat.cast_pos.mp (pos_of_mul_pos_left h (by positivity))

/-- A product is rounded once. -/
theorem exists_stands_scaleUp (hx : x.Stands s a) (hy : y.Stands t b) (ha : 0 < a) (hb : 0 < b)
    (hrange : InRange (a * b)) : ∃ u, (x.scaleUp y).Stands s u ∧ Near .double (a * b) u := by
  obtain ⟨m, q, hxparts, rfl⟩ := hx
  obtain ⟨n, r, hyparts, rfl⟩ := hy
  have hvalue : ((m * n : Nat) / (1 : Nat) * 2 ^ (q + r) : ℚ) = m * 2 ^ q * (n * 2 ^ r) := by
    rw [zpow_add₀ two_ne_zero]
    push_cast
    ring
  have hround :=
    exists_stands_round s (Nat.mul_pos (significand_pos ha) (significand_pos hb)) Nat.one_pos
      (hvalue ▸ hrange)
  rw [scaleUp, hxparts, hyparts]
  rwa [hvalue] at hround

/-- The product of two whole numbers that are small enough is finite. -/
theorem not_isInfinite_scaleUp {m n : Nat} (hm : m < 2 ^ 64) (hpos : 0 < n) (hn : n < 2 ^ 240) :
    ((ofNat m : Double).scaleUp (ofNat n)).isInfinite = false := by
  -- a positive whole number that is rounded stays above one half, and is at most doubled
  have hbounds : ∀ {a : Nat} {u : ℚ}, 0 < a → Near .double a u → 1 / 2 ≤ u ∧ u ≤ 2 * a := by
    intro a u ha hu
    obtain ⟨hlow, hhigh⟩ := abs_le.mp hu.close
    have hone : (1 : ℚ) ≤ a := by exact_mod_cast ha
    norm_num only [Width.fractionBits] at hlow hhigh
    constructor <;> linarith
  obtain ⟨v, hv, hvNear⟩ := exists_stands_ofNat hpos (hn.trans (by decide))
  obtain ⟨hvLow, hvHigh⟩ := hbounds hpos hvNear
  rcases Nat.eq_zero_or_pos m with rfl | hmpos
  · obtain ⟨c, r, hparts, -⟩ := hv
    have hzero : (ofNat 0 : Double).parts = .finite false 0 (-1074) := by decide
    simp only [scaleUp, hzero, hparts, Nat.zero_mul, Binary.round, ↓reduceIte]
    decide
  · obtain ⟨u, hu, huNear⟩ := exists_stands_ofNat hmpos (hm.trans (by decide))
    obtain ⟨huLow, huHigh⟩ := hbounds hmpos huNear
    have hm' : (m : ℚ) < 2 ^ 64 := by exact_mod_cast hm
    have hn' : (n : ℚ) < 2 ^ 240 := by exact_mod_cast hn
    -- so the product stays far below the greatest number
    have hrange : InRange (u * v) := by
      refine inRange_of_le (i := -2) (j := 65 + 241) (by decide) (by decide) ?_ ?_
      · calc (2 : ℚ) ^ (-2 : ℤ) = 1 / 2 * (1 / 2) := by norm_num
          _ ≤ u * v := by gcongr
      · calc u * v ≤ 2 * m * (2 * n) := by gcongr
          _ < 2 * 2 ^ 64 * (2 * 2 ^ 240) := by gcongr
          _ = 2 ^ (65 + 241 : ℤ) := by
              rw [zpow_add₀ two_ne_zero]
              norm_num
    obtain ⟨_, ⟨_, _, hparts, -⟩, -⟩ :=
      exists_stands_scaleUp hu hv (by linarith) (by linarith) hrange
    rw [isInfinite, hparts]

/-- A quotient is rounded once. -/
theorem exists_stands_scaleDown (hx : x.Stands s a) (hy : y.Stands t b) (ha : 0 < a) (hb : 0 < b)
    (hrange : InRange (a / b)) : ∃ u, (x.scaleDown y).Stands s u ∧ Near .double (a / b) u := by
  obtain ⟨m, q, hxparts, rfl⟩ := hx
  obtain ⟨n, r, hyparts, rfl⟩ := hy
  have hvalue : (m / n * 2 ^ (q - r) : ℚ) = m * 2 ^ q / (n * 2 ^ r) := by
    rw [zpow_sub₀ two_ne_zero]
    field_simp
  have hround := exists_stands_round s (significand_pos ha) (significand_pos hb) (hvalue ▸ hrange)
  rw [scaleDown, hxparts, hyparts]
  rwa [hvalue] at hround

/-- The number with this sign instead of none. -/
def signed (negative : Bool) (x : Double) : Double := if negative then x.neg else x

theorem stands_signed {x : Double} {v : ℚ} (hx : x.Stands false v) (negative : Bool) :
    (Double.signed negative x).Stands negative v := by
  cases negative with
  | false => exact hx
  | true => exact hx.neg

/-- A whole number times a power of ten: both are rounded, and then the result is. -/
def timesPowerOfTen (n : Nat) (e : Int) : Double :=
  if 0 ≤ e then (ofNat n).scaleUp (ofNat (Nat.pow 10 e.natAbs))
  else (ofNat n).scaleDown (ofNat (Nat.pow 10 e.natAbs))

/-- `u` is what comes of computing `v` with at most two roundings, or only one when the power of ten
is small. -/
structure NearPower (e : Int) (v u : ℚ) : Prop where
  close : |u - v| ≤ 3 / 2 ^ 53 * v
  exact : e.natAbs ≤ 22 → ∀ (c : Nat) (r : Int), c < 2 ^ 53 → v = c * 2 ^ r → u = v

/-- Two roundings, the first of them of a number that is nearly `v`, or that `v` nearly is. -/
theorem close_of_close {v w u : ℚ} (hw : |w - v| ≤ v / 2 ^ 53 ∨ |w - v| ≤ w / 2 ^ 53)
    (hu : |u - w| ≤ w / 2 ^ 53) :
    |u - v| ≤ 3 / 2 ^ 53 * v := by
  simp only [abs_le] at *
  norm_num only at *
  rcases hw with hw | hw <;> constructor <;> linarith

theorem exists_stands_power {a : Nat} (ha : a ≤ 55) :
    ∃ power, (ofNat (Nat.pow 10 a) : Double).Stands false power ∧
    |power - 10 ^ a| ≤ 10 ^ a / 2 ^ 53 ∧
      (a ≤ 22 → power = 10 ^ a) ∧ 1 / 2 ≤ power ∧ power < 2 ^ 190 := by
  have hbound : 10 ^ a ≤ 10 ^ 55 := Nat.pow_le_pow_right (by decide) ha
  obtain ⟨power, hstands, hnear⟩ := exists_stands_ofNat (Nat.pow_pos (n := a) (Nat.succ_pos 9))
    (hbound.trans_lt (by decide))
  have hcast : ((10 ^ a : Nat) : ℚ) = 10 ^ a := by push_cast; rfl
  rw [hcast] at hnear
  have hone : (1 : ℚ) ≤ 10 ^ a := one_le_pow₀ (by norm_num)
  have hgreat : (10 : ℚ) ^ a ≤ 10 ^ 55 := by exact_mod_cast hbound
  obtain ⟨hlow, hhigh⟩ := abs_le.mp hnear.close
  norm_num only [Width.fractionBits] at hlow hhigh hgreat
  refine ⟨power, hstands, hnear.close, fun hsmall => hnear.exact (5 ^ a) a ?_ ?_, by linarith, ?_⟩
  -- up to `10 ^ 22` the odd part of the power has no more than 53 digits
  · exact (Nat.pow_le_pow_right (by decide) hsmall).trans_lt (by decide)
  · push_cast
    rw [zpow_natCast, ← mul_pow]
    norm_num
  · norm_num only
    linarith

section

variable {n a : Nat} {power u : ℚ}

/-! What comes of a power of ten that is rounded itself, but not when it is small. -/

theorem nearPower_mul (hclose : |power - 10 ^ a| ≤ 10 ^ a / 2 ^ 53)
    (hexact : a ≤ 22 → power = 10 ^ a) (hu : Near .double (n * power) u) :
    NearPower a (n * 10 ^ a) u where
  close := by
    have hproduct : |n * power - n * 10 ^ a| ≤ n * 10 ^ a / 2 ^ 53 := by
      rw [← mul_sub, abs_mul, Nat.abs_cast, mul_div_assoc]
      gcongr
    exact close_of_close (.inl hproduct) hu.close
  exact := by
    intro hsmall c r hc hcr
    rw [Int.natAbs_natCast] at hsmall
    rw [← hexact hsmall] at hcr ⊢
    exact hu.exact c r hc hcr

theorem nearPower_div (hpositive : 0 < power) (hclose : |power - 10 ^ a| ≤ 10 ^ a / 2 ^ 53)
    (hexact : a ≤ 22 → power = 10 ^ a) (hu : Near .double (n / power) u) :
    NearPower (-a) (n / 10 ^ a) u where
  close := by
    have hten : (0 : ℚ) < 10 ^ a := by positivity
    -- the power in the denominator is off by as much as a rounding, and the quotient is rounded
    -- once more
    have hquotient : |n / power - n / 10 ^ a| ≤ n / power / 2 ^ 53 := by
      rw [div_sub_div _ _ hpositive.ne' hten.ne', mul_comm power (n : ℚ), ← mul_sub, abs_div,
        abs_mul, Nat.abs_cast, abs_of_pos (mul_pos hpositive hten), abs_sub_comm,
        div_le_iff₀ (mul_pos hpositive hten)]
      calc n * |power - 10 ^ a| ≤ n * (10 ^ a / 2 ^ 53) := by gcongr
        _ = n / power / 2 ^ 53 * (power * 10 ^ a) := by field_simp
    exact close_of_close (.inr hquotient) hu.close
  exact := by
    intro hsmall c r hc hcr
    rw [Int.natAbs_neg, Int.natAbs_natCast] at hsmall
    rw [← hexact hsmall] at hcr ⊢
    exact hu.exact c r hc hcr

end

theorem exists_stands_timesPowerOfTen {n : Nat} {e : Int} (hpos : 0 < n) (hlt : n < 2 ^ 53)
    (he : e.natAbs ≤ 55) :
    ∃ u, (timesPowerOfTen n e).Stands false u ∧ NearPower e (n * 10 ^ e) u := by
  obtain ⟨u, hstands, hnear⟩ := exists_stands_ofNat hpos (hlt.trans (by decide))
  obtain rfl : u = n := hnear.exact n 0 hlt (by simp)
  obtain ⟨power, hpower, hclose, hexact, hleast, hgreatest⟩ := exists_stands_power he
  have hone : (1 : ℚ) ≤ n := by exact_mod_cast hpos
  have hlt' : (n : ℚ) < 2 ^ 53 := by exact_mod_cast hlt
  have hpositive : 0 < power := by linarith
  unfold timesPowerOfTen
  split
  -- the power is multiplied by
  · next hnonneg =>
    obtain ⟨a, rfl⟩ := Int.eq_ofNat_of_zero_le hnonneg
    have hrange : InRange (n * power) := by
      refine inRange_of_le (i := -1) (j := 243) (by decide) (by decide) ?_ ?_
      · calc (2 : ℚ) ^ (-1 : ℤ) = 1 * (1 / 2) := by norm_num
          _ ≤ n * power := by gcongr
      · calc (n * power : ℚ) < 2 ^ 53 * 2 ^ 190 := by gcongr
          _ = 2 ^ (243 : ℤ) := by norm_num
    obtain ⟨u, hu, hnear⟩ := exists_stands_scaleUp hstands hpower (by linarith) hpositive hrange
    rw [zpow_natCast]
    exact ⟨u, hu, nearPower_mul hclose hexact hnear⟩
  -- the power is divided by
  · next hnegative =>
    obtain ⟨a, rfl⟩ : ∃ a : Nat, e = -a := ⟨e.natAbs, by omega⟩
    rw [Int.natAbs_neg, Int.natAbs_natCast] at *
    have hrange : InRange (n / power) := by
      refine inRange_of_le (i := -190) (j := 54) (by decide) (by decide) ?_ ?_
      · calc (2 : ℚ) ^ (-190 : ℤ) = 1 / 2 ^ 190 := by norm_num
          _ ≤ n / power := by gcongr
      · calc (n / power : ℚ) < 2 ^ 53 / (1 / 2) := by gcongr
          _ = 2 ^ (54 : ℤ) := by norm_num
    obtain ⟨u, hu, hnear⟩ := exists_stands_scaleDown hstands hpower (by linarith) hpositive hrange
    rw [zpow_neg, zpow_natCast, ← div_eq_mul_inv]
    exact ⟨u, hu, nearPower_div hpositive hclose hexact hnear⟩

end Double

end AgentGraph.Numeric
