import AgentGraph.Proofs.Numeric.Order
import AgentGraph.Proofs.Numeric.Spelling

/-!
# Whole numbers as 64-bit numbers

A whole number is read as the nearest number with 53 binary digits (`nearestWhole`), or as infinity.
So whole numbers compare as the places they are read to do (`Double.place`): exactly up to `2 ^ 53`,
and in no case the wrong way round (`Double.place_mono`).
-/

namespace AgentGraph.Numeric

/-- The number nearest to `n` that is a multiple of a power of two by a factor of 53 binary digits;
the even factor of two. -/
def nearestWhole (n : Nat) : Nat := roundHalfEven n (2 ^ (n.log2 - 52)) * 2 ^ (n.log2 - 52)

/-- A number with more binary digits loses the last ones. -/
theorem exists_nearestWhole_eq {n l : Nat} (hlow : 2 ^ (52 + l) ≤ n) (hhigh : n < 2 ^ (53 + l)) :
    ∃ c, nearestWhole n = c * 2 ^ l ∧ IsNearest (n / 2 ^ l) c ∧ 2 ^ 52 ≤ c ∧ c ≤ 2 ^ 53 := by
  have hlog : n.log2 - 52 = l := by
    have hpos : n ≠ 0 := ((Nat.pow_pos Nat.two_pos).trans_le hlow).ne'
    have hle := (Nat.le_log2 hpos).mpr hlow
    have hlt := (Nat.log2_lt hpos).mpr hhigh
    omega
  have hnearest : IsNearest (n / 2 ^ l) (roundHalfEven n (2 ^ l)) := by
    exact_mod_cast isNearest_roundHalfEven n (Nat.pow_pos Nat.two_pos)
  refine ⟨_, by rw [nearestWhole, hlog], hnearest, hnearest.le_of_le ?_, hnearest.ge_of_ge ?_⟩
  · rw [le_div_iff₀ (by positivity)]
    exact_mod_cast (pow_add 2 52 l).symm.trans_le hlow
  · rw [div_le_iff₀ (by positivity)]
    exact_mod_cast hhigh.le.trans_eq (pow_add 2 53 l)

theorem nearestWhole_of_lt {n : Nat} (hn : n < 2 ^ 53) : nearestWhole n = n := by
  have hlog : n.log2 - 52 = 0 := by
    rcases Nat.eq_zero_or_pos n with rfl | hpos
    · rfl
    · have := (Nat.log2_lt hpos.ne').mpr hn
      omega
  have hnearest : IsNearest n (roundHalfEven n 1) := by
    simpa using isNearest_roundHalfEven n Nat.one_pos
  rw [nearestWhole, hlog, pow_zero, Nat.mul_one, hnearest.unique (isNearest_self n)]

theorem nearestWhole_of_le {n : Nat} (hn : n ≤ 2 ^ 53) : nearestWhole n = n := by
  rcases hn.lt_or_eq with hlt | rfl
  · exact nearestWhole_of_lt hlt
  · decide +kernel

/-- Beyond `2 ^ 53` there are powers of two around a number, and around the nearest one. -/
theorem exists_pow_le_nearestWhole {n : Nat} (hn : 2 ^ 53 ≤ n) :
    ∃ l, 2 ^ (52 + l) ≤ n ∧ n < 2 ^ (53 + l) ∧ 2 ^ (52 + l) ≤ nearestWhole n ∧
    nearestWhole n ≤ 2 ^ (53 + l) := by
  have hpos : n ≠ 0 := ((Nat.pow_pos Nat.two_pos).trans_le hn).ne'
  have hle := (Nat.le_log2 hpos).mpr hn
  obtain ⟨l, hl⟩ := Nat.exists_eq_add_of_le (Nat.le_of_succ_le hle)
  have hlow : 2 ^ (52 + l) ≤ n := hl ▸ Nat.log2_self_le hpos
  have hhigh : n < 2 ^ (53 + l) := (Nat.log2_lt hpos).mp (by omega)
  obtain ⟨c, hc, -, hcl, hch⟩ := exists_nearestWhole_eq hlow hhigh
  refine ⟨l, hlow, hhigh, ?_, ?_⟩
  · rw [hc, pow_add]
    exact Nat.mul_le_mul_right _ hcl
  · rw [hc, pow_add]
    exact Nat.mul_le_mul_right _ hch

theorem nearestWhole_mono {m n : Nat} (h : m ≤ n) : nearestWhole m ≤ nearestWhole n := by
  rcases Nat.lt_or_ge n (2 ^ 53) with hn | hn
  · rwa [nearestWhole_of_lt hn, nearestWhole_of_lt (h.trans_lt hn)]
  obtain ⟨l, hlow, hhigh, hlow', -⟩ := exists_pow_le_nearestWhole hn
  -- below the range of `n` the power of two stands between them; in the same range they have one
  -- unit
  rcases Nat.lt_or_ge m (2 ^ (52 + l)) with hm | hm
  · refine le_trans ?_ hlow'
    rcases Nat.lt_or_ge m (2 ^ 53) with hm' | hm'
    · rw [nearestWhole_of_lt hm']
      exact hm.le
    · obtain ⟨j, hj, -, -, hj'⟩ := exists_pow_le_nearestWhole hm'
      have hlt : 52 + j < 52 + l := (Nat.pow_lt_pow_iff_right (by decide)).mp (hj.trans_lt hm)
      exact hj'.trans (Nat.pow_le_pow_right Nat.two_pos (by omega))
  · obtain ⟨c, hc, hcn, -⟩ := exists_nearestWhole_eq hm (h.trans_lt hhigh)
    obtain ⟨d, hd, hdn, -⟩ := exists_nearestWhole_eq hlow hhigh
    rw [hc, hd]
    refine Nat.mul_le_mul_right _ (hcn.mono hdn ?_)
    gcongr

/-- However many places a number is moved up, what is rounded off it is the same. -/
theorem mul_pow_eq_nearestWhole {n k c shift : Nat} (hn : 0 < n) (hshift : 52 ≤ shift)
    (hnearest : IsNearest (n * 2 ^ shift / 2 ^ k) c)
    (hlow : k = 0 ∨ (2 : ℚ) ^ 52 ≤ n * 2 ^ shift / 2 ^ k)
    (hhigh : (n * 2 ^ shift / 2 ^ k : ℚ) < 2 ^ 53) :
    c * 2 ^ k = nearestWhole n * 2 ^ shift ∧ 2 ^ 52 ≤ c := by
  rcases le_total k shift with hk | hk
  -- the unit divides one, so the number is not rounded at all
  · obtain ⟨j, rfl⟩ := Nat.exists_eq_add_of_le hk
    have hwhole : (n * 2 ^ (k + j) / 2 ^ k : ℚ) = (n * 2 ^ j : Nat) := by
      rw [pow_add]
      push_cast
      field_simp
    rw [hwhole] at hnearest hlow hhigh
    obtain rfl := hnearest.unique (isNearest_self _)
    have hlt : n < 2 ^ 53 :=
      (Nat.le_mul_of_pos_right n (Nat.pow_pos Nat.two_pos)).trans_lt (by exact_mod_cast hhigh)
    constructor
    · rw [nearestWhole_of_lt hlt, pow_add]
      ring
    · rcases hlow with rfl | hlow
      · exact (Nat.pow_le_pow_right Nat.two_pos (by omega)).trans (Nat.le_mul_of_pos_left _ hn)
      · exact_mod_cast hlow
  -- the unit is `2 ^ l`, and rounding is that of whole numbers
  · obtain ⟨l, rfl⟩ := Nat.exists_eq_add_of_le hk
    have hvalue : (n * 2 ^ shift / 2 ^ (shift + l) : ℚ) = n / 2 ^ l := by
      rw [pow_add]
      field_simp
    rw [hvalue] at hnearest hlow hhigh
    have hlow' := hlow.resolve_left (by omega)
    rw [le_div_iff₀ (by positivity), ← pow_add] at hlow'
    rw [div_lt_iff₀ (by positivity), ← pow_add] at hhigh
    obtain ⟨d, hd, hnearest', hnormal, -⟩ :=
      exists_nearestWhole_eq (by exact_mod_cast hlow') (by exact_mod_cast hhigh)
    obtain rfl := hnearest.unique hnearest'
    refine ⟨?_, hnormal⟩
    rw [hd, pow_add]
    ring

/-- The exponent field is full where the value reaches a power of two. -/
theorem carry_lt_iff {b k c : Nat} (top : Nat) (hlow : 2 ^ b ≤ c) (hhigh : c ≤ 2 ^ (b + 1)) :
    k * 2 ^ b + c < (top + 2) * 2 ^ b ↔ c * 2 ^ k < 2 ^ (b + 1 + top) := by
  -- the exponent decides, and in the last one before the end the significand
  rcases Nat.lt_trichotomy k top with hlt | rfl | hgt
  · refine iff_of_true ?_ ?_
    · calc k * 2 ^ b + c ≤ (k + 2) * 2 ^ b := by
            rw [Nat.add_mul]
            omega
        _ < (top + 2) * 2 ^ b := Nat.mul_lt_mul_of_pos_right (by omega) (Nat.pow_pos Nat.two_pos)
    · calc c * 2 ^ k ≤ 2 ^ (b + 1) * 2 ^ k := Nat.mul_le_mul_right _ hhigh
        _ = 2 ^ (b + 1 + k) := (pow_add ..).symm
        _ < 2 ^ (b + 1 + top) := Nat.pow_lt_pow_right Nat.one_lt_two (by omega)
  · rw [Nat.add_mul, pow_add 2 (b + 1), Nat.mul_lt_mul_right (Nat.pow_pos Nat.two_pos)]
    omega
  · refine iff_of_false (not_lt.mpr ?_) (not_lt.mpr ?_)
    · calc (top + 2) * 2 ^ b ≤ (k + 1) * 2 ^ b := Nat.mul_le_mul_right _ (by omega)
        _ ≤ k * 2 ^ b + c := by
            rw [Nat.add_mul]
            omega
    · calc 2 ^ (b + 1 + top) ≤ 2 ^ (b + k) := Nat.pow_le_pow_right Nat.two_pos (by omega)
        _ = 2 ^ b * 2 ^ k := pow_add ..
        _ ≤ c * 2 ^ k := Nat.mul_le_mul_right _ hlow

namespace Double

open Binary

theorem round_whole (negative : Bool) (n : Nat) :
    (round negative n 1 0 : Double).rank =
        some (withSign negative
          (if nearestWhole n < 2 ^ 1024 then nearestWhole n * 2 ^ 1074
          else Width.double.infinityRank)) ∧
      ((round negative n 1 0 : Double).isFinite = true ↔ nearestWhole n < 2 ^ 1024) := by
  rcases Nat.eq_zero_or_pos n with rfl | hn
  · have hzero : (round negative 0 1 0 : Double) = ofMagnitude negative 0 := rfl
    rw [hzero, nearestWhole_of_lt (by decide)]
    cases negative <;> decide +kernel
  -- the number is `c` units of `2 ^ k` least positive numbers, or it is beyond the end
  obtain ⟨k, c, hround, hnearest, hlow, hhigh⟩ :=
    exists_round_eq (w := .double) negative hn Nat.one_pos 0
  have hunits : (n / (1 : Nat) * 2 ^ (0 : ℤ) / 2 ^ (Width.double.quantum + k) : ℚ) =
      n * 2 ^ 1074 / 2 ^ k := by
    have hquantum : (2 : ℚ) ^ Width.double.quantum = (2 ^ 1074)⁻¹ :=
      zpow_neg_coe_of_pos 2 (by decide)
    rw [zpow_add₀ two_ne_zero, hquantum, zpow_natCast, Nat.cast_one, div_one, zpow_zero, mul_one,
      inv_mul_eq_div, div_div_eq_mul_div]
  rw [hunits] at hnearest hlow hhigh
  -- counted so, it is the nearest whole number, in whichever unit
  obtain ⟨hplace, hnormal⟩ := mul_pow_eq_nearestWhole hn (by decide) hnearest hlow hhigh
  have hle : c ≤ 2 ^ (52 + 1) := by
    refine hnearest.ge_of_ge ?_
    rw [Nat.cast_pow, Nat.cast_ofNat]
    exact hhigh.le
  -- and it is finite before the end of the fields just when it is before `2 ^ 1024`
  have hrange : k * 2 ^ 52 + c < Width.double.infinityBits ↔ nearestWhole n < 2 ^ 1024 := by
    have htop : 52 + 1 + 2045 = 1024 + 1074 := rfl
    exact (carry_lt_iff 2045 hnormal hle).trans
      (by rw [hplace, htop, pow_add, Nat.mul_lt_mul_right (Nat.pow_pos Nat.two_pos)])
  rw [hround]
  refine ⟨(rank_ofMagnitude (w := .double) negative hle (.inr hnormal)).trans ?_,
    (isFinite_ofMagnitude_min (w := .double) negative _).trans hrange⟩
  rw [← hplace]
  exact congrArg (fun r => some (withSign negative r)) (if_congr hrange rfl rfl)

/-- The place of a whole number among the 64-bit numbers: the nearest one, and `2 ^ 1024` for all
that are too great for one. -/
def place (a : Int) : Int := withSign (a < 0) (min (nearestWhole a.natAbs) (2 ^ 1024))

theorem place_withSign (negative : Bool) (n : Nat) :
    place (withSign negative n) = withSign negative (min (nearestWhole n) (2 ^ 1024)) := by
  rw [place, natAbs_withSign]
  rcases Nat.eq_zero_or_pos n with rfl | hn
  · rw [nearestWhole_of_lt (by decide), Nat.zero_min, withSign_zero, withSign_zero]
  · have hsign : decide (withSign negative n < 0) = negative := by
      cases negative
      · exact decide_eq_false (not_lt.mpr (Int.natCast_nonneg n))
      · exact decide_eq_true (Int.neg_neg_of_pos (Int.natCast_pos.mpr hn))
    rw [hsign]

/-- Up to `2 ^ 53` a whole number is itself. -/
theorem place_eq_self {a : Int} (ha : a.natAbs ≤ 2 ^ 53) : place a = a := by
  have htop : 2 ^ 53 ≤ 2 ^ 1024 := pow_le_pow_right₀ one_le_two (by decide)
  rw [place, nearestWhole_of_le ha, min_eq_left (ha.trans htop), withSign_natAbs]

/-- Whole numbers keep their order. -/
theorem place_mono {a b : Int} (h : a ≤ b) : place a ≤ place b := by
  unfold place withSign
  generalize 2 ^ 1024 = top
  rcases lt_or_ge a 0 with ha | ha
  · rcases lt_or_ge b 0 with hb | hb
    · have := nearestWhole_mono (show b.natAbs ≤ a.natAbs by omega)
      simp only [ha, hb, decide_true, ↓reduceIte]
      omega
    · simp only [ha, not_lt.mpr hb, decide_true, decide_false, Bool.false_eq_true, ↓reduceIte]
      omega
  · have := nearestWhole_mono (show a.natAbs ≤ b.natAbs by omega)
    simp only [not_lt.mpr ha, not_lt.mpr (ha.trans h), decide_false, Bool.false_eq_true, ↓reduceIte]
    omega

/-- The rank of the number at a place. -/
def rankAt (i : Int) : Int := if i.natAbs < 2 ^ 1024 then i * 2 ^ 1074
    else i.sign * Width.double.infinityRank

theorem rankAt_withSign (negative : Bool) (n : Nat) : rankAt (withSign negative n) =
    withSign negative (if n < 2 ^ 1024 then n * 2 ^ 1074 else Width.double.infinityRank) := by
  have hpos : 0 < 2 ^ 1024 := by positivity
  have hunit : ((2 ^ 1074 : Nat) : Int) = 2 ^ 1074 := Nat.cast_pow 2 1074
  rw [rankAt, natAbs_withSign]
  split
  · rw [withSign_mul, hunit]
  · next hend => rw [sign_withSign negative (hpos.trans_le (not_lt.mp hend)), ← withSign_mul,
      Nat.one_mul]

theorem rankAt_lt {i j : Int} (hi : i.natAbs ≤ 2 ^ 1024) (hj : j.natAbs ≤ 2 ^ 1024) (h : i < j) :
    rankAt i < rankAt j := by
  have hend : (2 ^ 1024 : Nat) * (2 : Int) ^ 1074 ≤ Width.double.infinityRank := by decide +kernel
  have hunit : (0 : Int) < 2 ^ 1074 := by positivity
  have hpos : 0 < 2 ^ 1024 := by positivity
  unfold rankAt
  generalize 2 ^ 1024 = top at *
  generalize (2 : Int) ^ 1074 = unit at *
  generalize (Width.double.infinityRank : Int) = infinity at *
  -- only the ends themselves are at infinity
  have hlast : ∀ k : Int, k.natAbs ≤ top → ¬ k.natAbs < top → k = top ∨ k = -top := by omega
  split_ifs with hi' hj' hj'
  · exact mul_lt_mul_of_pos_right h hunit
  · obtain rfl : j = top := (hlast j hj hj').resolve_right (by omega)
    rw [Int.sign_natCast_of_ne_zero hpos.ne', one_mul]
    exact (mul_lt_mul_of_pos_right h hunit).trans_le hend
  · obtain rfl : i = -top := (hlast i hi hi').resolve_left (by omega)
    rw [Int.sign_neg, Int.sign_natCast_of_ne_zero hpos.ne', neg_one_mul]
    have := mul_lt_mul_of_pos_right h hunit
    rw [neg_mul] at this
    omega
  · obtain rfl : j = top := (hlast j hj hj').resolve_right (by omega)
    obtain rfl : i = -top := (hlast i hi hi').resolve_left (by omega)
    rw [Int.sign_neg, Int.sign_natCast_of_ne_zero hpos.ne', one_mul, neg_one_mul]
    have : 0 < top * unit := by positivity
    omega

/-- The number has the rank of a place, and is finite just where that is no end. -/
structure StandsAt (x : Double) (i : Int) : Prop where
  natAbs_le : i.natAbs ≤ 2 ^ 1024
  rank : x.rank = some (rankAt i)
  isFinite : x.isFinite = true ↔ i.natAbs < 2 ^ 1024

theorem standsAt_round (negative : Bool) (n : Nat) :
    StandsAt (round negative n 1 0) (place (withSign negative n)) := by
  obtain ⟨hrank, hfinite⟩ := round_whole negative n
  have hlt : min (nearestWhole n) (2 ^ 1024) < 2 ^ 1024 ↔ nearestWhole n < 2 ^ 1024 :=
    min_lt_iff.trans (or_iff_left (lt_irrefl _))
  rw [place_withSign]
  refine ⟨(natAbs_withSign ..).trans_le (min_le_right ..), hrank.trans ?_, ?_⟩
  · rw [rankAt_withSign]
    simp only [hlt]
    split
    · next hfinite => rw [min_eq_left hfinite.le]
    · rfl
  · rw [natAbs_withSign, hlt, hfinite]

variable {x y : Double} {i j : Int}

/-- Numbers compare as their places. -/
theorem StandsAt.lt_iff (hx : StandsAt x i) (hy : StandsAt y j) : x.lt y = true ↔ i < j := by
  rw [lt, hx.rank, hy.rank, decide_eq_true_iff]
  refine ⟨fun h => not_le.mp fun hle => ?_, rankAt_lt hx.natAbs_le hy.natAbs_le⟩
  rcases hle.lt_or_eq with hlt | rfl
  · exact lt_asymm h (rankAt_lt hy.natAbs_le hx.natAbs_le hlt)
  · exact lt_irrefl _ h

theorem StandsAt.rank_of_isFinite (hx : StandsAt x i) (hfinite : x.isFinite = true) :
    x.rank = some (i * 2 ^ 1074) := by
  rw [hx.rank, rankAt, if_pos (hx.isFinite.mp hfinite)]

end Double

end AgentGraph.Numeric
