import AgentGraph.Numeric.Binary
import Mathlib.Algebra.Order.Field.Power
import Mathlib.Data.Rat.Cast.Order
import Mathlib.Tactic.FieldSimp
import Mathlib.Tactic.Linarith
import Mathlib.Tactic.Positivity
import Mathlib.Tactic.Ring

/-!
# What rounding computes with

Fractions are compared as rational numbers; `scale` and `floorLog2` are what they are called
(`scale_ratio`, `floorLog2_spec`).
-/

namespace AgentGraph.Numeric

theorem scale_den_pos {den : Nat} (hden : 0 < den) (num : Nat) (e : Int) :
    0 < (scale num den e).2 := by
  unfold scale
  split
  · exact hden
  · exact Nat.mul_pos hden (Nat.pow_pos Nat.two_pos)

theorem scale_num_pos {num : Nat} (hnum : 0 < num) (den : Nat) (e : Int) :
    0 < (scale num den e).1 := by
  unfold scale
  split
  · exact Nat.mul_pos hnum (Nat.pow_pos Nat.two_pos)
  · exact hnum

theorem scale_ratio (num den : Nat) (e : Int) :
    ((scale num den e).1 : ℚ) / (scale num den e).2 = num / den * 2 ^ e := by
  unfold scale
  split
  · next he =>
    obtain ⟨n, rfl⟩ := Int.eq_ofNat_of_zero_le he
    simp [Nat.pow_eq]
    ring
  · next he =>
    obtain ⟨n, rfl⟩ : ∃ n : Nat, e = -n := ⟨(-e).toNat, by omega⟩
    simp [Nat.pow_eq]
    field_simp

/-- `floorLog2` is the logarithm, rounded down. -/
theorem floorLog2_spec {num den : Nat} (hnum : 0 < num) (hden : 0 < den) :
    (2 : ℚ) ^ floorLog2 num den ≤ num / den ∧ (num / den : ℚ) < 2 ^ (floorLog2 num den + 1) := by
  have hden' : (0 : ℚ) < den := by exact_mod_cast hden
  have hnumLow : (2 : ℚ) ^ (Nat.log2 num : ℤ) ≤ num := by
    exact_mod_cast Nat.log2_self_le hnum.ne'
  have hnumHigh : (num : ℚ) < 2 ^ ((Nat.log2 num : ℤ) + 1) := by
    exact_mod_cast Nat.lt_log2_self
  have hdenLow : (2 : ℚ) ^ (Nat.log2 den : ℤ) ≤ den := by
    exact_mod_cast Nat.log2_self_le hden.ne'
  have hdenHigh : (den : ℚ) < 2 ^ ((Nat.log2 den : ℤ) + 1) := by
    exact_mod_cast Nat.lt_log2_self
  unfold floorLog2
  -- the difference of the lengths is right or one too much, and one comparison tells which
  set guess : ℤ := (Nat.log2 num : ℤ) - (Nat.log2 den : ℤ) with hguess
  have hscaled := scale_ratio num den (-guess)
  have hscaledDen : (0 : ℚ) < (scale num den (-guess)).2 := by
    exact_mod_cast scale_den_pos hden num _
  have hpow : (2 : ℚ) ^ (-guess) * 2 ^ guess = 1 := by
    rw [← zpow_add₀ two_ne_zero, neg_add_cancel, zpow_zero]
  have hpos : (0 : ℚ) < 2 ^ guess := by positivity
  dsimp only
  split
  · next hle =>
    constructor
    · have hone : 1 ≤ (num / den : ℚ) * 2 ^ (-guess) := by
        rw [← hscaled, one_le_div hscaledDen]
        exact_mod_cast hle
      nlinarith
    · rw [div_lt_iff₀ hden']
      calc (num : ℚ) < 2 ^ ((Nat.log2 num : ℤ) + 1) := hnumHigh
        _ = 2 ^ (guess + 1) * 2 ^ (Nat.log2 den : ℤ) := by
            rw [← zpow_add₀ two_ne_zero, hguess]
            congr 1
            ring
        _ ≤ 2 ^ (guess + 1) * den := by gcongr
  · next hlt =>
    constructor
    · rw [le_div_iff₀ hden']
      calc (2 : ℚ) ^ (guess - 1) * den ≤ 2 ^ (guess - 1) * 2 ^ ((Nat.log2 den : ℤ) + 1) := by gcongr
        _ = 2 ^ (Nat.log2 num : ℤ) := by
            rw [← zpow_add₀ two_ne_zero, hguess]
            congr 1
            ring
        _ ≤ num := hnumLow
    · have hone : (num / den : ℚ) * 2 ^ (-guess) < 1 := by
        rw [← hscaled, div_lt_one hscaledDen]
        exact_mod_cast Nat.lt_of_not_le hlt
      rw [sub_add_cancel]
      nlinarith

end AgentGraph.Numeric
