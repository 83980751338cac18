import AgentGraph.Proofs.Numeric.Nearest
import AgentGraph.Proofs.Numeric.Shortest

/-!
# The interval of a number

The reals that round to a number are those in its interval (`Binary.round_of_has`), and a decimal in
the interval is what the search for digits looks for (`Shortest.contains_iff`).
-/

namespace AgentGraph.Numeric

namespace Shortest

/-- `v` lies in the interval. -/
def Interval.Has (i : Interval) (v : ℚ) : Prop :=
  if i.closed then (i.low / i.den : ℚ) ≤ v ∧ v ≤ i.high / i.den
  else (i.low / i.den : ℚ) < v ∧ v < i.high / i.den

theorem contains_iff {i : Interval} (hden : 0 < i.den) (d : Nat) (k : Int) :
    i.contains d k = true ↔ i.Has (d * 10 ^ k) := by
  obtain ⟨c, hc, hnum⟩ := exists_inUnits_num i.den k
  have hunits : (0 : ℚ) < (inUnits i.low i.den k).2 := by
    exact_mod_cast inUnits_den_pos hden i.low k
  set den := (inUnits i.low i.den k).2
  -- both sides of every comparison are multiples of one factor
  have hfactor : (0 : ℚ) < 10 ^ (-k) * den := by positivity
  have hend : ∀ num : Nat, ((num * c : Nat) : ℚ) = num / i.den * (10 ^ (-k) * den) := by
    intro num
    rw [← mul_assoc, ← inUnits_ratio, hnum, inUnits_den num i.low, div_mul_cancel₀ _ hunits.ne']
  have hpoint : ((d * den : Nat) : ℚ) = d * 10 ^ k * (10 ^ (-k) * den) := by
    rw [zpow_neg]
    push_cast
    field_simp
  have hle : ∀ {a b : Nat}, a ≤ b ↔ (a : ℚ) ≤ b := Nat.cast_le.symm
  have hlt : ∀ {a b : Nat}, a < b ↔ (a : ℚ) < b := Nat.cast_lt.symm
  unfold Interval.contains Interval.Has
  simp only [hnum]
  split
  · rw [decide_eq_true_iff, hle, hle, hend, hend, hpoint, mul_le_mul_iff_left₀ hfactor,
      mul_le_mul_iff_left₀ hfactor]
  · rw [decide_eq_true_iff, hlt, hlt, hend, hend, hpoint, mul_lt_mul_iff_left₀ hfactor,
      mul_lt_mul_iff_left₀ hfactor]

theorem two_zpow_sub_two (q : Int) : (2 : ℚ) ^ (q - 2) = 2 ^ q / 4 := by
  rw [zpow_sub₀ two_ne_zero]
  norm_num

/-- How far the interval reaches down, in quarters of the unit. -/
def lowGap (w : Width) (m : Nat) (q : Int) : Nat := if m = Nat.pow 2 w.fractionBits ∧
    w.quantum < q then 1 else 2

/-- The interval reaches down half as far as up only where the exponent begins. -/
theorem lowGap_cases (w : Width) (m : Nat) (q : Int) :
    lowGap w m q = 2 ∨ lowGap w m q = 1 ∧ m = 2 ^ w.fractionBits := by
  unfold lowGap
  split
  · next h => exact .inr ⟨rfl, h.1⟩
  · exact .inl rfl

theorem lowGap_le_two (w : Width) (m : Nat) (q : Int) : lowGap w m q ≤ 2 := by
  have := lowGap_cases w m q
  omega

/-- The ends of the interval of a number. -/
theorem ends_ratio (w : Width) {m : Nat} (hm : 0 < m) (q : Int) :
    ((intervalOf w m q).low / (intervalOf w m q).den : ℚ) = (4 * m - lowGap w m q) * 2 ^ (q - 2) ∧
      ((intervalOf w m q).high / (intervalOf w m q).den : ℚ) = (4 * m + 2) * 2 ^ (q - 2) := by
  have hunit : ((scale 1 1 (q - 2)).1 : ℚ) / (scale 1 1 (q - 2)).2 = 2 ^ (q - 2) := by
    simpa using scale_ratio 1 1 (q - 2)
  have hgap : lowGap w m q ≤ 4 * m := (lowGap_le_two w m q).trans (by omega)
  rw [show (intervalOf w m q).low = (4 * m - lowGap w m q) * (scale 1 1 (q - 2)).1 from rfl,
    show (intervalOf w m q).high = (4 * m + 2) * (scale 1 1 (q - 2)).1 from rfl,
    show (intervalOf w m q).den = (scale 1 1 (q - 2)).2 from rfl]
  push_cast [hgap]
  rw [mul_div_assoc, mul_div_assoc, hunit]
  exact ⟨rfl, rfl⟩

theorem Interval.Has.le {i : Interval} {v : ℚ} (h : i.Has v) :
    (i.low / i.den : ℚ) ≤ v ∧ v ≤ i.high / i.den := by
  unfold Interval.Has at h
  split at h
  · exact h
  · exact ⟨h.1.le, h.2.le⟩

theorem Interval.Has.lt {i : Interval} {v : ℚ} (h : i.Has v) (hopen : i.closed = false) :
    (i.low / i.den : ℚ) < v ∧ v < i.high / i.den := by
  rw [Interval.Has, hopen] at h
  exact h

/-- What lies in the interval of a number is rounded to its significand, in units of its
exponent. -/
theorem isNearest_of_has {w : Width} {m : Nat} (hm : 0 < m) {q : Int} {v : ℚ}
    (h : (intervalOf w m q).Has v) : IsNearest (v / 2 ^ q) m := by
  obtain ⟨hlowEnd, hhighEnd⟩ := ends_ratio w hm q
  obtain ⟨hlow, hhigh⟩ := h.le
  -- the ends belong to the interval when the significand is even
  have hstrict :=
    fun hodd : m % 2 = 1 => h.lt (show decide (m % 2 = 0) = false from decide_eq_false (by omega))
  have hunit : (0 : ℚ) < 2 ^ q := by positivity
  have hquarter : (2 : ℚ) ^ (q - 2) = 2 ^ q / 4 := two_zpow_sub_two q
  have hgap : lowGap w m q * 2 ^ q ≤ 2 * (2 ^ q : ℚ) := by
    gcongr
    exact_mod_cast lowGap_le_two w m q
  rw [hlowEnd, hquarter] at hlow hstrict
  rw [hhighEnd, hquarter] at hhigh hstrict
  refine ⟨?_, ?_, fun hodd => ⟨?_, ?_⟩⟩
  · rw [le_div_iff₀ hunit]
    linarith
  · rw [div_le_iff₀ hunit]
    linarith
  · rw [lt_div_iff₀ hunit]
    linarith [(hstrict hodd).1]
  · rw [div_lt_iff₀ hunit]
    linarith [(hstrict hodd).2]

/-- What lies in the interval of a number, but has a smaller exponent than it, is rounded in units
of half the size. The number is a power of two then, and in these units it has twice its
significand. -/
theorem isNearest_of_has_below {w : Width} {m : Nat} (hnormal : 2 ^ w.fractionBits ≤ m) {q : Int}
    (hq : w.quantum ≤ q) {v : ℚ} (h : (intervalOf w m (q + 1)).Has v)
    (hbelow : v < 2 ^ (w.fractionBits + (q + 1))) :
    m = 2 ^ w.fractionBits ∧
    (2 : ℚ) ^ (w.fractionBits + q) ≤ v ∧ IsNearest (v / 2 ^ q) (2 ^ (w.fractionBits + 1)) := by
  have hm : 0 < m := (Nat.pow_pos Nat.two_pos).trans_le hnormal
  have hunit : (0 : ℚ) < 2 ^ q := by positivity
  have hdouble : (2 : ℚ) ^ (q + 1) = 2 * 2 ^ q := by rw [zpow_add_one₀ two_ne_zero, mul_comm]
  have hone : (1 : ℚ) ≤ 2 ^ w.fractionBits := one_le_pow₀ one_le_two
  obtain ⟨hlowEnd, -⟩ := ends_ratio w hm (q + 1)
  have hlow := h.le.1
  rw [hlowEnd, two_zpow_sub_two, hdouble] at hlow
  rw [two_zpow_add, hdouble] at hbelow
  -- only the interval of a power of two reaches below its own range
  obtain rfl : m = 2 ^ w.fractionBits := by
    have hgap : (lowGap w m (q + 1) : ℚ) ≤ 2 := by exact_mod_cast lowGap_le_two w m (q + 1)
    have hlt : (m : ℚ) < (2 ^ w.fractionBits + 1 : Nat) := by
      push_cast
      nlinarith
    have : m < 2 ^ w.fractionBits + 1 := by exact_mod_cast hlt
    omega
  have hgap : lowGap w (2 ^ w.fractionBits) (q + 1) = 1 := if_pos ⟨rfl, by omega⟩
  rw [hgap] at hlow
  push_cast at hlow
  refine ⟨rfl, ?_, ?_, ?_, fun hodd => absurd hodd (by rw [pow_succ]; omega)⟩
  · rw [two_zpow_add]
    nlinarith
  · rw [le_div_iff₀ hunit, pow_succ]
    push_cast
    linarith
  · rw [div_le_iff₀ hunit, pow_succ]
    push_cast
    linarith

end Shortest

namespace Binary

open Shortest

/-- **Whatever lies in the interval of a number is rounded to it.** -/
theorem round_of_has {w : Width} {x : Binary w} {negative : Bool} {m : Nat} {q : Int}
    (hx : x.parts = .finite negative m q) (hm : 0 < m) {num den : Nat} {e : Int} (hnum : 0 < num)
    (hden : 0 < den) (h : (intervalOf w m q).Has (num / den * 2 ^ e)) :
    round negative num den e = x := by
  obtain ⟨k, rfl, ⟨hlt, hnormal, hfinite⟩, rfl⟩ := exists_encodes_of_parts hx
  by_cases habove : k = 0 ∨ (2 : ℚ) ^ (w.fractionBits + (w.quantum + k)) ≤ num / den * 2 ^ e
  · -- the value has the exponent of the number
    have hnearest := isNearest_of_has hm h
    have hhigh : (num / den * 2 ^ e : ℚ) < 2 ^ (w.fractionBits + (w.quantum + k) + 1) := by
      rw [add_right_comm]
      refine div_lt_two_pow_iff.mp (hnearest.high.trans_lt ?_)
      have hlt' : (m : ℚ) + 1 ≤ 2 ^ (w.fractionBits + 1) := by exact_mod_cast hlt
      linarith
    rw [round_eq negative hnum hden habove hhigh hnearest, min_eq_left hfinite.le]
  · -- the value lies below a power of two, and its unit is half of that of the number
    rw [not_or, not_le] at habove
    obtain ⟨hk, hbelow⟩ := habove
    obtain ⟨k, rfl⟩ := Nat.exists_eq_succ_of_ne_zero hk
    rw [Nat.cast_succ, ← add_assoc w.quantum] at h hbelow
    obtain ⟨rfl, hlow, hnearest⟩ :=
      isNearest_of_has_below (hnormal.resolve_left hk) (by omega) h hbelow
    have hcarry : k * 2 ^ w.fractionBits + 2 ^ (w.fractionBits + 1) =
        (k + 1) * 2 ^ w.fractionBits + 2 ^ w.fractionBits := by ring
    rw [← add_assoc] at hbelow
    rw [round_eq negative hnum hden (.inr hlow) hbelow hnearest, hcarry, min_eq_left hfinite.le]

end Binary

end AgentGraph.Numeric
