import AgentGraph.Numeric.Decimal
import AgentGraph.Numeric.Shortest
import AgentGraph.Proofs.Numeric.Rounding
import Mathlib.Data.List.DropRight

/-!
# The digits of a 32-bit number

The search for the shortest decimal of a 32-bit number comes to an end: with nine digits the grid is
so fine that the neighbour below the number still rounds to it (`Shortest.contains_below`). So what
is written is a decimal of few digits and a small exponent (`Shortest.proper_digits`), whatever the
number.
-/

namespace AgentGraph.Numeric

/-! ### Decimal digits -/

theorem isDigit_decimalDigits {n : Nat} {c : Char} (hc : c ∈ decimalDigits n) : c.isDigit = true :=
  Nat.isDigit_of_mem_toDigits (by decide) (by decide) hc

theorem length_decimalDigits_le_iff {n k : Nat} (hk : 0 < k) :
    (decimalDigits n).length ≤ k ↔ n < 10 ^ k :=
  Nat.length_toDigits_le_iff (by decide) hk

theorem lt_pow_length_decimalDigits (n : Nat) : n < 10 ^ (decimalDigits n).length :=
  (length_decimalDigits_le_iff Nat.length_toDigits_pos).mp le_rfl

theorem pow_length_decimalDigits_le {n : Nat} (hn : 0 < n) :
    10 ^ ((decimalDigits n).length - 1) ≤ n := by
  by_contra hlt
  have hpos : 0 < (decimalDigits n).length := Nat.length_toDigits_pos
  rcases Nat.eq_zero_or_pos ((decimalDigits n).length - 1) with hone | hmore
  · rw [hone, pow_zero] at hlt
    omega
  · have := (length_decimalDigits_le_iff hmore).mpr (not_le.mp hlt)
    omega

/-- Only zero begins with a zero. -/
theorem head?_decimalDigits {n : Nat} (hn : 0 < n) : (decimalDigits n).head? ≠ some '0' := by
  induction n using Nat.strong_induction_on with
  | _ n ih =>
      rw [decimalDigits, Nat.toDigits_eq_if (by decide)]
      split
      · next hlt =>
        rw [List.head?_cons]
        intro hzero
        have := congrArg Char.toNat (Option.some.inj hzero)
        rw [Nat.toNat_digitChar_of_lt_ten hlt] at this
        exact hn.ne' (by simpa using this)
      · next hge =>
        rw [List.head?_append_of_ne_nil _ Nat.toDigits_ne_nil]
        exact ih (n / 10) (by omega) (by omega)

/-- A whole number is written with its digits. -/
theorem toList_toString_int (a : Int) :
    (toString a).toList = (if a < 0 then ['-'] else []) ++ decimalDigits a.natAbs := by
  rw [Int.toString_eq_repr, Int.repr_eq_if]
  split
  · next hpos =>
    have habs : a.toNat = a.natAbs := by omega
    rw [if_neg (not_lt.mpr hpos), Nat.toList_repr, habs]
    rfl
  · next hneg =>
    have habs : (-a).toNat = a.natAbs := by omega
    rw [if_pos (not_le.mp hneg), String.toList_append, Nat.toList_repr, habs]
    rfl

/-- A decimal as it can stand in a text: few digits, the first of them not zero, and a small
exponent. -/
structure Decimal.Proper (d : Decimal) : Prop where
  ne_nil : d.digits ≠ []
  isDigit : ∀ c ∈ d.digits, c.isDigit = true
  head_ne : d.digits.head? ≠ some '0'
  length_le : d.digits.length ≤ 10
  least : -60 ≤ d.exponent
  greatest : d.exponent ≤ 60

namespace Shortest

/-! ### The order of magnitude -/

theorem inUnits_den_pos {den : Nat} (hden : 0 < den) (num : Nat) (k : Int) :
    0 < (inUnits num den k).2 := by
  unfold inUnits
  split
  · exact Nat.mul_pos hden (Nat.pow_pos (by decide))
  · exact hden

theorem inUnits_den (num num' den : Nat) (k : Int) :
    (inUnits num den k).2 = (inUnits num' den k).2 := by
  unfold inUnits
  split <;> rfl

theorem inUnits_ratio (num den : Nat) (k : Int) :
    ((inUnits num den k).1 : ℚ) / (inUnits num den k).2 = num / den * 10 ^ (-k) := by
  unfold inUnits
  split
  · next hk =>
    obtain ⟨n, rfl⟩ := Int.eq_ofNat_of_zero_le hk
    simp [Nat.pow_eq]
    field_simp
  · next hk =>
    obtain ⟨n, rfl⟩ : ∃ n : Nat, k = -n := ⟨(-k).toNat, by omega⟩
    simp [Nat.pow_eq]
    ring

/-- A change of units is a factor. -/
theorem exists_inUnits_num (den : Nat) (k : Int) :
    ∃ c, 0 < c ∧ ∀ num, (inUnits num den k).1 = num * c := by
  unfold inUnits
  split
  · exact ⟨1, Nat.one_pos, fun num => (Nat.mul_one num).symm⟩
  · exact ⟨_, Nat.pow_pos (by decide), fun num => rfl⟩

/-- The number of digits tells between which powers of ten a number lies. -/
theorem exists_length_decimalDigits {n : Nat} (hn : 0 < n) :
    ∃ e, (decimalDigits n).length = e + 1 ∧ 10 ^ e ≤ n ∧ n < 10 ^ (e + 1) := by
  obtain ⟨e, he⟩ : ∃ e, (decimalDigits n).length = e + 1 :=
    Nat.exists_eq_succ_of_ne_zero Nat.length_toDigits_pos.ne'
  have hlow := pow_length_decimalDigits_le hn
  have hhigh := lt_pow_length_decimalDigits n
  rw [he] at hlow hhigh
  exact ⟨e, he, hlow, hhigh⟩

/-- `floorLog10` is the logarithm, rounded down. -/
theorem floorLog10_spec {num den : Nat} (hnum : 0 < num) (hden : 0 < den) :
    (10 : ℚ) ^ floorLog10 num den ≤ num / den ∧
    (num / den : ℚ) < 10 ^ (floorLog10 num den + 1) := by
  have hnum' : (0 : ℚ) < num := by exact_mod_cast hnum
  have hden' : (0 : ℚ) < den := by exact_mod_cast hden
  unfold floorLog10
  split
  · next hle =>
    -- from one on the digits before the point are counted
    obtain ⟨n, hn, hlow, hhigh⟩ := exists_length_decimalDigits (Nat.div_pos hle hden)
    rw [hn]
    have hlow' : den * 10 ^ n ≤ num :=
      (Nat.mul_le_mul_left den hlow).trans (Nat.mul_div_le num den)
    have hhigh' : num < den * 10 ^ (n + 1) := by
      rwa [Nat.div_lt_iff_lt_mul hden, Nat.mul_comm] at hhigh
    rw [le_div_iff₀ hden', div_lt_iff₀ hden', mul_comm, mul_comm _ (den : ℚ)]
    push_cast
    rw [add_sub_cancel_right]
    exact ⟨by exact_mod_cast hlow', by exact_mod_cast hhigh'⟩
  -- below one the digits of the denominator are counted, rounded up
  · next hlt =>
    have hceil : (den + num - 1) / num - 1 = (den - 1) / num := by
      rw [show den + num - 1 = den - 1 + num by omega, Nat.add_div_right _ hnum, Nat.add_sub_cancel]
    rw [hceil]
    obtain ⟨n, hn, hlow, hhigh⟩ :=
      exists_length_decimalDigits (n := (den - 1) / num) (Nat.div_pos (by omega) hnum)
    rw [hn]
    have hlow' : num * 10 ^ n < den := by
      have := (Nat.mul_le_mul_left num hlow).trans (Nat.mul_div_le (den - 1) num)
      omega
    have hhigh' : den ≤ num * 10 ^ (n + 1) := by
      rw [Nat.div_lt_iff_lt_mul hnum, Nat.mul_comm] at hhigh
      omega
    have hlowQ : (num : ℚ) * 10 ^ n < den := by exact_mod_cast hlow'
    have hhighQ : (den : ℚ) ≤ num * 10 ^ (n + 1) := by exact_mod_cast hhigh'
    constructor
    · rw [zpow_neg, zpow_natCast, le_div_iff₀ hden', inv_mul_le_iff₀ (by positivity), mul_comm]
      exact hhighQ
    · have hexponent : -((n + 1 : Nat) : ℤ) + 1 = -(n : ℤ) := by
        push_cast
        ring
      rw [hexponent, zpow_neg, zpow_natCast, div_lt_iff₀ hden', lt_inv_mul_iff₀ (by positivity),
        mul_comm]
      exact hlowQ

/-! ### The interval of a number -/

/-- The exponent of the leading digit. -/
def Interval.order (i : Interval) : Int := floorLog10 i.value i.den

theorem Interval.order_spec {i : Interval} (hvalue : 0 < i.value) (hden : 0 < i.den) :
    (10 : ℚ) ^ i.order ≤ i.value / i.den ∧ (i.value / i.den : ℚ) < 10 ^ (i.order + 1) :=
  floorLog10_spec hvalue hden

section

variable {m : Nat} {q : Int}

theorem den_pos (m : Nat) (q : Int) : 0 < (intervalOf .single m q).den :=
  scale_den_pos Nat.one_pos 1 (q - 2)

/-- The value of the interval is the number. -/
theorem value_ratio (m : Nat) (q : Int) :
    ((intervalOf .single m q).value : ℚ) / (intervalOf .single m q).den = m * 2 ^ q := by
  have hunit := scale_ratio 1 1 (q - 2)
  simp only [intervalOf]
  push_cast
  rw [mul_div_assoc, hunit, zpow_sub₀ two_ne_zero]
  ring

/-- The ends of the interval are a quarter of a unit away at least, and the lower one is
positive. -/
theorem ends_spec (hm : 0 < m) : ∃ unit : Nat, 0 < unit ∧
    (unit : ℚ) / (intervalOf .single m q).den = 2 ^ (q - 2) ∧ 0 < (intervalOf .single m q).low ∧
    (intervalOf .single m q).low + unit ≤ (intervalOf .single m q).value ∧
    (intervalOf .single m q).value < (intervalOf .single m q).high := by
  have hpos : 0 < (scale 1 1 (q - 2)).1 := scale_num_pos Nat.one_pos 1 _
  have hunit : ((scale 1 1 (q - 2)).1 : ℚ) / (scale 1 1 (q - 2)).2 = 2 ^ (q - 2) := by
    simpa using scale_ratio 1 1 (q - 2)
  refine ⟨(scale 1 1 (q - 2)).1, hpos, hunit, ?_⟩
  simp only [intervalOf]
  set unit := (scale 1 1 (q - 2)).1
  -- the lower end is one or two quarters of the unit down
  obtain ⟨gap, hgap, hone, htwo⟩ : ∃ gap : Nat,
      (if m = Nat.pow 2 Width.single.fractionBits ∧ Width.single.quantum < q then 1 else 2) = gap ∧
      1 ≤ gap ∧
        gap ≤ 2 := by
    split <;> exact ⟨_, rfl, by omega, by omega⟩
  rw [hgap]
  refine ⟨Nat.mul_pos (by omega) hpos, ?_, Nat.mul_lt_mul_of_pos_right (by omega) hpos⟩
  calc (4 * m - gap) * unit + unit = (4 * m - gap + 1) * unit := by ring
    _ ≤ 4 * m * unit := Nat.mul_le_mul_right _ (by omega)

/-- A grid of at least nine digits is finer than a quarter of the unit. -/
theorem grid_le_quarter (hm : 0 < m) (hm24 : m < 2 ^ 24) {k : Int}
    (hk : k ≤ (intervalOf .single m q).order - 8) : (10 : ℚ) ^ k ≤ 2 ^ (q - 2) := by
  obtain ⟨unit, hunitPos, hunit, hlow, hlowUnit, hhigh⟩ := ends_spec (q := q) hm
  have hvalue := value_ratio m q
  have hden := den_pos m q
  set i := intervalOf .single m q
  have hfloor := (Interval.order_spec (by omega : 0 < i.value) hden).1
  have hm24' : (m : ℚ) ≤ 2 ^ 24 := by exact_mod_cast hm24.le
  calc (10 : ℚ) ^ k ≤ 10 ^ (i.order - 8) := zpow_le_zpow_right₀ (by norm_num) hk
    _ = 10 ^ i.order / 10 ^ 8 := by
        rw [zpow_sub₀ (by norm_num)]
        norm_num
    _ ≤ m * 2 ^ q / 10 ^ 8 := by
        rw [hvalue] at hfloor
        gcongr
    _ ≤ 2 ^ 24 * 2 ^ q / 10 ^ 8 := by gcongr
    _ ≤ 2 ^ (q - 2) := by
        rw [zpow_sub₀ two_ne_zero]
        have : (0 : ℚ) < 2 ^ q := by positivity
        linarith

/-- So on such a grid the neighbour below the number lies in the interval. -/
theorem contains_below (hm : 0 < m) (hm24 : m < 2 ^ 24) {k : Int}
    (hk : k ≤ (intervalOf .single m q).order - 8) :
    (intervalOf .single m q).contains
      ((inUnits (intervalOf .single m q).value (intervalOf .single m q).den k).1 /
        (inUnits (intervalOf .single m q).value (intervalOf .single m q).den k).2) k = true := by
  obtain ⟨unit, hunitPos, hunit, hlow, hlowUnit, hhigh⟩ := ends_spec (q := q) hm
  have hden := den_pos m q
  have hgrid := grid_le_quarter hm hm24 hk
  set i := intervalOf .single m q
  obtain ⟨c, hc, hnum⟩ := exists_inUnits_num i.den k
  -- a step on this grid is no longer than a quarter of the unit
  have hstep : (inUnits unit i.den k).2 ≤ unit * c := by
    have hratio := inUnits_ratio unit i.den k
    have hdenUnits : (0 : ℚ) < (inUnits unit i.den k).2 := by
      exact_mod_cast inUnits_den_pos hden unit k
    have hone : 1 ≤ ((inUnits unit i.den k).1 : ℚ) / (inUnits unit i.den k).2 := by
      rw [hratio, hunit, zpow_neg, ← div_eq_mul_inv, one_le_div (by positivity)]
      exact hgrid
    rw [one_le_div hdenUnits, hnum] at hone
    exact_mod_cast hone
  unfold Interval.contains
  simp only [hnum, inUnits_den i.low i.value, inUnits_den unit i.value] at hstep ⊢
  set den := (inUnits i.value i.den k).2
  -- the lower neighbour is at most a step below the number, and that is inside
  have hbelow : i.value * c / den * den ≤ i.value * c := Nat.div_mul_le_self _ _
  have habove : i.value * c < i.value * c / den * den + den :=
    Nat.lt_div_mul_add (inUnits_den_pos hden i.value k)
  have hlowc : i.low * c + unit * c ≤ i.value * c := by
    rw [← Nat.add_mul]
    exact Nat.mul_le_mul_right c hlowUnit
  have hhighc : i.value * c < i.high * c := Nat.mul_lt_mul_of_pos_right hhigh hc
  split
  · exact decide_eq_true ⟨by omega, by omega⟩
  · exact decide_eq_true ⟨by omega, by omega⟩

/-! ### The search -/

/-- What is found on a grid is one of the two neighbours, and lies in the interval. -/
theorem nearest?_eq_some {i : Interval} {k : Int} {d : Nat} (h : i.nearest? k = some d) :
    i.contains d k = true ∧ d ≤ (inUnits i.value i.den k).1 / (inUnits i.value i.den k).2 + 1 := by
  unfold Interval.nearest? at h
  dsimp only at h
  generalize (inUnits i.value i.den k).1 / (inUnits i.value i.den k).2 = below at h ⊢
  split at h
  · next hbelow habove =>
    -- when both neighbours are inside, the nearer one or the even one is taken
    split at h
    · cases h
      exact ⟨hbelow, by omega⟩
    split at h
    · cases h
      exact ⟨habove, le_rfl⟩
    · cases h
      rcases Nat.mod_two_eq_zero_or_one below with heven | hodd
      · rw [heven]
        exact ⟨hbelow, by omega⟩
      · rw [hodd]
        exact ⟨habove, le_rfl⟩
  · next hbelow _ =>
    cases h
    exact ⟨hbelow, by omega⟩
  · next _ habove =>
    cases h
    exact ⟨habove, le_rfl⟩
  · cases h

theorem nearest?_isSome {i : Interval} {k : Int}
    (h : i.contains ((inUnits i.value i.den k).1 / (inUnits i.value i.den k).2) k = true) :
    (i.nearest? k).isSome = true := by
  unfold Interval.nearest?
  dsimp only
  rw [h]
  cases i.contains _ k with
  | false => rfl
  | true =>
      dsimp only
      split
      · rfl
      · split <;> rfl

/-- The search stops at the first grid on which there is something to be found. -/
theorem search_spec {i : Interval} {top : Int} {j : Nat} (hj : (i.nearest? (top - j)).isSome = true)
    (left tried : Nat) (hge : tried ≤ j) (hlt : j < tried + left) :
    ∃ d k, search i top left tried = (d, top - (k : Nat)) ∧ k ≤ j ∧
    i.nearest? (top - k) = some d := by
  induction left generalizing tried with
  | zero => omega
  | succ left ih =>
      rw [search]
      cases hfound : i.nearest? (top - tried) with
      | some d => exact ⟨d, tried, rfl, hge, hfound⟩
      | none =>
          -- a grid without a hit is not the one that is known to have one
          have hne : tried ≠ j := by
            rintro rfl
            simp [hfound] at hj
          exact ih (tried + 1) (by omega) (by omega)

/-- **Nine digits are enough for every 32-bit number.** -/
theorem search_single (hm : 0 < m) (hm24 : m < 2 ^ 24) :
    ∃ d k, search (intervalOf .single m q) (intervalOf .single m q).order 9 0 =
        (d, (intervalOf .single m q).order - (k : Nat)) ∧ k ≤ 8 ∧
      (intervalOf .single m q).nearest? ((intervalOf .single m q).order - (k : Nat)) = some d ∧
      0 < d ∧
        d < 10 ^ 10 := by
  obtain ⟨unit, hunitPos, -, hlow, hlowUnit, -⟩ := ends_spec (q := q) hm
  have hden := den_pos m q
  have hcontains := contains_below hm hm24 (q := q) (k := _ - (8 : Nat)) le_rfl
  obtain ⟨d, k, hsearch, hk, hfound⟩ :=
    search_spec (nearest?_isSome hcontains) 9 0 (by omega) (by omega)
  set i := intervalOf .single m q
  obtain ⟨hin, hle⟩ := nearest?_eq_some hfound
  refine ⟨d, k, hsearch, hk, hfound, ?_, ?_⟩
  · -- zero is below the interval
    by_contra hzero
    obtain ⟨c, hc, hnum⟩ := exists_inUnits_num i.den (i.order - k)
    have hpos := Nat.mul_pos hlow hc
    rw [Nat.le_zero.mp (not_lt.mp hzero)] at hin
    unfold Interval.contains at hin
    dsimp only at hin
    rw [hnum, Nat.zero_mul] at hin
    split at hin <;> have := of_decide_eq_true hin <;> omega
  -- on a grid at most eight places below the leading digit the number has at most nine digits
  · have hratio := inUnits_ratio i.value i.den (i.order - k)
    have hhigh := (Interval.order_spec (by omega : 0 < i.value) hden).2
    have hdenUnits := inUnits_den_pos hden i.value (i.order - k)
    have hlt : ((inUnits i.value i.den (i.order - k)).1 : ℚ) /
        (inUnits i.value i.den (i.order - k)).2 < 10 ^ (9 : ℤ) := by
      rw [hratio]
      calc (i.value / i.den : ℚ) * 10 ^ (-(i.order - k))
          < 10 ^ (i.order + 1) * 10 ^ (-(i.order - k)) := by gcongr
        _ = 10 ^ ((k : ℤ) + 1) := by
            rw [← zpow_add₀ (by norm_num)]
            congr 1
            ring
        _ ≤ 10 ^ (9 : ℤ) := zpow_le_zpow_right₀ (by norm_num) (by omega)
    rw [div_lt_iff₀ (by exact_mod_cast hdenUnits)] at hlt
    have hlt' : (inUnits i.value i.den (i.order - k)).1 <
        10 ^ 9 * (inUnits i.value i.den (i.order - k)).2 := by exact_mod_cast hlt
    have := Nat.div_lt_of_lt_mul ((Nat.mul_comm _ _).trans_gt hlt')
    omega

/-- The order of magnitude of a 32-bit number. -/
theorem order_single (hm : 0 < m) (hm24 : m < 2 ^ 24) (hlow : -149 ≤ q) (hhigh : q ≤ 104) :
    -46 ≤ (intervalOf .single m q).order ∧ (intervalOf .single m q).order ≤ 39 := by
  obtain ⟨unit, -, -, hlowPos, hlowUnit, -⟩ := ends_spec (q := q) hm
  obtain ⟨hfloor, hceil⟩ :=
    Interval.order_spec (by omega : 0 < (intervalOf .single m q).value) (den_pos m q)
  rw [value_ratio] at hfloor hceil
  have hm1 : (1 : ℚ) ≤ m := by exact_mod_cast hm
  have hm2 : (m : ℚ) ≤ 2 ^ 24 := by exact_mod_cast hm24.le
  constructor
  -- the least positive number is above `10 ^ -46`, and the greatest one below `10 ^ 40`
  · have : (10 : ℚ) ^ (-46 : ℤ) < 10 ^ ((intervalOf .single m q).order + 1) := by
      calc (10 : ℚ) ^ (-46 : ℤ) ≤ 1 * 2 ^ (-149 : ℤ) := by norm_num
        _ ≤ m * 2 ^ q := by
            gcongr
            norm_num
        _ < _ := hceil
    have := (zpow_lt_zpow_iff_right₀ (by norm_num)).mp this
    omega
  · have : (10 : ℚ) ^ (intervalOf .single m q).order < 10 ^ (40 : ℤ) := by
      calc _ ≤ (m : ℚ) * 2 ^ q := hfloor
        _ ≤ 2 ^ 24 * 2 ^ (104 : ℤ) := by
            gcongr
            norm_num
        _ < 10 ^ (40 : ℤ) := by norm_num
    have := (zpow_lt_zpow_iff_right₀ (by norm_num)).mp this
    omega

/-- The digits are those of what is found, without the zeros at its end. -/
theorem exists_digits_eq (hm : 0 < m) (hm24 : m < 2 ^ 24) :
    ∃ d k, k ≤ 8 ∧
    (intervalOf .single m q).nearest? ((intervalOf .single m q).order - (k : Nat)) = some d ∧
    0 < d ∧
      d < 10 ^ 10 ∧ digits .single m q = ⟨(decimalDigits d).rdropWhile (· = '0'),
        (intervalOf .single m q).order - (k : ℤ) + ((decimalDigits d).length - 1 : Nat)⟩ := by
  obtain ⟨d, k, hsearch, hk, hfound, hpos, hlt⟩ := search_single (q := q) hm hm24
  refine ⟨d, k, hk, hfound, hpos, hlt, ?_⟩
  rw [Interval.order] at hsearch
  rw [digits, maxDigits, hsearch]
  rfl

theorem rdropWhile_decimalDigits_ne_nil {d : Nat} (hpos : 0 < d) :
    (decimalDigits d).rdropWhile (· = '0') ≠ [] := by
  rw [ne_eq, List.rdropWhile_eq_nil_iff]
  intro hall
  obtain ⟨c, cs, hcs⟩ := List.exists_cons_of_length_pos (Nat.length_toDigits_pos (b := 10) (n := d))
  refine head?_decimalDigits hpos ?_
  rw [decimalDigits, hcs, List.head?_cons,
    of_decide_eq_true (hall c (by simp [decimalDigits, hcs]))]

/-- **The shortest decimal of a 32-bit number has few digits and a small exponent.** -/
theorem proper_digits (hm : 0 < m) (hm24 : m < 2 ^ 24) (hlow : -149 ≤ q) (hhigh : q ≤ 104) :
    (digits .single m q).Proper := by
  obtain ⟨d, k, hk, -, hpos, hlt, hdigits⟩ := exists_digits_eq (q := q) hm hm24
  obtain ⟨htopLow, htopHigh⟩ := order_single hm hm24 hlow hhigh
  have hlength := (length_decimalDigits_le_iff (by decide)).mpr hlt
  have hlengthPos : 0 < (decimalDigits d).length := Nat.length_toDigits_pos
  rw [hdigits]
  -- only zeros at the end have been dropped, so the first digit is still there
  have hleading : (decimalDigits d).rdropWhile (· = '0') <+: decimalDigits d :=
    List.rdropWhile_prefix _ _
  have hne := rdropWhile_decimalDigits_ne_nil hpos
  exact {
    ne_nil := hne
    isDigit := fun c hc => isDigit_decimalDigits (hleading.subset hc)
    head_ne := by
      obtain ⟨c, cs, hcs⟩ := List.exists_cons_of_ne_nil hne
      obtain ⟨rest, hrest⟩ := hleading
      have := head?_decimalDigits hpos
      rw [← hrest, hcs] at this
      simpa [hcs] using this
    length_le := hleading.length_le.trans hlength
    least := by
      dsimp only
      omega
    greatest := by
      dsimp only
      omega }

end

end Shortest

/-- What a finite 32-bit number can be. -/
theorem Single.parts_bounds {x : Single} {negative : Bool} {m : Nat} {q : Int}
    (h : x.parts = .finite negative m q) : m < 2 ^ 24 ∧ -149 ≤ q ∧ q ≤ 104 := by
  have hmagnitude : x.magnitude < 2 ^ 31 := Nat.mod_lt _ (by decide)
  unfold Binary.parts at h
  dsimp only at h
  split at h
  · split at h <;> cases h
  next hgreatest =>
  split at h
  · cases h
    have : x.magnitude % 2 ^ 23 < 2 ^ 23 := Nat.mod_lt _ (by decide)
    simp only [Width.fractionBits, Width.quantum, Nat.pow_eq]
    omega
  · cases h
    have : x.magnitude % 2 ^ 23 < 2 ^ 23 := Nat.mod_lt _ (by decide)
    simp only [Width.fractionBits, Width.exponentBits, Width.quantum, Nat.pow_eq] at hgreatest ⊢
    omega

end AgentGraph.Numeric
