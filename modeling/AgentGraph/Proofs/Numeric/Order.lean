import AgentGraph.Proofs.Numeric.Range

/-!
# The order of numbers

Numbers are compared by their ranks, which count the least positive number. The rank of a rounded
significand is that significand moved up by some binary places, or the rank of infinity
(`Binary.rank_ofMagnitude`). A difference of finite numbers is the rounded difference of their ranks
(`Binary.sub_eq_round`), and it does not vanish where the ranks lie far apart
(`Binary.exists_rank_round_ge`).
-/

namespace AgentGraph.Numeric

/-- A whole number with a sign of its own. -/
def withSign (negative : Bool) (n : Nat) : Int := if negative then -(n : Int) else n

theorem natAbs_withSign (negative : Bool) (n : Nat) : (withSign negative n).natAbs = n := by
  cases negative
  · exact Int.natAbs_natCast n
  · exact (Int.natAbs_neg _).trans (Int.natAbs_natCast n)

theorem withSign_zero (negative : Bool) : withSign negative 0 = 0 := by cases negative <;> rfl

theorem withSign_mul (negative : Bool) (m n : Nat) :
    withSign negative (m * n) = withSign negative m * n := by
  cases negative
  · exact Int.natCast_mul m n
  · exact (congrArg Neg.neg (Int.natCast_mul m n)).trans (Int.neg_mul _ _).symm

theorem sign_withSign (negative : Bool) {n : Nat} (hn : 0 < n) :
    (withSign negative n).sign = withSign negative 1 := by
  cases negative
  · exact Int.sign_natCast_of_ne_zero hn.ne'
  · exact (Int.sign_neg _).trans (congrArg Neg.neg (Int.sign_natCast_of_ne_zero hn.ne'))

theorem withSign_natAbs (a : Int) : withSign (a < 0) a.natAbs = a := by
  rw [withSign]
  split
  · next h =>
    have := of_decide_eq_true h
    omega
  · next h =>
    have := of_decide_eq_false (Bool.eq_false_iff.mpr h)
    omega

/-- Where infinity stands, beyond the finite numbers. -/
def Width.infinityRank (w : Width) : Nat := 2 ^ (2 ^ w.exponentBits + w.fractionBits)

namespace Binary

variable {w : Width} {x y : Binary w}

theorem rank_of_parts {negative : Bool} {m k : Nat}
    (h : x.parts = .finite negative m (w.quantum + k)) :
    x.rank = some (withSign negative (m * 2 ^ k)) := by
  rw [rank, h]
  show some (withSign negative (m * Nat.pow 2 (w.quantum + k - w.quantum).toNat)) = _
  rw [add_sub_cancel_left, Int.toNat_natCast, Nat.pow_eq]

/-- The rank counts the least positive number. -/
theorem Stands.rank {negative : Bool} {n : Nat} (h : x.Stands negative (n * 2 ^ w.quantum)) :
    x.rank = some (withSign negative n) := by
  obtain ⟨m, q, hparts, hvalue⟩ := h
  obtain ⟨k, rfl, -, -⟩ := exists_encodes_of_parts hparts
  have hcount : (m * 2 ^ k : ℚ) = n := by
    refine mul_right_cancel₀ (zpow_ne_zero w.quantum two_ne_zero) ?_
    rw [← hvalue, add_comm, two_zpow_add]
    ring
  rw [rank_of_parts hparts]
  exact congrArg (fun n => some (withSign negative n)) (by exact_mod_cast hcount)

theorem isFinite_eq_true_iff :
    x.isFinite = true ↔ ∃ negative m q, x.parts = .finite negative m q := by
  rw [isFinite]
  cases x.parts <;> simp

theorem exists_rank_of_isFinite (hx : x.isFinite = true) : ∃ i, x.rank = some i := by
  obtain ⟨_, _, _, hx⟩ := isFinite_eq_true_iff.mp hx
  exact ⟨_, by rw [rank, hx]⟩

theorem sub_eq_round (hx : x.isFinite = true) (hy : y.isFinite = true) {i j : Int}
    (hi : x.rank = some i) (hj : y.rank = some j) :
    x.sub y = round (decide (i - j < 0)) (i - j).natAbs 1 w.quantum := by
  obtain ⟨_, _, _, hx⟩ := isFinite_eq_true_iff.mp hx
  obtain ⟨_, _, _, hy⟩ := isFinite_eq_true_iff.mp hy
  rw [sub, hx, hy, hi, hj]
  rfl

theorem sub_of_not_finite (h : ¬ (x.isFinite = true ∧ y.isFinite = true)) :
    x.sub y = nan ∨ ∃ negative, x.sub y = infinity negative := by
  rw [isFinite, isFinite] at h
  rw [sub]
  cases hx : x.parts with
  | nan => exact .inl rfl
  | infinite s =>
      cases y.parts with
      | nan => exact .inl rfl
      -- two infinities of one sign have no difference; of different signs, the first one is it
      | infinite t => exact (ite_eq_or_eq (s = t) nan (infinity s)).imp_right fun heq => ⟨s, heq⟩
      | finite => exact .inr ⟨s, rfl⟩
  | finite =>
      cases hy : y.parts with
      | nan => exact .inl rfl
      | infinite t => exact .inr ⟨!t, rfl⟩
      | finite => exact absurd ⟨by rw [hx], by rw [hy]⟩ h

theorem abs_round (negative : Bool) (num den : Nat) (e : Int) :
    (round negative num den e : Binary w).abs = round false num den e := by
  have hfields : ∀ n ≤ w.infinityBits, (ofMagnitude negative n : Binary w).abs =
      ofMagnitude false n := by
    intro n hn
    rw [abs, (fields_ofMagnitude negative (hn.trans_lt infinityBits_lt)).2]
  unfold round
  split
  · exact hfields 0 (Nat.zero_le _)
  · exact hfields _ (min_le_right ..)

theorem parts_infinity (negative : Bool) :
    (infinity negative : Binary w).parts = .infinite negative := by
  cases w <;> cases negative <;> decide

theorem rank_infinity (negative : Bool) :
    (infinity negative : Binary w).rank = some (withSign negative w.infinityRank) := by
  rw [rank, parts_infinity]
  rfl

/-- The rank of a rounded significand: the significand moved up, or the rank of infinity. -/
theorem rank_ofMagnitude (negative : Bool) {k n : Nat} (hle : n ≤ 2 ^ (w.fractionBits + 1))
    (hnormal : k = 0 ∨ 2 ^ w.fractionBits ≤ n) :
    (ofMagnitude negative (min (k * 2 ^ w.fractionBits + n) w.infinityBits) : Binary w).rank =
    some (withSign negative
      (if k * 2 ^ w.fractionBits + n < w.infinityBits then n * 2 ^ k else w.infinityRank)) := by
  split
  · next hfinite =>
    rw [min_eq_left hfinite.le]
    have hstands := stands_ofMagnitude (w := w) negative hle hnormal hfinite
    -- the unit of the significand is the least positive number moved up by `k` places
    have hvalue : (n * 2 ^ (w.quantum + k) : ℚ) = (n * 2 ^ k : Nat) * 2 ^ w.quantum := by
      rw [add_comm w.quantum, two_zpow_add]
      push_cast
      ring
    exact Stands.rank (hvalue ▸ hstands)
  · next hinfinite =>
    rw [min_eq_right (not_lt.mp hinfinite)]
    exact rank_infinity negative

/-- A whole multiple of the least positive number does not become less than a power of two when it
is rounded. -/
theorem exists_rank_round_ge {d j : Nat} (hj : 0 < j) (hinfinite : 2 ^ j ≤ w.infinityRank)
    (hd : 2 ^ j ≤ d) :
    ∃ r : Nat, (round false d 1 w.quantum : Binary w).rank = some (r : Int) ∧ 2 ^ j ≤ r := by
  obtain ⟨k, n, hround, hnearest, hlow, hhigh⟩ :=
    exists_round_eq (w := w) false ((Nat.pow_pos Nat.two_pos).trans_le hd) Nat.one_pos w.quantum
  have hle : n ≤ 2 ^ (w.fractionBits + 1) := hnearest.ge_of_ge (by exact_mod_cast hhigh.le)
  have hnormal : k = 0 ∨ 2 ^ w.fractionBits ≤ n :=
    hlow.imp_right fun hlow => hnearest.le_of_le (by exact_mod_cast hlow)
  refine ⟨_, hround ▸ rank_ofMagnitude false hle hnormal, ?_⟩
  split
  -- either the unit alone is as great as the power, or the significand makes up for it
  · rcases le_or_gt j k with hle | hlt
    · have hpos : 0 < n :=
        (Nat.pow_pos Nat.two_pos).trans_le (hnormal.resolve_left (hj.trans_le hle).ne')
      calc 2 ^ j ≤ 2 ^ k := Nat.pow_le_pow_right Nat.two_pos hle
        _ ≤ n * 2 ^ k := Nat.le_mul_of_pos_left _ hpos
    · have hunits : (d / (1 : Nat) * 2 ^ w.quantum / 2 ^ (w.quantum + k) : ℚ) = d / 2 ^ k := by
        rw [add_comm w.quantum, two_zpow_add]
        field_simp
        norm_num
      have hn : 2 ^ (j - k) ≤ n := by
        refine hnearest.le_of_le ?_
        rw [hunits, le_div_iff₀ (by positivity)]
        exact_mod_cast (by rwa [← pow_add, Nat.sub_add_cancel hlt.le] : 2 ^ (j - k) * 2 ^ k ≤ d)
      calc 2 ^ j = 2 ^ (j - k) * 2 ^ k := by rw [← pow_add, Nat.sub_add_cancel hlt.le]
        _ ≤ n * 2 ^ k := Nat.mul_le_mul_right _ hn
  · exact hinfinite

end Binary

end AgentGraph.Numeric
