import AgentGraph.Proofs.Condition.Nearly
import AgentGraph.Proofs.Numeric.Whole
import AgentGraph.Proofs.Text.Trim

/-!
# Comparing whole numbers

Whole numbers written in decimal are compared as the nearest 64-bit numbers
(`ConditionParams.holds_whole`): exactly up to `2 ^ 53`, and beyond it two of them may count as one,
but never as the other way round.
-/

namespace AgentGraph

open Numeric Numeric.Double

namespace Condition

/-! ### Whole numbers as texts -/

/-- A whole number in decimal, perhaps with a sign, and perhaps with blanks around it. -/
structure WholeText (s : String) (a : Int) : Prop where
  digits : Digits (splitSign (Text.trim s).toList).2
  value : a =
    withSign (splitSign (Text.trim s).toList).1 (digitsValue (splitSign (Text.trim s).toList).2)

/-- `toString` writes in decimal. -/
theorem wholeText_toString (a : Int) : WholeText (toString a) a := by
  -- a printed integer has a sign and digits only, so nothing is trimmed off
  have htrim : Text.trim (toString a) = toString a := by
    refine Text.trimBy_eq_self fun c hc => ?_
    rw [toList_toString_int] at hc
    rcases List.mem_append.mp hc with hsign | hdigit
    · split at hsign
      · rw [List.mem_singleton.mp hsign]
        decide
      · cases hsign
    · exact Text.isBlankChar_of_isDigit (isDigit_decimalDigits hdigit)
  have hsplit : splitSign (toString a).toList = (decide (a < 0), decimalDigits a.natAbs) := by
    rw [toList_toString_int]
    split
    · next hneg => rw [decide_eq_true hneg]; rfl
    · next hpos =>
        rw [decide_eq_false hpos, List.nil_append, splitSign_of_digits (digits_decimalDigits _)]
  refine ⟨?_, ?_⟩ <;> rw [htrim, hsplit]
  · exact digits_decimalDigits _
  · rw [digitsValue_decimalDigits, withSign_natAbs]

variable {s : String} {a b : Int} {x y : Double} {i j : Int}

/-- It is read as the nearest number. -/
theorem exists_number_of_wholeText (h : WholeText s a) :
    ∃ x, numberOf? s = some x ∧ StandsAt x (place a) := by
  obtain ⟨hdigits, rfl⟩ := h
  have hdecimal := DecimalText.whole hdigits .none
  rw [List.append_nil] at hdecimal
  refine ⟨_, ?_, standsAt_round _ _⟩
  rw [numberOf?, ofText?_eq]
  exact unsignedOf?_eq_some_iff.mpr (.inr (.inr ⟨_, _, hdecimal, (ofScientific_whole ..).symm⟩))

/-! ### Equality -/

/-- Two whole numbers are nearly equal just when they stand at one place within the range. -/
theorem nearlyEqual_iff_of_standsAt (hx : StandsAt x i) (hy : StandsAt y j) :
    nearlyEqual x y = true ↔ i = j ∧ i.natAbs < 2 ^ 1024 := by
  constructor
  · intro h
    obtain ⟨hxf, hyf⟩ := isFinite_of_nearlyEqual h
    refine ⟨?_, hx.isFinite.mp hxf⟩
    by_contra hne
    -- two different integers are at least one apart, which is far more than the tolerance
    have happart : 2 ^ 1022 ≤ (i * 2 ^ 1074 - j * 2 ^ 1074).natAbs := by
      have htwo : Int.natAbs 2 = 2 := rfl
      rw [← sub_mul, Int.natAbs_mul, Int.natAbs_pow, htwo]
      calc 2 ^ 1022 ≤ 2 ^ 1074 := pow_le_pow_right₀ one_le_two (by decide)
        _ ≤ (i - j).natAbs * 2 ^ 1074 :=
          Nat.le_mul_of_pos_left _ (Int.natAbs_pos.mpr (sub_ne_zero.mpr hne))
    rw [nearlyEqual_of_apart hxf hyf (hx.rank_of_isFinite hxf) (hy.rank_of_isFinite hyf) happart]
      at h
    cases h
  · rintro ⟨rfl, hlt⟩
    have hxf := hx.isFinite.mpr hlt
    have hyf := hy.isFinite.mpr hlt
    exact nearlyEqual_of_rank_eq hxf hyf (hx.rank_of_isFinite hxf) (hy.rank_of_isFinite hyf)

end Condition

open Condition

/-- **Whole numbers are compared as the nearest 64-bit numbers.** These keep the order of the whole
numbers, and up to `2 ^ 53` they are the whole numbers. -/
theorem ConditionParams.holds_whole {p : ConditionParams} {ctx : Context} {s : String} {a b : Int}
    (hvalue : ctx.resolve p.variableName = .string s) (ha : WholeText s a)
    (hb : WholeText p.value b) :
    (p.operator = .greater → (p.holds ctx = true ↔ place b < place a)) ∧
      (p.operator = .less → (p.holds ctx = true ↔ place a < place b)) ∧
      (p.operator = .equals → ¬ (place a = place b ∧ (place a).natAbs = 2 ^ 1024) →
        (p.holds ctx = true ↔ place a = place b)) ∧
      (a ≤ b → place a ≤ place b) ∧ (b ≤ a → place b ≤ place a) ∧
      (a.natAbs ≤ 2 ^ 53 → place a = a) ∧ (b.natAbs ≤ 2 ^ 53 → place b = b) := by
  obtain ⟨x, hx, hxi⟩ := exists_number_of_wholeText ha
  obtain ⟨y, hy, hyj⟩ := exists_number_of_wholeText hb
  refine ⟨fun hop => ?_, fun hop => ?_, fun hop hrange => ?_, place_mono, place_mono, place_eq_self,
    place_eq_self⟩
  · rw [holds, hop, hvalue, test, compare_of_numbers hx hy, hyj.lt_iff hxi]
  · rw [holds, hop, hvalue, test, compare_of_numbers hx hy, hxi.lt_iff hyj]
  · rw [holds, hop, hvalue, test, equal_of_numbers hx hy, nearlyEqual_iff_of_standsAt hxi hyj]
    -- the one excluded value is the place that stands for infinity
    have hle := hxi.natAbs_le
    exact and_iff_left_of_imp fun heq => lt_of_le_of_ne hle fun hend => hrange ⟨heq, hend⟩

/-- The successor of `2 ^ 53` is not found greater than it. -/
theorem successor_not_greater :
    Context.resolve (.start "9007199254740993" []) "input" = .string "9007199254740993" ∧
      WholeText "9007199254740993" 9007199254740993 ∧
      WholeText "9007199254740992" 9007199254740992 ∧
      (⟨"input", .greater, "9007199254740992"⟩ : ConditionParams).holds
        (.start "9007199254740993" []) = false := by
  have hvalue : Context.resolve (.start "9007199254740993" []) "input" =
      .string "9007199254740993" := by
    cbv
  have ha : WholeText "9007199254740993" 9007199254740993 := wholeText_toString 9007199254740993
  have hb : WholeText "9007199254740992" 9007199254740992 := wholeText_toString 9007199254740992
  have hholds :=
    ConditionParams.holds_whole (p := ⟨"input", .greater, "9007199254740992"⟩) hvalue ha hb
  -- both texts stand at `2 ^ 53`
  exact ⟨hvalue, ha, hb, Bool.eq_false_iff.mpr fun h => absurd ((hholds.1 rfl).mp h)
    (by decide +kernel)⟩

/-- The successor of `2 ^ 53` counts as equal to it. -/
theorem successor_counts_as_equal :
    WholeText "9007199254740993" 9007199254740993 ∧ WholeText "9007199254740992" 9007199254740992 ∧
      (9007199254740993 : Int) ≠ 9007199254740992 ∧
      Context.resolve (.start "9007199254740993" []) "input" = .string "9007199254740993" ∧
      (ConditionParams.answerIs "9007199254740992").holds
        (.start "9007199254740993" []) = true := by
  have hvalue : Context.resolve (.start "9007199254740993" []) "input" =
      .string "9007199254740993" := by
    cbv
  refine ⟨wholeText_toString 9007199254740993,
    wholeText_toString 9007199254740992, by decide, hvalue, ?_⟩
  rw [ConditionParams.holds, ConditionParams.answerIs, hvalue]
  decide +kernel

end AgentGraph
