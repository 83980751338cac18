import AgentGraph.Proofs.Condition.Case
import AgentGraph.Proofs.Numeric.Order
import AgentGraph.Proofs.Numeric.Spelling

/-!
# Equality of numbers

`equals` takes two numbers for equal when their difference is nearly zero. Only finite numbers are
(`Condition.isFinite_of_nearlyEqual`), so a text that spells infinity, or that is not a number, does
not equal itself (`ConditionParams.holds_self_iff`).
-/

namespace AgentGraph

open Numeric

namespace Condition

variable {x y : Double} {i j : Int}

theorem rank_epsilon : Double.epsilon.rank = some (2 ^ 1022) := by decide +kernel

/-- **Only finite numbers are nearly equal**: a difference with another number is infinite, or not a
number. -/
theorem isFinite_of_nearlyEqual (h : nearlyEqual x y = true) :
    x.isFinite = true ∧ y.isFinite = true := by
  have hnan : Binary.nan.abs.lt Double.epsilon = false := by decide +kernel
  have hinfinity : ∀ negative, (Binary.infinity negative).abs.lt Double.epsilon = false := by
    decide +kernel
  by_contra hother
  rw [nearlyEqual] at h
  rcases Binary.sub_of_not_finite hother with hsub | ⟨negative, hsub⟩
  · rw [hsub, hnan] at h
    cases h
  · rw [hsub, hinfinity] at h
    cases h

theorem nearlyEqual_of_rank_eq (hx : x.isFinite = true) (hy : y.isFinite = true)
    (hi : x.rank = some i) (hj : y.rank = some i) : nearlyEqual x y = true := by
  rw [nearlyEqual, Binary.sub_eq_round hx hy hi hj, sub_self]
  decide +kernel

theorem nearlyEqual_of_apart (hx : x.isFinite = true) (hy : y.isFinite = true)
    (hi : x.rank = some i) (hj : y.rank = some j) (happart : 2 ^ 1022 ≤ (i - j).natAbs) :
    nearlyEqual x y = false := by
  obtain ⟨r, hr, hle⟩ := Binary.exists_rank_round_ge (w := .double) (by decide)
    (Nat.pow_le_pow_right Nat.two_pos (by decide)) happart
  rw [nearlyEqual, Binary.sub_eq_round hx hy hi hj, Binary.abs_round, Binary.lt, hr, rank_epsilon]
  exact decide_eq_false (by exact_mod_cast not_lt.mpr hle)

/-- A number is nearly equal to itself just when it is finite. -/
theorem nearlyEqual_self_iff : nearlyEqual x x = true ↔ x.isFinite = true := by
  refine ⟨fun h => (isFinite_of_nearlyEqual h).1, fun hx => ?_⟩
  obtain ⟨i, hi⟩ := Binary.exists_rank_of_isFinite hx
  exact nearlyEqual_of_rank_eq hx hx hi hi

/-- Two texts that are both numbers are compared as numbers. -/
theorem equal_of_numbers {s t : String} (hs : numberOf? s = some x) (ht : numberOf? t = some y) :
    equal (.string s) t = nearlyEqual x y := by
  have hs' : asNumber? (.string s) = some x := hs
  rw [equal, hs', ht]

theorem compare_of_numbers {s t : String} (hs : numberOf? s = some x) (ht : numberOf? t = some y)
    (holds : Double → Double → Bool) : Condition.compare (.string s) t holds = holds x y := by
  have hs' : asNumber? (.string s) = some x := hs
  rw [Condition.compare, hs', ht]

theorem equal_self_iff {s : String} :
    equal (.string s) s = true ↔ ∀ x, numberOf? s = some x → x.isFinite = true := by
  cases hs : numberOf? s with
  | none => exact iff_of_true ((equal_string_iff (.inl hs)).mpr (decide_eq_true rfl)) nofun
  | some x =>
      simp only [equal_of_numbers hs hs, nearlyEqual_self_iff, Option.some.injEq, forall_eq']

end Condition

open Condition

/-- **A text equals itself unless it spells a number that is not finite.** -/
theorem ConditionParams.holds_self_iff {p : ConditionParams} {ctx : Context}
    (hoperator : p.operator = .equals) (hvalue : ctx.resolve p.variableName = .string p.value) :
    p.holds ctx = true ↔ ¬ SpellsNoFinite (splitSign (Text.trim p.value).toList).2 := by
  rw [holds, hoperator, hvalue, test, equal_self_iff, ← Double.exists_ofText?_not_finite_iff,
    numberOf?]
  simp only [not_exists, not_and, Bool.not_eq_false]

/-- The word for infinity does not equal itself. -/
theorem infinity_word_differs :
    Context.resolve (.start "Infinity" []) "input" = .string "Infinity" ∧
    (ConditionParams.answerIs "Infinity").holds (.start "Infinity" []) = false := by
  have hvalue : Context.resolve (.start "Infinity" []) "input" = .string "Infinity" := by cbv
  refine ⟨hvalue, Bool.eq_false_iff.mpr fun hholds => ?_⟩
  have hword : SpellsNoFinite (splitSign (Text.trim "Infinity").toList).2 :=
    .infinity (.inr (by decide +kernel))
  exact (ConditionParams.holds_self_iff (p := .answerIs "Infinity") rfl hvalue).mp hholds hword

end AgentGraph
