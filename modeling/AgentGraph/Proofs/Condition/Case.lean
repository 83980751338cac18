import AgentGraph.Condition
import AgentGraph.Proofs.Text.Case

/-!
# Equality of texts

`equals` compares texts that are not both numbers. It ignores the case of the letters from A to Z
only, while `contains` lowers all letters: the two agree just when the texts have the same
characters beyond ASCII at the same places (`ConditionParams.holds_equals_iff`).
-/

namespace AgentGraph

open Text

namespace Condition

/-- Two texts that are not both numbers are compared as texts. -/
theorem equal_string_iff {s t : String} (h : numberOf? s = none ∨ numberOf? t = none) :
    equal (.string s) t = true ↔ equalIgnoringAsciiCase (trim s) (trim t) = true := by
  have hnumber : asNumber? (.string s) = numberOf? s := rfl
  rw [equal, hnumber]
  rcases h with hs | ht
  · rw [hs]
    rfl
  · rw [ht]
    cases numberOf? s <;> rfl

end Condition

open Condition

/-- **`equals` goes by the lower-case forms of two texts, but wants the characters beyond ASCII to
be the same.** -/
theorem ConditionParams.holds_equals_iff {p : ConditionParams} {ctx : Context} {s : String}
    (hoperator : p.operator = .equals) (hvalue : ctx.resolve p.variableName = .string s)
    (htexts : ¬ ((numberOf? s).isSome ∧ (numberOf? p.value).isSome)) :
    p.holds ctx = true ↔
      lower (trim s) = lower (trim p.value) ∧
        SameBeyondAscii (trim s).toList (trim p.value).toList := by
  have hnumbers : numberOf? s = none ∨ numberOf? p.value = none := by
    rw [not_and_or, Option.not_isSome_iff_eq_none, Option.not_isSome_iff_eq_none] at htexts
    exact htexts
  rw [holds, hoperator, hvalue, test, equal_string_iff hnumbers, equalIgnoringAsciiCase_iff]

/-- Is the answer this one? -/
def ConditionParams.answerIs (value : String) : ConditionParams := ⟨"input", .equals, value⟩

/-- A capital E with an accent and a small one have one lower-case form, but are not equal. -/
theorem accented_capital_differs :
    Context.resolve (.start " CAFÉ" []) "input" = .string " CAFÉ" ∧
      ¬ ((numberOf? " CAFÉ").isSome ∧ (numberOf? "café").isSome) ∧
      lower (trim " CAFÉ") = lower (trim "café") ∧
      (ConditionParams.answerIs "café").holds (.start " CAFÉ" []) = false := by
  have hvalue : Context.resolve (.start " CAFÉ" []) "input" = .string " CAFÉ" := by cbv
  have htexts : ¬ ((numberOf? " CAFÉ").isSome ∧ (numberOf? "café").isSome) := by decide +kernel
  refine ⟨hvalue, htexts, by decide +kernel, Bool.eq_false_iff.mpr fun hholds => ?_⟩
  obtain ⟨-, hsame⟩ :=
    (ConditionParams.holds_equals_iff (p := .answerIs "café") rfl hvalue htexts).mp hholds
  have hthere : (trim " CAFÉ").toList[3]? = some 'É' := by decide +kernel
  have hmissing : (trim "café").toList[3]? ≠ some 'É' := by decide +kernel
  exact hmissing ((hsame 3 'É' (by decide)).mp hthere)

end AgentGraph
