import AgentGraph.Context
import AgentGraph.Numeric.Decimal
import AgentGraph.Text.Lower
import AgentGraph.Workflow.Basic

/-!
# Conditions

A condition compares the value of a variable with a text. When both sides are numbers, `equals`,
`greater` and `less` compare them as 64-bit floating-point numbers, `equals` within a small
tolerance; otherwise `equals` compares texts without the blanks around them, up to the case of the
letters A to Z, and the other two fail. `contains` ignores the case of all letters.
-/

namespace AgentGraph

open Numeric

namespace Condition

/-- A value as text; null is the empty text. -/
def asText : Json → String
  | .null => ""
  | .string s => s
  | v => v.compact

/-- Nothing, blank text, or an empty collection. -/
def isEmpty : Json → Bool
  | .null => true
  | .string s => Text.isBlank s
  | .list vs => vs.isEmpty
  | .object ms => ms.isEmpty
  | .bool _ | .number _ => false

/-- The number that a text spells, blanks around it aside. -/
def numberOf? (s : String) : Option Double := Double.ofText? (Text.trim s)

/-- A value as a number: numbers, and texts that spell one. -/
def asNumber? : Json → Option Double
  | .number (.whole n) => some (.ofInt n)
  | .number (.single x) => some x.convert
  | .number (.double x) => some x
  | .string s => numberOf? s
  | _ => none

/-- Are two numbers less than the least difference at 1 apart? -/
def nearlyEqual (x y : Double) : Bool := (x.sub y).abs.lt Double.epsilon

/-- Equality of numbers where both sides are numbers, of texts otherwise. -/
def equal (left : Json) (right : String) : Bool :=
  match asNumber? left, numberOf? right with
  | some x, some y => nearlyEqual x y
  | _, _ => Text.equalIgnoringAsciiCase (Text.trim (asText left)) (Text.trim right)

/-- Compare two sides that must both be numbers. -/
def compare (left : Json) (right : String) (holds : Double → Double → Bool) : Bool :=
  match asNumber? left, numberOf? right with
  | some x, some y => holds x y
  | _, _ => false

/-- Does the value on the left compare with the text on the right as the operator asks? -/
def test (op : Operator) (left : Json) (right : String) : Bool :=
  match op with
  | .contains => Text.contains (Text.lower (asText left)) (Text.lower right)
  | .equals => equal left right
  | .empty => isEmpty left
  | .notEmpty => !isEmpty left
  | .greater => compare left right fun x y => y.lt x
  | .less => compare left right fun x y => x.lt y

end Condition

/-- Does the condition hold in a context? -/
def ConditionParams.holds (p : ConditionParams) (ctx : Context) : Bool :=
  Condition.test p.operator (ctx.resolve p.variableName) p.value

end AgentGraph
