import AgentGraph.Text.Blank

/-!
# Chains of causes

When something fails because something else failed, the reasons form a chain with the outermost
reason first. `Causes.message` tells the chain on one line, and `Causes.report` as a paragraph for
people.
-/

namespace AgentGraph

/-- The reasons of a failure, the outermost first. -/
abbrev Causes := List String

namespace Causes

/-- The chain on one line. -/
def message (causes : Causes) : String := ": ".intercalate causes

/-- A text whose first line begins with `lead` and whose other lines begin with `margin`. -/
def hanging (lead margin text : String) : String :=
  lead ++ ("\n" ++ margin).intercalate (Text.lines text)

/-- One of several causes with its number, which is set in five columns. -/
def numbered (number : Nat) (cause : String) : String :=
  let digits := toString number
  hanging (String.ofList (List.replicate (5 - digits.length) ' ') ++ digits ++ ": ") "       " cause

/-- The outermost reason, and under a heading what caused it. -/
def report : Causes → String
  | [] => ""
  | [reason] => reason
  | [reason, cause] => reason ++ "\n\nCaused by:\n" ++ hanging "    " "    " cause
  | reason :: causes =>
    reason ++ "\n\nCaused by:\n" ++
      "\n".intercalate (causes.zipIdx.map fun (cause, n) => numbered n cause)

end Causes

end AgentGraph
