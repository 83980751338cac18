import AgentGraph.Agents
import AgentGraph.Chat.Call
import AgentGraph.Condition
import AgentGraph.Intent
import AgentGraph.Template

/-!
# What a node does

`Node.action` tells what a node does in a context. Either its result is known at once, or the node
asks the model one question, and the text of the reply decides the outcome. A node never changes the
context; its outcome asks for the changes.

Start, condition and end nodes never ask, and neither does a classifier without intents: it fails.
-/

namespace AgentGraph

open Numeric

/-- Why the step at a node failed. -/
inductive StepError where
  /-- The model gave no text. -/
  | generation (causes : Causes)
  /-- The step took longer than so many milliseconds. -/
  | timeout (ms : UInt64)
  /-- The classifier, known by its label, has no intents. -/
  | noIntents (label : String)
deriving DecidableEq, Repr

def StepError.message : StepError → String
  | generation causes => s!"generation failed: {causes.message}"
  | timeout ms => s!"timed out after {ms}ms"
  | noIntents label => s!"invalid node: classifier '{label}' declares no intents"

/-- What a step hands on when it succeeds. -/
structure Outcome where
  /-- The text put out; a condition puts out none. -/
  text : Option String
  patch : Patch
  /-- The label of the edges that may be taken; without one the first edge is taken. -/
  branch : Option String
  /-- Remarks for the log. -/
  notes : List String

namespace Outcome

/-- Text that changes nothing. -/
def passing (text : String) : Outcome := ⟨some text, .none, none, []⟩

/-- Generated text: it is the last output from now on, and the variable of the node. -/
def generated (nodeId text : String) (notes : List String) : Outcome :=
  ⟨some text, ⟨some text, [(nodeId, .string text)]⟩, none, notes⟩

/-- A branch of a condition. -/
def decided (holds : Bool) : Outcome :=
  ⟨none, .none, some (if holds then trueLabel else falseLabel), []⟩

/-- The variable that always holds the intent found last. -/
def intentVariable : String := "intent"

/-- An intent: it is the branch and the value of two variables. -/
def classified (nodeId intent : String) (notes : List String) : Outcome :=
  ⟨some intent, ⟨none, [(intentVariable, .string intent), (nodeId, .string intent)]⟩,
    some intent, notes⟩

end Outcome

/-- What a node does: it has its result at once, or it asks the model. -/
inductive Action where
  | done (result : Except StepError Outcome)
  | ask (call : Call) (finish : String → Outcome)

/-- The persona that an agent node refers to; a blank reference refers to none. -/
def AgentParams.persona? (p : AgentParams) (agents : Registry) : Option AgentDefinition :=
  (p.agentId.filter (!Text.isBlank ·)).bind agents.find?

/-- The instruction of an agent node, and the remark when its persona is unknown. -/
def AgentParams.instruction (p : AgentParams) (agents : Registry) : String × List String :=
  match p.persona? agents with
  | some agent => (agent.systemInstruction, [])
  | none =>
    let reference := p.agentId.getD ""
    (genericInstruction, [s!"Agent '{reference}' not found, using the generic assistant"])

/-- The intent that a reply stands for, and the remark when it names none: then it is the
fallback. -/
def ClassifierParams.choose (p : ClassifierParams) (fallback reply : String) :
    String × List String :=
  match matchIntent? reply p.intents with
  | some intent => (intent, [])
  | none =>
    let intent := Text.trim fallback
    (intent, [s!"Reply matched no declared intent, falling back to '{intent}'"])

/-- What a node does in a context. -/
def Node.action (n : Node) (agents : Registry) (ctx : Context) : Action :=
  match n.data with
  | .start => .done (.ok (.passing ctx.input))
  | .finish => .done (.ok (.passing ctx.finalOutput))
  | .condition p => .done (.ok (.decided (p.holds ctx)))
  | .llm p =>
    .ask (.generation (Template.render p.systemInstruction ctx) ctx.input
      (some ⟨p.model, p.temperature⟩))
      fun text => .generated n.id text []
  | .agent p =>
    let (instruction, notes) := p.instruction agents
    .ask (.generation (Template.render instruction ctx) ctx.input (some ⟨p.model, p.temperature⟩))
      fun text => .generated n.id text notes
  | .classifier p =>
    match p.intents.head? with
    | none => .done (.error (.noIntents n.label))
    | some fallback =>
      let instruction := classifierPrompt p.intents (Template.render p.instruction ctx)
      .ask (.generation instruction ctx.input (some ⟨p.model, some .zero⟩)) fun reply =>
        let (intent, notes) := p.choose fallback reply
        .classified n.id intent notes

end AgentGraph
