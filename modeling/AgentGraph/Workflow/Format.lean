import AgentGraph.Json.Read
import AgentGraph.Workflow.Basic

/-!
# The persisted form of workflows

Names, positions and edge labels may be left out, and so may every parameter of a node, which then
has its default. The kind of a node is the member `type` of its data.
-/

namespace AgentGraph

open Json

/-- Optional text, as null when there is none. -/
def optionalText : Format (Option String) := .option .text

namespace Position

def format : Format Position :=
  .record "Position"
    (.cons "x" .single .required (.cons "y" .single .required .nil))
    (fun (x, y, _) => ⟨x, y⟩) (fun p => (p.x, p.y, ()))

end Position

namespace Edge

def format : Format Edge :=
  .record "Edge"
    (.cons "id" .text .required <| .cons "source" .text .required <|
      .cons "target" .text .required <| .cons "label" optionalText .hiddenNone .nil)
    (fun (id, source, target, label, _) => ⟨id, source, target, label⟩)
    (fun e => (e.id, e.source, e.target, e.label, ()))

end Edge

namespace Operator

def name : Operator → String
  | contains => "contains"
  | equals => "equals"
  | notEmpty => "not_empty"
  | empty => "empty"
  | greater => "greater"
  | less => "less"

def all : List Operator := [contains, equals, notEmpty, empty, greater, less]

def format : Format Operator := .names (all.map fun op => (op.name, op)) name

end Operator

namespace LlmParams

def fields :=
  Fields.cons "system_instruction" .text (.default LlmParams.default.systemInstruction) <|
  Fields.cons "model" optionalText (.default LlmParams.default.model) <|
  Fields.cons "temperature" (.option .single) (.default LlmParams.default.temperature) .nil

end LlmParams

namespace AgentParams

def fields :=
  Fields.cons "agent_id" optionalText (.default AgentParams.default.agentId) <|
  Fields.cons "model" optionalText (.default AgentParams.default.model) <|
  Fields.cons "temperature" (.option .single) (.default AgentParams.default.temperature) .nil

end AgentParams

namespace ConditionParams

def fields :=
  Fields.cons "variable" .text (.default ConditionParams.default.variableName) <|
  Fields.cons "operator" Operator.format (.default ConditionParams.default.operator) <|
  Fields.cons "value" .text (.default ConditionParams.default.value) .nil

def format : Format ConditionParams :=
  .record "ConditionParams" fields (fun (v, o, t, _) => ⟨v, o, t⟩)
    (fun p => (p.variableName, p.operator, p.value, ()))

end ConditionParams

namespace ClassifierParams

def fields :=
  Fields.cons "intents" (.list .text) (.default ClassifierParams.default.intents) <|
  Fields.cons "instruction" .text (.default ClassifierParams.default.instruction) <|
  Fields.cons "model" optionalText (.default ClassifierParams.default.model) .nil

end ClassifierParams

namespace NodeKind

/-- The name of the kind in JSON. -/
def tag : NodeKind → String
  | start => "Start"
  | llm => "Llm"
  | agent => "Agent"
  | condition => "Condition"
  | classifier => "Classifier"
  | finish => "End"

def all : List NodeKind := [start, llm, agent, condition, classifier, finish]

def format : Format NodeKind := .names (all.map fun k => (k.tag, k)) tag

end NodeKind

namespace NodeData

def format : Format NodeData :=
  .tagged "NodeData" "type" <|
    .bare (NodeKind.tag .start) .start (· = .start) <|
    .fields (NodeKind.tag .llm) "struct LlmParams" LlmParams.fields
      (fun (s, m, t, _) => .llm ⟨s, m, t⟩)
      (fun | .llm p => some (p.systemInstruction, p.model, p.temperature, ()) | _ => none) <|
    .fields (NodeKind.tag .agent) "struct AgentParams" AgentParams.fields
      (fun (a, m, t, _) => .agent ⟨a, m, t⟩)
      (fun | .agent p => some (p.agentId, p.model, p.temperature, ()) | _ => none) <|
    .fields (NodeKind.tag .condition) "struct ConditionParams" ConditionParams.fields
      (fun (v, o, t, _) => .condition ⟨v, o, t⟩)
      (fun | .condition p => some (p.variableName, p.operator, p.value, ()) | _ => none) <|
    .fields (NodeKind.tag .classifier) "struct ClassifierParams" ClassifierParams.fields
      (fun (i, t, m, _) => .classifier ⟨i, t, m⟩)
      (fun | .classifier p => some (p.intents, p.instruction, p.model, ()) | _ => none) <|
    .bare (NodeKind.tag .finish) .finish (· = .finish) .nil

end NodeData

namespace Node

def format : Format Node :=
  .record "Node"
    (.cons "id" .text .required <| .cons "name" .text (.default "") <|
      .cons "position" Position.format (.default .origin) <|
      .cons "data" NodeData.format .required .nil)
    (fun (id, name, position, data, _) => ⟨id, name, position, data⟩)
    (fun n => (n.id, n.name, n.position, n.data, ()))

end Node

namespace Workflow

def format : Format Workflow :=
  .record "Workflow"
    (.cons "id" Uuid.format .required <| .cons "name" .text .required <|
      .cons "nodes" (.list Node.format) .required <|
      .cons "edges" (.list Edge.format) .required .nil)
    (fun (id, name, nodes, edges, _) => ⟨id, name, nodes, edges⟩)
    (fun w => (w.id, w.name, w.nodes, w.edges, ()))

end Workflow

end AgentGraph
