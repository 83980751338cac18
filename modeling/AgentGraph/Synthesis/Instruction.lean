/-!
# What a synthesizer is told

The system message of a synthesis. It describes the graphs that can be read, and asks for one JSON
object with texts in a given language.
-/

namespace AgentGraph.Synthesis

/-- The lines of the system message. -/
def instructionLines (language : String) : List String := [
  "You design agent workflows as directed graphs. Given a description, output ONE JSON " ++
    "object:",
  "",
  "```json",
  "\x7b\"nodes\": [<Node>, ...], \"edges\": [<Edge>, ...]\x7d",
  "```",
  "",
  "**Node**: `\x7b\"id\": \"<unique id>\", \"name\": \"<short label>\", \"data\": " ++
    "<Data>\x7d`",
  "",
  "**Data** (pick one per node by `type`):",
  "1. `\x7b\"type\": \"Start\"\x7d` — the single entry point. Exactly one per graph, no " ++
    "incoming edges.",
  "2. `\x7b\"type\": \"Llm\", \"system_instruction\": \"<instruction>\", \"temperature\": " ++
    "0.7\x7d` — generates text. The instruction may use the placeholders " ++
    "`\x7b\x7binput\x7d\x7d` (user message), `\x7b\x7bcontext\x7d\x7d` (previous step " ++
    "output) and `\x7b\x7buser_profile\x7d\x7d`.",
  "3. `\x7b\"type\": \"Agent\", \"agent_id\": \"<persona id>\"\x7d` — hands the message to " ++
    "a named agent persona.",
  "4. `\x7b\"type\": \"Condition\", \"variable\": \"input\", \"operator\": " ++
    "\"contains|equals|not_empty|empty|greater|less\", \"value\": \"<text>\"\x7d` — " ++
    "branches. MUST have two outgoing edges labeled `\"True\"` and `\"False\"`.",
  "5. `\x7b\"type\": \"Classifier\", \"intents\": [\"<A>\", \"<B>\"], \"instruction\": " ++
    "\"<how to classify>\"\x7d` — routes by intent. MUST have one outgoing edge per intent, " ++
    "labeled with the intent text.",
  "6. `\x7b\"type\": \"End\"\x7d` — terminal; returns the last output. No outgoing edges.",
  "",
  "**Edge**: `\x7b\"source\": \"<node id>\", \"target\": \"<node id>\", \"label\": " ++
    "\"<optional branch label>\"\x7d`",
  "",
  "Rules:",
  "- Every edge must reference node ids that exist. No edge may connect a node to itself.",
  "- Every path should finish at an End node.",
  "- Write all names, instructions and intent labels in " ++ language ++ ".",
  "- Output ONLY the JSON object, no commentary."]

/-- The system message of a synthesis. -/
def instruction (language : String) : String := "\n".intercalate (instructionLines language)

end AgentGraph.Synthesis
