import AgentGraph.Causes
import AgentGraph.Chat.Message

/-!
# Calls to a language model

A call sends a conversation. The reply is a completion, or the causes why there is none. Generating
text needs more than a completion: its first choice has to hold text, and a blank text is none.
-/

namespace AgentGraph

/-- What is sent to the model. -/
structure Call where
  messages : List Message
  overrides : Option Overrides
deriving DecidableEq, Repr

/-- The call that generates text for a prompt under an instruction. -/
def Call.generation (instruction prompt : String) (overrides : Option Overrides) : Call :=
  ⟨[.system instruction, .user prompt], overrides⟩

/-- What comes of a call. -/
abbrev Reply := Except Causes Completion

/-- The text that a call generated; messages call the model by its name. -/
def Reply.text (model : String) (reply : Reply) : Except Causes String := do
  match (← reply).firstText? with
  | some text => return text
  | none => throw [s!"{model} returned no text content"]

/-- The reply with one choice, whose content may be missing. -/
def Completion.ofContents (contents : List (Option String)) : Completion where
  id := ""
  choices := contents.zipIdx.map fun (content, i) => ⟨.ofNat i, ⟨"assistant", content⟩, none⟩
  usage := none

end AgentGraph
