import AgentGraph.Workflow.Format

/-!
# Messages to and from a language model

The shapes of the chat-completion interface: the request sent, and the completion received. Only the
first choice of a completion is ever looked at, and text made of blanks counts as no text.
-/

namespace AgentGraph

open Json Numeric

/-- One message of a conversation. -/
structure Message where
  role : String
  content : Option String
deriving DecidableEq, Repr

namespace Message

def system (content : String) : Message := ⟨"system", some content⟩

def user (content : String) : Message := ⟨"user", some content⟩

def assistant (content : String) : Message := ⟨"assistant", some content⟩

/-- The text of a message, unless it is blank. -/
def text? (m : Message) : Option String := m.content.filter (!Text.isBlank ·)

/-- The content may be missing from an object and is not written when there is none. -/
def format : Format Message :=
  .record "Message"
    (.cons "role" .text .required <|
      .cons "content" optionalText ⟨some none, none, Option.isNone⟩ .nil)
    (fun (role, content, _) => ⟨role, content⟩) (fun m => (m.role, m.content, ()))

end Message

/-- One answer among those the model offers. -/
structure Choice where
  index : UInt32
  message : Message
  finishReason : Option String
deriving DecidableEq, Repr

def Choice.format : Format Choice :=
  .record "Choice"
    (.cons "index" .word32 .required <| .cons "message" Message.format .required <|
      .cons "finish_reason" optionalText .optional .nil)
    (fun (index, message, finishReason, _) => ⟨index, message, finishReason⟩)
    (fun c => (c.index, c.message, c.finishReason, ()))

/-- What a generation cost. -/
structure Usage where
  promptTokens : UInt32
  completionTokens : UInt32
  totalTokens : UInt32
deriving DecidableEq, Repr

def Usage.format : Format Usage :=
  .record "Usage"
    (.cons "prompt_tokens" .word32 .required <| .cons "completion_tokens" .word32 .required <|
      .cons "total_tokens" .word32 .required .nil)
    (fun (prompt, completion, total, _) => ⟨prompt, completion, total⟩)
    (fun u => (u.promptTokens, u.completionTokens, u.totalTokens, ()))

/-- What the model answers. -/
structure Completion where
  id : String
  choices : List Choice
  usage : Option Usage
deriving DecidableEq, Repr

namespace Completion

/-- The text of the first choice. -/
def firstText? (c : Completion) : Option String := c.choices.head?.bind (·.message.text?)

def format : Format Completion :=
  .record "ChatResponse"
    (.cons "id" .text .required <| .cons "choices" (.list Choice.format) .required <|
      .cons "usage" (.option Usage.format) .optional .nil)
    (fun (id, choices, usage, _) => ⟨id, choices, usage⟩)
    (fun c => (c.id, c.choices, c.usage, ()))

end Completion

/-- What a node asks for instead of the defaults of the model. -/
structure Overrides where
  model : Option String
  temperature : Option Single
deriving DecidableEq, Repr

def Overrides.none : Overrides := ⟨.none, .none⟩

end AgentGraph
