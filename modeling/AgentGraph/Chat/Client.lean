import AgentGraph.Chat.Call
import AgentGraph.Chat.Http
import AgentGraph.Text.Search

/-!
# A client of the chat-completion interface

A `Client` turns a call into a request, `Client.request`, and what comes of the request into a
reply, `Client.replyTo`. Sending the request is left to the caller, so both halves are plain
functions.

What a call overrides wins over the settings of the client. Settings without a value are left out of
the request.
-/

namespace AgentGraph

open Json Numeric

/-- The settings of a client. -/
structure Client where
  baseUrl : String
  apiKey : Option String
  model : String
  temperature : Option Single
  maxTokens : Option UInt32
deriving DecidableEq, Repr

/-- The document that is posted. -/
structure ChatRequest where
  model : String
  messages : List Message
  temperature : Option Single
  maxTokens : Option UInt32
deriving DecidableEq, Repr

def ChatRequest.format : Format ChatRequest :=
  .record "ChatRequest"
    (.cons "model" .text .required <| .cons "messages" (.list Message.format) .required <|
      .cons "temperature" (.option .single) .hiddenNone <|
      .cons "max_tokens" (.option .word32) .hiddenNone .nil)
    (fun (model, messages, temperature, maxTokens, _) => ⟨model, messages, temperature, maxTokens⟩)
    (fun r => (r.model, r.messages, r.temperature, r.maxTokens, ()))

namespace Client

/-- The settings of a model server on the same machine. -/
def default : Client where
  baseUrl := "http://localhost:1234/v1"
  apiKey := none
  model := "local-model"
  temperature := some (Binary.round false 7 10 0)
  maxTokens := some 4096

/-- The address of the interface; slashes at the end of the base do not count. -/
def url (c : Client) : String := Text.dropEndWhile (· = '/') c.baseUrl ++ "/chat/completions"

/-- The document for a call. -/
def document (c : Client) (call : Call) : ChatRequest :=
  let overrides := call.overrides.getD .none
  ⟨overrides.model.getD c.model, call.messages, overrides.temperature <|> c.temperature,
    c.maxTokens⟩

/-- The request for a call, unless the settings allow none. -/
def request (c : Client) (call : Call) : Except Causes Http.Request := do
  Http.checkUrl c.url
  let authorization := c.apiKey.map ("Bearer " ++ ·)
  unless authorization.all Http.isHeaderValue do
    throw ["builder error", "failed to parse header value"]
  return ⟨c.url, authorization, ChatRequest.format.compact (c.document call)⟩

/-- The reply that a response stands for. -/
def replyTo (status : Nat) (body : String) : Reply :=
  if Http.isSuccess status then
    (Completion.format.ofText? body).mapError fun e =>
      ["Failed to parse LLM response", "error decoding response body", e.message]
  else .error [s!"LLM request failed ({Http.statusText status}): {body}"]

/-- The reason given for every request that was not answered. -/
def unsent (causes : Causes) : Causes := "Failed to send request to LLM" :: causes

/-- The reply to a call, given how requests are answered. -/
def reply (c : Client) (answer : Http.Request → Http.Exchange) (call : Call) : Reply :=
  match c.request call with
  | .error causes => .error (unsent causes)
  | .ok request =>
    match answer request with
    | .failed causes => .error (unsent causes)
    | .answered status body => replyTo status body

end Client

end AgentGraph
