import AgentGraph.Chat.Client

/-!
# Models that answer by script

For rehearsals and trials a model can be replaced by a script. A `Source` gives one `Cue` for each
call: either the next one of a list, and a fallback once the list is used up, or what a client makes
of the next response of an endpoint that itself answers by script.
-/

namespace AgentGraph

/-- One turn of a scripted model: what it answers, and what happens before it does. -/
structure Cue where
  reply : Reply
  /-- A stop is asked for as soon as the call is made. -/
  stops : Bool
  /-- The model takes so many milliseconds. -/
  delayMs : Nat
  /-- After that the model waits for the gate to open. -/
  atGate : Bool

namespace Cue

/-- A reply that comes at once. -/
def prompt (reply : Reply) : Cue := ⟨reply, false, 0, false⟩

/-- A text that comes at once. -/
def text (content : String) : Cue := prompt (.ok (.ofContents [some content]))

end Cue

/-- An endpoint that answers by script, and the requests it got, the latest first. -/
structure Endpoint where
  responses : List (Nat × String)
  requests : List Http.Request

namespace Endpoint

/-- Take a request and give the next response. -/
def serve (e : Endpoint) (request : Http.Request) : Http.Exchange × Endpoint :=
  let (status, body) := e.responses.head?.getD (503, "script exhausted")
  (.answered status body, ⟨e.responses.tail, request :: e.requests⟩)

/-- The reply that a client gets. -/
def reply (e : Endpoint) (client : Client) (call : Call) : Reply × Endpoint :=
  match client.request call with
  | .error _ => (client.reply (fun _ => .failed []) call, e)
  | .ok request =>
    let (exchange, e) := e.serve request
    (client.reply (fun _ => exchange) call, e)

end Endpoint

/-- Where the replies of a model come from. -/
inductive Source where
  | script (cues : List Cue) (fallback : Cue)
  | endpoint (client : Client) (endpoint : Endpoint)

namespace Source

/-- The turn of the model for a call. -/
def next (source : Source) (call : Call) : Cue × Source :=
  match source with
  | .script [] fallback => (fallback, source)
  | .script (cue :: cues) fallback => (cue, .script cues fallback)
  | .endpoint client e =>
    let (reply, e) := e.reply client call
    (.prompt reply, .endpoint client e)

/-- The requests that were sent, in order. -/
def requests : Source → List Http.Request
  | .script .. => []
  | .endpoint _ e => e.requests.reverse

end Source

end AgentGraph
