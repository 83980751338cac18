import AgentGraph.Chat.Call
import AgentGraph.Synthesis.Draft
import AgentGraph.Synthesis.Instruction
import AgentGraph.Workflow.Edit

/-!
# Asking for a graph

A synthesis asks a model for a graph that fits a description. A reply that is rejected is answered
once with everything that is wrong with it; the second reply has to do. A call that fails ends the
synthesis, and so does a reply without text.
-/

namespace AgentGraph.Synthesis

/-- Why there is no graph. -/
inductive SynthesisError where
  | call (causes : Causes)
  | noText
  | rejected (attempts : Nat) (rejection : Rejection)

def SynthesisError.causes : SynthesisError → Causes
  | call causes => "Synthesizer LLM call failed" :: causes
  | noText => ["Synthesizer returned no text content"]
  | rejected attempts rejection =>
    [s!"Synthesized graph rejected after {attempts} attempts", rejection.message]

/-- A valid graph with a name for it. -/
structure Proposal where
  name : String
  draft : Draft

/-- Make the proposal the graph of a workflow. -/
def Proposal.install (p : Proposal) (w : Workflow) : Except ValidationError Workflow :=
  w.replaceGraph p.draft.nodes p.draft.edges

/-! ### The name -/

/-- How many words of a description are kept for the name. -/
def nameWords : Nat := 6

/-- The first line that is not blank, cut to a few words. -/
def nameFor (description : String) : String :=
  let line := ((Text.lines description).find? (!Text.isBlank ·)).getD "Synthesized workflow"
  let words := Text.words line
  if words.length ≤ nameWords then " ".intercalate words
  else " ".intercalate (words.take nameWords) ++ "..."

/-! ### The conversation -/

/-- The messages of the first call. -/
def opening (description language : String) : List Message :=
  [.system (instruction language), .user s!"Design a workflow for: {description}"]

/-- The messages that tell the model what is wrong with its reply. -/
def correction (reply : String) (rejection : Rejection) : List Message :=
  [.assistant reply, .user rejection.feedback]

/-- How many rejected replies are answered. -/
def maxCorrections : Nat := 1

/-- What came of a synthesis, and the calls it made. -/
structure Synthesized (α σ : Type) where
  result : Except SynthesisError α
  calls : List Call
  world : σ

/-- Go on with a conversation in which so many more replies may be rejected and answered. The model
has states of type `σ`; `mint` supplies new identifiers for each reply. -/
def converse {σ : Type} (ask : σ → Call → Reply × σ) (mint : Nat → Nat → Uuid) :
    (corrections : Nat) → List Message → σ → Synthesized Draft σ
  | corrections, messages, s =>
    let call : Call := ⟨messages, none⟩
    let (reply, s) := ask s call
    match reply with
    | .error causes => ⟨.error (.call causes), [call], s⟩
    | .ok completion =>
      match completion.firstText? with
      | none => ⟨.error .noText, [call], s⟩
      | some text =>
        match readDraft (mint corrections) text with
        | .ok draft => ⟨.ok draft, [call], s⟩
        | .error rejection =>
          match corrections with
          | 0 => ⟨.error (.rejected (maxCorrections + 1) rejection), [call], s⟩
          | corrections + 1 =>
            let rest := converse ask mint corrections (messages ++ correction text rejection) s
            { rest with calls := call :: rest.calls }

/-- Ask a model for a graph that fits a description. -/
def synthesize {σ : Type} (ask : σ → Call → Reply × σ) (mint : Nat → Nat → Uuid)
    (description language : String) (s : σ) : Synthesized Proposal σ :=
  let r := converse ask mint maxCorrections (opening description language) s
  ⟨r.result.map fun draft => ⟨nameFor description, draft⟩, r.calls, r.world⟩

end AgentGraph.Synthesis
