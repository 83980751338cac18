import AgentGraph.Text.Blank
import AgentGraph.Text.Lower
import AgentGraph.Text.Search

/-!
# Asking for an intent

A classifier shows the model its intents and has it name one. The reply may be wordy, so
`matchIntent?` looks for an intent that is the whole reply, quotes and full stops around it aside,
and then for the first one that occurs anywhere in the reply. The case of letters and the blanks
around an intent never count.
-/

namespace AgentGraph

open Text

/-- The instruction of an agent step whose persona is unknown. -/
def genericInstruction : String :=
  "You are a helpful, concise assistant. Answer the user's request directly."

/-- The system message that asks for exactly one of the intents. -/
def classifierPrompt (intents : List String) (instruction : String) : String :=
  let listed := "\n".intercalate (intents.map fun i => "- " ++ i)
  let preface := if isBlank instruction then "" else trim instruction ++ "\n\n"
  preface ++ "Classify the user's message into exactly one of these intents:\n" ++
    listed ++ "\n\n" ++
    "Reply with the intent label only, exactly as written above. Do not explain."

/-- The intents in order, each on a line of its own. -/
inductive IntentLines : List String → String → Prop
  | last (intent : String) : IntentLines [intent] ("- " ++ intent)
  | line (intent : String) {intents : List String} {lines : String} : IntentLines intents lines →
      IntentLines (intent :: intents) ("- " ++ intent ++ "\n" ++ lines)

/-- A message that asks for exactly one of the intents. The instruction comes first, trimmed, if
there is one. -/
inductive AsksForIntent (intents : List String) (instruction : String) : String → Prop
  | alone {lines : String} : isBlank instruction = true → IntentLines intents lines →
      AsksForIntent intents instruction
        ("Classify the user's message into exactly one of these intents:\n" ++ lines ++ "\n\n" ++
          "Reply with the intent label only, exactly as written above. Do not explain.")
  | instructed {lines : String} : isBlank instruction = false → IntentLines intents lines →
      AsksForIntent intents instruction
        (trim instruction ++ "\n\n" ++
          "Classify the user's message into exactly one of these intents:\n" ++ lines ++ "\n\n" ++
          "Reply with the intent label only, exactly as written above. Do not explain.")

theorem intentLines_intercalate {intents : List String} (h : intents ≠ []) :
    IntentLines intents ("\n".intercalate (intents.map fun i => "- " ++ i)) := by
  induction intents with
  | nil => exact absurd rfl h
  | cons intent intents ih =>
      cases intents with
      | nil =>
          rw [List.map_singleton, String.intercalate_singleton]
          exact .last intent
      | cons next intents =>
          rw [List.map_cons, List.map_cons, String.intercalate_cons_cons]
          exact .line intent (ih (List.cons_ne_nil next intents))

theorem asksForIntent_classifierPrompt {intents : List String} (h : intents ≠ [])
    (instruction : String) :
    AsksForIntent intents instruction (classifierPrompt intents instruction) := by
  have hlines := intentLines_intercalate h
  cases hblank : isBlank instruction with
  | true =>
      rw [classifierPrompt, hblank, if_pos rfl, String.empty_append]
      exact .alone hblank hlines
  | false =>
      rw [classifierPrompt, hblank, if_neg Bool.false_ne_true]
      exact .instructed hblank hlines

/-- The marks that are stripped around a reply. -/
def isReplyMark (c : Char) : Bool := c = '"' || c = '\'' || c = '\x60' || c = '.'

/-- The reply without what may surround a bare label, in lower case. -/
def bareReply (reply : String) : String := lower (trim (trimBy isReplyMark (trim reply)))

/-- The intent that a reply names. -/
def matchIntent? (reply : String) (intents : List String) : Option String :=
  let labels := intents.map trim
  let whole := labels.find? fun i => lower i = bareReply reply
  let anywhere := labels.find? fun i => !i.isEmpty && contains (lower reply) (lower i)
  whole <|> anywhere

end AgentGraph
