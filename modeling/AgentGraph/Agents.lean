import AgentGraph.Json.Read

/-!
# Registered personas

An agent node names a persona by its identifier. When two definitions share an identifier the later
one counts.
-/

namespace AgentGraph

open Json

/-- A persona that an agent node can run as. -/
structure AgentDefinition where
  id : String
  displayName : String
  systemInstruction : String
deriving DecidableEq, Repr

namespace AgentDefinition

def format : Format AgentDefinition :=
  .record "AgentDefinition"
    (.cons "id" .text .required <| .cons "display_name" .text .required <|
      .cons "system_instruction" .text .required .nil)
    (fun (id, displayName, systemInstruction, _) => ⟨id, displayName, systemInstruction⟩)
    (fun a => (a.id, a.displayName, a.systemInstruction, ()))

end AgentDefinition

/-- The personas known to a run, one for each identifier. -/
structure Registry where
  agents : List AgentDefinition
deriving DecidableEq, Repr

namespace Registry

def empty : Registry := ⟨[]⟩

def find? (r : Registry) (id : String) : Option AgentDefinition := r.agents.find? (·.id = id)

/-- Add a persona in place of the one with the same identifier. -/
def insert (r : Registry) (agent : AgentDefinition) : Registry :=
  ⟨agent :: r.agents.filter (·.id ≠ agent.id)⟩

def ofList (agents : List AgentDefinition) : Registry := agents.foldl insert empty

def size (r : Registry) : Nat := r.agents.length

@[simp]
theorem find?_insert (r : Registry) (agent : AgentDefinition) (id : String) :
    (r.insert agent).find? id = if agent.id = id then some agent else r.find? id := by
  by_cases h : agent.id = id
  · simp [insert, find?, h]
  · simp only [insert, find?, List.find?_cons, h, decide_false, ↓reduceIte, List.find?_filter]
    congr 1
    funext a
    by_cases ha : a.id = id <;> simp [ha, Ne.symm h]

end Registry

end AgentGraph
