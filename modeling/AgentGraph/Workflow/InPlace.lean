import AgentGraph.Workflow.Edit

/-!
# Editing a workflow where it is kept

An author's workflow is kept in one place and changed there. An operation looks at what is kept,
changes it, and tells its caller what came of it. A refusal is told, not undone: removing throws out
whatever has the identifier, and then looks whether anything is gone.
-/

namespace AgentGraph.Edit

/-- What an operation tells its caller. -/
inductive Response where
  | node (added : Node)
  | edge (added : Option Edge)
  | flag (done : Bool)
  | graph (outcome : Except ValidationError Unit)

/-- The operation was refused. -/
def Response.isRefusal : Response → Bool
  | edge none | flag false | graph (.error _) => true
  | _ => false

/-- Change the first node with an identifier in its place, and tell whether there is one. -/
def changeNode (id : String) (f : Node → Node) : StateM Workflow Response := do
  match updateFirst (·.id = id) f (← get).nodes with
  | some nodes =>
    modify fun w => { w with nodes }
    return .flag true
  | none => return .flag false

/-- Carry out an operation on the workflow that is kept. -/
def carryOut : Edit → StateM Workflow Response
  | addNode id kind position => do
    let n := Workflow.newNode id kind position
    modify fun w => { w with nodes := w.nodes ++ [n] }
    return .node n
  | insertNode n => do
    if ((← get).findNode? n.id).isSome then return .flag false
    else
      modify fun w => { w with nodes := w.nodes ++ [n] }
      return .flag true
  | addEdge id source target label => do
    match (← get).newEdge? id source target label with
    | some e =>
      modify fun w => { w with edges := w.edges ++ [e] }
      return .edge (some e)
    | none => return .edge none
  | removeNode id => do
    let before := (← get).nodes.length
    modify fun w => { w with nodes := w.nodes.filter (·.id ≠ id) }
    if (← get).nodes.length = before then return .flag false
    else
      modify fun w => { w with edges := w.edges.filter fun e => e.source ≠ id && e.target ≠ id }
      return .flag true
  | removeEdge id => do
    let before := (← get).edges.length
    modify fun w => { w with edges := w.edges.filter (·.id ≠ id) }
    return .flag ((← get).edges.length ≠ before)
  | relabelEdge id label => do
    let label := normalizeLabel label
    match (← get).findEdge? id with
    | none => return .flag false
    | some e =>
      if (← get).edges.any fun other => other.id ≠ id && other.connects e.source e.target label then
        return .flag false
      else
        match updateFirst (·.id = id) (fun e => { e with label }) (← get).edges with
        | some edges =>
          modify fun w => { w with edges }
          return .flag true
        | none => return .flag false
  | renameNode id name => changeNode id fun n => { n with name }
  | moveNode id position => changeNode id fun n => { n with position }
  | updateNodeData id data => do
    match (← get).findNode? id with
    | some n =>
      if n.kind = data.kind then changeNode id fun n => { n with data } else return .flag false
    | none => return .flag false
  | replaceGraph nodes edges => do
    match validate nodes edges with
    | .error e => return .graph (.error e)
    | .ok () =>
      modify fun w => { w with nodes }
      modify fun w => { w with edges }
      return .graph (.ok ())

end AgentGraph.Edit
