import AgentGraph.Text.Lower
import AgentGraph.Workflow.Format

/-!
# Entries of a proposed graph

A model proposes a graph as an object with a list of nodes and a list of edges. The entries are read
more leniently than persisted ones. A node may be flat, with its parameters beside its identifier,
and its type may be spelled in any case and with blanks around it; `canonicalNode` gives the
persisted shape of such a node. An edge may lack an identifier.

An entry that cannot be read is `Skipped`, and is named by what it says about itself.
-/

namespace AgentGraph.Synthesis

open Json

/-! ### Nodes -/

/-- The kind that a type spelled in any way stands for. -/
def kindOf? (spelling : String) : Option NodeKind :=
  NodeKind.all.find? fun k => Text.lower k.tag = Text.lower (Text.trim spelling)

/-- The names of the members that are not parameters of a node. -/
def nodeMembers : List String := ["id", "name", "position"]

/-- The data of a node: the member of that name, or for a flat node everything that is no member of
the node itself. -/
def dataMembers (members : List (String × Json)) : List (String × Json) :=
  match members.lookup "data" with
  | some (.object data) => data
  | _ => members.filter fun (name, _) => name ∉ nodeMembers

/-- Data whose type is spelled the way it is persisted. -/
def spellType (data : List (String × Json)) : List (String × Json) :=
  match ((data.lookup "type").bind Json.string?).bind kindOf? with
  | some kind => insertMember "type" (.string kind.tag) data
  | none => data

/-- The persisted shape of a node. -/
def canonicalNode (entry : Json) : Json :=
  match entry with
  | .object members =>
    let own := nodeMembers.filterMap fun name => (members.lookup name).map ((name, ·))
    Json.object (own ++ [("data", .object (spellType (dataMembers members)))]) |>.canonical
  | _ => entry

/-- Read the entry of a node. -/
def readNode (entry : Json) :
    Except Mismatch Node := Node.format.decode .value (canonicalNode entry)

/-! ### Edges -/

/-- An edge as it is proposed. -/
structure ProposedEdge where
  id : Option String
  source : String
  target : String
  label : Option String
deriving DecidableEq, Repr

namespace ProposedEdge

def format : Format ProposedEdge :=
  .record "RawEdge"
    (.cons "id" optionalText (.default none) <| .cons "source" .text .required <|
      .cons "target" .text .required <| .cons "label" optionalText (.default none) .nil)
    (fun (id, source, target, label, _) => ⟨id, source, target, label⟩)
    (fun e => (e.id, e.source, e.target, e.label, ()))

end ProposedEdge

/-- Read the entry of an edge. -/
def readEdge (entry : Json) :
    Except Mismatch ProposedEdge := ProposedEdge.format.decode .value entry

/-! ### Entries that cannot be read -/

inductive EntryKind where
  | node
  | edge
deriving DecidableEq, Repr

def EntryKind.name : EntryKind → String
  | node => "node"
  | edge => "edge"

/-- The name of an entry: its identifier, or else its place in the list, with the nodes it
mentions. -/
def entryName (kind : EntryKind) (index : Nat) (entry : Json) : String :=
  let text? (key : String) : Option String := (entry.member? key).bind Json.string?
  match (text? "id").filter (!·.isEmpty), text? "source", text? "target" with
  | some id, _, _ => s!"{kind.name} '{id}'"
  | none, some source, some target => s!"{kind.name} #{index} ({source} -> {target})"
  | none, _, _ => s!"{kind.name} #{index}"

/-- An entry that cannot be read, and why. -/
structure Skipped where
  kind : EntryKind
  index : Nat
  entry : Json
  mismatch : Mismatch

def Skipped.message (s : Skipped) : String :=
  s!"{entryName s.kind s.index s.entry}: {s.mismatch.message}"

end AgentGraph.Synthesis
