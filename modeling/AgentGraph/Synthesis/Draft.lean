import AgentGraph.Synthesis.Entry
import AgentGraph.Workflow.Validation

/-!
# Reading a proposed graph

`readDraft` reads the reply of a model. What surrounds the object in the reply is ignored, and so
are entries that cannot be read, edges from a node to itself and repeated edges. What is left has to
be a valid graph, or the reply is rejected. Nothing is dropped silently: an accepted `Draft` has a
warning for each entry that is not in it, and a `Rejection` names each entry that could not be read.

Blank identifiers, and edge identifiers already taken, are replaced by new ones; `mint` supplies
them, and its number is the place of the node among the nodes, or that of the edge's entry after
those.
-/

namespace AgentGraph.Synthesis

open Json Numeric

/-! ### What can come of a reply -/

/-- Why a reply is rejected. -/
inductive Problem where
  | noObject
  | notGraph (e : ReadError)
  | noNodes
  | invalid (e : ValidationError)
deriving DecidableEq, Repr

def Problem.message : Problem → String
  | noObject => "no JSON object found in the reply"
  | notGraph e => s!"the reply is not a valid graph object: {e.message}"
  | noNodes => "the graph has no usable nodes"
  | invalid e => e.message

/-- A reply that cannot be used: everything that is wrong, and the entries that could not be
read. -/
structure Rejection where
  problems : List Problem
  skipped : List Skipped

/-- What an accepted reply has lost. -/
inductive Warning where
  | selfLoop (nodeId : String)
  | duplicateEdge (source target : String)
  | unreadable (entry : Skipped)

def Warning.message : Warning → String
  | selfLoop nodeId => s!"Self-loop on '{nodeId}' removed"
  | duplicateEdge source target => s!"Duplicate edge {source} -> {target} removed"
  | unreadable entry => s!"Skipped {entry.message}"

/-- An accepted reply. -/
structure Draft where
  nodes : List Node
  edges : List Edge
  warnings : List Warning

/-! ### The object in a reply -/

/-- The text from the first opening brace to the last closing one after it. -/
def outerObject? (reply : String) : Option String :=
  let afterLast := (reply.toList.dropWhile (· ≠ '\x7b')).reverse.dropWhile (· ≠ '\x7d')
  if afterLast.isEmpty then none else some (String.ofList afterLast.reverse)

/-- The entries of a proposed graph. -/
structure Entries where
  nodes : List Json
  edges : List Json

def Entries.format : Format Entries :=
  .record "RawGraph"
    (.cons "nodes" (.list .any) (.default []) <| .cons "edges" (.list .any) (.default []) .nil)
    (fun (nodes, edges, _) => ⟨nodes, edges⟩) (fun e => (e.nodes, e.edges, ()))

/-! ### Nodes -/

/-- The nodes that can be read, and the entries that cannot; `index` is the place of the first
entry. -/
def readNodes : (index : Nat) → List Json → List Node × List Skipped
  | _, [] => ([], [])
  | index, entry :: entries =>
    let (nodes, skipped) := readNodes (index + 1) entries
    match readNode entry with
    | .ok node => (node :: nodes, skipped)
    | .error mismatch => (nodes, ⟨.node, index, entry, mismatch⟩ :: skipped)

/-- Give a node without an identifier a new one. -/
def identify (mint : Nat → Uuid) (place : Nat) (n : Node) : Node :=
  if Text.isBlank n.id then { n with id := (mint place).toString } else n

/-- A coordinate on the grid. The count, the product and the sum are each rounded to 32 bits. -/
def gridLine (spacing count : Nat) : Single :=
  (Binary.ofNat 100).add ((Binary.ofNat count).scaleUp (.ofNat spacing))

/-- The place of a node in rows of four. -/
def gridPosition (place : Nat) : Position := ⟨gridLine 260 (place % 4), gridLine 180 (place / 4)⟩

/-- Put the nodes in rows when none of them has a position. -/
def layOut (nodes : List Node) : List Node :=
  if nodes.all (·.position.numEq .origin) then
    nodes.zipIdx.map fun (n, place) => { n with position := gridPosition place }
  else nodes

/-- The nodes of a draft. -/
def settleNodes (mint : Nat → Uuid) (nodes : List Node) : List Node :=
  layOut (nodes.zipIdx.map fun (n, place) => identify mint place n)

/-! ### Edges -/

/-- What becomes of the entry of an edge. -/
inductive EdgeVerdict where
  | keep (edge : Edge)
  | drop (warning : Warning)
  | skip (entry : Skipped)

/-- The identifier of an edge: the proposed one, unless it is missing, blank or taken. -/
def edgeId (kept : List Edge) (fresh : Uuid) (proposed : Option String) : String :=
  (proposed.filter fun id => !Text.isBlank id && kept.all (·.id ≠ id)).getD fresh.toString

/-- Judge the entry of an edge, given the edges kept so far. -/
def judgeEdge (kept : List Edge) (fresh : Uuid) (index : Nat) (entry : Json) : EdgeVerdict :=
  match readEdge entry with
  | .error mismatch => .skip ⟨.edge, index, entry, mismatch⟩
  | .ok e =>
    let label := normalizeLabel e.label
    if e.source = e.target then .drop (.selfLoop e.source)
    else if kept.any (·.connects e.source e.target label) then
      .drop (.duplicateEdge e.source e.target)
    else .keep ⟨edgeId kept fresh e.id, e.source, e.target, label⟩

/-- What became of the entries of the edges. -/
structure EdgeHarvest where
  edges : List Edge
  warnings : List Warning
  skipped : List Skipped

namespace EdgeHarvest

def empty : EdgeHarvest := ⟨[], [], []⟩

def add (h : EdgeHarvest) : EdgeVerdict → EdgeHarvest
  | .keep edge => { h with edges := h.edges ++ [edge] }
  | .drop warning => { h with warnings := h.warnings ++ [warning] }
  | .skip entry => { h with skipped := h.skipped ++ [entry] }

end EdgeHarvest

/-- Judge the entries of the edges one after another; `index` is the place of the first. -/
def readEdges (fresh : Nat → Uuid) : (index : Nat) → EdgeHarvest → List Json → EdgeHarvest
  | _, h, [] => h
  | index, h, entry :: entries =>
    readEdges fresh (index + 1) (h.add (judgeEdge h.edges (fresh index) index entry)) entries

/-! ### The whole reply -/

/-- Make a draft of the entries. -/
def settle (mint : Nat → Uuid) (entries : Entries) : Except Rejection Draft :=
  let (found, skippedNodes) := readNodes 0 entries.nodes
  if found.isEmpty then .error ⟨[.noNodes], skippedNodes⟩
  else
    let nodes := settleNodes mint found
    let h := readEdges (fun index => mint (nodes.length + index)) 0 .empty entries.edges
    let skipped := skippedNodes ++ h.skipped
    match validateAll nodes h.edges with
    | [] => .ok ⟨nodes, h.edges, h.warnings ++ skipped.map .unreadable⟩
    | errors => .error ⟨errors.map .invalid, skipped⟩

/-- Read the reply of a model as a graph. -/
def readDraft (mint : Nat → Uuid) (reply : String) : Except Rejection Draft :=
  match outerObject? reply with
  | none => .error ⟨[.noObject], []⟩
  | some graph =>
    match Entries.format.ofText? graph with
    | .error e => .error ⟨[.notGraph e], []⟩
    | .ok entries => settle mint entries

namespace Rejection

/-- The rejection in one line. -/
def message (r : Rejection) : String :=
  let count := if r.skipped.isEmpty then "" else s!" ({r.skipped.length} entries skipped)"
  "; ".intercalate (r.problems.map Problem.message) ++ count

/-- Each message as an item of a list. -/
def listed (messages : List String) : String := String.join (messages.map fun m => s!"- {m}\n")

/-- What the model is told about a rejected reply. -/
def feedback (r : Rejection) : String :=
  let dropped :=
    if r.skipped.isEmpty then ""
    else "\nThese entries were unreadable and got dropped:\n" ++
      listed (r.skipped.map Skipped.message)
  "The graph you proposed was rejected:\n" ++ listed (r.problems.map Problem.message) ++ dropped ++
    "\nReturn the complete corrected graph as ONE JSON object. " ++
    "Keep the ids of nodes that were fine."

end Rejection

end AgentGraph.Synthesis
