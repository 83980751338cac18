import AgentGraph.Proofs.Json.Decode
import AgentGraph.Proofs.Json.Format
import AgentGraph.Proofs.Workflow.Saved
import AgentGraph.Synthesis.Draft

/-!
# Entries in the persisted form

The reader of proposals accepts more than what is persisted, and here it is shown to lose nothing of
what is. The object is found in the text of an object as it stands (`outerObject?_render`), whatever
braces its strings hold. The entries are found in it (`Entries.ofText?_render`). The entry of a node
is in the shape that `canonicalNode` gives (`canonicalNode_restored`), so it is read as a node
(`toOption_readNode`), and the entry of an edge is read with its identifier (`readEdge_restored`).
-/

namespace AgentGraph.Json

open Reader

/-- Where any values were written they are found as values. -/
theorem yields_listOf_any {style : Style} {depth k : Nat} {vs : List Json}
    (h : ∀ v ∈ vs, Readable (depth + 1) v) {ws : List Char} (hws : Blanks ws) (rest : List Char) :
    Yields ((Format.list .any).read (depth + 2)) (ws ++ print style k (.list vs) rest)
      (some (vs.map restored)) rest := by
  have hitem : ∀ v ∈ vs, ∀ rest, EndsNumber rest →
      Yields (Format.any.read (depth + 1)) (print style (k + 1) v rest) (some v.restored) rest := by
    intro v hv rest hrest
    exact (yields_value (h v hv) (k + 1) blanks_nil hrest).andThen (.pure _ _)
  have hitems :
      Yields (Reader.items (Format.any.read (depth + 1))) (openItems style k (vs.map id) rest)
        (vs.mapM fun v => some v.restored) (']' :: rest) :=
    yields_items (fun v hv => (h v hv).begins) hitem
  rw [List.map_id, show vs.mapM (fun v => some v.restored) =
    some (vs.map restored) from List.mapM_pure] at hitems
  exact yields_listOf "a sequence" hws blanks_nil hitems

end AgentGraph.Json

namespace AgentGraph.Synthesis

open Json Reader

/-! ### The object and its entries -/

/-- **Of the text of an object nothing is left out.** -/
theorem outerObject?_render (style : Style) (ms : List (String × Json)) :
    outerObject? ((Json.object ms).render style) = some ((Json.object ms).render style) := by
  obtain ⟨cs, hcs⟩ := suffix_openMembers style 0 ms []
  have htext : ((Json.object ms).render style).toList = '\x7b' :: (cs ++ ['\x7d']) := by
    rw [render, String.toList_ofList, print_object, hcs]
  have hlast : ('\x7b' :: (cs ++ ['\x7d'])).reverse = '\x7d' :: ('\x7b' :: cs).reverse := by
    rw [← List.cons_append, List.reverse_append]
    rfl
  -- the text begins with the first brace there is and ends with the last one
  rw [outerObject?, htext, List.dropWhile_cons_of_neg (by simp), hlast,
    List.dropWhile_cons_of_neg (by simp), ← hlast]
  rw [if_neg (by simp), List.reverse_reverse, ← htext, String.ofList_toList]

theorem Entries.encode_format (e : Entries) :
    Entries.format.encode e = .object [("nodes", .list e.nodes), ("edges", .list e.edges)] := by
  have hitems (vs : List Json) : vs.map Format.any.encode = vs := List.map_id vs
  show Json.object [("nodes", .list (e.nodes.map Format.any.encode)),
    ("edges", .list (e.edges.map Format.any.encode))] = _
  rw [hitems, hitems]

/-- The entries are found as they were written. -/
theorem Entries.ofText?_render (style : Style) {e : Entries}
    (hnodes : ∀ v ∈ e.nodes, Readable 126 v) (hedges : ∀ v ∈ e.edges, Readable 126 v) :
    Entries.format.ofText? ((Entries.format.encode e).render style) =
      .ok ⟨e.nodes.map restored, e.edges.map restored⟩ := by
  obtain ⟨ws, hws, hcolon⟩ := yields_colon style
  set second := Fields.cons "edges" (.list .any) (.default []) .nil
  set fields := Fields.cons "nodes" (.list .any) (.default []) second with hfields
  have hfirst : ∀ rest, EndsNumber rest → Yields (fields.noteMember 127 "nodes" (none, none, ()))
      (style.colon ++ print style 1 (.list e.nodes) rest)
        (some (some (e.nodes.map restored), none, ())) rest :=
    fun rest _ =>
      (hcolon _).andThen ((yields_listOf_any hnodes hws rest).map fun vs => (some vs, none, ()))
  have hsecond : ∀ rest, EndsNumber rest → Yields (second.noteMember 127 "edges" (none, ()))
      (style.colon ++ print style 1 (.list e.edges) rest)
        (some (some (e.edges.map restored), ())) rest :=
    fun rest _ =>
      (hcolon _).andThen ((yields_listOf_any hedges hws rest).map fun vs => (some vs, ()))
  -- the second name is not the first one, so its value is noted beside it
  have hboth : ∀ rest, EndsNumber rest →
      Yields (fields.noteMember 127 "edges" (some (e.nodes.map restored), none, ()))
        (style.colon ++ print style 1 (.list e.edges) rest)
        (some (some (e.nodes.map restored), some (e.edges.map restored), ())) rest := by
    intro rest hrest
    rw [hfields, Fields.noteMember_cons (by decide)]
    exact (hsecond rest hrest).map (some _, ·)
  have hread : Yields (Entries.format.read (126 + 2))
      ([] ++ print style 0 (.object [("nodes", .list e.nodes), ("edges", .list e.edges)]) [])
      (some ⟨e.nodes.map restored, e.edges.map restored⟩) [] :=
    yields_record (.next hfirst (.next hboth (.done _))) blanks_nil []
  rw [Entries.encode_format]
  apply toOption_eq_some_iff.mp
  apply toOption_runOn
  rw [render, String.toList_ofList]
  exact hread

/-! ### Nodes -/

/-- Each kind is known by the name it is persisted under. -/
theorem kindOf?_tag (kind : NodeKind) : kindOf? kind.tag = some kind := by
  cases kind <;> decide

/-- Data whose type is spelled as it is persisted is left as it is. -/
theorem spellType_eq_self {data : List (String × Json)} (h : InOrder data) {kind : NodeKind}
    (hkind : data.lookup "type" = some (.string kind.tag)) : spellType data = data := by
  have hfound : ((data.lookup "type").bind Json.string?).bind kindOf? = some kind := by
    rw [hkind, Option.bind_some, Json.string?, Option.bind_some, kindOf?_tag]
  have hmem : ("type", Json.string kind.tag) ∈ data := (lookup_eq_some_iff_mem h.nodup).mp hkind
  rw [spellType, hfound]
  dsimp only
  rw [insertMember_of_mem h hmem]

/-- The data of a node come back as an object in order, with the type the node has. -/
theorem restored_encode_data (data : NodeData) :
    ∃ ms, (NodeData.format.encode data).restored = .object ms ∧ InOrder ms ∧
    ms.lookup "type" = some (.string data.kind.tag) := by
  obtain ⟨ms, hms⟩ : ∃ ms, NodeData.format.encode data =
      .object (("type", .string data.kind.tag) :: ms) := by
    cases data <;> exact ⟨_, rfl⟩
  -- the names differ, so sorting them keeps what each of them leads to
  have hnames : ((("type", Json.string data.kind.tag) :: ms).map (·.1)).Nodup := by
    have hdistinct : (NodeData.format.encode data).Distinct :=
      NodeData.format.distinct_encode rfl data
    rw [hms] at hdistinct
    exact hdistinct.names
  refine ⟨_, by rw [hms, restored_object], inOrder_sortMembers _, ?_⟩
  rw [lookup_sortMembers (by rwa [List.map_map])]
  rfl

/-- The members of a node in the order of their names. -/
theorem sortMembers_node (id name position data : Json) :
    sortMembers [("id", id), ("name", name), ("position", position), ("data", data)] =
      [("data", data), ("id", id), ("name", name), ("position", position)] := rfl

/-- **The entry of a node is in the shape in which it is persisted.** -/
theorem canonicalNode_restored (n : Node) :
    canonicalNode (Node.format.encode n).restored = (Node.format.encode n).restored := by
  obtain ⟨data, hdata, hsorted, hkind⟩ := restored_encode_data n.data
  -- the members of a written node, sorted by their names
  have hentry : (Node.format.encode n).restored =
      .object [("data", .object data), ("id", .string n.id), ("name", .string n.name),
      ("position", (Position.format.encode n.position).restored)] := by
    rw [← hdata]
    show (Json.object [("id", .string n.id), ("name", .string n.name),
      ("position", Position.format.encode n.position),
      ("data", NodeData.format.encode n.data)]).restored = _
    rw [restored_object]
    exact congrArg Json.object (sortMembers_node _ _ _ _)
  have hposition := canonical_restored (Position.format.encode n.position)
  have hcanonical : (Json.object data).canonical = .object data := by
    rw [← hdata]
    exact canonical_restored _
  rw [hentry]
  show Json.object (sortMembers [("id", .string n.id), ("name", .string n.name),
    ("position", (Position.format.encode n.position).restored.canonical),
    ("data", (Json.object (spellType data)).canonical)]) = _
  rw [spellType_eq_self hsorted hkind, hposition, hcanonical, sortMembers_node]

/-- **The entry of a node is read as the node that was written.** -/
theorem toOption_readNode (n : Node) :
    (readNode (Node.format.encode n).restored).toOption = n.reread := by
  have hlawful : Node.format.isLawful = true := rfl
  rw [readNode, canonicalNode_restored, Format.decode_restored .value hlawful, Node.reread_format]

/-! ### Edges -/

/-- **The entry of an edge is read as the edge that was written.** -/
theorem readEdge_restored (e : Edge) :
    readEdge (Edge.format.encode e).restored = .ok ⟨some e.id, e.source, e.target, e.label⟩ := by
  have hdistinct : (Edge.format.encode e).reread.Distinct :=
    (Edge.format.distinct_encode rfl e).reread
  apply toOption_eq_some_iff.mp
  rw [readEdge, restored, ProposedEdge.format.decode_canonical .value hdistinct]
  -- a label that is not written is read as none
  obtain ⟨id, source, target, label⟩ := e
  cases label <;> rfl

end AgentGraph.Synthesis
