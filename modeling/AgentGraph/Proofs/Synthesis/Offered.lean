import AgentGraph.Proofs.Json.Nesting
import AgentGraph.Proofs.Json.Skip
import AgentGraph.Proofs.Synthesis.Draft
import AgentGraph.Proofs.Synthesis.Entry

/-!
# Entries that a reply offers

A reply offers entries (`Offers`) when the object in it has them in its two lists, in whatever
layout it is written and however deeply it is nested. The reader has a limit of nesting. It does not
concern the other members of the object, because these are passed over, and of the entries it leaves
125 levels: entries that are nested no deeper are found wherever they are offered (`Offers.finds`).
-/

namespace AgentGraph.Json.Reader

variable {cs rest : List Char} {limit depth : Nat} {v : Json}

/-- What stands where a value is read, whatever the limit of nesting was. -/
theorem readsValue_of_value (h : Yields (value limit) cs (some v) rest) :
    ∃ inner, ReadsValue inner (cs.dropWhile isBlank) v rest ∧
      ∀ item, inner = some item → ∃ limit, item = value limit := by
  cases limit using value.induct with
  | case1 | case2 =>
      refine ⟨none, yields_valueWithin_iff.mp h, ?_⟩
      rintro _ ⟨⟩
  | case3 limit =>
      refine ⟨some (value (limit + 1)), yields_valueWithin_iff.mp h, ?_⟩
      rintro _ ⟨⟩
      exact ⟨limit + 1, rfl⟩

/-- **A list is read as a list of values** when there are enough levels left for them. -/
theorem yields_listOf_any_of_nesting {vs : List Json}
    (h : Yields (value limit) cs (some (.list vs)) rest) (hvs : ∀ v ∈ vs, v.nesting ≤ depth) :
    Yields ((Format.list .any).read (depth + 2)) cs (some (vs.map canonical)) rest := by
  obtain ⟨inner, hread, hinner⟩ := readsValue_of_value h
  generalize hcs : cs.dropWhile isBlank = text at hread
  cases hread with
  | @list cs' mid _ item _ hitem hitems hend =>
      obtain ⟨limit, rfl⟩ := hinner item hitem
      have hwalk := readsItems_of_items (.value limit) hitems (ne_nil_of_endList hend)
      have hwalk' : ReadsItems (Format.any.read (depth + 1)) true cs' (vs.map canonical) mid :=
        hwalk.map fun v hv _ _ hitem =>
          (hitem.of_nesting (Nat.lt_succ_of_le (hvs v hv))).andThen (.pure _ _)
      have hnested :
          Yields (nested (depth + 2) fun depth => items (Format.any.read depth)) ('[' :: cs')
            (some (vs.map canonical)) mid :=
        yields_skip.andThen hwalk'.yields_items
      refine (yields_peekValue_of_dropBlanks hcs).andThen ?_
      rw [if_pos rfl]
      exact (hnested.closedBy hend).located

/-- **An object is read as a record** when its members can be taken note of and nothing is
missing. -/
theorem yields_record_of_object {α β σ : Type} {fields : Fields β σ} {name : String} {make : β → α}
    {split : α → β} {more mid : List Char} {known : σ} {b : β}
    (hcs : cs.dropWhile isBlank = '\x7b' :: more)
    (hmembers : ReadsMembers (fields.noteMember (depth + 1)) true more fields.unknown known mid)
    (hcomplete : fields.complete known = .ok b) (hend : Yields endObject mid (some ()) rest) :
    Yields ((Format.record name fields make split).read (depth + 2)) cs (some (make b)) rest := by
  have hobject : Yields (fields.readObject (fields.readMember (depth + 1))) more (some b) mid := by
    refine hmembers.yields_foldMembers.andThen ?_
    rw [hcomplete]
    exact .pure _ _
  have hnested :
      Yields (nested (depth + 2) fun depth => fields.readObject (fields.readMember depth))
        ('\x7b' :: more) (some b) mid :=
    yields_skip.andThen hobject
  have hrecord : Yields (recordOf (depth + 2) s!"struct {name}"
      (fun depth => fields.readItems depth s!"struct {name} with {elements fields.count}" 0)
      (fun depth => fields.readObject (fields.readMember depth))) cs (some b) rest :=
    (yields_peekValue_of_dropBlanks hcs).andThen (hnested.closedBy hend).located
  exact hrecord.map make

end AgentGraph.Json.Reader

namespace AgentGraph.Synthesis

open Json Reader

variable {graph : List (String × Json)} {entries : Entries} {reply : String} {v : Json}

/-! ### Entries in the members of an object -/

/-- The values in the list under the name. When the name is left out there are none. -/
inductive Listed (graph : List (String × Json)) (name : String) : List Json → Prop
  | absent : graph.lookup name = none → Listed graph name []
  | present {vs : List Json} : graph.lookup name = some (.list vs) →
      Listed graph name (vs.map canonical)

/-- An object with the entries in its lists. No object in it uses a name twice. -/
structure Holds (graph : List (String × Json)) (entries : Entries) : Prop where
  distinct : (Json.object graph).Distinct
  nodes : Listed graph "nodes" entries.nodes
  edges : Listed graph "edges" entries.edges

/-- The object in the reply holds the entries, however it is written and however deeply it is
nested. -/
def Offers (reply : String) (entries : Entries) : Prop :=
  ∃ text limit graph, outerObject? reply = some text ∧
    (value limit).runOn text = .ok (.object graph) ∧ Holds graph entries

/-- The entries are nested no deeper than the reader goes: of the 127 levels that it allows, the
object and the list take two. -/
def Entries.Shallow (entries : Entries) : Prop :=
  ∀ v ∈ entries.nodes ++ entries.edges, v.nesting ≤ 125

instance (entries : Entries) : Decidable entries.Shallow :=
  inferInstanceAs (Decidable (∀ v ∈ entries.nodes ++ entries.edges, v.nesting ≤ 125))

/-- The values of a list. -/
def items? : Json → Option (List Json)
  | .list vs => some (vs.map canonical)
  | _ => none

theorem Listed.eq_getD {name : String} {vs : List Json} (h : Listed graph name vs) :
    ((graph.lookup name).bind items?).getD [] = vs := by
  cases h with
  | absent hnone => rw [hnone]; rfl
  | present hsome => rw [hsome]; rfl

/-- What stands under the name is a list, and its values are nested as deep as the entries. -/
theorem Listed.exists_list {name : String} {vs : List Json} (h : Listed graph name vs)
    (hdistinct : (Json.object graph).Distinct) (hmem : (name, v) ∈ graph) {depth : Nat}
    (hvs : ∀ v ∈ vs, v.nesting ≤ depth) :
    ∃ ws, v = .list ws ∧ ∀ w ∈ ws, w.nesting ≤ depth := by
  have hlookup := (lookup_eq_some_iff_mem hdistinct.names).mpr hmem
  cases h with
  | absent hnone => cases hnone.symm.trans hlookup
  | @present ws hsome =>
      cases hsome.symm.trans hlookup
      refine ⟨ws, rfl, fun w hw => ?_⟩
      rw [← ((hdistinct.members _ hmem).items w hw).nesting_canonical]
      exact hvs _ (List.mem_map_of_mem hw)

/-! ### Taking note of the members -/

/-- The fields of the object. -/
def entryFields :
    Fields (List Json × List Json × Unit) (Option (List Json) × Option (List Json) × Unit) :=
  .cons "nodes" (.list .any) (.default []) <| .cons "edges" (.list .any) (.default []) .nil

/-- What is known of the lists when some members are read. -/
def noted (read : List (String × Json)) : Option (List Json) × Option (List Json) × Unit :=
  ((read.lookup "nodes").bind items?, (read.lookup "edges").bind items?, ())

theorem noted_of_ne {name : String} {read : List (String × Json)} (hnodes : name ≠ "nodes")
    (hedges : name ≠ "edges") : noted ((name, v) :: read) = noted read := by
  rw [noted, List.lookup_cons, List.lookup_cons, beq_false_of_ne hnodes.symm,
    beq_false_of_ne hedges.symm, noted]

/-- The two lists are read, and every other member is passed over. -/
theorem Holds.yields_noteMember (h : Holds graph entries) (hshallow : entries.Shallow)
    {name : String} {read : List (String × Json)} {limit : Nat} {cs rest : List Char}
    (hread : (name, v) :: read <:+ graph.reverse)
    (hv : Yields (do
      colon
      value limit) cs (some v) rest) :
    Yields (entryFields.noteMember 127 name (noted read)) cs
    (some (noted ((name, v) :: read))) rest := by
  have hmem : (name, v) ∈ graph := List.mem_reverse.mp (hread.subset List.mem_cons_self)
  -- a name that is read now has not been read before
  have hnew : read.lookup name = none := by
    have hnodup : (((name, v) :: read).map (·.1)).Nodup :=
      (List.map_reverse ▸ List.nodup_reverse.mpr h.distinct.names).sublist (hread.sublist.map _)
    exact List.lookup_eq_none_iff.mpr fun m hm => bne_iff_ne.mpr fun heq =>
      (List.nodup_cons.mp hnodup).1 (List.mem_map.mpr ⟨m, hm, heq.symm⟩)
  obtain ⟨_, inside, hcolon, hv⟩ := hv.of_bind
  -- the two lists are read as such, and the value of any other name is skipped
  by_cases hnodes : name = "nodes"
  · subst hnodes
    obtain ⟨ws, rfl, hws⟩ := h.nodes.exists_list h.distinct hmem fun v hv =>
      hshallow v (List.mem_append_left _ hv)
    rw [noted, hnew]
    exact hcolon.andThen ((yields_listOf_any_of_nesting hv hws).map fun vs => (some vs, _, ()))
  rw [noted, entryFields, Fields.noteMember_cons hnodes]
  by_cases hedges : name = "edges"
  · subst hedges
    obtain ⟨ws, rfl, hws⟩ := h.edges.exists_list h.distinct hmem fun v hv =>
      hshallow v (List.mem_append_right _ hv)
    have hlist :
        Yields ((Fields.cons "edges" (.list .any) (.default []) .nil).noteMember 127 "edges"
          (none, ())) cs (some (some (ws.map canonical), ())) rest :=
      hcolon.andThen ((yields_listOf_any_of_nesting hv hws).map fun vs => (some vs, ()))
    rw [hnew]
    exact hlist.map _
  · rw [noted_of_ne hnodes hedges, Fields.noteMember_cons hedges]
    have hskip : Yields (Fields.nil.noteMember 127 name ()) cs (some ()) rest :=
      hcolon.andThen ((yields_skipValue hv).andThen (.pure _ _))
    exact (hskip.map _).map _

/-- When all members are read the entries are known. -/
theorem Holds.complete_noted (h : Holds graph entries) :
    entryFields.complete (noted graph.reverse) = .ok (entries.nodes, entries.edges, ()) := by
  have hlookup (name : String) : graph.reverse.lookup name = graph.lookup name :=
    (lookup_perm h.distinct.names graph.reverse_perm.symm name).symm
  rw [← h.nodes.eq_getD, ← h.edges.eq_getD, noted, hlookup, hlookup]
  cases (graph.lookup "nodes").bind items? <;> cases (graph.lookup "edges").bind items? <;> rfl

/-! ### Whole replies -/

/-- The text of entries offers them, as far as it can be read at all. -/
theorem offers_render (style : Style) {e : Entries} (depth : Nat)
    (hreadable : ∀ v ∈ e.nodes ++ e.edges, Readable (depth + 1) v)
    (hdistinct : ∀ v ∈ e.nodes ++ e.edges, v.Distinct) :
    Offers ((Entries.format.encode e).render style)
      ⟨e.nodes.map restored, e.edges.map restored⟩ := by
  set graph := rereadMembers [("nodes", .list e.nodes), ("edges", .list e.edges)]
  obtain ⟨hnodes, hedges⟩ := List.forall_mem_append.mp hreadable
  obtain ⟨hnodes', hedges'⟩ := List.forall_mem_append.mp hdistinct
  have hwhole :
      Readable (depth + 3) (.object [("nodes", .list e.nodes), ("edges", .list e.edges)]) := by
    refine .object
      (List.forall_mem_cons.mpr ⟨.list hnodes, List.forall_mem_singleton.mpr (.list hedges)⟩)
  have hlists : Distinct (.object [("nodes", .list e.nodes), ("edges", .list e.edges)]) :=
    .object (by simp)
      (List.forall_mem_cons.mpr ⟨.list hnodes', List.forall_mem_singleton.mpr (.list hedges')⟩)
  -- a list that is reread holds its items as they are restored
  have hlisted {name : String} {vs : List Json} (h : graph.lookup name =
      some (.list (rereadItems vs))) : Listed graph name (vs.map restored) := by
    have hvalues : (rereadItems vs).map canonical = vs.map restored := by
      rw [rereadItems_eq_map, List.map_map]
      rfl
    exact hvalues ▸ .present h
  rw [Entries.encode_format]
  refine ⟨_, depth + 3, graph, outerObject?_render style _, ?_, hlists.reread, hlisted rfl,
    hlisted rfl⟩
  rw [runOn_eq_ok_iff, render, String.toList_ofList]
  exact ⟨[], yields_value hwhole 0 blanks_nil endsNumber_nil, rfl⟩

/-- **Entries that are not nested too deeply are found wherever they are offered.** -/
theorem Offers.finds (h : Offers reply entries) (hshallow : entries.Shallow) :
    Finds reply entries := by
  obtain ⟨text, limit, graph, hobject, hgraph, hholds⟩ := h
  refine ⟨text, hobject, ?_⟩
  obtain ⟨rest, hread, hblank⟩ := runOn_eq_ok_iff.mp hgraph
  refine runOn_eq_ok_iff.mpr ⟨rest, ?_, hblank⟩
  obtain ⟨inner, hread, hinner⟩ := readsValue_of_value hread
  generalize hcs : text.toList.dropWhile isBlank = cs at hread
  cases hread with
  | @object cs mid _ item _ hitem hmembers hend =>
      obtain ⟨limit, rfl⟩ := hinner item hitem
      -- the same text is read again, member by member, this time for the two lists
      have hwalk :=
        readsMembers_of_foldMembers (fun name read => .keepMember (.value limit) name read) hmembers
          (ne_nil_of_endObject hend)
      have hnoted :
          ReadsMembers (entryFields.noteMember 127) true cs (noted []) (noted graph.reverse) mid :=
        hwalk.noted noted fun name v read _ _ hread hv => hholds.yields_noteMember hshallow hread hv
      exact yields_record_of_object hcs hnoted hholds.complete_noted hend

end AgentGraph.Synthesis
