import AgentGraph.Proofs.Synthesis.Faithful
import Mathlib.Data.List.Forall2

/-!
# What becomes of each entry

A graph in a reply is two lists of entries, and what is accepted of it is a list of nodes, a list of
edges and a list of warnings. Here the entries are accounted for one by one: each of them has a
`Fate`. The entry of a node becomes a node of the draft or is skipped (`NodeFate`), and the entry of
an edge becomes an edge, is removed because it is idle, or is skipped (`EdgeFate`). The edges are
judged against those kept before them, so the account is drawn up by induction on the entries that
are left (`Judged`). `readDraft_accounts` says that the draft and its warnings are what the fates of
the entries add up to.
-/

namespace AgentGraph.Synthesis

open Json

variable {α : Type} {mint : Nat → Uuid} {index : Nat}

/-! ### Fates -/

/-- What becomes of an entry. -/
inductive Fate (α : Type) where
  | kept (a : α)
  | removed (warning : Warning)
  | skipped (entry : Skipped)

namespace Fate

def kept? : Fate α → Option α
  | kept a => some a
  | removed _ | skipped _ => none

def removed? : Fate α → Option Warning
  | removed warning => some warning
  | kept _ | skipped _ => none

def skipped? : Fate α → Option Skipped
  | skipped entry => some entry
  | kept _ | removed _ => none

/-- No fate counts twice, and none is left out. -/
theorem length_eq (fates : List (Fate α)) : fates.length =
    (fates.filterMap kept?).length + (fates.filterMap removed?).length +
    (fates.filterMap skipped?).length := by
  induction fates with
  | nil => rfl
  | cons fate fates ih =>
      cases fate <;> simp only [List.filterMap_cons, kept?, removed?, skipped?, List.length_cons,
        ih] <;> omega

end Fate

/-- The entries have these fates, where the fate of an entry depends on what was kept of those
before it. -/
inductive Judged (fate : (kept : List α) → (index : Nat) → Json → Fate α → Prop) :
    (kept : List α) → (index : Nat) → List Json → List (Fate α) → Prop
  | nil {kept : List α} {index : Nat} : Judged fate kept index [] []
  | cons {kept : List α} {index : Nat} {entry : Json} {entries : List Json} {f : Fate α}
      {fates : List (Fate α)} : fate kept index entry f →
      Judged fate (kept ++ f.kept?.toList) (index + 1) entries fates →
      Judged fate kept index (entry :: entries) (f :: fates)

theorem Judged.length_eq {fate : List α → Nat → Json → Fate α → Prop} {kept : List α}
    {entries : List Json} {fates : List (Fate α)} (h : Judged fate kept index entries fates) :
    fates.length = entries.length := by
  induction h with
  | nil => rfl
  | cons _ _ ih => rw [List.length_cons, List.length_cons, ih]

/-! ### Nodes -/

/-- The node as it was read, except that it may have been given an identifier and a place. -/
structure SettledAs (n m : Node) : Prop where
  id : Text.isBlank n.id = false → m.id = n.id
  name : m.name = n.name
  position : n.position.numEq .origin = false → m.position = n.position
  data : m.data = n.data

/-- The entry of a node becomes a node or is skipped. -/
inductive NodeFate (kept : List Node) (index : Nat) (entry : Json) : Fate Node → Prop
  | kept {n m : Node} : readNode entry = .ok n → SettledAs n m → NodeFate kept index entry (.kept m)
  | skipped {mismatch : Mismatch} : readNode entry = .error mismatch →
      NodeFate kept index entry (.skipped ⟨.node, index, entry, mismatch⟩)

theorem SettledAs.trans {n m k : Node} (h : SettledAs n m) (h' : SettledAs m k) :
    SettledAs n k where
  id hid := (h'.id ((h.id hid).symm ▸ hid)).trans (h.id hid)
  name := h'.name.trans h.name
  position hplaced := (h'.position ((h.position hplaced).symm ▸ hplaced)).trans (h.position hplaced)
  data := h'.data.trans h.data

theorem settledAs_identify (place : Nat) (n : Node) : SettledAs n (identify mint place n) := by
  rw [identify]
  split
  next hblank =>
    refine ⟨fun hid => ?_, rfl, fun _ => rfl, rfl⟩
    rw [hid] at hblank
    cases hblank
  next => exact ⟨fun _ => rfl, rfl, fun _ => rfl, rfl⟩

/-- A list is related to its image when every member is related to what it is made into at its
place. -/
theorem forall₂_map_zipIdx {R : α → α → Prop} {f : α × Nat → α} {l : List α}
    (h : ∀ m ∈ l.zipIdx, R m.1 (f m)) : List.Forall₂ R l (l.zipIdx.map f) := by
  have hpaired : List.Forall₂ R (l.zipIdx.map Prod.fst) (l.zipIdx.map f) := by
    rw [List.forall₂_map_left_iff, List.forall₂_map_right_iff, List.forall₂_same]
    exact h
  rwa [List.zipIdx_map_fst] at hpaired

theorem forall₂_trans {l l' l'' : List Node} (h : List.Forall₂ SettledAs l l')
    (h' : List.Forall₂ SettledAs l' l'') : List.Forall₂ SettledAs l l'' := by
  induction h generalizing l'' with
  | nil => exact h'
  | cons hsettled _ ih =>
      cases h' with
      | cons hsettled' hrest' => exact .cons (hsettled.trans hsettled') (ih hrest')

theorem forall₂_settledAs_layOut (nodes : List Node) :
    List.Forall₂ SettledAs nodes (layOut nodes) := by
  rw [layOut]
  split
  next hall =>
    refine forall₂_map_zipIdx fun m hm => ⟨fun _ => rfl, rfl, fun hplaced => ?_, rfl⟩
    -- no node has a place of its own
    have hcorner := List.all_eq_true.mp hall m.1 (List.fst_mem_of_mem_zipIdx hm)
    rw [hplaced] at hcorner
    cases hcorner
  next => exact List.forall₂_same.mpr fun _ _ => ⟨fun _ => rfl, rfl, fun _ => rfl, rfl⟩

theorem forall₂_settledAs_settleNodes (mint : Nat → Uuid) (nodes : List Node) :
    List.Forall₂ SettledAs nodes (settleNodes mint nodes) := by
  have hidentified :
      List.Forall₂ SettledAs nodes (nodes.zipIdx.map fun m => identify mint m.2 m.1) :=
    forall₂_map_zipIdx fun m _ => settledAs_identify m.2 m.1
  exact forall₂_trans hidentified (forall₂_settledAs_layOut _)

/-- What is kept of the entries of nodes, when it is settled, has come from them one by one. -/
theorem exists_nodeFates {entries : List Json} {settled : List Node} (kept : List Node)
    (index : Nat) (h : List.Forall₂ SettledAs
      (entries.filterMap fun entry => (readNode entry).toOption) settled) :
    ∃ fates, Judged NodeFate kept index entries fates ∧ fates.filterMap Fate.kept? = settled ∧
      fates.filterMap Fate.removed? = [] ∧
      fates.filterMap Fate.skipped? = unreadable .node readNode index entries := by
  induction entries generalizing settled kept index with
  | nil =>
      cases h
      exact ⟨[], .nil, rfl, rfl, rfl⟩
  | cons entry entries ih =>
      cases hread : readNode entry with
      -- an entry that cannot be read is skipped, and it leaves nothing behind
      | error mismatch =>
          rw [List.filterMap_cons_none (by rw [hread]; rfl)] at h
          obtain ⟨fates, hjudged, hkept, hremoved, hskipped⟩ := ih (kept ++ []) (index + 1) h
          refine ⟨_ :: fates, .cons (.skipped hread) hjudged, hkept, hremoved, ?_⟩
          rw [List.filterMap_cons_some (show Fate.skipped? _ = _ from rfl), hskipped,
            unreadable_of_error hread]
      -- any other is kept, as the node that it was settled as
      | ok n =>
          rw [List.filterMap_cons_some (b := n) (by rw [hread]; rfl)] at h
          obtain ⟨m, settled, hsettled, hrest, rfl⟩ := List.forall₂_cons_left_iff.mp h
          obtain ⟨fates, hjudged, hkept, hremoved, hskipped⟩ := ih (kept ++ [m]) (index + 1) hrest
          refine ⟨_ :: fates, .cons (.kept hread hsettled) hjudged, ?_, hremoved, ?_⟩
          · rw [List.filterMap_cons_some (show Fate.kept? _ = _ from rfl), hkept]
          · rw [List.filterMap_cons_none rfl, hskipped, unreadable_of_ok hread]

/-! ### Edges -/

/-- The entry of an edge becomes an edge, unless it joins a node to itself, is like an edge that was
kept, or cannot be read. -/
inductive EdgeFate (kept : List Edge) (index : Nat) (entry : Json) : Fate Edge → Prop
  | kept {e : ProposedEdge} {d : Edge} : readEdge entry = .ok e → e.source ≠ e.target →
      (e.source, e.target, normalizeLabel e.label) ∉ kept.map Edge.joint →
      d.joint = (e.source, e.target, normalizeLabel e.label) → EdgeFate kept index entry (.kept d)
  | selfLoop {e : ProposedEdge} : readEdge entry = .ok e → e.source = e.target →
      EdgeFate kept index entry (.removed (.selfLoop e.source))
  | duplicate {e : ProposedEdge} : readEdge entry = .ok e → e.source ≠ e.target →
      (e.source, e.target, normalizeLabel e.label) ∈ kept.map Edge.joint →
      EdgeFate kept index entry (.removed (.duplicateEdge e.source e.target))
  | skipped {mismatch : Mismatch} : readEdge entry = .error mismatch →
      EdgeFate kept index entry (.skipped ⟨.edge, index, entry, mismatch⟩)

/-- The fate that a verdict brings about. -/
def EdgeVerdict.fate : EdgeVerdict → Fate Edge
  | keep edge => .kept edge
  | drop warning => .removed warning
  | skip entry => .skipped entry

theorem edgeFate_judgeEdge (kept : List Edge) (fresh : Uuid) (index : Nat) (entry : Json) :
    EdgeFate kept index entry (judgeEdge kept fresh index entry).fate := by
  cases hread : readEdge entry with
  | error mismatch =>
      rw [judgeEdge_of_error hread]
      exact .skipped hread
  | ok e =>
      -- the code compares the edges, the fate their ends and label
      have hlike : kept.any (·.connects e.source e.target (normalizeLabel e.label)) = true ↔
          (e.source, e.target, normalizeLabel e.label) ∈ kept.map Edge.joint := by
        simp only [List.any_eq_true, Edge.connects_iff_joint, List.mem_map]
      rw [judgeEdge, hread]
      dsimp only
      split
      next hloop => exact .selfLoop hread hloop
      next hloop =>
      split
      next hany => exact .duplicate hread hloop (hlike.mp hany)
      next hany => exact .kept hread hloop (fun hmem => hany (hlike.mpr hmem)) rfl

theorem add_eq (h : EdgeHarvest) (verdict : EdgeVerdict) : h.add verdict =
    ⟨h.edges ++ verdict.fate.kept?.toList, h.warnings ++ verdict.fate.removed?.toList,
      h.skipped ++ verdict.fate.skipped?.toList⟩ := by
  cases verdict <;>
    simp [EdgeHarvest.add, EdgeVerdict.fate, Fate.kept?, Fate.removed?, Fate.skipped?]

theorem filterMap_cons_eq {β : Type} (f : α → Option β) (a : α) (l : List α) :
    (a :: l).filterMap f = (f a).toList ++ l.filterMap f := by
  rw [List.filterMap_cons]
  cases f a <;> rfl

/-- What a harvest gains is what the fates of the entries add up to. -/
theorem exists_edgeFates (fresh : Nat → Uuid) (index : Nat) (h : EdgeHarvest)
    (entries : List Json) :
    ∃ fates, Judged EdgeFate h.edges index entries fates ∧ readEdges fresh index h entries =
      ⟨h.edges ++ fates.filterMap Fate.kept?, h.warnings ++ fates.filterMap Fate.removed?,
        h.skipped ++ fates.filterMap Fate.skipped?⟩ := by
  induction entries generalizing index h with
  | nil => exact ⟨[], .nil, by simp [readEdges]⟩
  | cons entry entries ih =>
      have hfate := edgeFate_judgeEdge h.edges (fresh index) index entry
      obtain ⟨fates, hjudged, hread⟩ :=
        ih (index + 1) (h.add (judgeEdge h.edges (fresh index) index entry))
      rw [add_eq] at hjudged hread
      refine ⟨_ :: fates, .cons hfate hjudged, ?_⟩
      rw [readEdges, add_eq, hread]
      simp only [filterMap_cons_eq, List.append_assoc]

/-! ### Whole replies -/

/-- The entries of a graph with their fates. -/
structure Account (entries : Entries) (nodes : List (Fate Node)) (edges : List (Fate Edge)) :
    Prop where
  nodes : Judged NodeFate [] 0 entries.nodes nodes
  edges : Judged EdgeFate [] 0 entries.edges edges

/-- All entries that were skipped, those of nodes first. -/
def allSkipped (nodes : List (Fate Node)) (edges : List (Fate Edge)) : List Skipped :=
  nodes.filterMap Fate.skipped? ++ edges.filterMap Fate.skipped?

/-- What a graph is read as is what the fates of its entries add up to. -/
theorem exists_account (mint : Nat → Uuid) (entries : Entries) :
    ∃ nodes edges, Account entries nodes edges ∧
    cleanedNodes mint entries = nodes.filterMap Fate.kept? ∧ nodes.filterMap Fate.removed? = [] ∧
    cleanedEdges mint entries = edges.filterMap Fate.kept? ∧
    (harvest mint entries).warnings = edges.filterMap Fate.removed? ∧
    entries.unreadable = allSkipped nodes edges := by
  obtain ⟨nodes, hnodes, hkept, hremoved, hskipped⟩ :=
    exists_nodeFates [] 0 (forall₂_settledAs_settleNodes mint _)
  obtain ⟨edges, hedges, hharvest⟩ := exists_edgeFates
    (fun index => mint ((cleanedNodes mint entries).length + index)) 0 .empty entries.edges
  have hunreadable : (harvest mint entries).skipped = unreadable .edge readEdge 0 entries.edges :=
    skipped_readEdges _ _ _ _
  rw [harvest, hharvest] at hunreadable
  refine ⟨nodes, edges, ⟨hnodes, hedges⟩, hkept.symm, hremoved, ?_, ?_, ?_⟩
  · rw [cleanedEdges, harvest, hharvest]
    rfl
  · rw [harvest, hharvest]
    rfl
  · rw [Entries.unreadable, ← hskipped, ← hunreadable]
    rfl

/-- The warning about a skipped entry begins with the kind of the entry. -/
theorem exists_message_unreadable (s : Skipped) :
    ∃ rest, (Warning.unreadable s).message = "Skipped " ++ s.kind.name ++ rest := by
  have hname : ∃ rest, entryName s.kind s.index s.entry = s.kind.name ++ rest := by
    rw [entryName]
    split <;> exact ⟨_, by simp only [String.append_assoc]; rfl⟩
  obtain ⟨rest, hrest⟩ := hname
  refine ⟨rest ++ ": " ++ s.mismatch.message, ?_⟩
  show "Skipped " ++ (entryName s.kind s.index s.entry ++ ": " ++ s.mismatch.message) = _
  rw [hrest]
  simp only [String.append_assoc]

/-- **Every entry is accounted for.** Of an accepted reply, each entry of a node has become a node
of the draft or a warning that it was skipped, and each entry of an edge has become an edge with its
source, target and trimmed label or one warning, all in the order of the entries; so there are as
many entries as nodes, edges and warnings together. A reply that is rejected for its graph names all
entries that were skipped, in order. -/
theorem readDraft_accounts (mint : Nat → Uuid) (reply : String) :
    (∀ draft, readDraft mint reply = .ok draft → ∃ entries nodes edges, Finds reply entries ∧
      Account entries nodes edges ∧
      draft.nodes = nodes.filterMap Fate.kept? ∧ draft.edges = edges.filterMap Fate.kept? ∧
      draft.warnings = edges.filterMap Fate.removed? ++ (allSkipped nodes edges).map .unreadable ∧
      entries.nodes.length + entries.edges.length =
        draft.nodes.length + draft.edges.length + draft.warnings.length) ∧
    (∀ s : Skipped, s.kind = .node →
      ∃ rest, (Warning.unreadable s).message = "Skipped node" ++ rest) ∧
    ∀ rejection e, readDraft mint reply = .error rejection → .invalid e ∈ rejection.problems →
      ∃ entries nodes edges, Finds reply entries ∧ Account entries nodes edges ∧
        rejection.skipped = allSkipped nodes edges := by
  refine ⟨fun draft h => ?_, fun s hs => ?_, fun rejection e h hproblem => ?_⟩
  · obtain ⟨entries, hfinds, -, -, rfl⟩ := readDraft_eq_ok_iff.mp h
    obtain ⟨nodes, edges, haccount, hnodes, hremoved, hedges, hwarnings, hskipped⟩ :=
      exists_account mint entries
    refine ⟨entries, nodes, edges, hfinds, haccount, hnodes,
      hedges, by rw [hwarnings, hskipped], ?_⟩
    -- each entry has one fate, so the fates of each kind add up to the entries
    have hnodesCount := Fate.length_eq nodes
    have hedgesCount := Fate.length_eq edges
    rw [haccount.nodes.length_eq, hremoved, List.length_nil] at hnodesCount
    rw [haccount.edges.length_eq] at hedgesCount
    rw [hnodesCount, hedgesCount, hnodes, hedges, hwarnings, hskipped, List.length_append,
      List.length_map, allSkipped, List.length_append]
    dsimp only
    omega
  · obtain ⟨rest, hrest⟩ := exists_message_unreadable s
    have hbegins : "Skipped " ++ EntryKind.node.name = "Skipped node" := by decide
    exact ⟨rest, by rw [hrest, hs, hbegins]⟩
  · rcases readDraft_eq_error_iff.mp h with
      hobject | ⟨hobject, he⟩ | ⟨hfinds, hnil⟩ | @⟨entries, hfinds, -, -⟩
    -- only a graph that was found and read can be reported invalid
    · simp at hproblem
    · simp at hproblem
    · simp at hproblem
    · obtain ⟨nodes, edges, haccount, -, -, -, -, hskipped⟩ := exists_account mint entries
      exact ⟨entries, nodes, edges, hfinds, haccount, hskipped⟩

/-- One entry of a node cannot be read, and of the edges one is kept, one is no edge, one is a loop
and one is like the first. -/
def mixedEntries : Entries where
  nodes := [.object [("id", .string "a"), ("type", .string "start")], .null,
    .object [("id", .string "b"), ("type", .string "End")]]
  edges := [.object [("label", .string " go "), ("source", .string "a"), ("target", .string "b")],
    .object [("source", .string "a")], .object [("source", .string "b"), ("target", .string "b")],
    .object [("label", .string "go"), ("source", .string "a"), ("target", .string "b")]]

/-- An edge leads to nowhere, and one entry of each list cannot be read. -/
def danglingEntries : Entries where
  nodes := [.null, .object [("id", .string "a"), ("type", .string "start")]]
  edges := [.object [("source", .string "a"), ("target", .string "b")], .null]

theorem finds_mixedEntries : Finds (Entries.format.compact mixedEntries) mixedEntries := by
  refine finds_render .compact ?_ ?_ <;> simp only [mixedEntries, List.forall_mem_cons]
  · exact ⟨.object (by simp [Readable.string]), .null, .object (by simp [Readable.string]), nofun⟩
  · exact ⟨.object (by simp [Readable.string]), .object (by simp [Readable.string]),
      .object (by simp [Readable.string]), .object (by simp [Readable.string]), nofun⟩

theorem finds_danglingEntries : Finds (Entries.format.compact danglingEntries) danglingEntries := by
  refine finds_render .compact ?_ ?_ <;> simp only [danglingEntries, List.forall_mem_cons]
  · exact ⟨.null, .object (by simp [Readable.string]), nofun⟩
  · exact ⟨.object (by simp [Readable.string]), .null, nofun⟩

theorem mixed_accounts :
    (∃ draft entries nodes edges,
      readDraft (fun _ => .nil) (Entries.format.compact mixedEntries) = .ok draft ∧
      Account entries nodes edges ∧ draft.edges.map Edge.joint = [("a", "b", some "go")] ∧
      draft.warnings.length = 4 ∧
      entries.nodes.length + entries.edges.length = draft.nodes.length + draft.edges.length + 4) ∧
    ∃ rejection entries nodes edges,
      readDraft (fun _ => .nil) (Entries.format.compact danglingEntries) = .error rejection ∧
      Account entries nodes edges ∧ rejection.skipped.length = 2 ∧
      rejection.skipped = allSkipped nodes edges := by
  constructor
  · have hread : readDraft (fun _ => .nil) (Entries.format.compact mixedEntries) =
        settle (fun _ => .nil) mixedEntries :=
      readDraft_of_finds finds_mixedEntries
    have hsettle : (settle (fun _ => .nil) mixedEntries).toOption.map
        (fun draft => (draft.edges.map Edge.joint, draft.warnings.length)) =
          some ([("a", "b", some "go")], 4) := by
      decide +kernel
    cases hdraft : settle (fun _ => .nil) mixedEntries with
    | error rejection =>
        rw [hdraft] at hsettle
        cases hsettle
    | ok draft =>
        rw [hdraft] at hread hsettle
        obtain ⟨hjoint, hwarnings⟩ := Prod.mk.inj (Option.some.inj hsettle)
        obtain ⟨entries, nodes, edges, -, haccount, -, -, -, htotal⟩ :=
          (readDraft_accounts (fun _ => .nil) (Entries.format.compact mixedEntries)).1 draft hread
        rw [hwarnings] at htotal
        exact ⟨draft, entries, nodes, edges, hread, haccount, hjoint, hwarnings, htotal⟩
  · have hread : readDraft (fun _ => .nil) (Entries.format.compact danglingEntries) =
        settle (fun _ => .nil) danglingEntries :=
      readDraft_of_finds finds_danglingEntries
    have hsettle : (match settle (fun _ => .nil) danglingEntries with
        | .ok _ => none
        | .error rejection => some (rejection.problems, rejection.skipped.length)) =
          some ([.invalid (.danglingEdge Uuid.nil.toString "b")], 2) := by decide +kernel
    cases hrejection : settle (fun _ => .nil) danglingEntries with
    | ok draft =>
        rw [hrejection] at hsettle
        cases hsettle
    | error rejection =>
        rw [hrejection] at hread hsettle
        obtain ⟨hproblems, hskipped⟩ := Prod.mk.inj (Option.some.inj hsettle)
        obtain ⟨entries, nodes, edges, -, haccount, hall⟩ :=
          (readDraft_accounts (fun _ => .nil) (Entries.format.compact danglingEntries)).2.2
            rejection (.danglingEdge Uuid.nil.toString "b") hread
            (hproblems ▸ List.mem_singleton_self _)
        exact ⟨rejection, entries, nodes, edges, hread, haccount, hskipped, hall⟩

end AgentGraph.Synthesis
