import AgentGraph.Proofs.Text.Uuid
import AgentGraph.Proofs.Workflow.Effect
import AgentGraph.Synthesis.Draft

/-!
# What is accepted of a reply

A reply is accepted or rejected, and this module says when and with what. What is accepted
(`readDraft_eq_ok_iff`) is a clean draft (`Draft.clean_of_readDraft`): a valid graph in which every
node and every edge has an identifier, no edge joins a node to itself, and no two edges are alike.
The edges are judged one after another against those kept so far, so cleanness is an invariant of
what is kept (`CleanEdges.add`). A rejection is one of the four of `Rejects`, each with everything
that is wrong.
-/

namespace AgentGraph

/-- No hexadecimal digit is a blank. -/
theorem Uuid.isBlankChar_of_hexValue? {c : Char} (h : (Json.Reader.hexValue? c).isSome = true) :
    Text.isBlankChar c = false := by
  -- the digits and the letters of either case
  have hrange : (48 ≤ c.toNat ∧ c.toNat ≤ 57) ∨ (97 ≤ c.toNat ∧ c.toNat ≤ 102) ∨
      (65 ≤ c.toNat ∧ c.toNat ≤ 70) := by
    rw [Json.Reader.hexValue?] at h
    split at h
    next hdigit => exact .inl hdigit
    split at h
    next hlower => exact .inr (.inl hlower)
    split at h
    next hupper => exact .inr (.inr hupper)
    · cases h
  simp only [Text.isBlankChar, Bool.or_eq_false_iff, Bool.and_eq_false_iff, decide_eq_false_iff_not]
  omega

/-- A minted identifier is no blank text. -/
theorem Uuid.not_isBlank_toString (id : Uuid) : Text.isBlank id.toString = false := by
  obtain ⟨c, cs, hcs⟩ : ∃ c cs, id.toString.toList = c :: cs :=
    List.exists_cons_of_length_pos (by rw [length_toString]; decide)
  have hc : Text.isBlankChar c = false := by
    rcases of_mem_toString (hcs ▸ List.mem_cons_self : c ∈ id.toString.toList) with rfl | hhex
    · decide
    · exact isBlankChar_of_hexValue? hhex
  rw [Text.isBlank, hcs, List.all_cons, hc, Bool.false_and]

/-- What an edge joins, and under which label. -/
def Edge.joint (e : Edge) : String × String × Option String := (e.source, e.target, e.label)

theorem Edge.connects_iff_joint {e : Edge} {source target : String} {label : Option String} :
    e.connects source target label = true ↔ e.joint = (source, target, label) := by
  simp [Edge.connects_iff, joint]

namespace Synthesis

open Json

variable {mint : Nat → Uuid} {reply : String} {draft : Draft}

/-! ### Entries that cannot be read -/

/-- The entries of a list that cannot be read, with their places; `index` is the place of the first
entry. -/
def unreadable {α : Type} (kind : EntryKind) (read : Json → Except Mismatch α) (index : Nat)
    (entries : List Json) : List Skipped :=
  (entries.zipIdx index).filterMap fun (entry, index) =>
    match read entry with
    | .ok _ => none
    | .error mismatch => some ⟨kind, index, entry, mismatch⟩

section Unreadable

variable {α : Type} {kind : EntryKind} {read : Json → Except Mismatch α} {index : Nat}
    {entry : Json}

theorem unreadable_of_ok {a : α} (h : read entry = .ok a) (entries : List Json) :
    unreadable kind read index (entry :: entries) = unreadable kind read (index + 1) entries := by
  simp [unreadable, h]

theorem unreadable_of_error {mismatch : Mismatch} (h : read entry = .error mismatch)
    (entries : List Json) :
    unreadable kind read index (entry :: entries) =
      ⟨kind, index, entry, mismatch⟩ :: unreadable kind read (index + 1) entries := by
  simp [unreadable, h]

end Unreadable

theorem readNodes_eq (index : Nat) (entries : List Json) : readNodes index entries =
    (entries.filterMap fun entry => (readNode entry).toOption,
      unreadable .node readNode index entries) := by
  induction entries generalizing index with
  | nil => rfl
  | cons entry entries ih =>
      rw [readNodes, ih]
      cases hread : readNode entry with
      | ok n => rw [unreadable_of_ok hread, List.filterMap_cons_some (b := n) (by rw [hread]; rfl)]
      | error mismatch =>
          rw [unreadable_of_error hread, List.filterMap_cons_none (by rw [hread]; rfl)]

theorem skipped_add (h : EdgeHarvest) (verdict : EdgeVerdict) :
    (h.add verdict).skipped = h.skipped ++ match verdict with
      | .skip entry => [entry]
      | _ => [] := by
  cases verdict <;> simp [EdgeHarvest.add]

/-- The verdict is to skip the entry when it cannot be read. -/
theorem judgeEdge_of_error {kept : List Edge} {fresh : Uuid} {index : Nat} {entry : Json}
    {mismatch : Mismatch} (h : readEdge entry = .error mismatch) :
    judgeEdge kept fresh index entry = .skip ⟨.edge, index, entry, mismatch⟩ := by
  rw [judgeEdge, h]

/-- What can be read is dropped when it joins a node to itself or is like an edge that was kept, and
is kept otherwise. -/
theorem judgeEdge_of_ok (kept : List Edge) (fresh : Uuid) (index : Nat) {entry : Json}
    {e : ProposedEdge} (h : readEdge entry = .ok e) :
    (∃ warning, judgeEdge kept fresh index entry = .drop warning) ∨
      e.source ≠ e.target ∧ (e.source, e.target, normalizeLabel e.label) ∉ kept.map Edge.joint ∧
        judgeEdge kept fresh index entry =
          .keep ⟨edgeId kept fresh e.id, e.source, e.target, normalizeLabel e.label⟩ := by
  rw [judgeEdge, h]
  dsimp only
  split
  · exact .inl ⟨_, rfl⟩
  next hloop =>
  split
  · exact .inl ⟨_, rfl⟩
  next hunlike =>
  refine .inr ⟨hloop, fun hmem => hunlike ?_, rfl⟩
  obtain ⟨d, hd, hjoint⟩ := List.mem_map.mp hmem
  exact List.any_eq_true.mpr ⟨d, hd, Edge.connects_iff_joint.mpr hjoint⟩

theorem skipped_readEdges (fresh : Nat → Uuid) (index : Nat) (h : EdgeHarvest)
    (entries : List Json) :
    (readEdges fresh index h entries).skipped =
      h.skipped ++ unreadable .edge readEdge index entries := by
  induction entries generalizing index h with
  | nil => simp [readEdges, unreadable]
  | cons entry entries ih =>
      rw [readEdges, ih, skipped_add, List.append_assoc]
      cases hread : readEdge entry with
      | error mismatch =>
          rw [judgeEdge_of_error hread, unreadable_of_error hread]
          rfl
      | ok e =>
          rw [unreadable_of_ok hread]
          -- a readable edge is kept or removed, and it is not skipped
          rcases judgeEdge_of_ok h.edges (fresh index) index hread with
            ⟨warning, hdrop⟩ | ⟨-, -, hkeep⟩
          · rw [hdrop, List.nil_append]
          · rw [hkeep, List.nil_append]

/-! ### The edges that are kept -/

/-- What holds of the edges that were kept so far. -/
structure CleanEdges (edges : List Edge) : Prop where
  id_not_blank : ∀ e ∈ edges, Text.isBlank e.id = false
  not_loop : ∀ e ∈ edges, e.source ≠ e.target
  unlike : (edges.map Edge.joint).Nodup
  label_trimmed : ∀ e ∈ edges, ∀ label, e.label = some label → label ≠ "" ∧ Text.trim label = label

theorem cleanEdges_nil : CleanEdges [] := by constructor <;> simp

theorem not_isBlank_edgeId (kept : List Edge) (fresh : Uuid) (proposed : Option String) :
    Text.isBlank (edgeId kept fresh proposed) = false := by
  rw [edgeId]
  cases hid : proposed.filter _ with
  | none => exact fresh.not_isBlank_toString
  | some id =>
      have hkept := (Option.filter_eq_some_iff.mp hid).2
      simpa using (Bool.and_eq_true_iff.mp hkept).1

theorem CleanEdges.concat {edges : List Edge} (h : CleanEdges edges) {e : Edge}
    (hid : Text.isBlank e.id = false) (hloop : e.source ≠ e.target)
    (hunlike : e.joint ∉ edges.map Edge.joint)
    (hlabel : ∀ label, e.label = some label → label ≠ "" ∧ Text.trim label = label) :
    CleanEdges (edges ++ [e]) where
  id_not_blank := by simpa [or_imp, forall_and] using ⟨h.id_not_blank, hid⟩
  not_loop := by simpa [or_imp, forall_and] using ⟨h.not_loop, hloop⟩
  unlike := by
    rw [List.map_append, List.map_singleton, ← List.concat_eq_append]
    exact h.unlike.concat hunlike
  -- the new edge is last, and the others were clean before
  label_trimmed := by
    intro d hd
    rcases List.mem_append.mp hd with hd | hd
    · exact h.label_trimmed d hd
    · rw [List.mem_singleton.mp hd]
      exact hlabel

/-- **Judging an entry keeps what is kept clean.** -/
theorem CleanEdges.add {h : EdgeHarvest} (hclean : CleanEdges h.edges) (fresh : Uuid) (index : Nat)
    (entry : Json) : CleanEdges (h.add (judgeEdge h.edges fresh index entry)).edges := by
  cases hread : readEdge entry with
  | error mismatch =>
      rw [judgeEdge_of_error hread]
      exact hclean
  | ok e =>
      rcases judgeEdge_of_ok h.edges fresh index hread with
        ⟨warning, hdrop⟩ | ⟨hloop, hunlike, hkeep⟩
      · rw [hdrop]
        exact hclean
      · rw [hkeep]
        exact hclean.concat (not_isBlank_edgeId _ _ _) hloop hunlike fun _ => normalizeLabel_eq_some

theorem CleanEdges.readEdges {h : EdgeHarvest} (hclean : CleanEdges h.edges) (fresh : Nat → Uuid)
    (index : Nat) (entries : List Json) : CleanEdges (readEdges fresh index h entries).edges := by
  induction entries generalizing index h with
  | nil => exact hclean
  | cons entry entries ih => exact ih (hclean.add (fresh index) index entry) (index + 1)

/-! ### The nodes -/

theorem not_isBlank_identify (mint : Nat → Uuid) (place : Nat) (n : Node) :
    Text.isBlank (identify mint place n).id = false := by
  rw [identify]
  split
  · exact (mint place).not_isBlank_toString
  next h => exact Bool.eq_false_iff.mpr h

theorem ids_layOut (nodes : List Node) : (layOut nodes).map (·.id) = nodes.map (·.id) := by
  rw [layOut]
  split
  · rw [List.map_map]
    show List.map ((fun n : Node => n.id) ∘ Prod.fst) nodes.zipIdx = _
    rw [← List.map_map, List.zipIdx_map_fst]
  · rfl

/-- Every node of a draft has an identifier. -/
theorem not_isBlank_of_mem_settleNodes {nodes : List Node} {n : Node}
    (hn : n ∈ settleNodes mint nodes) : Text.isBlank n.id = false := by
  have hid : n.id ∈ (settleNodes mint nodes).map (·.id) := List.mem_map_of_mem hn
  rw [settleNodes, ids_layOut, List.map_map] at hid
  obtain ⟨⟨m, place⟩, -, hm⟩ := List.mem_map.mp hid
  rw [← hm]
  exact not_isBlank_identify mint place m

theorem length_settleNodes (nodes : List Node) :
    (settleNodes mint nodes).length = nodes.length := by
  rw [settleNodes, ← List.length_map Node.id, ids_layOut, List.length_map, List.length_map,
    List.length_zipIdx]

/-! ### Drafts -/

/-- The nodes of a graph that was read, before it is validated. -/
def cleanedNodes (mint : Nat → Uuid) (entries : Entries) : List Node :=
  settleNodes mint (entries.nodes.filterMap fun entry => (readNode entry).toOption)

/-- What became of the edges of a graph that was read. -/
def harvest (mint : Nat → Uuid) (entries : Entries) : EdgeHarvest :=
  readEdges (fun index => mint ((cleanedNodes mint entries).length + index)) 0 .empty entries.edges

/-- The edges of a graph that was read, before it is validated. -/
def cleanedEdges (mint : Nat → Uuid) (entries : Entries) : List Edge := (harvest mint entries).edges

/-- All entries of a graph that cannot be read, the nodes first. -/
def Entries.unreadable (entries : Entries) : List Skipped :=
  Synthesis.unreadable .node readNode 0 entries.nodes ++
    Synthesis.unreadable .edge readEdge 0 entries.edges

theorem cleanedNodes_eq_nil_iff (mint : Nat → Uuid) {entries : Entries} :
    cleanedNodes mint entries = [] ↔
    entries.nodes.filterMap (fun entry => (readNode entry).toOption) = [] := by
  rw [← List.length_eq_zero_iff, ← List.length_eq_zero_iff, cleanedNodes, length_settleNodes]

/-- What is accepted and what is rejected of the entries. -/
theorem settle_eq (mint : Nat → Uuid) (entries : Entries) : settle mint entries =
    if cleanedNodes mint entries =
      [] then .error ⟨[.noNodes], unreadable .node readNode 0 entries.nodes⟩
    else match validateAll (cleanedNodes mint entries) (cleanedEdges mint entries) with
      | [] => .ok ⟨cleanedNodes mint entries, cleanedEdges mint entries,
          (harvest mint entries).warnings ++ entries.unreadable.map .unreadable⟩
      | errors => .error ⟨errors.map .invalid, entries.unreadable⟩ := by
  have hskipped : (harvest mint entries).skipped = unreadable .edge readEdge 0 entries.edges :=
    skipped_readEdges _ _ _ _
  rw [settle, readNodes_eq]
  dsimp only
  simp only [List.isEmpty_iff, cleanedNodes_eq_nil_iff mint, Entries.unreadable, ← hskipped]
  rfl

/-- Which object was found in the reply, and which entries in the object. -/
def Finds (reply : String) (entries : Entries) : Prop :=
  ∃ graph, outerObject? reply = some graph ∧ Entries.format.ofText? graph = .ok entries

theorem readDraft_of_finds {entries : Entries} (h : Finds reply entries) :
    readDraft mint reply = settle mint entries := by
  obtain ⟨graph, hobject, hentries⟩ := h
  rw [readDraft, hobject]
  dsimp only
  rw [hentries]

/-- **A reply is accepted just when there are nodes in it and nothing makes its graph unfit to
run.** -/
theorem readDraft_eq_ok_iff : readDraft mint reply = .ok draft ↔ ∃ entries, Finds reply entries ∧
    cleanedNodes mint entries ≠ [] ∧
    validateAll (cleanedNodes mint entries) (cleanedEdges mint entries) = [] ∧
      draft = ⟨cleanedNodes mint entries, cleanedEdges mint entries,
        (harvest mint entries).warnings ++ entries.unreadable.map .unreadable⟩ := by
  constructor
  · intro h
    rw [readDraft] at h
    split at h
    · cases h
    next graph hobject =>
    split at h
    · cases h
    next entries hentries =>
    -- the text has its graph; now the nodes and the checks
    rw [settle_eq] at h
    split at h
    · cases h
    next hne =>
    split at h
    next hvalid =>
      cases h
      exact ⟨entries, ⟨graph, hobject, hentries⟩, hne, hvalid, rfl⟩
    · cases h
  · rintro ⟨entries, hfinds, hne, hvalid, rfl⟩
    rw [readDraft_of_finds hfinds, settle_eq, if_neg hne, hvalid]

/-- What a draft is to be like: a valid graph with nodes in it, in which everything has an
identifier and no edge is idle. -/
structure Draft.Clean (draft : Draft) : Prop where
  nodes_ne_nil : draft.nodes ≠ []
  valid : validateAll draft.nodes draft.edges = []
  id_not_blank : ∀ n ∈ draft.nodes, Text.isBlank n.id = false
  edges : CleanEdges draft.edges

/-- **What is accepted is clean.** -/
theorem Draft.clean_of_readDraft (h : readDraft mint reply = .ok draft) : draft.Clean := by
  obtain ⟨entries, -, hne, hvalid, rfl⟩ := readDraft_eq_ok_iff.mp h
  exact ⟨hne, hvalid, fun n hn => not_isBlank_of_mem_settleNodes hn, cleanEdges_nil.readEdges _ _ _⟩

/-! ### Rejections -/

/-- What a reply is rejected for. -/
inductive Rejects (mint : Nat → Uuid) (reply : String) : Rejection → Prop where
  | noObject : outerObject? reply = none → Rejects mint reply ⟨[.noObject], []⟩
  | notGraph {graph : String} {e : ReadError} : outerObject? reply = some graph →
      Entries.format.ofText? graph = .error e → Rejects mint reply ⟨[.notGraph e], []⟩
  | noNodes {entries : Entries} : Finds reply entries → cleanedNodes mint entries = [] →
      Rejects mint reply ⟨[.noNodes], unreadable .node readNode 0 entries.nodes⟩
  /-- Everything that makes the graph unfit to run is named. -/
  | invalid {entries : Entries} : Finds reply entries → cleanedNodes mint entries ≠ [] →
      validateAll (cleanedNodes mint entries) (cleanedEdges mint entries) ≠ [] →
      Rejects mint reply
        ⟨(validateAll (cleanedNodes mint entries) (cleanedEdges mint entries)).map .invalid,
          entries.unreadable⟩

/-- **What is rejected is rejected for everything that is wrong with it.** -/
theorem readDraft_eq_error_iff {rejection : Rejection} :
    readDraft mint reply = .error rejection ↔ Rejects mint reply rejection := by
  constructor
  · intro h
    rw [readDraft] at h
    split at h
    next hobject =>
      cases h
      exact .noObject hobject
    next graph hobject =>
    split at h
    next e he =>
      cases h
      exact .notGraph hobject he
    next entries hentries =>
    have hfinds : Finds reply entries := ⟨graph, hobject, hentries⟩
    rw [settle_eq] at h
    split at h
    next hnil =>
      cases h
      exact .noNodes hfinds hnil
    next hne =>
    split at h
    · cases h
    next hinvalid =>
      cases h
      exact .invalid hfinds hne hinvalid
  · rintro (hobject | ⟨hobject, he⟩ | ⟨hfinds, hnil⟩ | ⟨hfinds, hne, hinvalid⟩)
    · rw [readDraft, hobject]
    · rw [readDraft, hobject]
      dsimp only
      rw [he]
    · rw [readDraft_of_finds hfinds, settle_eq, if_pos hnil]
    · rw [readDraft_of_finds hfinds, settle_eq, if_neg hne]
      split
      next hnil => exact absurd hnil hinvalid
      · rfl

end Synthesis

end AgentGraph
