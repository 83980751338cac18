import AgentGraph.Store.Basic
import AgentGraph.Proofs.Json.Format
import AgentGraph.Proofs.Text.Instant
import AgentGraph.Proofs.Text.Uuid

/-!
# Which workflows can be read again

A workflow that was saved comes back as it was when its numbers are finite
(`SavedWorkflow.toOption_ofText?`, `Workflow.reread_eq_self_iff_isFinite`). A coordinate without a
finite value has no written form, and then nothing comes back; a temperature without a finite value
comes back as none.
-/

namespace AgentGraph

open Json

/-! ### What comes back -/

def Position.reread (p : Position) : Option Position := do
  return ⟨← rereadSingle p.x, ← rereadSingle p.y⟩

def NodeData.reread : NodeData → NodeData
  | .llm p => .llm { p with temperature := p.temperature.bind rereadSingle }
  | .agent p => .agent { p with temperature := p.temperature.bind rereadSingle }
  | data => data

def Node.reread (n : Node) : Option Node :=
  n.position.reread.map fun position => { n with position, data := n.data.reread }

/-- What comes back of a workflow that was written. -/
def Workflow.reread (w : Workflow) : Option Workflow :=
  (w.nodes.mapM Node.reread).map fun nodes => { w with nodes }

/-! ### Formats field by field -/

theorem reread_optionalText (s : Option String) : optionalText.reread s = some s := by
  cases s <;> rfl

/-- A list comes back when its items do. -/
theorem reread_list {α : Type} {f : Format α} (h : ∀ a, f.reread a = some a) (as : List α) :
    (Format.list f).reread as = some as := by
  show as.mapM f.reread = _
  rw [funext h]
  exact List.mapM_pure.trans (congrArg some (List.map_id as))

theorem reread_temperature (x : Option Numeric.Single) :
    (Format.option .single).reread x = some (x.bind rereadSingle) := by
  cases x with
  | none => rfl
  | some x =>
      rw [Format.reread, Format.encode, ofSingle, Format.reread, Option.bind_some, rereadSingle]
      cases x.isFinite <;> rfl

theorem Position.reread_format (p : Position) : Position.format.reread p = p.reread := by
  show (Fields.reread _ (p.x, p.y, ())).map _ = _
  simp [Absence.required, Format.reread, Position.reread]

theorem Edge.reread_format (e : Edge) : Edge.format.reread e = some e := by
  obtain ⟨id, source, target, label⟩ := e
  show (Fields.reread _ (id, source, target, label, ())).map _ = _
  cases label <;> simp [Absence.required, Absence.hiddenNone, Format.reread, reread_optionalText]

theorem Operator.reread_format (op : Operator) : Operator.format.reread op = some op := by
  cases op <;> rfl

theorem NodeData.reread_format (data : NodeData) :
    NodeData.format.reread data = some data.reread := by
  rcases data with _ | ⟨instruction, model, temperature⟩ | ⟨agentId, model, temperature⟩ |
    ⟨variableName, operator, value⟩ | ⟨intents, instruction, model⟩ | _
  · rfl
  -- one case for each kind; a temperature is the only number that may be lost
  · show (Fields.reread LlmParams.fields (instruction, model, temperature, ())).map _ = _
    simp [LlmParams.fields, Absence.default, Format.reread, reread_optionalText, reread_temperature,
      NodeData.reread]
  · show (Fields.reread AgentParams.fields (agentId, model, temperature, ())).map _ = _
    simp [AgentParams.fields, Absence.default, reread_optionalText, reread_temperature,
      NodeData.reread]
  · show (Fields.reread ConditionParams.fields (variableName, operator, value, ())).map _ = _
    simp [ConditionParams.fields, Absence.default, Format.reread, Operator.reread_format,
      NodeData.reread]
  · show (Fields.reread ClassifierParams.fields (intents, instruction, model, ())).map _ = _
    have hintents : (Format.list .text).reread intents = some intents :=
      reread_list (fun _ => rfl) intents
    simp [ClassifierParams.fields, Absence.default, Format.reread.eq_1, hintents,
      reread_optionalText, NodeData.reread]
  · rfl

theorem Node.reread_format (n : Node) : Node.format.reread n = n.reread := by
  show (Fields.reread _ (n.id, n.name, n.position, n.data, ())).map _ = _
  rw [Node.reread]
  cases hposition : n.position.reread <;>
    simp [Absence.required, Absence.default, Format.reread.eq_1, Position.reread_format,
      NodeData.reread_format, hposition]

theorem Uuid.reread_format (id : Uuid) : Uuid.format.reread id = some id := by
  show ((Uuid.ofText id.toString).mapError _).toOption = _
  rw [toOption_mapError, Uuid.ofText_toString]
  rfl

theorem Workflow.reread_format (w : Workflow) : Workflow.format.reread w = w.reread := by
  have hnodes : (Format.list Node.format).reread w.nodes = w.nodes.mapM Node.reread :=
    congrArg (List.mapM · w.nodes) (funext Node.reread_format)
  show (Fields.reread _ (w.id, w.name, w.nodes, w.edges, ())).map _ = _
  rw [Workflow.reread]
  cases hread : w.nodes.mapM Node.reread <;>
    simp [Absence.required, Format.reread.eq_1, Uuid.reread_format, hnodes,
      reread_list Edge.reread_format, hread]

/-- **What is read of the text of a workflow.** -/
theorem Workflow.toOption_ofText? (w : Workflow) :
    (Workflow.format.ofText? (Workflow.format.pretty w)).toOption = w.reread := by
  have hlawful : Workflow.format.isLawful = true := rfl
  have hlevels : Workflow.format.levels ≤ Reader.maxDepth := by decide
  exact (Format.toOption_ofText? hlawful hlevels .pretty w).trans (reread_format w)

/-- A point in time that is read back as it was written. -/
def Instant.Survives (t : Instant) : Prop := Instant.ofText t.toString = .ok t

theorem Instant.IsOrdinary.survives {t : Instant} (ht : t.IsOrdinary) : t.Survives :=
  Instant.ofText_toString ht

theorem Instant.reread_format {t : Instant} (ht : t.Survives) :
    Instant.format.reread t = some t := by
  show ((Instant.ofText t.toString).mapError _).toOption = _
  rw [toOption_mapError, show Instant.ofText t.toString = .ok t from ht]
  rfl

/-- A saved workflow comes back with the time it was saved. -/
theorem SavedWorkflow.reread_format {now : Instant} (hnow : now.Survives) (w : Workflow) :
    SavedWorkflow.format.reread ⟨now, w⟩ = w.reread.map (⟨now, ·⟩) := by
  show (Fields.reread _ (now, w, ())).map _ = _
  cases hread : w.reread <;>
    simp [Absence.required, Instant.reread_format hnow, Workflow.reread_format, hread]

/-- **What is read of the text of a saved workflow.** -/
theorem SavedWorkflow.toOption_ofText? {now : Instant} (hnow : now.Survives) (w : Workflow) :
    (SavedWorkflow.format.ofText? (SavedWorkflow.format.pretty ⟨now, w⟩)).toOption =
      w.reread.map (⟨now, ·⟩) := by
  have hlawful : SavedWorkflow.format.isLawful = true := rfl
  have hlevels : SavedWorkflow.format.levels ≤ Reader.maxDepth := by decide
  exact (Format.toOption_ofText? hlawful hlevels .pretty ⟨now, w⟩).trans (reread_format hnow w)

/-! ### Numbers -/

/-- The coordinates in a workflow. -/
def Workflow.coordinates (w : Workflow) :
    List Numeric.Single := w.nodes.flatMap fun n => [n.position.x, n.position.y]

def NodeData.temperature? : NodeData → Option Numeric.Single
  | .llm p => p.temperature
  | .agent p => p.temperature
  | _ => none

/-- The temperatures in a workflow. -/
def Workflow.temperatures (w : Workflow) :
    List Numeric.Single := w.nodes.filterMap (·.data.temperature?)

/-- Nothing but the numbers is left out. -/
def NodeData.withoutNumbers : NodeData → NodeData
  | .llm p => .llm { p with temperature := none }
  | .agent p => .agent { p with temperature := none }
  | data => data

def Node.withoutNumbers (n : Node) : Node :=
  { n with position := .origin, data := n.data.withoutNumbers }

def Workflow.withoutNumbers (w : Workflow) : Workflow :=
  { w with nodes := w.nodes.map Node.withoutNumbers }

/-! ### Lists of what comes back -/

section

variable {α β : Type} {f : α → Option β}

theorem mapM_eq_some_iff {as : List α} {bs : List β} :
    as.mapM f = some bs ↔ List.Forall₂ (fun a b => f a = some b) as bs := by
  induction as generalizing bs with
  | nil => simp [eq_comm]
  | cons a as ih =>
      rw [List.mapM_cons, List.forall₂_cons_left_iff]
      simp only [← ih]
      constructor
      · intro h
        obtain ⟨b, hb, hrest⟩ := Option.bind_eq_some_iff.mp h
        obtain ⟨bs', hbs', heq⟩ := Option.bind_eq_some_iff.mp hrest
        exact ⟨b, bs', hb, hbs', (Option.some.inj heq).symm⟩
      · rintro ⟨b, bs', hb, hbs', rfl⟩
        simp [hb, hbs']

theorem exists_mapM_eq_some_iff {as : List α} :
    (∃ bs, as.mapM f = some bs) ↔ ∀ a ∈ as, ∃ b, f a = some b := by
  simp only [mapM_eq_some_iff]
  induction as with
  | nil => simp
  | cons a as ih => simp [List.forall₂_cons_left_iff, ← ih]

theorem mapM_eq_self_iff {f : α → Option α} {as : List α} :
    as.mapM f = some as ↔ ∀ a ∈ as, f a = some a :=
  mapM_eq_some_iff.trans List.forall₂_same

/-- What each item keeps, the list keeps. -/
theorem map_eq_map_of_mapM {γ : Type} {g : α → γ} {g' : β → γ}
    (h : ∀ a b, f a = some b → g a = g' b) {as : List α} {bs : List β} (hbs : as.mapM f = some bs) :
    as.map g = bs.map g' := by
  have hpairs := mapM_eq_some_iff.mp hbs
  clear hbs
  induction hpairs with
  | nil => rfl
  | cons hab _ ih => rw [List.map_cons, List.map_cons, h _ _ hab, ih]

end

/-! ### When a workflow comes back -/

/-- A position comes back when its coordinates are finite. -/
theorem Position.exists_reread (p : Position) :
    (∃ q, p.reread = some q) ↔ p.x.isFinite = true ∧ p.y.isFinite = true := by
  rw [Position.reread, rereadSingle, rereadSingle]
  cases p.x.isFinite <;> cases p.y.isFinite <;> simp

theorem Position.reread_eq_self_iff (p : Position) :
    p.reread = some p ↔ rereadSingle p.x = some p.x ∧ rereadSingle p.y = some p.y := by
  obtain ⟨x, y⟩ := p
  rw [Position.reread]
  cases rereadSingle x <;> cases rereadSingle y <;> simp

theorem NodeData.reread_eq_self_iff (data : NodeData) :
    data.reread = data ↔ ∀ x ∈ data.temperature?, rereadSingle x = some x := by
  rcases data with _ | ⟨instruction, model, _ | x⟩ | ⟨agentId, model, _ | x⟩ | _ | _ | _ <;>
    simp [NodeData.reread, NodeData.temperature?]

theorem NodeData.withoutNumbers_reread (data : NodeData) :
    data.reread.withoutNumbers = data.withoutNumbers := by
  cases data <;> rfl

theorem Node.reread_eq_self_iff (n : Node) :
    n.reread = some n ↔ n.position.reread = some n.position ∧ n.data.reread = n.data := by
  obtain ⟨id, name, position, data⟩ := n
  rw [Node.reread]
  cases position.reread <;> simp

theorem Node.exists_reread (n : Node) :
    (∃ n', n.reread = some n') ↔ n.position.x.isFinite = true ∧ n.position.y.isFinite = true := by
  rw [← Position.exists_reread, Node.reread]
  simp [Option.map_eq_some_iff]

theorem Node.withoutNumbers_reread {n n' : Node} (h : n.reread = some n') :
    n.withoutNumbers = n'.withoutNumbers := by
  obtain ⟨position, -, rfl⟩ := Option.map_eq_some_iff.mp h
  rw [withoutNumbers, withoutNumbers, NodeData.withoutNumbers_reread]

namespace Workflow

theorem forall_mem_coordinates {w : Workflow} {p : Numeric.Single → Prop} :
    (∀ x ∈ w.coordinates, p x) ↔ ∀ n ∈ w.nodes, p n.position.x ∧ p n.position.y := by
  rw [coordinates, List.forall_mem_flatMap]
  simp only [List.forall_mem_cons, List.not_mem_nil, false_implies, implies_true, and_true]

theorem forall_mem_temperatures {w : Workflow} {p : Numeric.Single → Prop} :
    (∀ x ∈ w.temperatures, p x) ↔ ∀ n ∈ w.nodes, ∀ x ∈ n.data.temperature?, p x := by
  simp only [temperatures, List.forall_mem_filterMap, Option.mem_def]

/-- **A workflow comes back when its coordinates are finite.** -/
theorem exists_reread (w : Workflow) :
    (∃ w', w.reread = some w') ↔ ∀ x ∈ w.coordinates, x.isFinite = true := by
  have hnodes : (∃ w', w.reread = some w') ↔ ∃ nodes, w.nodes.mapM Node.reread = some nodes := by
    rw [Workflow.reread]
    cases w.nodes.mapM Node.reread <;> simp
  rw [hnodes, exists_mapM_eq_some_iff]
  simp only [Node.exists_reread, forall_mem_coordinates]

/-- **A workflow comes back as it was when its numbers do.** -/
theorem reread_eq_self_iff (w : Workflow) :
    w.reread = some w ↔ ∀ x ∈ w.coordinates ++ w.temperatures, rereadSingle x = some x := by
  have hnodes : w.reread = some w ↔ w.nodes.mapM Node.reread = some w.nodes := by
    obtain ⟨id, name, nodes, edges⟩ := w
    rw [Workflow.reread]
    cases nodes.mapM Node.reread <;> simp
  rw [hnodes, mapM_eq_self_iff, List.forall_mem_append, forall_mem_coordinates,
    forall_mem_temperatures, ← forall₂_and]
  simp only [Node.reread_eq_self_iff, Position.reread_eq_self_iff, NodeData.reread_eq_self_iff]

/-- **A workflow with finite numbers comes back as it was.** -/
theorem reread_eq_self_iff_isFinite (w : Workflow) :
    w.reread = some w ↔ ∀ x ∈ w.coordinates ++ w.temperatures, x.isFinite = true := by
  simp only [reread_eq_self_iff, rereadSingle_eq_self_iff]

/-- **Whatever comes back differs in its numbers alone.** -/
theorem withoutNumbers_reread {w w' : Workflow} (h : w.reread = some w') :
    w.withoutNumbers = w'.withoutNumbers := by
  obtain ⟨nodes, hnodes, rfl⟩ := Option.map_eq_some_iff.mp h
  rw [withoutNumbers, withoutNumbers,
    map_eq_map_of_mapM (fun _ _ => Node.withoutNumbers_reread) hnodes]

end Workflow

/-- What comes back is summed up in the same way. -/
theorem SavedWorkflow.summary_reread (now : Instant) {w w' : Workflow} (h : w.reread = some w') :
    (SavedWorkflow.mk now w').summary = (SavedWorkflow.mk now w).summary := by
  obtain ⟨nodes, hnodes, rfl⟩ := Option.map_eq_some_iff.mp h
  have hlength : nodes.length = w.nodes.length := (mapM_eq_some_iff.mp hnodes).length_eq.symm
  simp [SavedWorkflow.summary, hlength]

end AgentGraph
