import AgentGraph.Proofs.Workflow.Saved
import AgentGraph.Run.Event

/-!
# What is written can be read again

A report and an event are made of texts, names and whole numbers, so whatever they say they are read
back as they were. A workflow has floating-point numbers too, and is read back as it was just when
these are finite (`Workflow.readsBack_iff`).
-/

namespace AgentGraph

open Json

namespace Json

variable {α : Type} {f : Format α}

/-- The value is read back as it was written, from either layout of its text. -/
def Format.ReadsBack (f : Format α) (a : α) : Prop :=
  f.ofText? (f.compact a) = .ok a ∧ f.ofText? (f.pretty a) = .ok a

/-- Whether a value is read back is settled by its format, without any text. -/
theorem Format.readsBack_iff (hlawful : f.isLawful = true) (hlevels : f.levels ≤ Reader.maxDepth)
    (a : α) : f.ReadsBack a ↔ f.reread a = some a := by
  have hread : ∀ style, f.ofText? ((f.encode a).render style) = .ok a ↔ f.reread a = some a := by
    intro style
    rw [← toOption_eq_some_iff, toOption_ofText? hlawful hlevels style a]
  unfold ReadsBack compact pretty Json.compact Json.pretty
  rw [hread, hread, and_self_iff]

end Json

/-! ### What comes back of a run -/

theorem LogKind.reread_format (kind : LogKind) : LogKind.format.reread kind = some kind := by
  cases kind <;> rfl

theorem ExecutorState.reread_format (state : ExecutorState) :
    ExecutorState.format.reread state = some state := by
  cases state <;> rfl

theorem LogEntry.reread_format (e : LogEntry) : LogEntry.format.reread e = some e := by
  obtain ⟨timestamp, kind, message, nodeId⟩ := e
  show (Fields.reread _ (timestamp, kind, message, nodeId, ())).map _ = _
  -- an entry that belongs to no node is written without the field
  cases nodeId <;>
    simp [Absence.required, Absence.hiddenNone, Format.reread.eq_1, Format.reread.eq_4,
      LogKind.reread_format, reread_optionalText]

theorem RunStatus.reread_format (status : RunStatus) :
    RunStatus.format.reread status = some status := by
  cases status <;> rfl

theorem Report.reread_format (r : Report) : Report.format.reread r = some r := by
  obtain ⟨runId, status, output, log, visitedNodes, traversedEdges⟩ := r
  have hlog : Log.format.reread log = some log := reread_list LogEntry.reread_format log
  have htexts : ∀ texts, (Format.list .text).reread texts = some texts := reread_list fun _ => rfl
  show (Fields.reread _ (runId, status, output, log, visitedNodes, traversedEdges, ())).map _ = _
  simp [Absence.required, Absence.optional, Uuid.reread_format, RunStatus.reread_format,
    reread_optionalText, hlog, htexts]

theorem Event.reread_format (e : Event) : Event.format.reread e = some e := by
  cases e with
  | log entry =>
      show (LogEntry.format.reread entry).map _ = _
      rw [LogEntry.reread_format, Option.map_some]
  | stateChanged state =>
      show (ExecutorState.format.reread state).map _ = _
      rw [ExecutorState.reread_format, Option.map_some]
  | workflowCompleted status =>
      show (RunStatus.format.reread status).map _ = _
      rw [RunStatus.reread_format, Option.map_some]
  | nodeStarted id | nodeCompleted id | nodeFailed id error | edgeTraversed id => rfl

/-! ### What is read back -/

theorem Workflow.readsBack_iff (w : Workflow) :
    Workflow.format.ReadsBack w ↔ ∀ x ∈ w.coordinates ++ w.temperatures, x.isFinite = true := by
  rw [Format.readsBack_iff rfl (by decide), Workflow.reread_format,
    Workflow.reread_eq_self_iff_isFinite]

theorem Report.readsBack (r : Report) : Report.format.ReadsBack r := by
  rw [Format.readsBack_iff rfl (by decide), Report.reread_format]

theorem Event.readsBack (e : Event) : Event.format.ReadsBack e := by
  rw [Format.readsBack_iff rfl (by decide), Event.reread_format]

/-- **Reading undoes writing**, in either layout: for every workflow with finite numbers, for every
report and for every event. -/
theorem read_undoes_write :
    (∀ w : Workflow, (∀ x ∈ w.coordinates ++ w.temperatures, x.isFinite = true) →
      Workflow.format.ReadsBack w) ∧
    (∀ r : Report, Report.format.ReadsBack r) ∧
    ∀ e : Event, Event.format.ReadsBack e :=
  ⟨fun w hw => w.readsBack_iff.mpr hw, Report.readsBack, Event.readsBack⟩

/-- A model asked once, at the default temperature; `label` is written on the way out. -/
def Workflow.sketch (label : Option String) : Workflow where
  id := .nil
  name := "Sketch „1“\n"
  nodes := [⟨"in", "", .origin, .start⟩, ⟨"ask", "Ask", ⟨.ofNat 260, .ofNat 90⟩, .llm .default⟩,
    ⟨"out", "", ⟨.ofNat 520, .ofNat 90⟩, .finish⟩]
  edges := [⟨"first", "in", "ask", none⟩, ⟨"last", "ask", "out", label⟩]

/-- An empty label is read back as such, and so is a label left out, a failure without output, and
the event that tells of it. -/
theorem sketch_read_back :
    Workflow.format.ReadsBack (.sketch (some "")) ∧ Workflow.format.ReadsBack (.sketch none) ∧
      Report.format.ReadsBack
        ⟨.nil, .failed "ask" "\"✗\"", none, [⟨0, .error, "✗", some "ask"⟩], ["in", "ask"],
          ["first"]⟩ ∧
      Event.format.ReadsBack (.workflowCompleted (.failed "ask" "\"✗\"")) := by
  obtain ⟨hworkflows, hreports, hevents⟩ := read_undoes_write
  exact ⟨hworkflows _ (by decide), hworkflows _ (by decide), hreports _, hevents _⟩

end AgentGraph
