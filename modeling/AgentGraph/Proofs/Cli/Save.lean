import AgentGraph.Cli.Program
import AgentGraph.Proofs.Store.Save

/-!
# Saving a workflow

Saving a workflow prints the identifier under which it can be run from the store (`perform_save`). A
file that is refused leaves everything as it was.

A workflow with a coordinate that is not finite is accepted, but it cannot be read again: there is
no written form for such a number. Every other workflow can be run and is listed, and it differs
from the one in the file at most in its numbers.
-/

namespace AgentGraph.Cli

open Json

variable {s : Surroundings} {fs : Files} {path store : String}

theorem readWorkflow_eq_ok {text : String} {w : Workflow}
    (hfind : fs.find (.ofText path) = .ok text) (hparse : Workflow.format.ofText? text = .ok w) :
    readWorkflow fs path = .ok w := by
  have htext : readText fs path = .ok text := Store.failing_eq_ok.mpr hfind
  rw [readWorkflow, htext]
  show Except.mapError _ (Workflow.format.ofText? text) = _
  rw [hparse]
  rfl

/-- A valid workflow goes to the store. -/
theorem saveWorkflow_eq {w : Workflow} (hread : readWorkflow fs path = .ok w) (hvalid : w.Valid) :
    saveWorkflow s fs path store =
    (Store.save ⟨store⟩ fs s.now w).map (.success [w.id.toString]) := by
  have hproblems : w.problems.isEmpty = true := List.isEmpty_iff.mpr hvalid
  rw [saveWorkflow, hread]
  show (if w.problems.isEmpty then _ else _) = _
  rw [if_pos hproblems]
  rfl

/-- Any other is refused. -/
theorem saveWorkflow_of_not_valid {w : Workflow} (hread : readWorkflow fs path = .ok w)
    (hinvalid : ¬ w.Valid) :
    saveWorkflow s fs path store = .ok (.failing (errorLines w) fs
        [s!"Refusing to save {path}: {w.problems.length} error(s)"]) := by
  have hproblems : ¬ w.problems.isEmpty = true := fun h => hinvalid (List.isEmpty_iff.mp h)
  rw [saveWorkflow, hread]
  show (if w.problems.isEmpty then _ else _) = _
  rw [if_neg hproblems]
  rfl

/-- A request to save fails and changes nothing, or the workflow in the file is valid and goes to
the store. -/
theorem perform_save_cases (s : Surroundings) (fs : Files) (path store : String) :
    ((perform s fs (.save path store)).failure ≠ none ∧
      (perform s fs (.save path store)).files = fs) ∨ ∃ w fs', readWorkflow fs path = .ok w ∧
      w.Valid ∧ Store.save ⟨store⟩ fs s.now w = .ok fs' ∧
      perform s fs (.save path store) = .success [w.id.toString] fs' := by
  have hperform : perform s fs (.save path store) = .orFail fs (saveWorkflow s fs path store) := rfl
  rw [hperform]
  cases hread : readWorkflow fs path with
  | error causes =>
      have hsave : saveWorkflow s fs path store = .error causes := by
        rw [saveWorkflow, hread]
        rfl
      rw [hsave]
      exact .inl ⟨Option.some_ne_none _, rfl⟩
  | ok w =>
      -- the file was read; it is stored when it is valid and the store takes it
      by_cases hvalid : w.Valid
      · rw [saveWorkflow_eq hread hvalid]
        cases hstore : Store.save ⟨store⟩ fs s.now w with
        | error causes => exact .inl ⟨Option.some_ne_none _, rfl⟩
        | ok fs' => exact .inr ⟨w, fs', rfl, hvalid, hstore, rfl⟩
      · rw [saveWorkflow_of_not_valid hread hvalid]
        exact .inl ⟨Option.some_ne_none _, rfl⟩

/-- The identifier that is printed refers to the workflow in the store. -/
theorem resolveWorkflow_toString (fs : Files) (id : Uuid) (store : String) :
    resolveWorkflow fs id.toString (some store) = Store.load ⟨store⟩ fs id := by
  have hid : Uuid.ofText? id.toString = some id := congrArg Except.toOption id.ofText_toString
  unfold resolveWorkflow
  rw [hid]

/-- What can be done with a workflow after it was saved: it can be run by its identifier if its
coordinates are finite, and is then the same but for numbers that do not survive their text, and it
is listed with the time it was saved. -/
structure Effect.Keeps (e : Effect) (store : String) (w : Workflow) (savedAt : Instant) : Prop where
  printed : e.lines = [w.id.toString]
  loads_iff : (∃ w', resolveWorkflow e.files w.id.toString (some store) = .ok w') ↔
    ∀ x ∈ w.coordinates, x.isFinite = true
  alike : ∀ w', resolveWorkflow e.files w.id.toString (some store) = .ok w' →
    w'.withoutNumbers = w.withoutNumbers
  same_iff : resolveWorkflow e.files w.id.toString (some store) = .ok w ↔
    ∀ x ∈ w.coordinates ++ w.temperatures, rereadSingle x = some x
  listed : (∀ x ∈ w.coordinates, x.isFinite = true) → ∀ later : Surroundings,
    (perform later e.files (.list store)).failure = none ∧
      summaryLine ⟨w.id, w.name, savedAt, w.nodes.length⟩ ∈
      (perform later e.files (.list store)).lines

theorem keeps_of_save {w : Workflow} {fs' : Files} (hnow : s.now.IsOrdinary)
    (hsave : Store.save ⟨store⟩ fs s.now w = .ok fs') :
    (Effect.success [w.id.toString] fs').Keeps store w s.now := by
  -- loading under the id is rereading what was written
  have hok : ∀ w', resolveWorkflow fs' w.id.toString (some store) = .ok w' ↔
      w.reread = some w' := by
    intro w'
    rw [← Store.toOption_load_save hnow.survives hsave, resolveWorkflow_toString,
      toOption_eq_some_iff]
  refine ⟨rfl, (exists_congr hok).trans w.exists_reread, ?_, (hok w).trans w.reread_eq_self_iff, ?_⟩
  · exact fun w' hw' => (Workflow.withoutNumbers_reread ((hok w').mp hw')).symm
  · intro hfinite later
    obtain ⟨w', hw'⟩ := w.exists_reread.mpr hfinite
    obtain ⟨summaries, hlist, hmem⟩ := Store.exists_list_save hnow.survives hsave hw'
    have hperform : perform later fs' (.list store) = .success (summaries.map summaryLine) fs' := by
      show Effect.orFail fs' (listWorkflows fs' store) = _
      rw [listWorkflows, hlist]
      rfl
    show (perform later fs' (.list store)).failure = none ∧
      _ ∈ (perform later fs' (.list store)).lines
    rw [hperform]
    exact ⟨rfl, List.mem_map_of_mem hmem⟩

/-- **The store gives back what was saved.** A file that holds no valid workflow is refused, and
nothing is changed. When a request to save succeeds, the valid workflow in the file is kept. -/
theorem perform_save (s : Surroundings) (hnow : s.now.IsOrdinary) (fs : Files)
    (path store : String) :
    let e := perform s fs (.save path store)
    ((∀ w, readWorkflow fs path = .ok w → ¬ w.Valid) → e.failure ≠ none ∧ e.files = fs) ∧
      (e.failure = none → ∃ w, readWorkflow fs path = .ok w ∧ w.Valid ∧ e.Keeps store w s.now) := by
  intro e
  rcases perform_save_cases s fs path store
    with ⟨hfailure, hfiles⟩ | ⟨w, fs', hread, hvalid, hsave, he⟩
  · exact ⟨fun _ => ⟨hfailure, hfiles⟩, fun hnone => absurd hnone hfailure⟩
  · refine ⟨fun hrefused => absurd hvalid (hrefused w hread), fun _ => ⟨w, hread, hvalid, ?_⟩⟩
    rw [show e = _ from he]
    exact keeps_of_save hnow hsave

/-! A drawing with a start, a generating step and an end. -/

def drawing : Workflow where
  id := .nil
  name := "Drawing"
  nodes := [⟨"in", "", ⟨.ofNat 100, .ofNat 200⟩, .start⟩,
    ⟨"step", "Step", ⟨.round false 4505 10 0, .round true 305 100 0⟩, .llm .default⟩,
    ⟨"out", "", .origin, .finish⟩]
  edges := [⟨"first", "in", "step", none⟩, ⟨"second", "step", "out", none⟩]

/-- Nothing but a file with the drawing. -/
def drawingFiles : Files := ⟨[(["drawing.json"], Workflow.format.pretty drawing)], []⟩

def drawingSurroundings : Surroundings where
  environment := []
  files := drawingFiles
  now := ⟨0, 0⟩
  clock := fun _ => 0
  mint := fun _ => .nil
  post := fun _ => .failed []

theorem reread_drawing : drawing.reread = some drawing := by
  decide +kernel

/-- The file holds the drawing. -/
theorem readWorkflow_drawing : readWorkflow drawingFiles "drawing.json" = .ok drawing := by
  have hpath : Path.ofText "drawing.json" = ["drawing.json"] :=
    Path.ofText_name ⟨by decide, by decide, by decide, by decide⟩
  have hfind : drawingFiles.find (Path.ofText "drawing.json") =
      .ok (Workflow.format.pretty drawing) := by
    rw [hpath]
    rfl
  exact readWorkflow_eq_ok hfind
    (toOption_eq_some_iff.mp (drawing.toOption_ofText?.trans reread_drawing))

theorem exists_save_drawing :
    ∃ fs', Store.save ⟨"store"⟩ drawingFiles drawingSurroundings.now drawing = .ok fs' := by
  have hpath : Path.ofText (Store.workflowsPath ⟨"store"⟩) = ["store", "workflows"] := by
    rw [Store.workflowsPath, Path.ofText_joinPath ⟨by decide, by decide, by decide, by decide⟩,
      Path.ofText_name ⟨by decide, by decide, by decide, by decide⟩]
    rfl
  let made : Files := ⟨drawingFiles.files, [["store", "workflows"]]⟩
  have hmade : drawingFiles.makeDirectories ["store", "workflows"] = .ok made := rfl
  have hwrite : ∀ name text, made.write (["store", "workflows"] ++ [name]) text =
      .ok (made.put (["store", "workflows"] ++ [name]) text) := fun _ _ => rfl
  simp only [Store.save_eq_ok_iff, hpath]
  exact ⟨_, made, hmade, hwrite _ _⟩

/-- The drawing is saved and comes back as it was. -/
theorem drawing_save :
    (perform drawingSurroundings drawingFiles (.save "drawing.json" "store")).failure = none ∧
    resolveWorkflow (perform drawingSurroundings drawingFiles (.save "drawing.json" "store")).files
      drawing.id.toString (some "store") = .ok drawing := by
  have hnow : drawingSurroundings.now.IsOrdinary := ⟨by decide, by decide⟩
  have hsuccess :
      (perform drawingSurroundings drawingFiles (.save "drawing.json" "store")).failure = none := by
    obtain ⟨fs', hstore⟩ := exists_save_drawing
    show (Effect.orFail _ (saveWorkflow drawingSurroundings _ _ _)).failure = none
    rw [saveWorkflow_eq readWorkflow_drawing (by decide), hstore]
    rfl
  obtain ⟨-, hsaved⟩ := perform_save drawingSurroundings hnow drawingFiles "drawing.json" "store"
  -- the workflow that was saved is the one that the file holds
  obtain ⟨w, hread, -, hkeeps⟩ := hsaved hsuccess
  obtain rfl : w = drawing := Except.ok.inj (hread.symm.trans readWorkflow_drawing)
  exact ⟨hsuccess, hkeeps.same_iff.mpr (drawing.reread_eq_self_iff.mp reread_drawing)⟩

end AgentGraph.Cli
