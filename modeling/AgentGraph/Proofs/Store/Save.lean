import AgentGraph.Proofs.Store.Files
import AgentGraph.Proofs.Workflow.Saved

/-!
# What a store gives back

What is saved can be loaded under its identifier, with what its format loses (`Store.load_save`),
and if it can be loaded it is listed (`Store.list_save`).
-/

namespace AgentGraph

open Json

/-! ### The files of workflows -/

/-- The name of the file of a workflow. -/
def workflowName (id : Uuid) : String := s!"{id}.json"

theorem toList_workflowName (id : Uuid) :
    (workflowName id).toList = id.toString.toList ++ ".json".toList := by
  rw [workflowName, String.toList_append]
  rfl

theorem length_workflowName (id : Uuid) : (workflowName id).toList.length = 41 := by
  rw [toList_workflowName, List.length_append, Uuid.length_toString]
  rfl

/-- An identifier and an ending are an ordinary name. -/
theorem isPlainName_of_uuid (id : Uuid) (ending : String) {name : String}
    (hname : name.toList = id.toString.toList ++ ending.toList) (hending : '/' ∉ ending.toList) :
    IsPlainName name := by
  have hne : ∀ other : String, other.toList.length < 36 → name ≠ other := by
    rintro _ hlength rfl
    rw [hname, List.length_append, Uuid.length_toString] at hlength
    omega
  refine ⟨hne _ (by decide), hne _ (by decide), hne _ (by decide), ?_⟩
  intro hc
  rw [hname] at hc
  rcases List.mem_append.mp hc with hid | hc
  · exact absurd (Uuid.of_mem_toString hid) (by decide)
  · exact hending hc

theorem isPlainName_workflowName (id : Uuid) : IsPlainName (workflowName id) :=
  isPlainName_of_uuid id ".json" (toList_workflowName id) (by decide)

theorem isWorkflowName_workflowName (id : Uuid) :
    Store.isWorkflowName (workflowName id) = true := by
  have hne : workflowName id ≠ ".json" := fun heq => by
    have := length_workflowName id
    rw [heq] at this
    exact absurd this (by decide)
  have hends : (workflowName id).endsWith ".json" = true :=
    endsWith_iff.mpr ⟨_, (toList_workflowName id).symm⟩
  rw [Store.isWorkflowName, hends, Bool.true_and]
  exact decide_eq_true hne

namespace Store

variable {s : Store} {fs fs' : Files} {now : Instant} {w : Workflow}

theorem ofText_workflowPath (s : Store) (id : Uuid) :
    Path.ofText (s.workflowPath id) = Path.ofText s.workflowsPath ++ [workflowName id] :=
  Path.ofText_joinPath (isPlainName_workflowName id) s.workflowsPath

theorem failing_eq_ok {α : Type} {reason : String} {r : Except FileError α} {a : α} :
    failing reason r = .ok a ↔ r = .ok a := by
  cases r <;> simp [failing, Except.mapError]

/-- A workflow is saved by making the directory and writing the file. -/
theorem save_eq_ok_iff : s.save fs now w = .ok fs' ↔
    ∃ made, fs.makeDirectories (.ofText s.workflowsPath) = .ok made ∧
      made.write (Path.ofText s.workflowsPath ++ [workflowName w.id])
        (SavedWorkflow.format.pretty ⟨now, w⟩) = .ok fs' := by
  rw [save, ofText_workflowPath]
  -- a save makes the folder, and then it writes the file
  cases fs.makeDirectories (.ofText s.workflowsPath) with
  | error e =>
      refine ⟨fun h => ?_, ?_⟩
      · cases h
      · rintro ⟨made, hmade, -⟩
        cases hmade
  | ok made =>
      refine ⟨fun h => ⟨made, rfl, failing_eq_ok.mp h⟩, ?_⟩
      rintro ⟨_, hmade, hwrite⟩
      cases hmade
      exact failing_eq_ok.mpr hwrite

theorem toOption_readSaved (fs : Files) (path : String) : (readSaved fs path).toOption =
    (fs.text? (.ofText path)).bind fun text => (SavedWorkflow.format.ofText? text).toOption := by
  rw [readSaved, toOption_bind, failing, toOption_mapError, Files.toOption_find]
  simp only [toOption_mapError]

/-- What is read in the file of a workflow that was saved. -/
theorem toOption_readSaved_save (hnow : now.Survives) (h : s.save fs now w = .ok fs') :
    (readSaved fs' (s.workflowPath w.id)).toOption = w.reread.map (⟨now, ·⟩) := by
  obtain ⟨made, -, hwrite⟩ := save_eq_ok_iff.mp h
  rw [toOption_readSaved, ofText_workflowPath, Files.text?_write hwrite, Option.bind_some,
    SavedWorkflow.toOption_ofText? hnow w]

/-- **A workflow that was saved is loaded as its format gives it back.** -/
theorem toOption_load_save (hnow : now.Survives) (h : s.save fs now w = .ok fs') :
    (s.load fs' w.id).toOption = w.reread := by
  rw [load, toOption_map, toOption_readSaved_save hnow h, Option.map_map]
  exact Option.map_id'

/-- **A workflow that can be loaded is listed.** -/
theorem exists_list_save (hnow : now.Survives) (h : s.save fs now w = .ok fs') {w' : Workflow}
    (hread : w.reread = some w') :
    ∃ summaries, s.list fs' = .ok summaries ∧ (SavedWorkflow.mk now w).summary ∈ summaries := by
  obtain ⟨made, -, hwrite⟩ := save_eq_ok_iff.mp h
  obtain ⟨hthere, names, hnames, hname⟩ := Files.exists_names_write hwrite
  have hsaved : (readSaved fs' (joinPath s.workflowsPath (workflowName w.id))).toOption =
      some ⟨now, w'⟩ :=
    (toOption_readSaved_save hnow h).trans (congrArg (Option.map (SavedWorkflow.mk now)) hread)
  rw [list, hthere, hnames, ← SavedWorkflow.summary_reread now hread]
  refine ⟨_, rfl, ?_⟩
  rw [List.mem_mergeSort]
  refine List.mem_map_of_mem (List.mem_filterMap.mpr ⟨workflowName w.id, ?_, hsaved⟩)
  exact List.mem_filter.mpr ⟨hname, isWorkflowName_workflowName w.id⟩

end Store

end AgentGraph
