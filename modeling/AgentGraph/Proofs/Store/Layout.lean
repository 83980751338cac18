import AgentGraph.Proofs.Store.Save

/-!
# What is where in a store

A store that nobody else touches holds the files of workflows and of runs, and the directories of
these, and nothing else (`Tidy`). Then nothing is ever in the way: its directories can be made and
its files written and removed, and it stays like that (`Tidy.makeDirectories`, `Tidy.write`,
`Tidy.without`).
-/

namespace AgentGraph

/-! ### Names -/

/-- The name of the file of a run. -/
def runName (id : Uuid) : String := s!"{id}.jsonl"

theorem isPlainName_runName (id : Uuid) : IsPlainName (runName id) :=
  isPlainName_of_uuid id ".jsonl" String.toList_append (by decide)

theorem isPlainName_uuid (id : Uuid) : IsPlainName id.toString :=
  isPlainName_of_uuid id "" (by simp) (by decide)

theorem Uuid.toString_injective : Function.Injective Uuid.toString := fun a b hab => by
  have := Uuid.ofText_toString a
  rw [hab, Uuid.ofText_toString] at this
  exact (Except.ok.inj this).symm

theorem workflowName_injective : Function.Injective workflowName := fun a b hab => by
  have hlists := congrArg String.toList hab
  rw [toList_workflowName, toList_workflowName] at hlists
  exact Uuid.toString_injective (String.toList_inj.mp (List.append_cancel_right hlists))

theorem runName_injective : Function.Injective runName := fun a b hab => by
  have hlists : a.toString.toList ++ ".jsonl".toList = b.toString.toList ++ ".jsonl".toList := by
    rw [← String.toList_append, ← String.toList_append]
    exact congrArg String.toList hab
  exact Uuid.toString_injective (String.toList_inj.mp (List.append_cancel_right hlists))

/-! ### Places -/

/-- The files of a store, below its directory. -/
inductive Place : Path → Prop
  | workflow (id : Uuid) : Place ["workflows", workflowName id]
  | run (workflowId runId : Uuid) : Place ["runs", workflowId.toString, runName runId]

/-- The directories of a store, below its own. -/
inductive Folder : Path → Prop
  | root : Folder []
  | workflows : Folder ["workflows"]
  | runs (workflowId : Uuid) : Folder ["runs", workflowId.toString]

theorem Place.ne_nil {path : Path} (h : Place path) : path ≠ [] := by
  cases h <;> simp

theorem Place.folder {path : Path} (h : Place path) : Folder path.dropLast := by
  cases h with
  | workflow id => exact .workflows
  | run workflowId runId => exact .runs workflowId

/-- No file of a store is above its directories. -/
theorem Folder.not_place {above rest : Path} (h : Folder (above ++ rest)) : ¬ Place above := by
  intro hplace
  generalize hpath : above ++ rest = path at h
  cases hplace <;> cases h <;> simp at hpath

/-- No directory of a store is at one of its files or below it. -/
theorem Place.not_folder {above rest : Path} (h : Place above) : ¬ Folder (above ++ rest) :=
  fun hfolder => hfolder.not_place h

/-- No file of a store is below another. -/
theorem Place.eq_nil_of_append {above rest : Path} (h : Place above) (h' : Place (above ++ rest)) :
    rest = [] := by
  generalize hpath : above ++ rest = path at h'
  cases h <;> cases h' <;> simp at hpath <;> simp [hpath]

/-! ### Trees of a store -/

/-- Nobody else touches the directory of the store: there is nothing in it but what belongs there,
and no file in place of it or of a directory that it is in. -/
structure Tidy (root : Path) (fs : Files) : Prop where
  clear : ∀ above, above <+: root → fs.isFile above = false
  place : ∀ rest, fs.isFile (root ++ rest) = true → Place rest
  folder : ∀ rest, root ++ rest ∈ fs.made → Folder rest

namespace Tidy

variable {root rest : Path} {fs : Files}

/-- No file is in the way to anything in the store. -/
theorem isBlocked (h : Tidy root fs) (hrest : Place rest ∨ Folder rest) :
    fs.isBlocked (root ++ rest) = false := by
  refine Files.isBlocked_eq_false_iff.mpr fun n hn => ?_
  rw [List.length_append] at hn
  rw [List.take_append]
  -- what leads to the place is above the root, or a folder within it
  by_cases hroot : n ≤ root.length
  · rw [Nat.sub_eq_zero_of_le hroot, List.take_zero, List.append_nil]
    exact h.clear _ (List.take_prefix ..)
  · rw [List.take_of_length_le (by omega)]
    refine Bool.eq_false_iff.mpr fun hfile => ?_
    have hsplit := List.take_append_drop (n - root.length) rest
    have habove := h.place _ hfile
    rcases hrest with hplace | hfolder
    · have hnil := habove.eq_nil_of_append (hsplit.symm ▸ hplace)
      rw [List.drop_eq_nil_iff] at hnil
      omega
    · exact (hsplit.symm ▸ hfolder).not_place habove

theorem isFile_of_folder (h : Tidy root fs) (hrest : Folder rest) :
    fs.isFile (root ++ rest) = false := by
  refine Bool.eq_false_iff.mpr fun hfile => ?_
  rw [← List.append_nil rest] at hrest
  exact hrest.not_place (h.place _ hfile)

theorem isDirectory_of_place (h : Tidy root fs) (hrest : Place rest) :
    fs.isDirectory (root ++ rest) = false := by
  refine Bool.eq_false_iff.mpr fun hdirectory => ?_
  rcases Files.isDirectory_iff.mp hdirectory with hnil | ⟨more, hmade⟩ | ⟨more, hne, hfile⟩
  · cases hrest <;> simp at hnil
  · rw [List.append_assoc] at hmade
    exact hrest.not_folder (h.folder _ hmade)
  · rw [List.append_assoc] at hfile
    exact hne (hrest.eq_nil_of_append (h.place _ hfile))

/-- The directories of the store can be made. -/
theorem makeDirectories (h : Tidy root fs) (hrest : Folder rest) :
    fs.makeDirectories (root ++ rest) = .ok (fs.withDirectory (root ++ rest)) ∧
      Tidy root (fs.withDirectory (root ++ rest)) := by
  refine ⟨?_, h.clear, h.place, fun rest' hmade => ?_⟩
  · rw [Files.makeDirectories, h.isFile_of_folder hrest, h.isBlocked (.inr hrest)]
    rfl
  · rcases List.mem_cons.mp hmade with heq | hmade
    · rwa [List.append_cancel_left heq]
    · exact h.folder _ hmade

/-- The files of the store can be written when their directories are there. -/
theorem write (h : Tidy root fs) (hrest : Place rest)
    (hdirectory : fs.isDirectory (root ++ rest.dropLast) = true) (text : String) :
    fs.write (root ++ rest) text = .ok (fs.put (root ++ rest) text) ∧
    Tidy root (fs.put (root ++ rest) text) := by
  have hne := hrest.ne_nil
  refine ⟨?_, fun above habove => ?_, fun rest' hfile => ?_, h.folder⟩
  · rw [Files.write, h.isDirectory_of_place hrest, h.isBlocked (.inl hrest),
      List.dropLast_append_of_ne_nil hne, hdirectory]
    rfl
  · refine Bool.eq_false_iff.mpr fun hfile => ?_
    -- a place is never above the root
    rcases (Files.isFile_put ..).mp hfile with rfl | hfile
    · have hlength := habove.length_le
      rw [List.length_append] at hlength
      exact hne (List.length_eq_zero_iff.mp (by omega))
    · exact Bool.eq_false_iff.mp (h.clear _ habove) hfile
  · rcases (Files.isFile_put ..).mp hfile with heq | hfile
    · rwa [List.append_cancel_left heq]
    · exact h.place _ hfile

theorem without (h : Tidy root fs) (hrest : Place rest) :
    Tidy root (fs.without (root ++ rest)) := by
  -- no file is added; only the folder that held the file is noted
  have hfile : ∀ path, (fs.without (root ++ rest)).isFile path = true → fs.isFile path = true := by
    intro path hpath
    rw [Files.isFile_iff] at *
    obtain ⟨file, hfile, heq⟩ := hpath
    exact ⟨file, (List.mem_filter.mp hfile).1, heq⟩
  refine ⟨fun above habove => Bool.eq_false_iff.mpr fun hpath => ?_,
    fun rest' hpath => h.place _ (hfile _ hpath), fun rest' hmade => ?_⟩
  · exact Bool.eq_false_iff.mp (h.clear _ habove) (hfile _ hpath)
  · rcases List.mem_cons.mp hmade with heq | hmade
    · rw [List.dropLast_append_of_ne_nil hrest.ne_nil] at heq
      rw [List.append_cancel_left heq]
      exact hrest.folder
    · exact h.folder _ hmade

/-- The names in the directory of the workflows are those of their files. -/
theorem exists_names (h : Tidy root fs) (hthere : fs.isThere (root ++ ["workflows"]) = true) :
    ∃ ids : List Uuid, fs.names (root ++ ["workflows"]) = .ok (ids.map workflowName) ∧ ids.Nodup ∧
      ∀ id, id ∈ ids ↔ fs.isFile (root ++ ["workflows", workflowName id]) = true := by
  have hfile := h.isFile_of_folder .workflows
  rw [Files.isThere, hfile, Bool.false_or] at hthere
  obtain ⟨names, hnames, hnodup, hmem⟩ :=
    Files.exists_names hfile (h.isBlocked (.inr .workflows)) hthere
  -- the only files of the folder are those named after an id
  have hname : ∀ name, name ∈ names ↔ ∃ id, workflowName id = name ∧
      fs.isFile (root ++ ["workflows", workflowName id]) = true := by
    intro name
    simp only [hmem, List.append_assoc, List.singleton_append]
    constructor
    · rintro ⟨more, hmore | hmade⟩
      · generalize hrest : "workflows" :: name :: more = rest at hmore
        cases h.place _ hmore with
        | workflow id =>
            obtain ⟨rfl, -⟩ := List.cons.inj (List.cons.inj hrest).2
            exact ⟨id, rfl, hmore⟩
        | run => simp at hrest
      · generalize hrest : "workflows" :: name :: more = rest at hmade
        cases h.folder _ hmade <;> simp at hrest
    · rintro ⟨id, rfl, hid⟩
      exact ⟨[], .inl hid⟩
  obtain ⟨ids, rfl⟩ : names ∈ Set.range (List.map workflowName) := by
    rw [Set.range_list_map]
    exact fun name h => ((hname name).mp h).imp fun _ => And.left
  refine ⟨ids, hnames, .of_map _ hnodup, fun id => ?_⟩
  rw [← List.mem_map_of_injective workflowName_injective, hname]
  constructor
  · rintro ⟨id', heq, hid⟩
    rwa [workflowName_injective heq] at hid
  · exact fun hid => ⟨id, rfl, hid⟩

end Tidy

/-! ### What a store does with its files -/

namespace Store

variable {s : Store} {fs : Files}

theorem ofText_workflowsPath (s : Store) :
    Path.ofText s.workflowsPath = Path.ofText s.root ++ ["workflows"] :=
  Path.ofText_joinPath ⟨by decide, by decide, by decide, by decide⟩ s.root

theorem ofText_runsPath (s : Store) (workflowId : Uuid) :
    Path.ofText (s.runsPath workflowId) = Path.ofText s.root ++ ["runs", workflowId.toString] := by
  rw [runsPath, Path.ofText_joinPath (isPlainName_uuid workflowId),
    Path.ofText_joinPath ⟨by decide, by decide, by decide, by decide⟩, List.append_assoc]
  rfl

theorem ofText_runPath (s : Store) (workflowId runId : Uuid) :
    Path.ofText (s.runPath workflowId runId) =
      Path.ofText s.root ++ ["runs", workflowId.toString, runName runId] := by
  have hname : Path.ofText (s.runPath workflowId runId) =
      Path.ofText (s.runsPath workflowId) ++ [runName runId] :=
    Path.ofText_joinPath (isPlainName_runName runId) _
  rw [hname, ofText_runsPath, List.append_assoc]
  rfl

/-- The path of the file of a workflow. -/
def workflowFile (s : Store) (id : Uuid) : Path :=
  Path.ofText s.root ++ ["workflows", workflowName id]

/-- The path of the file of a run. -/
def runFile (s : Store) (workflowId runId : Uuid) : Path :=
  Path.ofText s.root ++ ["runs", workflowId.toString, runName runId]

theorem workflowFile_injective (s : Store) : Function.Injective s.workflowFile := fun id id' h => by
  simpa [workflowName_injective.eq_iff] using List.append_cancel_left h

theorem workflowFile_ne_runFile (s : Store) (id workflowId runId : Uuid) :
    s.workflowFile id ≠ s.runFile workflowId runId := fun h => by
  simpa using List.append_cancel_left h

theorem runFile_inj {workflowId runId workflowId' runId' : Uuid} :
    s.runFile workflowId runId = s.runFile workflowId' runId' ↔ workflowId = workflowId' ∧
    runId = runId' := by
  simp [runFile, Uuid.toString_injective.eq_iff, runName_injective.eq_iff]

theorem ofText_workflowPath_eq (s : Store) (id : Uuid) :
    Path.ofText (s.workflowPath id) = s.workflowFile id := by
  rw [ofText_workflowPath, ofText_workflowsPath, List.append_assoc]
  rfl

/-- The files after a workflow was saved. -/
def saved (s : Store) (fs : Files) (now : Instant) (w : Workflow) : Files :=
  (fs.withDirectory (Path.ofText s.root ++ ["workflows"])).put (s.workflowFile w.id)
    (SavedWorkflow.format.pretty ⟨now, w⟩)

/-- A workflow can always be saved. -/
theorem save_of_tidy (h : Tidy (Path.ofText s.root) fs) (now : Instant) (w : Workflow) :
    s.save fs now w = .ok (s.saved fs now w) ∧ Tidy (Path.ofText s.root) (s.saved fs now w) := by
  obtain ⟨hmade, htidy⟩ := h.makeDirectories .workflows
  obtain ⟨hwrite, hwritten⟩ := htidy.write (.workflow w.id) (Files.isDirectory_withDirectory ..)
    (SavedWorkflow.format.pretty ⟨now, w⟩)
  refine ⟨save_eq_ok_iff.mpr ⟨_, ofText_workflowsPath s ▸ hmade, ?_⟩, hwritten⟩
  rw [ofText_workflowsPath, List.append_assoc]
  exact hwrite

/-- The files after entries were added to the log of a run. -/
def logged (s : Store) (fs : Files) (workflowId runId : Uuid) (log : Log) : Files :=
  (fs.withDirectory (Path.ofText s.root ++ ["runs", workflowId.toString])).put
    (s.runFile workflowId runId)
    ((fs.text? (s.runFile workflowId runId)).getD "" ++ logText log)

/-- Entries can always be added to a log. -/
theorem appendLog_of_tidy (h : Tidy (Path.ofText s.root) fs) (workflowId runId : Uuid) (log : Log) :
    s.appendLog fs workflowId runId log = .ok (s.logged fs workflowId runId log) ∧
      Tidy (Path.ofText s.root) (s.logged fs workflowId runId log) := by
  obtain ⟨hmade, htidy⟩ := h.makeDirectories (.runs workflowId)
  obtain ⟨hwrite, hwritten⟩ :=
    htidy.write (.run workflowId runId) (Files.isDirectory_withDirectory ..)
      ((fs.text? (s.runFile workflowId runId)).getD "" ++ logText log)
  refine ⟨?_, hwritten⟩
  rw [appendLog, ofText_runsPath, ofText_runPath, hmade]
  exact failing_eq_ok.mpr hwrite

/-- A workflow can be deleted when its file is there. -/
theorem delete_of_tidy (h : Tidy (Path.ofText s.root) fs) (id : Uuid) :
    s.delete fs id =
      .ok (if fs.isFile (s.workflowFile id) then some (fs.without (s.workflowFile id))
        else none) := by
  rw [delete, ofText_workflowPath_eq, Files.isThere, workflowFile,
    h.isDirectory_of_place (.workflow id), Bool.or_false]
  cases hfile : fs.isFile (Path.ofText s.root ++ ["workflows", workflowName id]) with
  | true =>
      simp only [Files.remove_of_isFile hfile]
      rfl
  | false => rfl

end Store

end AgentGraph
