import AgentGraph.Proofs.Store.Layout

/-!
# A store is a map

From outside, a store is a map of identifiers to saved workflows: a shelf. A request does to the
shelf what it says (`Shelf.after`), the files of the store hold what is on the shelf
(`Store.Keeps`), and every answer can be told from the shelf alone (`Store.answers_history`).
-/

namespace AgentGraph

open Json

/-! ### The order of time -/

namespace Instant

variable {a b c : Instant}

theorem le_iff :
    a.le b = true ↔ a.seconds < b.seconds ∨ a.seconds = b.seconds ∧ a.nanos ≤ b.nanos := by
  simp [le]

theorem le_trans (hab : a.le b = true) (hbc : b.le c = true) : a.le c = true := by
  rw [le_iff] at *
  omega

theorem le_total (a b : Instant) : a.le b = true ∨ b.le a = true := by
  rw [le_iff, le_iff]
  omega

end Instant

/-! ### Requests -/

namespace Store

/-- A call of a store. -/
inductive Request where
  | save (now : Instant) (w : Workflow)
  | delete (id : Uuid)
  | load (id : Uuid)
  | list
  | appendLog (workflowId runId : Uuid) (log : Log)
deriving DecidableEq, Repr

/-- The request is about what is saved under the identifier, and not only looks at it. -/
def Request.Changes (id : Uuid) : Request → Prop
  | .save _ w => w.id = id
  | .delete id' => id' = id
  | _ => False

/-- What a call gives back. -/
inductive Answer where
  | done
  | deleted (found : Bool)
  | loaded (w : Workflow)
  | listed (summaries : List Summary)
  | failed (causes : Causes)
deriving DecidableEq, Repr

/-- The answer to a request, and the files after it. -/
def respond (s : Store) (fs : Files) : Request → Except Causes (Answer × Files)
  | .save now w => (s.save fs now w).map (.done, ·)
  | .delete id => (s.delete fs id).map fun left => (.deleted left.isSome, left.getD fs)
  | .load id => (s.load fs id).map (.loaded ·, fs)
  | .list => (s.list fs).map (.listed ·, fs)
  | .appendLog workflowId runId log => (s.appendLog fs workflowId runId log).map (.done, ·)

/-- A request that fails changes nothing. -/
def perform (s : Store) (fs : Files) (request : Request) : Answer × Files :=
  match s.respond fs request with
  | .ok result => result
  | .error causes => (.failed causes, fs)

/-- The files after some requests. -/
def performAll (s : Store) (fs : Files) (requests : List Request) : Files :=
  requests.foldl (fun fs request => (s.perform fs request).2) fs

end Store

/-! ### The shelf -/

/-- What was saved last under each identifier, and not deleted since. -/
abbrev Shelf := Uuid → Option SavedWorkflow

namespace Shelf

def empty : Shelf := fun _ => none

/-- What a request does to the shelf. -/
def after (shelf : Shelf) : Store.Request → Shelf
  | .save now w => Function.update shelf w.id (some ⟨now, w⟩)
  | .delete id => Function.update shelf id none
  | _ => shelf

/-- The shelf after some requests. -/
def afterAll (shelf : Shelf) (requests : List Store.Request) : Shelf := requests.foldl after shelf

/-- The workflow was saved under the identifier, and nothing was saved there or deleted since. -/
def LastSaved (requests : List Store.Request) (id : Uuid) (saved : SavedWorkflow) : Prop :=
  ∃ earlier since, requests = earlier ++ .save saved.savedAt saved.workflow :: since ∧
    saved.workflow.id = id ∧ ∀ request ∈ since, ¬ request.Changes id

/-- The list has one line for each workflow on the shelf, the latest first. -/
structure Lists (shelf : Shelf) (summaries : List Summary) : Prop where
  mem_iff : ∀ summary, summary ∈ summaries ↔ ∃ saved, shelf summary.id = some saved ∧
    saved.summary = summary
  nodup : (summaries.map (·.id)).Nodup
  latestFirst : summaries.Pairwise fun a b => b.savedAt.le a.savedAt

/-- The right answer to a request. -/
inductive Answers (shelf : Shelf) : Store.Request → Store.Answer → Prop
  | save {now : Instant} {w : Workflow} : Answers shelf (.save now w) .done
  | delete {id : Uuid} : Answers shelf (.delete id) (.deleted (shelf id).isSome)
  | load {id : Uuid} {saved : SavedWorkflow} (h : shelf id = some saved) :
      Answers shelf (.load id) (.loaded saved.workflow)
  | loadMissing {id : Uuid} {causes : Causes} (h : shelf id = none) :
      Answers shelf (.load id) (.failed causes)
  | list {summaries : List Summary} (h : shelf.Lists summaries) :
      Answers shelf .list (.listed summaries)
  | appendLog {workflowId runId : Uuid} {log : Log} :
      Answers shelf (.appendLog workflowId runId log) .done

variable {shelf : Shelf} {requests : List Store.Request} {request : Store.Request} {id : Uuid}
    {saved : SavedWorkflow}

/-- The rest of the shelf is left as it is. -/
theorem after_of_not_changes (h : ¬ request.Changes id) : shelf.after request id = shelf id := by
  cases request with
  | save now w => exact Function.update_of_ne (Ne.symm h) ..
  | delete id' => exact Function.update_of_ne (Ne.symm h) ..
  | load _ | list | appendLog _ _ _ => rfl

theorem lastSaved_concat : LastSaved (requests ++ [request]) id saved ↔
    request = .save saved.savedAt saved.workflow ∧ saved.workflow.id = id ∨
      ¬ request.Changes id ∧ LastSaved requests id saved := by
  constructor
  · rintro ⟨earlier, since, hsplit, hid, hsince⟩
    -- the last request is the save itself, or it came later and changed nothing under the id
    rcases List.eq_nil_or_concat since with rfl | ⟨since, last, rfl⟩
    · exact .inl ⟨List.singleton_inj.mp (List.append_inj' hsplit rfl).2, hid⟩
    · rw [List.concat_eq_append] at hsplit hsince
      rw [← List.cons_append, ← List.append_assoc] at hsplit
      obtain ⟨hrequests, hlast⟩ := List.append_inj' hsplit rfl
      rw [List.singleton_inj.mp hlast]
      rw [List.forall_mem_append, List.forall_mem_singleton] at hsince
      exact .inr ⟨hsince.2, earlier, since, hrequests, hid, hsince.1⟩
  · rintro (⟨rfl, hid⟩ | ⟨hrequest, earlier, since, rfl, hid, hsince⟩)
    · exact ⟨requests, [], rfl, hid, by simp⟩
    · refine ⟨earlier, since ++ [request], by simp, hid, ?_⟩
      rw [List.forall_mem_append, List.forall_mem_singleton]
      exact ⟨hsince, hrequest⟩

/-- **What is on the shelf is what was saved last and not deleted since.** -/
theorem afterAll_eq_some_iff :
    empty.afterAll requests id = some saved ↔ LastSaved requests id saved := by
  induction requests using List.reverseRecOn with
  | nil => simp [afterAll, empty, LastSaved]
  | append_singleton requests request ih =>
      have hstep : empty.afterAll (requests ++ [request]) =
          (empty.afterAll requests).after request := by
        simp [afterAll]
      rw [hstep, lastSaved_concat, ← ih]
      -- a request that changes what the id keeps is a save or a delete of it
      by_cases hrequest : request.Changes id
      · rw [iff_false_intro (not_not_intro hrequest), false_and, or_false]
        obtain ⟨savedAt, workflow⟩ := saved
        cases request with
        | save now w =>
            obtain rfl : w.id = id := hrequest
            simp only [after, Function.update_self, Option.some.injEq, SavedWorkflow.mk.injEq,
              Store.Request.save.injEq]
            exact ⟨fun h => ⟨h, h.2 ▸ rfl⟩, And.left⟩
        | delete id' =>
            obtain rfl : id' = id := hrequest
            simp [after]
        | load _ | list | appendLog _ _ _ => cases hrequest
      · rw [after_of_not_changes hrequest, iff_true_intro hrequest, true_and, iff_or_self]
        rintro ⟨rfl, hid⟩
        exact absurd hid hrequest

end Shelf

namespace Store

/-- What a store can give back: the numbers have a written form, and so does the time. -/
def Request.Storable : Request → Prop
  | .save now w => now.Survives ∧ ∀ x ∈ w.coordinates ++ w.temperatures, x.isFinite = true
  | _ => True

/-- The directory of the store is empty or not there, and can be made. -/
structure Fresh (s : Store) (fs : Files) : Prop where
  clear : ∀ above, above <+: Path.ofText s.root → fs.isFile above = false
  noFile : ∀ rest, fs.isFile (Path.ofText s.root ++ rest) = false
  noFolder : ∀ rest, Path.ofText s.root ++ rest ∈ fs.made → rest = []

/-- The files of the store hold what is on the shelf. -/
structure Keeps (s : Store) (fs : Files) (shelf : Shelf) : Prop where
  tidy : Tidy (Path.ofText s.root) fs
  text : ∀ id, fs.text? (s.workflowFile id) = (shelf id).map SavedWorkflow.format.pretty
  own : ∀ id saved, shelf id = some saved → saved.workflow.id = id ∧ saved.savedAt.Survives ∧
    saved.workflow.reread = some saved.workflow

variable {s : Store} {fs : Files} {shelf : Shelf}

theorem Fresh.keeps (h : s.Fresh fs) : s.Keeps fs .empty := by
  refine ⟨⟨h.clear, fun rest hfile => ?_, fun rest hmade => ?_⟩, fun id => ?_,
    fun id saved hsaved => ?_⟩
  · rw [h.noFile rest] at hfile
    cases hfile
  · rw [h.noFolder rest hmade]
    exact .root
  · exact Option.isNone_iff_eq_none.mp (Option.isSome_eq_false_iff.mp (h.noFile _))
  · cases hsaved

/-! ### Answers -/

namespace Keeps

theorem isFile_iff (h : s.Keeps fs shelf) (id : Uuid) :
    fs.isFile (s.workflowFile id) = (shelf id).isSome := by
  rw [Files.isFile, h.text, Option.isSome_map]

/-- What is read in the file of an identifier is what is on the shelf. -/
theorem toOption_readSaved (h : s.Keeps fs shelf) (id : Uuid) :
    (readSaved fs (s.workflowPath id)).toOption = shelf id := by
  rw [Store.toOption_readSaved, ofText_workflowPath_eq, h.text]
  cases hid : shelf id with
  | none => rfl
  | some saved =>
      obtain ⟨-, hsurvives, hreread⟩ := h.own id saved hid
      rw [Option.map_some, Option.bind_some,
        SavedWorkflow.toOption_ofText? hsurvives saved.workflow, hreread, Option.map_some]

theorem toOption_load (h : s.Keeps fs shelf) (id : Uuid) :
    (s.load fs id).toOption = (shelf id).map (·.workflow) := by
  rw [load, toOption_map, h.toOption_readSaved]

/-- What is read in the files of a directory is what is on the shelf. -/
theorem lists (h : s.Keeps fs shelf) {ids : List Uuid} (hnodup : ids.Nodup)
    (hmem : ∀ id, id ∈ ids ↔ (shelf id).isSome = true) :
    shelf.Lists
      (((ids.filterMap shelf).map (·.summary)).mergeSort fun a b => b.savedAt.le a.savedAt) := by
  refine ⟨fun summary => ?_, ?_, ?_⟩
  · simp only [List.mem_mergeSort, List.mem_map, List.mem_filterMap, hmem]
    constructor
    · rintro ⟨saved, ⟨id, -, hid⟩, rfl⟩
      obtain rfl := (h.own id saved hid).1
      exact ⟨saved, hid, rfl⟩
    · rintro ⟨saved, hsaved, rfl⟩
      exact ⟨saved, ⟨_, Option.isSome_of_eq_some hsaved, hsaved⟩, rfl⟩
  -- the summaries carry the ids they were found under, each of them once
  · have hids : ((ids.filterMap shelf).map (·.summary)).map (·.id) = ids := by
      rw [List.map_map, List.map_filterMap]
      refine (List.filterMap_congr fun id hid => ?_).trans List.filterMap_some
      obtain ⟨saved, hsaved⟩ := Option.isSome_iff_exists.mp ((hmem id).mp hid)
      rw [hsaved, Option.map_some]
      exact congrArg some (h.own id saved hsaved).1
    rw [((List.mergeSort_perm ..).map _).nodup_iff, hids]
    exact hnodup
  -- later saves come first, and that order is total
  · have htrans : ∀ a b c : Summary, b.savedAt.le a.savedAt = true → c.savedAt.le b.savedAt = true →
        c.savedAt.le a.savedAt = true := fun _ _ _ hab hbc => Instant.le_trans hbc hab
    have htotal : ∀ a b : Summary, (b.savedAt.le a.savedAt || a.savedAt.le b.savedAt) = true :=
      fun _ _ => Bool.or_eq_true_iff.mpr (Instant.le_total ..)
    exact List.pairwise_mergeSort htrans htotal _

/-- The workflows on the shelf are listed. -/
theorem exists_list (h : s.Keeps fs shelf) :
    ∃ summaries, s.list fs = .ok summaries ∧ shelf.Lists summaries := by
  rw [list, ofText_workflowsPath]
  cases hthere : fs.isThere (Path.ofText s.root ++ ["workflows"]) with
  | false =>
      refine ⟨[], rfl, ?_⟩
      -- without the folder there is no file, and nothing is kept
      have hnone : ∀ id, id ∈ ([] : List Uuid) ↔ (shelf id).isSome = true := by
        intro id
        rw [← h.isFile_iff, iff_false_left List.not_mem_nil]
        intro hfile
        refine Bool.eq_false_iff.mp hthere
          (Bool.or_eq_true_iff.mpr (.inr (Files.isDirectory_iff.mpr (.inr (.inr ?_)))))
        exact ⟨[workflowName id], by simp, by rwa [List.append_assoc]⟩
      simpa using h.lists List.nodup_nil hnone
  | true =>
      obtain ⟨ids, hnames, hnodup, hmem⟩ := h.tidy.exists_names hthere
      rw [hnames]
      refine ⟨_, rfl, ?_⟩
      -- each name of the folder leads to the workflow kept under its id
      have hread : ((ids.map workflowName).filter isWorkflowName).filterMap
          (fun name => (readSaved fs (joinPath s.workflowsPath name)).toOption) =
            ids.filterMap shelf := by
        rw [List.filter_eq_self.mpr
          (List.forall_mem_map.mpr fun id _ => isWorkflowName_workflowName id), List.filterMap_map]
        exact List.filterMap_congr fun id _ => h.toOption_readSaved id
      rw [hread]
      exact h.lists hnodup fun id => by rw [hmem, ← h.isFile_iff, workflowFile]

/-! ### Steps -/

/-- A workflow is put on the shelf when its file is written. -/
theorem saved (h : s.Keeps fs shelf) {now : Instant} {w : Workflow}
    (hw : (Request.save now w).Storable) :
    s.Keeps (s.saved fs now w) (shelf.after (.save now w)) := by
  refine ⟨(save_of_tidy h.tidy now w).2, fun id => ?_, fun id entry hentry => ?_⟩
  · rw [Store.saved, Shelf.after]
    -- the save writes one file and changes one place of the shelf
    rcases eq_or_ne id w.id with rfl | hne
    · rw [Files.text?_put_self, Function.update_self, Option.map_some]
    · rw [Files.text?_put_of_ne _ (s.workflowFile_injective.ne hne), Function.update_of_ne hne]
      exact h.text id
  · rw [Shelf.after, Function.update_apply] at hentry
    split at hentry
    · next hid =>
      cases hentry
      exact ⟨hid.symm, hw.1, (Workflow.reread_eq_self_iff_isFinite w).mpr hw.2⟩
    · exact h.own id entry hentry

/-- A workflow is taken off the shelf when its file is removed. -/
theorem without (h : s.Keeps fs shelf) (id : Uuid) :
    s.Keeps (fs.without (s.workflowFile id)) (shelf.after (.delete id)) := by
  refine ⟨h.tidy.without (.workflow id), fun id' => ?_, fun id' entry hentry => ?_⟩
  · rw [Shelf.after]
    rcases eq_or_ne id' id with rfl | hne
    · rw [Files.text?_without_self, Function.update_self, Option.map_none]
    · rw [Files.text?_without_of_ne _ (s.workflowFile_injective.ne hne), Function.update_of_ne hne]
      exact h.text id'
  · rw [Shelf.after, Function.update_apply] at hentry
    split at hentry
    · cases hentry
    · exact h.own id' entry hentry

/-- The shelf is left as it is when a log is written. -/
theorem logged (h : s.Keeps fs shelf) (workflowId runId : Uuid) (log : Log) :
    s.Keeps (s.logged fs workflowId runId log) shelf := by
  refine ⟨(appendLog_of_tidy h.tidy workflowId runId log).2, fun id => ?_, h.own⟩
  rw [Store.logged, Files.text?_put_of_ne _ (s.workflowFile_ne_runFile id workflowId runId)]
  exact h.text id

/-- **A request is answered from the shelf, and changes the shelf.** -/
theorem perform (h : s.Keeps fs shelf) (request : Request) :
    shelf.Answers request (s.perform fs request).1 ∧
      (request.Storable → s.Keeps (s.perform fs request).2 (shelf.after request)) := by
  cases request with
  | save now w =>
      rw [Store.perform, respond, (save_of_tidy h.tidy now w).1]
      exact ⟨.save, h.saved⟩
  | delete id =>
      rw [Store.perform, respond, delete_of_tidy h.tidy, h.isFile_iff]
      have hanswer : shelf.Answers (.delete id) (.deleted (shelf id).isSome) := .delete
      have hwithout := h.without id
      cases hid : shelf id with
      | none =>
          -- there is no file, and nothing to take off the shelf
          rw [hid] at hanswer
          refine ⟨hanswer, fun _ => ?_⟩
          rwa [Shelf.after, Function.update_eq_self_iff.mpr hid.symm]
      | some saved =>
          rw [hid] at hanswer
          exact ⟨hanswer, fun _ => hwithout⟩
  | load id =>
      have hload := h.toOption_load id
      rw [Store.perform, respond]
      cases hresult : s.load fs id with
      | ok w =>
          rw [hresult, eq_comm, Except.toOption, Option.map_eq_some_iff] at hload
          obtain ⟨saved, hsaved, rfl⟩ := hload
          exact ⟨.load hsaved, fun _ => h⟩
      | error causes =>
          rw [hresult, eq_comm, Except.toOption, Option.map_eq_none_iff] at hload
          exact ⟨.loadMissing hload, fun _ => h⟩
  | list =>
      obtain ⟨summaries, hlist, hlists⟩ := h.exists_list
      rw [Store.perform, respond, hlist]
      exact ⟨.list hlists, fun _ => h⟩
  | appendLog workflowId runId log =>
      rw [Store.perform, respond, (appendLog_of_tidy h.tidy workflowId runId log).1]
      exact ⟨.appendLog, fun _ => h.logged workflowId runId log⟩

theorem performAll (h : s.Keeps fs shelf) {requests : List Request}
    (hrequests : ∀ r ∈ requests, r.Storable) :
    s.Keeps (s.performAll fs requests) (shelf.afterAll requests) := by
  induction requests generalizing fs shelf with
  | nil => exact h
  | cons request requests ih =>
      rw [List.forall_mem_cons] at hrequests
      exact ih ((h.perform request).2 hrequests.1) hrequests.2

end Keeps

/-- **A store is a map.** After any requests, every answer is that of the shelf, which has what was
saved last under each identifier and not deleted since. -/
theorem answers_history (s : Store) {fs : Files} (hfresh : s.Fresh fs) {requests : List Request}
    (hrequests : ∀ r ∈ requests, r.Storable) (next : Request) :
    (Shelf.empty.afterAll requests).Answers next (s.perform (s.performAll fs requests) next).1 ∧
      ∀ id saved, Shelf.empty.afterAll requests id = some saved ↔
        Shelf.LastSaved requests id saved :=
  ⟨((hfresh.keeps.performAll hrequests).perform next).1, fun _ _ => Shelf.afterAll_eq_some_iff⟩

/-- A step off the grid, with a temperature that has no short binary form. -/
def outline (name : String) : Workflow where
  id := ⟨1⟩
  name := name
  nodes := [⟨"in", "", .origin, .start⟩,
    ⟨"step", "", ⟨⟨0x3dcccccd⟩, ⟨0x4b189680⟩⟩, .llm ⟨"Go on", none, some ⟨0x3f333333⟩⟩⟩]
  edges := [⟨"0", "in", "step", none⟩]

/-- The outline is saved, then under the same identifier with another name. Another workflow comes
and goes. -/
def outlineHistory : List Request :=
  [.save ⟨0, 0⟩ (outline "Draft"), .save ⟨1577934245, 1000⟩ (outline "Plan"), .appendLog ⟨1⟩ ⟨3⟩ [],
    .save ⟨60, 0⟩ ⟨⟨2⟩, "Scrap", [], []⟩, .delete ⟨2⟩]

theorem outline_history :
    (perform ⟨"store"⟩ (performAll ⟨"store"⟩ .empty outlineHistory) (.load ⟨1⟩)).1 =
        .loaded (outline "Plan") ∧
      ∃ causes, (perform ⟨"store"⟩ (performAll ⟨"store"⟩ .empty outlineHistory) (.load ⟨2⟩)).1 =
        .failed causes := by
  have hfresh : Fresh ⟨"store"⟩ .empty :=
    ⟨fun _ _ => rfl, fun _ => rfl, fun _ hmade => nomatch hmade⟩
  have hsurvives : ∀ t : Instant, t.nanos < 10 ^ 9 → t.date.year.natAbs ≤ Instant.maxYear →
      t.Survives :=
    fun _ hnanos hyear => Instant.IsOrdinary.survives ⟨hnanos, hyear⟩
  have hstorable : ∀ r ∈ outlineHistory, r.Storable := by
    simp only [outlineHistory, List.forall_mem_cons, List.not_mem_nil, false_implies,
      implies_true, and_true]
    exact ⟨⟨hsurvives _ (by decide) (by decide), by decide⟩,
      ⟨hsurvives _ (by decide) (by decide), by decide⟩, trivial,
      ⟨hsurvives _ (by decide) (by decide), by decide⟩, trivial⟩
  -- the shelf after these requests, worked out
  have hthere : Shelf.empty.afterAll outlineHistory ⟨1⟩ =
      some ⟨⟨1577934245, 1000⟩, outline "Plan"⟩ := rfl
  have hgone : Shelf.empty.afterAll outlineHistory ⟨2⟩ = none := rfl
  have hload := (answers_history ⟨"store"⟩ hfresh hstorable (.load ⟨1⟩)).1
  have hmissing := (answers_history ⟨"store"⟩ hfresh hstorable (.load ⟨2⟩)).1
  generalize (perform ⟨"store"⟩ _ (.load ⟨1⟩)).1 = loaded at hload ⊢
  generalize (perform ⟨"store"⟩ _ (.load ⟨2⟩)).1 = missing at hmissing ⊢
  constructor
  · cases hload with
    | load h =>
        cases hthere.symm.trans h
        rfl
    | loadMissing h => cases hthere.symm.trans h
  · cases hmissing with
    | load h => cases hgone.symm.trans h
    | loadMissing => exact ⟨_, rfl⟩

end Store

end AgentGraph
