import AgentGraph.Proofs.Json.Line
import AgentGraph.Proofs.Run.Written
import AgentGraph.Proofs.Store.Shelf

/-!
# The logs of runs

A log is written with one line for each entry, and the lines are read as the entries
(`Store.frames_logText`). The file of a run only grows by what is added to its log, so in the end it
has the lines of all that was added, in this order (`Store.runLog_history`).
-/

namespace AgentGraph

open Json

theorem LogEntry.readsBack (e : LogEntry) : LogEntry.format.ReadsBack e := by
  rw [Format.readsBack_iff rfl (by decide), LogEntry.reread_format]

namespace Store

/-! ### Lines -/

/-- The text has one line for each entry, with a line feed behind it, and the lines are read as the
entries. -/
def Frames (text : String) (log : Log) : Prop :=
  ∃ written, Text.lines text = written ++ [""] ∧ written.map LogEntry.format.ofText? = log.map .ok

theorem logText_append (log more : Log) : logText (log ++ more) = logText log ++ logText more := by
  rw [logText, List.map_append, String.join_append]
  rfl

/-- An entry is written on one line, whatever is in its texts. -/
theorem frames_logText (log : Log) : Frames (logText log) log := by
  have hlist : (logText log).toList =
      (log.map fun e => (LogEntry.format.compact e).toList).flatMap (· ++ ['\n']) := by
    rw [logText, String.toList_join, List.flatMap_map, List.flatMap_map]
    simp only [String.toList_append]
    rfl
  -- a compact entry has no line break, so the lines are the entries
  have hpieces : ∀ piece ∈ log.map fun e => (LogEntry.format.compact e).toList, ∀ c ∈ piece,
      decide (c = '\n') = false := by
    refine List.forall_mem_map.mpr fun e _ c hc => decide_eq_false ?_
    rintro rfl
    exact newline_not_mem_compact _ hc
  refine ⟨log.map LogEntry.format.compact, ?_, ?_⟩
  · rw [Text.lines, hlist, Text.splitBy_flatMap rfl hpieces, List.map_append, List.map_map]
    simp
  · rw [List.map_map]
    refine List.map_congr_left fun e _ => ?_
    rw [Function.comp_apply, e.readsBack.1]

/-! ### Requests -/

/-- What a request adds to the log of a run. -/
def Request.addition? (workflowId runId : Uuid) : Request → Option Log
  | .appendLog workflowId' runId' log => if workflowId' = workflowId ∧ runId' = runId then some log
      else none
  | _ => none

/-- The file of the run is there when something was added to its log, and then it has all that was
added. -/
structure Logs (s : Store) (fs : Files) (workflowId runId : Uuid) (additions : List Log) :
    Prop where
  tidy : Tidy (Path.ofText s.root) fs
  text : fs.text? (s.runFile workflowId runId) = if additions = [] then none
    else some (logText additions.flatten)

variable {s : Store} {fs : Files} {workflowId runId : Uuid} {additions : List Log}

theorem Fresh.logs (h : s.Fresh fs) (workflowId runId : Uuid) : s.Logs fs workflowId runId [] :=
  ⟨h.keeps.tidy, Option.isNone_iff_eq_none.mp (Option.isSome_eq_false_iff.mp (h.noFile _))⟩

/-- A file that is not there is written as an empty one. -/
theorem Logs.getD_text (h : s.Logs fs workflowId runId additions) :
    (fs.text? (s.runFile workflowId runId)).getD "" = logText additions.flatten := by
  rw [h.text]
  split
  · next hnone => rw [hnone]; rfl
  · rfl

theorem Logs.of_text (h : s.Logs fs workflowId runId additions) {fs' : Files}
    (htidy : Tidy (Path.ofText s.root) fs')
    (htext : fs'.text? (s.runFile workflowId runId) = fs.text? (s.runFile workflowId runId)) :
    s.Logs fs' workflowId runId (additions ++ []) := by
  rw [List.append_nil]
  exact ⟨htidy, htext.trans h.text⟩

/-- What is added to a log comes at its end. -/
theorem Logs.logged (h : s.Logs fs workflowId runId additions) (more : Log) :
    s.Logs (s.logged fs workflowId runId more) workflowId runId (additions ++ [more]) := by
  refine ⟨(appendLog_of_tidy h.tidy ..).2, ?_⟩
  rw [if_neg (List.append_ne_nil_of_right_ne_nil _ (List.cons_ne_nil _ _)), List.flatten_append,
    logText_append, ← h.getD_text, List.flatten_singleton]
  exact Files.text?_put_self ..

/-- No request but an addition to a log touches its file. -/
theorem Logs.perform (h : s.Logs fs workflowId runId additions) (request : Request) :
    s.Logs (s.perform fs request).2 workflowId runId
      (additions ++ (request.addition? workflowId runId).toList) := by
  cases request with
  | save now w =>
      obtain ⟨hsave, htidy⟩ := save_of_tidy h.tidy now w
      rw [Store.perform, respond, hsave]
      exact h.of_text htidy (Files.text?_put_of_ne _ (s.workflowFile_ne_runFile _ _ _).symm _)
  | delete id =>
      rw [Store.perform, respond, delete_of_tidy h.tidy]
      cases fs.isFile (s.workflowFile id) with
      | false => exact h.of_text h.tidy rfl
      | true =>
          exact h.of_text (h.tidy.without (.workflow id))
            (Files.text?_without_of_ne _ (s.workflowFile_ne_runFile _ _ _).symm)
  | load id =>
      rw [Store.perform, respond]
      cases s.load fs id <;> exact h.of_text h.tidy rfl
  | list =>
      rw [Store.perform, respond]
      cases s.list fs <;> exact h.of_text h.tidy rfl
  | appendLog workflowId' runId' more =>
      obtain ⟨happend, htidy⟩ := appendLog_of_tidy h.tidy workflowId' runId' more
      rw [Store.perform, respond, happend, Request.addition?]
      -- the addition is to this file, or to one with another path
      by_cases hrun : workflowId' = workflowId ∧ runId' = runId
      · obtain ⟨rfl, rfl⟩ := hrun
        rw [if_pos ⟨rfl, rfl⟩]
        exact h.logged more
      · have hne : s.runFile workflowId runId ≠ s.runFile workflowId' runId' := fun heq =>
          hrun ((runFile_inj.mp heq).imp Eq.symm Eq.symm)
        rw [if_neg hrun]
        exact h.of_text htidy (Files.text?_put_of_ne _ hne _)

theorem Logs.performAll (h : s.Logs fs workflowId runId additions) (requests : List Request) :
    s.Logs (s.performAll fs requests) workflowId runId
      (additions ++ requests.filterMap (Request.addition? workflowId runId)) := by
  induction requests generalizing fs additions with
  | nil => rwa [List.filterMap_nil, List.append_nil]
  | cons request requests ih =>
      have hrest := ih (h.perform request)
      rw [List.append_assoc] at hrest
      rw [List.filterMap_cons]
      cases hadd : request.addition? workflowId runId with
      | none => rwa [hadd] at hrest
      | some more => rwa [hadd] at hrest

/-- **The file of a run has the lines of all that was added to its log, in this order.** There
always is a file when something was added, however little, and nothing but an addition to this log
touches it. -/
theorem runLog_history (s : Store) {fs : Files} (hfresh : s.Fresh fs) (requests : List Request)
    (workflowId runId : Uuid) :
    (∀ log, (s.perform (s.performAll fs requests) (.appendLog workflowId runId log)).1 = .done) ∧
      ((s.performAll fs requests).text? (.ofText (s.runPath workflowId runId)) = none ↔
        requests.filterMap (Request.addition? workflowId runId) = []) ∧
      (∀ text, (s.performAll fs requests).text? (.ofText (s.runPath workflowId runId)) = some text →
        Frames text (requests.filterMap (Request.addition? workflowId runId)).flatten) ∧
      ∀ request : Request, request.addition? workflowId runId = none →
        (s.perform (s.performAll fs requests) request).2.text?
            (.ofText (s.runPath workflowId runId)) =
          (s.performAll fs requests).text? (.ofText (s.runPath workflowId runId)) := by
  have hlogs := (hfresh.logs workflowId runId).performAll requests
  have hpath : Path.ofText (s.runPath workflowId runId) = s.runFile workflowId runId :=
    ofText_runPath ..
  rw [List.nil_append] at hlogs
  rw [hpath]
  refine ⟨fun log => ?_, ?_, fun text htext => ?_, fun request hrequest => ?_⟩
  · rw [Store.perform, respond, (appendLog_of_tidy hlogs.tidy workflowId runId log).1]
    rfl
  -- the file is there once something has been added
  · rw [hlogs.text]
    split
    · next hnone => exact iff_of_true rfl hnone
    · next hsome => exact iff_of_false (Option.some_ne_none _) hsome
  -- its text frames the entries of all the additions
  · have hgetD := hlogs.getD_text
    rw [htext, Option.getD_some] at hgetD
    rw [hgetD]
    exact frames_logText _
  -- a request that adds nothing here leaves the text as it is
  · have hafter := hlogs.perform request
    rw [hrequest, Option.toList_none, List.append_nil] at hafter
    rw [hafter.text, hlogs.text]

/-- An entry with a line feed and quotes, and one with a control character. -/
def diaryLog : Log := [⟨0, .user, "one\n\"two\"", none⟩, ⟨7, .error, "\x00✗", some "ask\n"⟩]

/-- The log is added to twice, and another one in between. -/
def diary : List Request :=
  [.appendLog ⟨1⟩ ⟨2⟩ (diaryLog.take 1), .appendLog ⟨1⟩ ⟨3⟩ diaryLog, .delete ⟨1⟩,
    .appendLog ⟨1⟩ ⟨2⟩ (diaryLog.drop 1)]

theorem diary_history : ∃ text,
    (performAll ⟨"store"⟩ .empty diary).text? (.ofText (runPath ⟨"store"⟩ ⟨1⟩ ⟨2⟩)) = some text ∧
      Frames text diaryLog := by
  have hfresh : Fresh ⟨"store"⟩ .empty :=
    ⟨fun _ _ => rfl, fun _ => rfl, fun _ hmade => nomatch hmade⟩
  have hadditions : diary.filterMap (Request.addition? ⟨1⟩ ⟨2⟩) =
      [diaryLog.take 1, diaryLog.drop 1] := rfl
  obtain ⟨-, hnone, hsome, -⟩ := runLog_history ⟨"store"⟩ hfresh diary ⟨1⟩ ⟨2⟩
  rw [hadditions] at hnone hsome
  cases htext : (performAll ⟨"store"⟩ .empty diary).text? (.ofText (runPath ⟨"store"⟩ ⟨1⟩ ⟨2⟩)) with
  | none => exact absurd (hnone.mp htext) (List.cons_ne_nil _ _)
  | some text => exact ⟨text, rfl, hsome text htext⟩

end Store

end AgentGraph
