import AgentGraph.Proofs.Run.Account
import AgentGraph.Proofs.Run.GraphWalk

/-!
# Failures are contained

A step that fails ends its run, and the run still gives a report. What the report then says is
listed by `Report.Contained`: the log has one error, in its last place, and no other run has any;
the error is about the node that failed, or about the node before which the ceiling was reached.
`FailedRun` says what happened in a run that failed: its last step failed for one of the causes of
`Failure`, and after that it called nobody and started nothing.

Errors are lines of the log, so it is enough to go through the account of a run. No passage writes
an error (`noError_account`), and of the endings only those of a failure or of the ceiling do.
-/

namespace AgentGraph

/-! ### Errors among the lines -/

/-- The lines without their errors are all lines: there is no error. -/
def NoError (lines : List LogLine) : Prop := ∀ line ∈ lines, line.kind ≠ .error

theorem NoError.append {lines more : List LogLine} (h : NoError lines) (h' : NoError more) :
    NoError (lines ++ more) := by
  intro line hline
  rcases List.mem_append.mp hline with hline | hline
  · exact h line hline
  · exact h' line hline

theorem noError_info {message : String} {nodeId : Option String} :
    NoError [.info message nodeId] := by
  simp [NoError, LogLine.info]

/-- A log whose lines have no error has no error. -/
theorem ofKind_error_eq_nil {log : Log} (h : NoError (log.map LogEntry.line)) :
    log.ofKind .error = [] := by
  rw [Log.ofKind, List.filter_eq_nil_iff]
  intro e he
  simpa [LogEntry.line] using h e.line (List.mem_map_of_mem he)

/-- A log with one error, in its last place. -/
theorem ofKind_error_eq_singleton {log : Log} {lines : List LogLine} {last : LogLine}
    (h : log.map LogEntry.line = lines ++ [last]) (hlines : NoError lines)
    (hlast : last.kind = .error) :
    ∃ e, log.ofKind .error = [e] ∧ log.getLast? = some e ∧ e.line = last := by
  obtain ⟨before, rest, rfl, hbefore, hrest⟩ := List.map_eq_append_iff.mp h
  obtain ⟨e, rfl, rfl⟩ := List.map_eq_singleton_iff.mp hrest
  refine ⟨e, ?_, List.getLast?_concat, rfl⟩
  rw [← hbefore] at hlines
  rw [Log.ofKind, List.filter_append]
  have hkind : e.kind = .error := hlast
  show Log.ofKind before .error ++ _ = _
  rw [ofKind_error_eq_nil hlines]
  simp [hkind]

theorem Node.noError_heading_lines (n : Node) (o : Outcome) : NoError (n.heading :: n.lines o) := by
  intro line hline
  rcases List.mem_cons.mp hline with rfl | hline
  · simp [heading, LogLine.info]
  · rcases (Node.of_mem_lines hline).2 with hk | ⟨hk, _⟩ <;> simp [hk]

theorem noError_account (agents : Registry) (ctx : Context) (ps : List Passage) :
    NoError ((account agents ctx ps).filterMap Mark.line?) := by
  rw [lines_account]
  intro line hline
  obtain ⟨p, _, hline⟩ := List.mem_flatMap.mp hline
  exact p.node.noError_heading_lines p.outcome line hline

/-! ### What a report shows -/

/-- The run was about to start the node when it ended. -/
def Report.AboutToStart (r : Report) (w : Workflow) (id : String) : Prop :=
  r.visitedNodes.length = r.traversedEdges.length ∧
    ((∃ start, w.startNode? = some start ∧ start.id = id ∧ r.traversedEdges = []) ∨
      ∃ e ∈ w.edges, r.traversedEdges.getLast? = some e.id ∧ e.target = id)

/-- The failures of the run are contained. -/
structure Report.Contained (r : Report) (w : Workflow) : Prop where
  /-- No error is logged unless the run fails or reaches the ceiling. -/
  clean : (∀ id error, r.status ≠ .failed id error) → (∀ m, r.status ≠ .stepLimit m) →
    r.log.ofKind .error = []
  /-- A failure is logged once, at the end, and is one of the node visited last. -/
  failed : ∀ id error, r.status = .failed id error → ∃ e, r.log.ofKind .error = [e] ∧
    r.log.getLast? = some e ∧ e.nodeId = some id ∧ r.visitedNodes.getLast? = some id
  /-- Reaching the ceiling is logged once, at the end, for the node that is not started any more. -/
  stepLimit : ∀ m, r.status = .stepLimit m → ∃ e id, r.log.ofKind .error = [e] ∧
    r.log.getLast? = some e ∧ e.nodeId = some id ∧ r.AboutToStart w id
  /-- No generating node has put out blank text. -/
  outputs : ∀ e ∈ r.log, e.kind = .output → ∀ n ∈ w.nodes, e.nodeId = some n.id → n.Generates →
    Text.isBlank e.message = false

namespace Executor

variable {σ : Type} {x : Executor} {env : Environment σ} {occasion : Occasion} {task : Task} {s : σ}
  {ps : List Passage} {f : Finish σ}

/-- The lines of an ending: errors come only from a failure or from the ceiling, and come last. -/
theorem Ending.lines {current : String} {ctx : Context} {status : RunStatus} {ms : List Mark}
    (h : x.Ending current ctx (some status) ms) :
    NoError (ms.filterMap Mark.line?) ∧ (∀ id error, status ≠ .failed id error) ∧
        (∀ m, status ≠ .stepLimit m) ∨
      ∃ lines message id, ms.filterMap Mark.line? = lines ++ [.error message id] ∧ NoError lines ∧
        ((∃ error, status = .failed id error) ∨ id = current ∧ ∃ m, status = .stepLimit m) := by
  cases h with
  -- a stopped run closes with a remark
  | stopped => exact .inl ⟨noError_info, by simp, by simp⟩
  -- the ceiling and a missing node are errors about the node that would have come next
  | exhausted => exact .inr ⟨[], _, current, rfl, by simp [NoError], .inr ⟨rfl, _, rfl⟩⟩
  | lost => exact .inr ⟨[], _, current, rfl, by simp [NoError], .inl ⟨_, rfl⟩⟩
  | discarded =>
      refine .inl ⟨?_, by simp, by simp⟩
      rw [List.filterMap_append, Node.filterMap_line?_begun]
      exact noError_info.append noError_info
  -- the node has been begun, and its failure is the last line
  | @failed n error =>
      refine .inr ⟨[n.heading], s!"Node {n.label} failed: {error}", n.id, ?_, noError_info,
        .inl ⟨error, rfl⟩⟩
      rw [List.filterMap_append, Node.filterMap_line?_begun]
      rfl
  | @completed n o =>
      refine .inl ⟨?_, by simp, by simp⟩
      simp only [List.filterMap_append, Node.filterMap_line?_begun, Node.filterMap_line?_accepted]
      exact (n.noError_heading_lines o).append noError_info
  | @deadEnd n o =>
      refine .inl ⟨?_, by simp, by simp⟩
      simp only [List.filterMap_append, Node.filterMap_line?_begun, Node.filterMap_line?_accepted]
      exact (n.noError_heading_lines o).append noError_info

/-- The node before which the ceiling was reached comes next and is not started. -/
theorem Journey.aboutToStart (hv : x.workflow.Valid) (h : x.Journey env occasion task s ps f)
    {m : UInt64} (hlimit : f.status = some (.stepLimit m)) {start : Node} {current : String}
    (hstart : x.workflow.startNode? = some start) (hpath : x.workflow.Path start.id ps current) :
    (f.walk.report (.stepLimit m)).AboutToStart x.workflow current := by
  obtain ⟨_, _, _, _, htraversed, hend⟩ := h.outline hv
  rw [hlimit] at hend
  rcases hend with ⟨hvisited, _, _⟩ | ⟨_, _, _, _, _, hhalt⟩
  · have hedges : (f.walk.report (.stepLimit m)).traversedEdges = ps.map (·.edge.id) := htraversed
    rw [Report.AboutToStart, Walk.visitedNodes_report, hvisited, hedges]
    refine ⟨by simp, ?_⟩
    -- the next node is the Start node, or the target of the last edge taken
    rcases hpath.eq_nil_or_concat with ⟨rfl, hcurrent⟩ | ⟨before, p, rfl, hp, hcurrent⟩
    · exact .inl ⟨start, hstart, hcurrent, rfl⟩
    · exact .inr ⟨p.edge, hp.edge_mem, by simp, hcurrent⟩
  · exact hhalt.elim

/-! ### No blank output -/

/-- If the line is an output of a generating node, it is not blank. -/
def Spoken (x : Executor) (line : LogLine) : Prop :=
  line.kind = .output → ∀ n ∈ x.workflow.nodes, line.nodeId = some n.id → n.Generates →
    Text.isBlank line.message = false

theorem spoken_of_ne {line : LogLine} (h : line.kind ≠ .output) : x.Spoken line :=
  fun hk => absurd hk h

/-- What a node says about its result is no blank output. -/
theorem spoken_of_mem_lines (hv : x.workflow.Valid) {n : Node} {o : Outcome}
    (hfind : x.workflow.findNode? n.id = some n) (hyield : n.MayYield o) {line : LogLine}
    (hline : line ∈ n.heading :: n.lines o) : x.Spoken line := by
  rcases List.mem_cons.mp hline with rfl | hline
  · exact spoken_of_ne (by simp [Node.heading, LogLine.info])
  obtain ⟨hid, hinfo | ⟨_, htext⟩⟩ := Node.of_mem_lines hline
  · exact spoken_of_ne (by simp [hinfo])
  · intro _ m hm hid' hgenerates
    have hsame : n.id = m.id := Option.some.inj (hid.symm.trans hid')
    obtain rfl := hv.node_ext (Workflow.mem_of_findNode? hfind) hm hsame
    obtain ⟨text, hsome, hblank, _⟩ := hyield.generated hgenerates
    rw [hsome, Option.some.injEq] at htext
    rw [← htext, hblank]

theorem Ending.spoken (hv : x.workflow.Valid) {current : String} {ctx : Context}
    {status : Option RunStatus} {ms : List Mark} (h : x.Ending current ctx status ms) :
    ∀ line ∈ ms.filterMap Mark.line?, x.Spoken line := by
  have hplain : ∀ {message : String} {nodeId : Option String}, x.Spoken (.info message nodeId) :=
    spoken_of_ne (by simp [LogLine.info])
  have herror : ∀ {message id : String}, x.Spoken (.error message id) :=
    spoken_of_ne (by simp [LogLine.error])
  intro line hline
  cases h with
  | stopped =>
      rw [List.mem_singleton.mp hline]
      exact hplain
  | exhausted | lost =>
      rw [List.mem_singleton.mp hline]
      exact herror
  | dropped =>
      rw [Node.filterMap_line?_begun] at hline
      rw [List.mem_singleton.mp hline]
      exact hplain
  | discarded =>
      rw [List.filterMap_append, Node.filterMap_line?_begun] at hline
      rcases List.mem_pair.mp hline with rfl | rfl
      · exact hplain
      · exact hplain
  | failed =>
      rw [List.filterMap_append, Node.filterMap_line?_begun] at hline
      rcases List.mem_pair.mp hline with rfl | rfl
      · exact hplain
      · exact herror
  -- the lines of a completed node are its own, and the last one is a remark
  | completed hfind hyield =>
      simp only [List.filterMap_append, Node.filterMap_line?_begun, Node.filterMap_line?_accepted]
        at hline
      rcases List.mem_append.mp hline with hline | hline
      · exact spoken_of_mem_lines hv hfind hyield hline
      · rw [List.mem_singleton.mp hline]
        exact hplain
  | deadEnd message hfind hyield =>
      simp only [List.filterMap_append, Node.filterMap_line?_begun, Node.filterMap_line?_accepted]
        at hline
      rcases List.mem_append.mp hline with hline | hline
      · exact spoken_of_mem_lines hv hfind hyield hline
      · rw [List.mem_singleton.mp hline]
        exact hplain

/-- No generating node of a run puts out blank text. -/
theorem Journey.spoken (hv : x.workflow.Valid) (h : x.Journey env occasion task s ps f) :
    ∀ line ∈ f.walk.trail.lines, x.Spoken line := by
  obtain ⟨_, _, _, ms, _, _, hending, hlines⟩ := h.lines
  intro line hline
  rw [hlines] at hline
  rcases List.mem_append.mp hline with hline | hline
  -- the opening lines are a remark and the input; the others belong to the passages
  · rcases List.mem_cons.mp hline with rfl | hline
    · exact spoken_of_ne (by simp [LogLine.info])
    rcases List.mem_cons.mp hline with rfl | hline
    · exact spoken_of_ne (by simp)
    obtain ⟨p, hp, hline⟩ := List.mem_flatMap.mp hline
    obtain ⟨hfind, hyield⟩ := h.yields p hp
    exact spoken_of_mem_lines hv hfind hyield hline
  · exact hending.spoken hv line hline

/-! ### The report -/

theorem Journey.contained (hv : x.workflow.Valid) (h : x.Journey env occasion task s ps f)
    {status : RunStatus} (hstatus : f.status = some status) :
    (f.walk.report status).Contained x.workflow := by
  obtain ⟨start, current, ctx, ms, hstart, hpath, hending, hlines⟩ := h.lines
  rw [hstatus] at hending
  have houtputs : ∀ e ∈ (f.walk.report status).log, x.Spoken e.line :=
    fun e he => h.spoken hv e.line (List.mem_map_of_mem he)
  -- before the ending nothing is an error
  have hbefore : NoError (.info s!"Starting run {occasion.runId} of '{x.workflow.name}'" none ::
      ⟨.user, task.input, none⟩ ::
        (ps.flatMap fun p => p.node.heading :: p.node.lines p.outcome)) := by
    have hopening : NoError [.info s!"Starting run {occasion.runId} of '{x.workflow.name}'" none,
        ⟨.user, task.input, none⟩] := by
      simp [NoError, LogLine.info]
    rw [← lines_account x.agents (.start task.input task.profile)]
    exact hopening.append (noError_account _ _ ps)
  rcases hending.lines with ⟨hclean, hfailed, hlimit⟩ | ⟨lines, message, id, hms, hmore, hcause⟩
  -- nothing in the ending is an error
  · have hnone : (f.walk.report status).log.ofKind .error = [] := by
      apply ofKind_error_eq_nil
      show NoError f.walk.trail.lines
      rw [hlines]
      exact hbefore.append hclean
    exact ⟨fun _ _ => hnone, fun id error heq => absurd heq (hfailed id error),
      fun m heq => absurd heq (hlimit m), houtputs⟩
  -- the ending closes with its one error
  · obtain ⟨e, herrors, hlast, hline⟩ :
        ∃ e, (f.walk.report status).log.ofKind .error = [e] ∧
          (f.walk.report status).log.getLast? = some e ∧ e.line = .error message id := by
      refine ofKind_error_eq_singleton ?_ (hbefore.append hmore) rfl
      show f.walk.trail.lines = _
      rw [hlines, hms, List.append_assoc]
    have hid : e.nodeId = some id := congrArg LogLine.nodeId hline
    constructor
    case clean =>
      intro hfailed hlimit
      rcases hcause with ⟨error, rfl⟩ | ⟨_, m, rfl⟩
      · exact absurd rfl (hfailed id error)
      · exact absurd rfl (hlimit m)
    case failed =>
      intro id' error heq
      have heq : status = .failed id' error := heq
      subst heq
      rcases hcause with ⟨_, hsame⟩ | ⟨_, _, hsame⟩
      · cases hsame
        exact ⟨e, herrors, hlast, hid, ((h.isWalk hv hstatus).failed id error rfl).1⟩
      · cases hsame
    case stepLimit =>
      intro m heq
      have heq : status = .stepLimit m := heq
      subst heq
      rcases hcause with ⟨_, hsame⟩ | ⟨rfl, _⟩
      · cases hsame
      · exact ⟨e, id, herrors, hlast, hid, h.aboutToStart hv hstatus hstart hpath⟩
    case outputs => exact houtputs

/-! ### The last step of a run that fails -/

/-- The run failed because its last step did: after the passages it started the node, the step there
failed for one of its causes, and from then on the run looked for a stop once, sent the failure and
the closing events, and did nothing else. -/
inductive FailedRun (x : Executor) (env : Environment σ) (occasion : Occasion) (task : Task) (s : σ)
    (a : Attempt σ) (id error : String) : Prop where
  | mk {start n : Node} {ps : List Passage} {w : Walk} {s₁ s₂ s₃ : σ} {e : StepError}
      {call? : Option Call} {entry : LogEntry} :
      x.workflow.startNode? = some start → x.Course env (x.setOut occasion task start) s ps w s₁ →
      env.stop s₁ = (false, s₂) → x.workflow.findNode? w.current = some n → n.id = id →
      x.Failure env n w.context s₂ e call? s₃ → e.message = error →
      env.stop s₃ = (false, a.world) →
      a.calls = w.trail.calls.toList ++ call?.toList →
      a.events = w.trail.events.toList ++ [.nodeStarted id, .log (w.entry n.heading), .log entry,
        .nodeFailed id error, .workflowCompleted (.failed id error), .stateChanged .halted] →
      FailedRun x env occasion task s a id error

/-- A run of a valid workflow fails only by its last step. -/
theorem Journey.failedRun (hv : x.workflow.Valid) (h : x.Journey env occasion task s ps f)
    {id error : String} (hstatus : f.status = some (.failed id error)) :
    x.FailedRun env occasion task s (attemptOf f) id error := by
  obtain @⟨start, w, s₁, rest, hstart, hcourse, _, hends⟩ := h
  cases hends with
  | lost _ hfind =>
      -- the passages lead to a node
      have hmem := List.mem_map_of_mem (f := (·.id)) (Workflow.mem_of_startNode? hstart)
      obtain ⟨n, hn⟩ := Workflow.exists_findNode? (hcourse.path.last_mem hv hmem)
      rw [hfind] at hn
      cases hn
  | @failed _ _ w' _ s₃ s₄ n e hstep hagain =>
      cases hstatus
      have hevents := hstep.events
      obtain ⟨hstop, hfind, hperform⟩ := hstep
      obtain ⟨call?, hfailure, hcalls⟩ := failure_of_perform hperform
      -- the events of the failed node, from its start to the end of the run
      let entry := w'.entry (.error s!"Node {n.label} failed: {e.message}" n.id)
      have hfailed : (w'.failed n e.message).trail.events.toList =
          w'.trail.events.toList ++ [.log entry, .nodeFailed n.id e.message] := by
        simp [Walk.failed, Walk.emit, Walk.record, Trail.emit, Trail.enter, Walk.entry,
          LogLine.error, entry]
      have hall : (attemptOf ⟨some (.failed n.id e.message), w'.failed n e.message, s₄⟩).events =
          w.trail.events.toList ++ [.nodeStarted n.id, .log (w.entry n.heading), .log entry,
            .nodeFailed n.id e.message, .workflowCompleted (.failed n.id e.message),
            .stateChanged .halted] := by
        rw [attemptOf, hfailed, hevents, List.append_assoc, List.append_assoc]
        rfl
      exact .mk hstart hcourse hstop hfind rfl hfailure rfl hagain hcalls hall
  -- no other ending reports a failure
  | stopped | exhausted | dropped | discarded | completed | deadEnd => cases hstatus

/-- **Failures are contained.** A valid workflow is run unless another run is under way. Then either
the run is dropped while the model is called, or there is a report that contains the failures of the
run; and when it says that a node failed, the last step of the run failed there. -/
theorem run_contained (hv : x.workflow.Valid) {state : ExecutorState} (hs : state ≠ .running)
    (env : Environment σ) (occasion : Occasion) (task : Task) (s : σ) :
    (x.run env state occasion task s).result = .ok none ∧ (∃ s' call, (env.ask s' call).1 = none) ∨
      ∃ r, (x.run env state occasion task s).result = .ok (some r) ∧ r.Contained x.workflow ∧
        ∀ id error, r.status = .failed id error →
          x.FailedRun env occasion task s (x.run env state occasion task s) id error := by
  obtain ⟨ps, f, hjourney, hrun⟩ := run_of_valid hv hs env occasion task s
  rw [hrun]
  refine hjourney.dropped_or_reports.imp_right ?_
  rintro ⟨status, hstatus, hresult⟩
  refine ⟨_, hresult, hjourney.contained hv hstatus, ?_⟩
  rintro id error rfl
  exact hjourney.failedRun hv hstatus

/-- A blank reply fails the step at the help desk. -/
theorem helpdesk_contained :
    ∃ r, ((helpdesk "Support").run (.replying " ") .idle ⟨.nil, fun _ => 0⟩ .hello ()).result =
        .ok (some r) ∧
      r.status = .failed "desk" "generation failed: script returned no text content" ∧
      r.Contained (.helpdesk "Support") ∧
      (helpdesk "Support").FailedRun (.replying " ") ⟨.nil, fun _ => 0⟩ .hello ()
        ((helpdesk "Support").run (.replying " ") .idle ⟨.nil, fun _ => 0⟩ .hello ()) "desk"
        "generation failed: script returned no text content" := by
  rcases run_contained (x := helpdesk "Support") (by decide)
      (show ExecutorState.idle ≠ .running by decide) (.replying " ") ⟨.nil, fun _ => 0⟩ .hello ()
    with ⟨hnone, _⟩ | ⟨r, hr, hcontained, hfailed⟩
  -- the workflow is valid, so the run is not refused
  · cases hnone
  · have hstatus : r.status =
        .failed "desk" "generation failed: script returned no text content" := by
      cases hr
      rfl
    exact ⟨r, hr, hstatus, hcontained, hfailed _ _ hstatus⟩

end Executor

end AgentGraph
