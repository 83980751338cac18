import AgentGraph.Proofs.Run.Arrival
import AgentGraph.Proofs.Run.Stop

/-!
# What a run puts out

The log of a run holds the texts that it has put out, and its report gives one of them as the
output. `Report.PutsOut` says how the two go together, and `run_puts_out` that they always do.

What is said of the log is about lines, what is said of the output is about the context, and a step
changes the two at different places: first its text is told, then its changes are made. Between two
steps they agree again: `Walk.Tells` says that the text generated last is the last output, and that
the lines which put out text are those of the completed nodes that speak. Whatever a run does next
it keeps this (`Tells.record`, `Tells.step`, `Tells.accepted`), so it holds when the run ends,
wherever it is cut short.
-/

namespace AgentGraph

/-! ### Nodes that speak -/

namespace Node

/-- What the step at the node results in is put out: the node generates text, or it is an end
node. -/
def Speaks (n : Node) : Prop := n.Generates ∨ n.kind = .finish

instance (n : Node) : Decidable n.Speaks := inferInstanceAs (Decidable (_ ∨ _))

end Node

/-- The node with the identifier speaks. -/
def Workflow.speaksAt (w : Workflow) (id : String) : Bool := (w.findNode? id).any (·.Speaks)

/-- The nodes that have put out the texts among the lines. -/
def speakers (lines : List LogLine) : List (Option String) :=
  (lines.filter (·.kind = .output)).map (·.nodeId)

section

variable {lines more : List LogLine} {message : String} {nodeId : Option String}

theorem speakers_append : speakers (lines ++ more) = speakers lines ++ speakers more := by
  rw [speakers, List.filter_append, List.map_append]
  rfl

theorem speakers_singleton_of_ne {line : LogLine} (h : line.kind ≠ .output) :
    speakers [line] = [] := by
  simp [speakers, h]

theorem speakers_map_line (log : Log) :
    speakers (log.map LogEntry.line) = (log.ofKind .output).map (·.nodeId) := by
  rw [speakers, List.filter_map, List.map_map]
  rfl

/-- Of the lines of a result only the text of a node that speaks is put out. -/
theorem Node.speakers_lines {n : Node} {o : Outcome} (h : n.Speaks → o.text.isSome) :
    speakers (n.heading :: n.lines o) = if n.Speaks then [some n.id] else [] := by
  -- the heading and the notes are remarks
  have hbefore : speakers (n.heading :: o.notes.map (LogLine.info · n.id)) = [] := by
    simp [speakers, heading, LogLine.info]
  rw [lines, ← List.cons_append, speakers_append, hbefore, List.nil_append]
  by_cases hspeaks : n.Speaks
  · obtain ⟨text, htext⟩ := Option.isSome_iff_exists.mp (h hspeaks)
    rw [if_pos hspeaks, htext]
    rcases hspeaks with (hk | hk) | hk <;> simp [hk, speakers, LogLine.output]
  · rw [if_neg hspeaks]
    cases hk : n.kind with
    | llm => exact absurd (.inl (.inl hk)) hspeaks
    | agent => exact absurd (.inl (.inr hk)) hspeaks
    | finish => exact absurd (.inr hk) hspeaks
    | condition | classifier => simp [speakers, LogLine.info]
    | start => rfl

end

/-- No passage changes the input. -/
theorem Context.input_after (ctx : Context) (ps : List Passage) :
    (ctx.after ps).input = ctx.input := by
  induction ps generalizing ctx with
  | nil => rfl
  | cons p ps ih => exact (ih _).trans (ctx.input_apply p.outcome.patch)

/-- An end node passes on the final output. -/
theorem Node.action_of_finish {n : Node} (hk : n.kind = .finish) (agents : Registry)
    (ctx : Context) : n.action agents ctx = .done (.ok (.passing ctx.finalOutput)) := by
  cases hd : n.data with
  | finish => simp only [action, hd]
  | start | llm | agent | condition | classifier => simp [kind, hd, NodeData.kind] at hk

/-! ### The report -/

/-- The output of a run of the workflow on the input goes with its log, and the log with its
events. -/
structure Report.PutsOut (r : Report) (w : Workflow) (input : String)
    (events : List Event) : Prop where
  /-- A run that ends in order gives the text generated last, or else the input. -/
  inOrder : r.status = .completed ∨ (∃ id, r.status = .deadEnd id) →
    r.output = some ((w.generatedTexts r.log).getLast?.getD input)
  /-- A run that breaks off gives the text generated last, if there is any. -/
  brokenOff : (∃ id error, r.status = .failed id error) ∨ r.status = .stopped ∨
    (∃ m, r.status = .stepLimit m) → r.output = (w.generatedTexts r.log).getLast?
  /-- The outputs in the log are those of the completed nodes that speak, in order. -/
  entries : (r.log.ofKind .output).map (·.nodeId) =
    ((events.filterMap Event.completedNode?).filter w.speaksAt).map some
  /-- What an end node puts out is the output of the run. -/
  final : ∀ e ∈ r.log.ofKind .output, ∀ n ∈ w.nodes, e.nodeId = some n.id → n.kind = .finish →
    r.output = some e.message
  /-- A run that is completed puts out something at an end node. -/
  completed : r.status = .completed → ∃ e ∈ r.log.ofKind .output,
    ∃ n ∈ w.nodes, e.nodeId = some n.id ∧ n.kind = .finish

namespace Walk

/-! ### Walks that tell what they know -/

/-- What the walk has told agrees with what it knows. -/
structure Tells (w : Walk) (flow : Workflow) : Prop where
  /-- The last output is the text generated last. -/
  last : w.context.lastOutput = (w.trail.lines.filterMap flow.generatedText?).getLast?
  /-- Text is put out by the completed nodes that speak, once by each. -/
  spoken : speakers w.trail.lines = (w.trail.completions.filter flow.speaksAt).map some

namespace Tells

variable {w w' : Walk} {flow : Workflow} {ms : List Mark}

/-- A walk goes on telling what it knows when its marks do. -/
theorem of_writes (h : w.Tells flow) (hwrites : w.Writes ms w')
    (hlast : w'.context.lastOutput =
      ((ms.filterMap Mark.line?).filterMap flow.generatedText?).getLast?.or w.context.lastOutput)
    (hspoken : speakers (ms.filterMap Mark.line?) =
      ((ms.filterMap Mark.completedNode?).filter flow.speaksAt).map some) : w'.Tells flow where
  last := by
    rw [hwrites.trail, Trail.lines_writeAll, List.filterMap_append, List.getLast?_append,
      hlast, h.last]
  spoken := by
    rw [hwrites.completions, hwrites.trail, Trail.lines_writeAll, speakers_append,
      List.filter_append, List.map_append, hspoken, h.spoken]

/-- What is recorded and is no output puts out nothing. -/
theorem record (h : w.Tells flow) {kind : LogKind} (hk : kind ≠ .output) (message : String)
    (nodeId : Option String) : (w.record kind message nodeId).Tells flow := by
  apply h.of_writes (writes_record kind message nodeId)
  · show _ = ([_].filterMap _).getLast?.or _
    rw [List.filterMap_cons_none (Workflow.generatedText?_of_ne hk)]
    rfl
  · exact speakers_singleton_of_ne hk

theorem failed (h : w.Tells flow) (n : Node) (error : String) : (w.failed n error).Tells flow := by
  apply h.of_writes (writes_failed error)
  · show _ = ([_].filterMap _).getLast?.or _
    rw [List.filterMap_cons_none (Workflow.generatedText?_of_ne (by simp [LogLine.error]))]
    rfl
  · exact speakers_singleton_of_ne (by simp [LogLine.error])

theorem follow (h : w.Tells flow) (e : Edge) : (w.follow e).Tells flow :=
  h.of_writes (writes_follow e) rfl rfl

/-- Whatever is put out is put out by a completed node. -/
theorem completed_of_output (h : w.Tells flow) {line : LogLine} {id : String}
    (hline : line ∈ w.trail.lines) (hk : line.kind = .output) (hid : line.nodeId = some id) :
    id ∈ w.trail.completions := by
  have hspeaker : some id ∈ speakers w.trail.lines :=
    List.mem_map.mpr ⟨line, List.mem_filter.mpr ⟨hline, by simpa using hk⟩, hid⟩
  rw [h.spoken] at hspeaker
  obtain ⟨other, hmem, hsame⟩ := List.mem_map.mp hspeaker
  rw [← Option.some.inj hsame]
  exact (List.mem_filter.mp hmem).1

end Tells

end Walk

namespace Executor

variable {σ : Type} {x : Executor} {env : Environment σ} {occasion : Occasion}
    {task : Task} {s s' : σ}
  {w w' : Walk} {n : Node} {ps : List Passage} {f : Finish σ}

/-! ### Steps and runs go on telling -/

/-- The step at an end node results in the final output. -/
theorem Step.passing_of_finish {o : Outcome} (h : x.Step env w s n (.ok o) w' s')
    (hk : n.kind = .finish) : o = .passing w.context.finalOutput := by
  obtain ⟨_, _, hperform⟩ := h
  rw [perform, Node.action_of_finish hk] at hperform
  cases hperform
  rfl

theorem Step.text_of_speaks {o : Outcome} (h : x.Step env w s n (.ok o) w' s')
    (hspeaks : n.Speaks) :
    o.text.isSome := by
  rcases hspeaks with hgenerates | hk
  · obtain ⟨text, htext, _⟩ := h.mayYield.generated hgenerates
    rw [htext]
    rfl
  · rw [h.passing_of_finish hk]
    rfl

/-- What a step says before it has a result is no output. -/
theorem tells_begun (h : w.Tells x.workflow) {result : Option (Except StepError Outcome)}
    (hperform : x.perform env (w.enter n) n s = (result, w', s')) : w'.Tells x.workflow := by
  obtain ⟨hwrites, hcontext⟩ := writes_of_enter_perform hperform
  apply h.of_writes hwrites
  · rw [hcontext, Node.filterMap_line?_begun, Node.heading,
      List.filterMap_cons_none (Workflow.generatedText?_info _ _)]
    rfl
  · rw [Node.filterMap_line?_begun, Node.filterMap_completedNode?_begun]
    exact speakers_singleton_of_ne (by simp [Node.heading, LogLine.info])

theorem Step.tells {result : Except StepError Outcome} (hstep : x.Step env w s n result w' s')
    (h : w.Tells x.workflow) : w'.Tells x.workflow := by
  obtain ⟨_, _, hperform⟩ := hstep
  exact tells_begun h hperform

/-- A step that succeeds puts out the text that is the last output from then on, or the final
output. -/
theorem Step.tells_accept {o : Outcome} (hstep : x.Step env w s n (.ok o) w' s')
    (h : w.Tells x.workflow) : (w'.accept n o).Tells x.workflow := by
  have hspeaksAt : x.workflow.speaksAt n.id = decide n.Speaks := by
    rw [Workflow.speaksAt, hstep.findNode?]
    rfl
  apply h.of_writes (hstep.writes.trans (Walk.writes_accept n o))
  -- the text that is told is the one that the patch makes the last output
  · rw [Walk.context_accept, Context.lastOutput_apply, hstep.context, List.filterMap_append,
      Node.filterMap_line?_begun, Node.filterMap_line?_accepted, List.singleton_append,
      Workflow.filterMap_generatedText?_lines hstep.findNode? hstep.mayYield]
    cases o.patch.lastOutput <;> rfl
  -- the node has spoken if and only if it is of a kind that speaks, and then it is completed
  · rw [List.filterMap_append, Node.filterMap_line?_begun, Node.filterMap_line?_accepted,
      List.singleton_append, Node.speakers_lines hstep.text_of_speaks, List.filterMap_append,
      Node.filterMap_completedNode?_begun, Node.filterMap_completedNode?_accepted, List.nil_append,
      List.filter_singleton, hspeaksAt]
    by_cases hspeaks : n.Speaks <;> simp [hspeaks]

theorem Course.tells (h : x.Course env w s ps w' s') (htells : w.Tells x.workflow) :
    w'.Tells x.workflow := by
  induction h with
  | nil => exact htells
  | cons hstep hagain hk hfollow _ ih => exact ih ((hstep.tells_accept htells).follow _)

theorem Ends.tells {rest : Nat} (h : x.Ends env rest w s f) (htells : w.Tells x.workflow) :
    f.walk.Tells x.workflow := by
  cases h with
  | stopped | exhausted | lost => exact htells.record (by decide) _ _
  | dropped _ _ hperform => exact tells_begun htells hperform
  | discarded hstep => exact (hstep.tells htells).record (by decide) _ _
  | failed hstep => exact (hstep.tells htells).failed _ _
  | completed hstep => exact (hstep.tells_accept htells).record (by decide) _ _
  | deadEnd hstep => exact (hstep.tells_accept htells).record (by decide) _ _

theorem tells_setOut (x : Executor) (occasion : Occasion) (task : Task) (start : Node) :
    (x.setOut occasion task start).Tells x.workflow := ⟨rfl, rfl⟩

theorem Journey.tells (h : x.Journey env occasion task s ps f) : f.walk.Tells x.workflow := by
  obtain ⟨_, hcourse, _, hends⟩ := h
  exact hends.tells (hcourse.tells (x.tells_setOut occasion task _))

/-! ### The input stays -/

theorem Ends.input_eq {rest : Nat} (h : x.Ends env rest w s f) :
    f.walk.context.input = w.context.input := by
  have of_accept : ∀ {n o w' s'}, x.Step env w s n (.ok o) w' s' →
      (w'.accept n o).context.input = w.context.input := by
    intro n o w' s' hstep
    rw [Walk.context_accept, Context.input_apply, hstep.context]
  cases h with
  | stopped | exhausted | lost => rfl
  | dropped _ _ hperform => exact congrArg Context.input (writes_of_enter_perform hperform).2
  | discarded hstep => exact congrArg Context.input hstep.context
  | failed hstep => exact congrArg Context.input hstep.context
  | completed hstep => exact of_accept hstep
  | deadEnd hstep => exact of_accept hstep

theorem Journey.input_eq (h : x.Journey env occasion task s ps f) :
    f.walk.context.input = task.input := by
  obtain ⟨_, hcourse, _, hends⟩ := h
  rw [hends.input_eq, hcourse.writes.2, Context.input_after]
  rfl

/-! ### End nodes -/

/-- Before its end a run has completed no end node. -/
theorem Course.not_finish_of_completed (hv : x.workflow.Valid) {start : Node} {s₀ : σ}
    (h : x.Course env (x.setOut occasion task start) s₀ ps w s) (hn : n ∈ x.workflow.nodes)
    (hcompleted : n.id ∈ w.trail.completions) : n.kind ≠ .finish := by
  have hcompletions : w.trail.completions = ps.map (·.node.id) := h.completions
  rw [hcompletions] at hcompleted
  obtain ⟨p, hp, hsame⟩ := List.mem_map.mp hcompleted
  have hallowed := h.path.allowed hp
  rw [← hv.node_ext hallowed.node_mem hn hsame]
  exact hallowed.not_finish

/-- The lines of a run that has completed an end node. -/
theorem Step.lines_completed {o : Outcome} (h : x.Step env w s n (.ok o) w' s') :
    ((w'.accept n o).completed n).trail.lines =
      w.trail.lines ++ (n.heading :: n.lines o ++ [.info "Workflow execution completed" n.id]) := by
  have hwrites := (h.writes.trans (Walk.writes_accept n o)).trans
    (Walk.writes_record .info "Workflow execution completed" n.id)
  have htrail : ((w'.accept n o).completed n).trail = _ := hwrites.trail
  rw [htrail, Trail.lines_writeAll, List.filterMap_append, List.filterMap_append,
    Node.filterMap_line?_begun, Node.filterMap_line?_accepted, List.append_assoc]
  rfl

/-- Only the end of a run puts out something at an end node, and then it is the final output. -/
theorem Journey.final_of_output (hv : x.workflow.Valid) (h : x.Journey env occasion task s ps f)
    {line : LogLine} (hline : line ∈ f.walk.trail.lines) (hk : line.kind = .output)
    (hn : n ∈ x.workflow.nodes) (hid : line.nodeId = some n.id) (hfinish : n.kind = .finish) :
    f.status = some .completed ∧ line.message = f.walk.context.finalOutput := by
  obtain @⟨start, w, s₁, rest, hstart, hcourse, _, hends⟩ := h
  have htells : w.Tells x.workflow := hcourse.tells (x.tells_setOut occasion task start)
  have hbefore : n.id ∉ w.trail.completions := fun hcompleted =>
    hcourse.not_finish_of_completed hv hn hcompleted hfinish
  have hcompleted : n.id ∈ f.walk.trail.completions :=
    (hends.tells htells).completed_of_output hline hk hid
  -- so the end node has been completed by the last step of the run
  rcases hends.completion with hsame |
    ⟨m, o, w', s', hstep, hmore, ⟨hk', hstatus, hwalk⟩ | ⟨hnot, _⟩⟩
  · rw [hsame] at hcompleted
    exact absurd hcompleted hbefore
  · refine ⟨hstatus, ?_⟩
    -- the context is that before the step, since an end node changes nothing
    have hfinal : f.walk.context.finalOutput = w.context.finalOutput := by
      rw [hwalk, ← hstep.context]
      show ((w'.accept m o).context).finalOutput = _
      rw [Walk.context_accept, hstep.passing_of_finish hk']
      rfl
    -- of the lines after those of the passages only the text of the end node is an output
    rw [hwalk, hstep.lines_completed] at hline
    rcases List.mem_append.mp hline with hline | hline
    · exact absurd (htells.completed_of_output hline hk hid) hbefore
    rcases List.mem_append.mp hline with hline | hline
    · rcases List.mem_cons.mp hline with rfl | hline
      · cases hk
      · rcases (Node.of_mem_lines hline).2 with hinfo | ⟨_, htext⟩
        · rw [hinfo] at hk
          cases hk
        · rw [hstep.passing_of_finish hk', Outcome.passing, Option.some.injEq] at htext
          rw [hfinal, htext]
    · rw [List.mem_singleton.mp hline] at hk
      cases hk
  · rw [hmore] at hcompleted
    rcases List.mem_append.mp hcompleted with hcompleted | hlast
    · exact absurd hcompleted hbefore
    · rw [hv.node_ext hn hstep.node_mem (List.mem_singleton.mp hlast)] at hfinish
      exact absurd hfinish hnot

/-- A completed run has put out something at an end node. -/
theorem Journey.exists_final_output (h : x.Journey env occasion task s ps f)
    (hstatus : f.status = some .completed) :
    ∃ line ∈ f.walk.trail.lines, line.kind = .output ∧
      ∃ n ∈ x.workflow.nodes, line.nodeId = some n.id ∧ n.kind = .finish := by
  obtain @⟨start, w, s₁, rest, _, _, _, hends⟩ := h
  cases hends with
  | @completed _ _ _ _ _ _ n o hstep _ hk =>
      refine ⟨.output w.context.finalOutput n.id, ?_, rfl, n, hstep.node_mem, rfl, hk⟩
      rw [hstep.lines_completed, hstep.passing_of_finish hk]
      simp [Node.lines, hk, Outcome.passing]
  | stopped | exhausted | lost | dropped | discarded | failed | deadEnd => cases hstatus

/-! ### Reports -/

theorem Journey.putsOut (hv : x.workflow.Valid) (h : x.Journey env occasion task s ps f)
    {status : RunStatus} (hstatus : f.status = some status) :
    (f.walk.report status).PutsOut x.workflow task.input (attemptOf f).events := by
  have htells : f.walk.Tells x.workflow := h.tells
  have hlast : f.walk.context.lastOutput =
      (x.workflow.generatedTexts f.walk.trail.log.toList).getLast? :=
    htells.last
  have mem_lines : ∀ {e}, e ∈ (f.walk.report status).log.ofKind .output →
      e.line ∈ f.walk.trail.lines ∧ e.line.kind = .output := by
    intro e he
    obtain ⟨he, hk⟩ := List.mem_filter.mp he
    exact ⟨List.mem_map_of_mem he, of_decide_eq_true hk⟩
  constructor
  -- at an end node or a dead end: the last generated text, or else the input
  case inOrder =>
    intro hordered
    have hfinal : (f.walk.report status).output = some f.walk.context.finalOutput := by
      rcases hordered with hs | ⟨id, hs⟩
      · cases hs
        rfl
      · cases hs
        rfl
    rw [hfinal, Context.finalOutput, hlast, h.input_eq]
    rfl
  -- otherwise: the last generated text, if there is any
  case brokenOff =>
    intro hbroken
    have hkept : (f.walk.report status).output = f.walk.context.lastOutput := by
      rcases hbroken with ⟨id, error, hs⟩ | hs | ⟨m, hs⟩ <;> cases hs <;> rfl
    rw [hkept, hlast]
    rfl
  -- the walk keeps the speakers and the completed nodes in step
  case entries =>
    have hspoken := htells.spoken
    rw [Trail.lines, speakers_map_line] at hspoken
    rw [completedNodes_attemptOf]
    exact hspoken
  -- an end node speaks last, and what it says is the run's output
  case final =>
    intro e he n hn hid hfinish
    obtain ⟨hline, hk⟩ := mem_lines he
    obtain ⟨hcompleted, hmessage⟩ := h.final_of_output hv hline hk hn hid hfinish
    rw [hstatus] at hcompleted
    cases hcompleted
    exact congrArg some hmessage.symm
  -- a run that completes has an end node that spoke
  case completed =>
    intro hs
    have hs : status = .completed := hs
    rw [hs] at hstatus
    obtain ⟨line, hline, hk, hnode⟩ := h.exists_final_output hstatus
    obtain ⟨e, he, rfl⟩ := List.mem_map.mp hline
    exact ⟨e, List.mem_filter.mpr ⟨he, decide_eq_true hk⟩, hnode⟩

/-- **The output is what was generated last.** A valid workflow is run unless another run is under
way. Then either the run is dropped while the model is called, or there is a report, and its output
goes with the log and the events of the run. -/
theorem run_puts_out (hv : x.workflow.Valid) {state : ExecutorState} (hs : state ≠ .running)
    (env : Environment σ) (occasion : Occasion) (task : Task) (s : σ) :
    (x.run env state occasion task s).result = .ok none ∧ (∃ s' call, (env.ask s' call).1 = none) ∨
      ∃ r, (x.run env state occasion task s).result = .ok (some r) ∧
        r.PutsOut x.workflow task.input (x.run env state occasion task s).events := by
  obtain ⟨ps, f, hjourney, hrun⟩ := run_of_valid hv hs env occasion task s
  rw [hrun]
  refine hjourney.dropped_or_reports.imp_right ?_
  rintro ⟨status, hstatus, hresult⟩
  exact ⟨_, hresult, hjourney.putsOut hv hstatus⟩

/-- A message for sales is answered by the triage, and the answer goes through to the end. -/
theorem triage_puts_out :
    ∃ r, (triage.run (.replying "Sales") .idle ⟨.nil, fun _ => 0⟩ .hello ()).result = .ok (some r) ∧
      r.PutsOut .triage "Hello"
        (triage.run (.replying "Sales") .idle ⟨.nil, fun _ => 0⟩ .hello ()).events ∧
      r.status = .completed ∧ r.output = some "Sales" ∧
      (r.log.ofKind .output).map (·.nodeId) = [some "pitch", some "out"] := by
  rcases run_puts_out (x := triage) (by decide) (show ExecutorState.idle ≠ .running by decide)
      (.replying "Sales") ⟨.nil, fun _ => 0⟩ .hello () with ⟨hnone, _⟩ | ⟨r, hr, hputs⟩
  · cases hnone
  · refine ⟨r, hr, hputs, ?_⟩
    cases hr
    exact ⟨rfl, rfl, rfl⟩

end Executor

end AgentGraph
