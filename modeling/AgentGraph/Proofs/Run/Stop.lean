import AgentGraph.Proofs.Run.Account
import AgentGraph.Proofs.Run.Alike
import AgentGraph.Run.Channel

/-!
# A stop cuts a run short

Two runs are compared. Nobody asks the first one to stop. The second one has the same model and the
same channel, but at some moment a stop is put in: before the run begins, or during a step.
`run_stopped` says that the second run is the first one cut off there. It makes the passages that
the first run makes before the step in flight (`Truncation`), it starts and calls what the first run
starts and calls up to that step, and of the step itself nothing counts.

Up to the look that finds the stop the two runs are in surroundings that behave alike
(`Environment.alike_stopAt`), so the course of the first can be carried over (`Course.alike`). What
the first run does at the moment of the stop is found by taking its course apart
(`Journey.exists_step`).
-/

namespace AgentGraph

/-! ### Commands -/

namespace Schedule

variable {sch : Schedule} {i j : Nat}

/-- Nobody asks for a stop. -/
def Quiet (sch : Schedule) : Prop := ∀ i, Sending.stop ∉ sch i

/-- Nobody closes the channel before the run has looked for the time before `j`. -/
def OpenUntil (sch : Schedule) (j : Nat) : Prop := ∀ i < j, Sending.close ∉ sch i

/-- The same, but first of all that is done before the look `j`, a stop is put in. -/
def stopAt (sch : Schedule) (j : Nat) : Schedule := fun i => if i = j then .stop :: sch i else sch i

theorem Quiet.eq_nil (h : sch.Quiet) (hopen : sch.OpenUntil j) (hi : i < j) : sch i = [] := by
  rw [List.eq_nil_iff_forall_not_mem]
  intro sending hmem
  cases sending with
  | stop => exact h i hmem
  | close => exact hopen i hi hmem

theorem stopAt_of_lt (hi : i < j) : sch.stopAt j i = sch i := if_neg (Nat.ne_of_lt hi)

theorem stopAt_self (sch : Schedule) (j : Nat) : sch.stopAt j j = .stop :: sch j := if_pos rfl

end Schedule

namespace CommandChannel

variable {c : CommandChannel} {sendings : List Sending}

theorem stops_foldl_accept (h : Sending.stop ∉ sendings) :
    (sendings.foldl accept c).stops = c.stops := by
  induction sendings generalizing c with
  | nil => rfl
  | cons sending sendings ih =>
      rw [List.mem_cons, not_or] at h
      cases sending with
      | stop => exact absurd rfl h.1
      | close => exact ih h.2

/-- What is in the channel stays there until the run looks. -/
theorem stops_le_foldl_accept (sendings : List Sending) :
    c.stops ≤ (sendings.foldl accept c).stops := by
  induction sendings generalizing c with
  | nil => exact Nat.le_refl _
  | cons sending sendings ih =>
      refine Nat.le_trans ?_ (ih (c := c.accept sending))
      cases sending with
      | stop =>
          rw [accept]
          split
          · exact Nat.le_refl _
          · exact Nat.le_succ _
      | close => exact Nat.le_refl _

theorem receive_of_stops_eq_zero (h : c.stops = 0) : c.receive.1 ≠ .stop ∧ c.receive.2 = c := by
  rw [receive, h]
  cases c.closed <;> simp

theorem receive_of_stops_pos (h : 0 < c.stops) : c.receive.1 = .stop := by
  obtain ⟨stops, hstops⟩ := Nat.exists_eq_succ_of_ne_zero (Nat.pos_iff_ne_zero.mp h)
  rw [receive, hstops]

end CommandChannel

namespace Environment

variable {β : Type} {answer : β → Call → Answer × β} {sch sch' : Schedule} {j : Nat}
    {s t : Commanded β}

/-- A look finds nothing if nobody put a stop in. -/
theorem stop_commanded_of_quiet (h : Sending.stop ∉ sch s.looks) (hs : s.channel.stops = 0) :
    (commanded answer sch).stop s =
      (false, ⟨s.model, (sch s.looks).foldl CommandChannel.accept s.channel, s.looks + 1⟩) := by
  obtain ⟨hnone, hsame⟩ := CommandChannel.receive_of_stops_eq_zero
    ((CommandChannel.stops_foldl_accept h).trans hs)
  simp [commanded, hnone, hsame]

/-- A look finds the stop that was just put in. -/
theorem stop_commanded_of_stop (answer : β → Call → Answer × β) {rest : List Sending}
    (h : sch s.looks = .stop :: rest) (hs : s.channel = .fresh) :
    ((commanded answer sch).stop s).1 = true := by
  have hstops : 0 < ((sch s.looks).foldl CommandChannel.accept s.channel).stops := by
    rw [h, hs, List.foldl_cons]
    exact CommandChannel.stops_le_foldl_accept (c := CommandChannel.fresh.accept .stop) rest
  simp [commanded, CommandChannel.receive_of_stops_pos hstops]

/-- Channels are alike in which nobody puts a stop, whether they are closed or not. -/
theorem alike_quiet (answer : β → Call → Answer × β) (h : sch.Quiet) (h' : sch'.Quiet) :
    (commanded answer sch).Alike (commanded answer sch') fun _ s t =>
      s.model = t.model ∧ s.channel.stops = 0 ∧ t.channel.stops = 0 where
  ask := by
    rintro _ s t ⟨hmodel, hs, ht⟩ call
    refine ⟨?_, ?_, hs, ht⟩ <;> simp only [commanded, hmodel]
  stop := by
    rintro _ s t ⟨hmodel, hs, ht⟩
    rw [stop_commanded_of_quiet (h s.looks) hs, stop_commanded_of_quiet (h' t.looks) ht]
    exact ⟨rfl, hmodel, (CommandChannel.stops_foldl_accept (h s.looks)).trans hs,
      (CommandChannel.stops_foldl_accept (h' t.looks)).trans ht⟩

/-- Until the look that finds the stop the channels are alike. -/
theorem alike_stopAt (answer : β → Call → Answer × β) (h : sch.Quiet) (hopen : sch.OpenUntil j) :
    (commanded answer sch).Alike (commanded answer (sch.stopAt j)) fun looks s t =>
      s.model = t.model ∧ s.channel.stops = 0 ∧ t.channel = .fresh ∧ t.looks + looks = j where
  ask := by
    rintro _ s t ⟨hmodel, hs, ht, hlooks⟩ call
    refine ⟨?_, ?_, hs, ht, hlooks⟩ <;> simp only [commanded, hmodel]
  stop := by
    rintro looks s t ⟨hmodel, hs, ht, hlooks⟩
    -- there is a look left, so this one comes before `j`
    have hlt : t.looks < j := by omega
    have hnothing : sch.stopAt j t.looks = [] := by
      rw [Schedule.stopAt_of_lt hlt, h.eq_nil hopen hlt]
    rw [stop_commanded_of_quiet (h s.looks) hs,
      stop_commanded_of_quiet (by simp [hnothing]) (by rw [ht]; rfl), hnothing, List.foldl_nil, ht]
    refine ⟨rfl, hmodel, (CommandChannel.stops_foldl_accept (h s.looks)).trans hs, rfl, ?_⟩
    show t.looks + 1 + looks = j
    omega

end Environment

/-! ### Moments -/

/-- A moment for a stop. -/
inductive Moment where
  | beforeRun
  /-- During the step at the node that is started after so many others. -/
  | during (place : Nat)
deriving DecidableEq, Repr

namespace Moment

/-- The look that finds the stop; a run looks before each step and after it. -/
def look : Moment → Nat
  | beforeRun => 0
  | during place => 2 * place + 1

/-- How many nodes are started by then. -/
def started : Moment → Nat
  | beforeRun => 0
  | during place => place + 1

/-- How many nodes are left by then. -/
def left : Moment → Nat
  | beforeRun => 0
  | during place => place

end Moment

/-! ### The text generated last -/

/-- The text in a line, if a generating node has put it out. -/
def Workflow.generatedText? (w : Workflow) (line : LogLine) : Option String :=
  match line.kind, line.nodeId.bind w.findNode? with
  | .output, some n => if n.Generates then some line.message else none
  | _, _ => none

/-- The texts that generating nodes have put out. -/
def Workflow.generatedTexts (w : Workflow) (log : Log) : List String :=
  (log.map LogEntry.line).filterMap w.generatedText?

namespace Workflow

variable {w : Workflow}

theorem generatedText?_of_ne {line : LogLine} (h : line.kind ≠ .output) :
    w.generatedText? line = none := by
  rw [generatedText?]
  split
  next hk _ => exact absurd hk h
  next => rfl

theorem generatedText?_info (message : String) (nodeId : Option String) :
    w.generatedText? (.info message nodeId) = none :=
  generatedText?_of_ne (by simp [LogLine.info])

theorem generatedText?_output {n : Node} (hfind : w.findNode? n.id = some n) (text : String) :
    w.generatedText? (.output text n.id) = if n.Generates then some text else none := by
  simp [generatedText?, LogLine.output, hfind]

/-- Of the lines of a result only a generated text counts, and it is the last output from then
on. -/
theorem filterMap_generatedText?_lines {n : Node} {o : Outcome} (hfind : w.findNode? n.id = some n)
    (hyield : n.MayYield o) :
    (n.heading :: n.lines o).filterMap w.generatedText? = o.patch.lastOutput.toList := by
  have hheading : w.generatedText? n.heading = none := generatedText?_info _ _
  have hnotes : (o.notes.map (LogLine.info · n.id)).filterMap w.generatedText? = [] := by
    simp [generatedText?_info]
  rw [List.filterMap_cons_none hheading, Node.lines, List.filterMap_append, hnotes, List.nil_append]
  -- the text is told and kept by an LLM or agent node, and by no other
  by_cases hgenerates : n.Generates
  · obtain ⟨text, htext, _, hpatch⟩ := hyield.generated hgenerates
    rcases hgenerates with hk | hk <;>
      simp [hk, htext, hpatch, generatedText?_output hfind, Node.Generates]
  · rw [hyield.passed hgenerates]
    cases hk : n.kind with
    | llm => exact absurd (.inl hk) hgenerates
    | agent => exact absurd (.inr hk) hgenerates
    | finish =>
        simp only [List.filterMap_map, Function.comp_def, generatedText?_output hfind,
          if_neg hgenerates]
        simp
    | condition | classifier => simp [generatedText?_info]
    | start => rfl

end Workflow

namespace Context

/-- The last output after some passages is the last that one of them has made. -/
theorem lastOutput_after (ctx : Context) (ps : List Passage) : (ctx.after ps).lastOutput =
    (ps.filterMap (·.outcome.patch.lastOutput)).getLast?.or ctx.lastOutput := by
  induction ps generalizing ctx with
  | nil => rfl
  | cons p ps ih =>
      show ((ctx.apply p.outcome.patch).after ps).lastOutput = _
      rw [ih, lastOutput_apply, List.filterMap_cons]
      cases p.outcome.patch.lastOutput with
      | none => rfl
      | some text =>
          rw [List.getLast?_cons]
          cases (ps.filterMap (·.outcome.patch.lastOutput)).getLast? <;> rfl

end Context

/-! ### What the second run shows -/

/-- The last that the second run shows besides its status. Before the run only its opening has been
told; during a step the step has begun, and the rest of what it does is left out. -/
def Report.BreaksOff (r : Report) (w : Workflow) (log : Log) (events : List Event)
    (last : LogEntry) : Moment → Prop
  | .beforeRun => ∃ e₁ e₂, log = [e₁, e₂] ∧ events = [.stateChanged .running, .log e₁, .log e₂] ∧
      last.line = .info "Run stopped" none
  | .during _ => ∃ n heading log₀ events₀, w.findNode? n.id = some n ∧
      r.visitedNodes.getLast? = some n.id ∧ heading.line = n.heading ∧ log = log₀ ++ [heading] ∧
      events = events₀ ++ [.nodeStarted n.id, .log heading] ∧
      last.line = .info s!"Run stopped, discarding result of {n.label}" n.id

/-- The second run is the first one, cut off at the moment. -/
structure Executor.Truncation {σ τ : Type} (w : Workflow) (moment : Moment) (a : Attempt σ)
    (a' : Attempt τ) (r r' : Report) : Prop where
  stopped : r'.status = .stopped
  visited : r'.visitedNodes = r.visitedNodes.take moment.started
  traversed : r'.traversedEdges = r.traversedEdges.take moment.left
  /-- The model is called for the nodes started. -/
  calls : a'.calls = a.calls.take (r'.visitedNodes.countP w.asksAt)
  output : r'.output = (w.generatedTexts r'.log).getLast?
  /-- Up to the moment the log and the events are those of the first run, and all that follows is
  that the run was stopped. -/
  breaksOff : ∃ log events last, log <+: r.log ∧ r'.log = log ++ [last] ∧ events <+: a.events ∧
    a'.events = events ++ [.log last, .workflowCompleted .stopped, .stateChanged .halted] ∧
    r'.BreaksOff w log events last moment

namespace Executor

variable {σ : Type} {x : Executor} {env : Environment σ} {occasion : Occasion} {task : Task} {s : σ}
  {ps : List Passage} {f : Finish σ}

/-! ### The step in flight -/

/-- What a course does later than at some step comes after what that step does. -/
theorem Course.exists_step {w w' : Walk} {s' : σ} (h : x.Course env w s ps w' s') {k : Nat}
    (hk : k < ps.length) : ∃ w₁ s₁ n result w₂ s₂, x.Course env w s (ps.take k) w₁ s₁ ∧
      x.Step env w₁ s₁ n result w₂ s₂ ∧ w'.trail.Continues w₂.trail := by
  -- the step is the first one, or it is a step of the passages after it
  induction h generalizing k with
  | nil => cases hk
  | @cons w w₁ w' s s₁ s₂ s' n o e ps hstep hagain hkind hfollow hrest ih =>
      cases k with
      | zero =>
          have hpassage :=
            ((Walk.writes_accept (w := w₁) n o).trans (Walk.writes_follow e)).continues
          exact ⟨w, s, n, .ok o, w₁, s₁, .nil w s, hstep, hpassage.trans hrest.writes.1.continues⟩
      | succ k =>
          obtain ⟨w₃, s₃, n', result, w₄, s₄, hcourse, hstep', hcontinues⟩ :=
            ih (Nat.lt_of_succ_lt_succ hk)
          exact ⟨w₃, s₃, n', result, w₄, s₄, .cons hstep hagain hkind hfollow hcourse,
            hstep', hcontinues⟩

/-- A run ends between two steps, where it is, or after a step. -/
theorem Ends.exists_step {rest : Nat} {w : Walk} (h : x.Ends env rest w s f)
    (hstatus : f.status ≠ none) :
    f.walk.route = w.route ∨ ∃ rest' n result w' s', rest = rest' + 1 ∧
      x.Step env w s n result w' s' ∧ f.walk.route = w'.route ∧
      f.walk.trail.Continues w'.trail := by
  cases h with
  | stopped | exhausted | lost => exact .inl rfl
  | dropped => exact absurd rfl hstatus
  -- a last step was made, and what follows it is written after its trail
  | discarded hstep =>
      exact .inr ⟨_, _, _, _, _, rfl, hstep, rfl, (Walk.writes_record .info _ _).continues⟩
  | failed hstep => exact .inr ⟨_, _, _, _, _, rfl, hstep, rfl, (Walk.writes_failed _).continues⟩
  | @completed _ _ w' _ _ _ n o hstep =>
      have haccepted := (Walk.writes_accept (w := w') n o).continues
      exact .inr ⟨_, _, _, _, _, rfl, hstep, Walk.route_accept o,
        haccepted.trans (Walk.writes_record .info _ _).continues⟩
  | @deadEnd _ _ w' _ _ _ n o hstep =>
      have haccepted := (Walk.writes_accept (w := w') n o).continues
      exact .inr ⟨_, _, _, _, _, rfl, hstep, Walk.route_accept o,
        haccepted.trans (Walk.writes_record .info _ _).continues⟩

/-- Every node that a run has started was started by a step, after a course to it. -/
theorem Journey.exists_step (h : x.Journey env occasion task s ps f) (hstatus : f.status ≠ none)
    {k : Nat} (hk : k < f.walk.route.visited.length) :
    ∃ start w s₁ n result w' s' rest, x.workflow.startNode? = some start ∧ k ≤ ps.length ∧
      x.limits.maxSteps.toNat = k + (rest + 1) ∧
      x.Course env (x.setOut occasion task start) s (ps.take k) w s₁ ∧
      x.Step env w s₁ n result w' s' ∧ f.walk.trail.Continues w'.trail := by
  obtain @⟨start, w, s₁, rest, hstart, hcourse, hlength, hends⟩ := h
  have hvisited : w.route.visited = ps.map (·.node.id) := hcourse.route.1
  have hlater : f.walk.trail.Continues w.trail := by
    obtain ⟨_, hwrites, _⟩ := hends.ending
    exact hwrites.continues
  -- either the run has left the node again, or it has ended there
  by_cases hlt : k < ps.length
  · obtain ⟨w₁, s₂, n, result, w', s', htake, hstep, hcontinues⟩ := hcourse.exists_step hlt
    exact ⟨start, w₁, s₂, n, result, w', s', x.limits.maxSteps.toNat - k - 1, hstart,
      hlt.le, by omega, htake, hstep, hcontinues.trans hlater⟩
  · rcases hends.exists_step hstatus
      with hroute | ⟨rest', n, result, w', s', rfl, hstep, hroute, hcontinues⟩
    · rw [hroute, hvisited, List.length_map] at hk
      exact absurd hk hlt
    · rw [hroute, hstep.route] at hk
      have hall : k = ps.length := by
        simp only [Route.visit, hvisited, List.length_append, List.length_map,
          List.length_singleton] at hk
        omega
      subst hall
      rw [List.take_length]
      exact ⟨start, w, s₁, n, result, w', s', rest', hstart, Nat.le_refl _, hlength, hcourse, hstep,
        hcontinues⟩

/-! ### Two runs -/

/-- The texts that a stopped run has put out are those of its passages. -/
theorem Journey.generatedTexts (h : x.Journey env occasion task s ps f)
    (hstatus : f.status = some .stopped) :
    x.workflow.generatedTexts f.walk.trail.log.toList =
      ps.filterMap (·.outcome.patch.lastOutput) := by
  obtain ⟨_, _, _, ms, _, _, hending, hlines⟩ := h.lines
  -- neither the remark nor the input is a generated text
  have hopening : [LogLine.info s!"Starting run {occasion.runId} of '{x.workflow.name}'" none,
      ⟨.user, task.input, none⟩].filterMap x.workflow.generatedText? = [] := by
    rw [List.filterMap_cons_none (Workflow.generatedText?_info _ _),
      List.filterMap_cons_none (Workflow.generatedText?_of_ne (by simp)), List.filterMap_nil]
  have hpassages : (ps.flatMap fun p => p.node.heading :: p.node.lines p.outcome).filterMap
      x.workflow.generatedText? = ps.filterMap (·.outcome.patch.lastOutput) := by
    rw [List.filterMap_flatMap, List.filterMap_eq_flatMap_toList]
    apply List.flatMap_congr
    intro p hp
    obtain ⟨hfind, hyield⟩ := h.yields p hp
    exact Workflow.filterMap_generatedText?_lines hfind hyield
  -- a stopped run ends with remarks, whatever the step in flight came to
  have hlast : (ms.filterMap Mark.line?).filterMap x.workflow.generatedText? = [] := by
    rw [hstatus] at hending
    cases hending with
    | stopped => exact List.filterMap_cons_none (Workflow.generatedText?_info _ _)
    | @discarded n =>
        rw [List.filterMap_append, Node.filterMap_line?_begun]
        exact (List.filterMap_cons_none (Workflow.generatedText?_info _ _)).trans
          (List.filterMap_cons_none (Workflow.generatedText?_info _ _))
  show f.walk.trail.lines.filterMap _ = _
  rw [hlines, List.filterMap_append, hlast, List.append_nil]
  show ([_, _] ++ _).filterMap _ = _
  rw [List.filterMap_append, hopening]
  exact hpassages

/-- A run that is stopped on a walk from which the first run goes on is a truncation of it. -/
theorem Journey.truncation {τ : Type} {env' : Environment τ} {t t' : τ} {v : Walk}
    {message : String} {nodeId : Option String} (moment : Moment) (ps : List Passage) (status : RunStatus)
    (h : x.Journey env' occasion task t (ps.take moment.left)
      ⟨some .stopped, v.info message nodeId, t'⟩)
    (hcontinues : f.walk.trail.Continues v.trail)
    (hstarted : v.route.visited.length = moment.started)
    (hleft : v.route.traversed.length = moment.left)
    (hcontext : v.context = (Context.start task.input task.profile).after (ps.take moment.left))
    (hlast : ((v.info message nodeId).report .stopped).BreaksOff x.workflow v.trail.log.toList
      v.trail.events.toList (v.entry (.info message nodeId)) moment) :
    Truncation x.workflow moment (attemptOf f)
      (attemptOf ⟨some .stopped, v.info message nodeId, t'⟩) (f.walk.report status)
      ((v.info message nodeId).report .stopped) where
  stopped := rfl
  visited := hstarted ▸ List.prefix_iff_eq_take.mp hcontinues.visited
  traversed := hleft ▸ List.prefix_iff_eq_take.mp hcontinues.traversed
  calls := by
    -- the second run called for the nodes it started, and its calls are the first ones of the other
    have hlength : v.trail.calls.toList.length = v.route.visited.countP x.workflow.asksAt :=
      h.length_calls
    exact hlength ▸ List.prefix_iff_eq_take.mp hcontinues.calls
  output := by
    show v.context.lastOutput =
      (x.workflow.generatedTexts (v.info message nodeId).trail.log.toList).getLast?
    rw [h.generatedTexts rfl, hcontext, Context.lastOutput_after]
    exact Option.or_none
  breaksOff := by
    refine ⟨v.trail.log.toList, v.trail.events.toList, v.entry (.info message nodeId),
      hcontinues.log, ?_, hcontinues.events.trans ?_, ?_, hlast⟩
    · exact Array.toList_push
    · exact List.prefix_append _ _
    · show (v.trail.events.push _).toList ++ _ = _
      rw [Array.toList_push, List.append_assoc]
      rfl

section

variable {β : Type} {answer : β → Call → Answer × β} {sch : Schedule} {model : β} {moment : Moment}
  {status : RunStatus} {f : Finish (Commanded β)}

/-- A run that finds a stop before its first step is stopped there. -/
theorem Journey.stopped_before
    (h : x.Journey (.commanded answer sch) occasion task (.fresh model) ps f) (status : RunStatus) :
    ∃ f', x.Journey (.commanded answer (sch.stopAt 0)) occasion task (.fresh model) [] f' ∧
      f'.status = some .stopped ∧ f'.walk.context = .start task.input task.profile ∧
      Truncation x.workflow .beforeRun (attemptOf f) (attemptOf f') (f.walk.report status)
        (f'.walk.report .stopped) := by
  obtain @⟨start, w, s₁, rest, hstart, hcourse, hlength, hends⟩ := h
  obtain ⟨_, hlater, _⟩ := hends.ending
  -- the stop is found at the first look, before any node
  have hstop :=
    Environment.stop_commanded_of_stop answer (s := .fresh model) (sch.stopAt_self 0) rfl
  have hjourney : x.Journey (.commanded answer (sch.stopAt 0)) occasion task (.fresh model) []
      ⟨some .stopped, (x.setOut occasion task start).stopped, _⟩ :=
    .mk hstart (.nil _ _) (Nat.zero_add _).symm (.stopped (Prod.ext hstop rfl))
  refine ⟨_, hjourney, rfl, rfl, ?_⟩
  apply Journey.truncation .beforeRun [] status hjourney
  · exact hcourse.writes.1.continues.trans hlater.continues
  · rfl
  · rfl
  · rfl
  · exact ⟨_, _, rfl, rfl, rfl⟩

/-- A run that finds a stop after a step is stopped there, and the step is discarded. -/
theorem Journey.stopped_during {k : Nat}
    (h : x.Journey (.commanded answer sch) occasion task (.fresh model) ps f)
    (hstatus : f.status = some status) (hquiet : sch.Quiet) (hopen : sch.OpenUntil (2 * k + 1))
    (hk : k < f.walk.route.visited.length) :
    ∃ f', x.Journey (.commanded answer (sch.stopAt (2 * k + 1))) occasion task (.fresh model)
      (ps.take k) f' ∧
      f'.status = some .stopped ∧
      f'.walk.context = (Context.start task.input task.profile).after (ps.take k) ∧
      Truncation x.workflow (.during k) (attemptOf f) (attemptOf f') (f.walk.report status)
        (f'.walk.report .stopped) := by
  obtain ⟨start, w, s₁, n, result, w', s', rest, hstart, hpast, hlength, hcourse, hstep, hlater⟩ :=
    h.exists_step (by simp [hstatus]) hk
  have htaken : (ps.take k).length = k := List.length_take_of_le hpast
  -- the second run comes as far as this, in `2 * k + 1` looks, and the next look finds the stop
  have halike := Environment.alike_stopAt answer hquiet hopen
  have hlooks : (Commanded.fresh model).looks + (1 + 2 * (ps.take k).length) = 2 * k + 1 := by
    rw [htaken]
    show 0 + (1 + 2 * k) = 2 * k + 1
    omega
  obtain ⟨t₁, hcourse', hR⟩ := hcourse.alike halike 1 ⟨rfl, rfl, rfl, hlooks⟩
  obtain ⟨t₂, hstep', _, _, hfresh, hlook⟩ := hstep.alike halike hR
  rw [Nat.add_zero] at hlook
  have hput : sch.stopAt (2 * k + 1) t₂.looks = .stop :: sch (2 * k + 1) := by
    rw [hlook]
    exact sch.stopAt_self _
  have hstop := Environment.stop_commanded_of_stop answer hput hfresh
  -- the step that was under way is discarded
  have hjourney :
      x.Journey (.commanded answer (sch.stopAt (2 * k + 1))) occasion task (.fresh model)
        (ps.take k) ⟨some .stopped, w'.discarded n, _⟩ :=
    .mk hstart hcourse' (by rw [htaken, hlength]) (.discarded hstep' (Prod.ext hstop rfl))
  have hcontext : w'.context = (Context.start task.input task.profile).after (ps.take k) := by
    rw [hstep.context, hcourse.writes.2]
    rfl
  obtain ⟨hvisited, htraversed⟩ := hcourse.route
  rw [setOut, Walk.route_start, List.nil_append] at hvisited htraversed
  refine ⟨_, hjourney, rfl, hcontext, ?_⟩
  apply Journey.truncation (.during k) ps status hjourney hlater
  · rw [hstep.route]
    show (w.route.visited ++ [n.id]).length = k + 1
    rw [hvisited, List.length_append, List.length_map, htaken, List.length_singleton]
  · rw [hstep.route]
    show w.route.traversed.length = k
    rw [htraversed, List.length_map, htaken]
  · exact hcontext
  · have hlast : w'.route.visited.getLast? = some n.id := by
      rw [hstep.route]
      exact List.getLast?_concat
    exact ⟨n, w.entry n.heading, w.trail.log.toList, w.trail.events.toList,
      hstep.findNode?, hlast, rfl, hstep.log, hstep.events, rfl⟩

/-- With a model that answers every call or is late, a run is never dropped. -/
theorem Journey.exists_status
    (h : x.Journey (.commanded answer sch) occasion task (.fresh model) ps f) :
    ∃ status, f.status = some status := by
  rw [← Option.ne_none_iff_exists']
  intro hnone
  obtain ⟨_, _, hdropped⟩ := h.exists_dropped hnone
  cases hdropped

/-- **A stop cuts a run short.** A run that nobody asks to stop ends with a report, and it is the
same whether its channel is closed or stays open and empty. If a stop is put in before the run
begins, or during a step that the run takes, while the channel is still open, then the run is a
truncation of what it would be without the stop: it makes the passages up to that moment and none of
the changes of the step in flight. -/
theorem run_stopped (hv : x.workflow.Valid) {state : ExecutorState} (hs : state ≠ .running)
    (hquiet : sch.Quiet) (answer : β → Call → Answer × β) (model : β) (occasion : Occasion)
    (task : Task) :
    ∃ ps f r, x.Journey (.commanded answer sch) occasion task (.fresh model) ps f ∧
      x.run (.commanded answer sch) state occasion task (.fresh model) = attemptOf f ∧
      (attemptOf f).result = .ok (some r) ∧
      (∃ world, x.run (.commanded answer fun _ => []) state occasion task (.fresh model) =
        { attemptOf f with world }) ∧
      ∀ moment : Moment, sch.OpenUntil moment.look → moment.started ≤ r.visitedNodes.length →
        ∃ f' r', x.Journey (.commanded answer (sch.stopAt moment.look)) occasion task (.fresh model)
            (ps.take moment.left) f' ∧
          x.run (.commanded answer (sch.stopAt moment.look)) state occasion task (.fresh model) =
            attemptOf f' ∧
          (attemptOf f').result = .ok (some r') ∧
          f'.walk.context = (Context.start task.input task.profile).after (ps.take moment.left) ∧
          Truncation x.workflow moment (attemptOf f) (attemptOf f') r r' := by
  obtain ⟨ps, f, hjourney, hrun⟩ :=
    run_of_valid hv hs (.commanded answer sch) occasion task (.fresh model)
  obtain ⟨status, hstatus⟩ := hjourney.exists_status
  refine ⟨ps, f, f.walk.report status, hjourney, hrun, ?_, ?_, ?_⟩
  · rw [attemptOf, hstatus]
    rfl
  -- without the quiet commands the run is the same one
  · have hempty : Schedule.Quiet fun _ => [] := fun _ => List.not_mem_nil
    have halike := Environment.alike_quiet answer hquiet hempty
    obtain ⟨world, hopen⟩ := hjourney.alike (t := .fresh model) halike fun _ => ⟨rfl, rfl, rfl⟩
    exact ⟨world, hopen.run_eq hv hs⟩
  · intro moment hopen hstarted
    obtain ⟨f', hjourney', hstopped, hcontext, htruncation⟩ :
        ∃ f', x.Journey (.commanded answer (sch.stopAt moment.look)) occasion task (.fresh model)
            (ps.take moment.left) f' ∧ f'.status = some .stopped ∧
          f'.walk.context = (Context.start task.input task.profile).after (ps.take moment.left) ∧
          Truncation x.workflow moment (attemptOf f) (attemptOf f') (f.walk.report status)
            (f'.walk.report .stopped) := by
      cases moment with
      | beforeRun => exact hjourney.stopped_before status
      | during k => exact hjourney.stopped_during hstatus hquiet hopen hstarted
    refine ⟨f', f'.walk.report .stopped, hjourney', hjourney'.run_eq hv hs, ?_, hcontext,
      htruncation⟩
    rw [attemptOf, hstopped]
    rfl

end

/-- A run of the help desk with a command channel; its model always replies with the second
intent. -/
def runHelpdesk (sch : Schedule) : Attempt (Commanded Unit) :=
  (helpdesk "Support").run
    (.commanded (fun _ _ => (.reply (.ok (.ofContents [some "Support"])), ())) sch)
    .idle ⟨.nil, fun _ => 0⟩ .hello (.fresh ())

/-- A stop during the second step at the help desk: the desk is asked, and its reply is
forgotten. -/
theorem helpdesk_stopped :
    ∃ r r', (runHelpdesk fun _ => []).result = .ok (some r) ∧
      r.visitedNodes = ["in", "desk", "out"] ∧
      (runHelpdesk (Schedule.stopAt (fun _ => []) 3)).result = .ok (some r') ∧
      r'.visitedNodes = ["in", "desk"] ∧
      Truncation (.helpdesk "Support") (.during 1) (runHelpdesk fun _ => [])
        (runHelpdesk (Schedule.stopAt (fun _ => []) 3)) r r' := by
  obtain ⟨_, _, r, _, hrun, hr, _, hcut⟩ := run_stopped (x := helpdesk "Support") (by decide)
    (show ExecutorState.idle ≠ .running by decide)
      (show Schedule.Quiet fun _ => [] by simp [Schedule.Quiet])
    (fun _ _ => (.reply (.ok (.ofContents [some "Support"])), ())) () ⟨.nil, fun _ => 0⟩ .hello
  -- look 3 is the one after the step at the second node
  have hvisited : r.visitedNodes = ["in", "desk", "out"] := by
    rw [← hrun] at hr
    cases hr
    rfl
  obtain ⟨_, r', _, hrun', hr', _, htruncation⟩ := hcut (.during 1) (by simp [Schedule.OpenUntil])
    (by rw [hvisited]; decide)
  rw [← hrun] at hr htruncation
  rw [← hrun'] at hr' htruncation
  exact ⟨r, r', hr, hvisited, hr', by rw [htruncation.visited, hvisited]; rfl, htruncation⟩

end Executor

end AgentGraph
