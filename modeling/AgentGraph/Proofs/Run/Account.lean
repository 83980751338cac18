import AgentGraph.Proofs.Run.Journey
import AgentGraph.Proofs.Run.Mark
import AgentGraph.Proofs.Run.Outcome

/-!
# The account of a run

The trail of a run is written mark by mark, and here is said which marks they are. Each passage of a
course writes the same few (`Passage.marks`): the node is started, the model called if the node asks
it, the result told, the node completed and the edge taken. A whole course writes the marks of its
passages (`Course.writes`), and how a run ends decides what it writes last (`Ending`).
`Journey.account` puts it together:

    trail = the opening, the account of the passages, the marks of the ending.

What a run says in its log and its events is then read off these lists, without looking at the run
again.
-/

namespace AgentGraph

/-! ### The marks of a passage -/

/-- The marks of a step before it has a result. -/
def Node.begun (n : Node) (agents : Registry) (ctx : Context) : List Mark :=
  n.entered ++ (n.call? agents ctx).toList.map .called

/-- The marks of a passage that is made in a context. -/
def Passage.marks (p : Passage) (agents : Registry) (ctx : Context) : List Mark :=
  p.node.begun agents ctx ++ p.node.accepted p.outcome ++ [.taken p.edge.id]

namespace Context

/-- The changes that a step asks for leave the input and the profile as they are, and the values do
not depend on either. -/
theorem apply_eq (ctx : Context) (patch : Patch) : ctx.apply patch =
    ⟨ctx.input, ctx.profile, patch.lastOutput.or ctx.lastOutput,
      patch.values.foldl (fun values v => v :: values.filter (·.1 ≠ v.1)) ctx.values⟩ := by
  -- the fold over the context touches its values only
  have hwrite : ∀ (written : List (String × Json)) (ctx : Context),
      written.foldl (fun ctx v => ctx.write v.1 v.2) ctx =
        { ctx with
          values :=
            written.foldl (fun values v => v :: values.filter (·.1 ≠ v.1)) ctx.values } := by
    intro written
    induction written with
    | nil => exact fun ctx => rfl
    | cons value written ih => exact fun ctx => ih (ctx.write value.1 value.2)
  refine Eq.trans ?_
    (hwrite patch.values { ctx with lastOutput := patch.lastOutput.or ctx.lastOutput })
  rw [apply]
  cases patch.lastOutput <;> rfl

theorem lastOutput_apply (ctx : Context) (patch : Patch) :
    (ctx.apply patch).lastOutput = patch.lastOutput.or ctx.lastOutput := by
  rw [apply_eq]

theorem input_apply (ctx : Context) (patch : Patch) : (ctx.apply patch).input = ctx.input := by
  rw [apply_eq]

theorem profile_apply (ctx : Context) (patch : Patch) :
    (ctx.apply patch).profile = ctx.profile := by
  rw [apply_eq]

end Context

/-- The context after some passages: each of them makes the changes that its step asked for. -/
def Context.after (ctx : Context) (ps : List Passage) : Context :=
  ps.foldl (fun ctx p => ctx.apply p.outcome.patch) ctx

/-- The marks of passages made one after another. -/
def account (agents : Registry) : Context → List Passage → List Mark
  | _, [] => []
  | ctx, p :: ps => p.marks agents ctx ++ account agents (ctx.apply p.outcome.patch) ps

/-! ### What the marks of a passage show -/

namespace Node

variable {n : Node} {agents : Registry} {ctx : Context} {o : Outcome}

@[simp]
theorem filterMap_line?_begun : (n.begun agents ctx).filterMap Mark.line? = [n.heading] := by
  rw [begun]
  cases n.call? agents ctx <;> rfl

@[simp]
theorem filterMap_line?_accepted : (n.accepted o).filterMap Mark.line? = n.lines o := by
  rw [accepted, List.filterMap_append, Mark.filterMap_line?_map_logged]
  exact List.append_nil _

@[simp]
theorem filterMap_event?_begun :
    (n.begun agents ctx).filterMap Mark.event? = [.nodeStarted n.id] := by
  rw [begun]
  cases n.call? agents ctx <;> rfl

@[simp]
theorem filterMap_call?_begun :
    (n.begun agents ctx).filterMap Mark.call? = (n.call? agents ctx).toList := by
  rw [begun]
  cases n.call? agents ctx <;> rfl

@[simp]
theorem filterMap_call?_accepted : (n.accepted o).filterMap Mark.call? = [] := by
  rw [accepted, List.filterMap_append, Mark.filterMap_call?_map_logged]
  rfl

@[simp]
theorem filterMap_startedNode?_begun :
    (n.begun agents ctx).filterMap Mark.startedNode? = [n.id] := by
  rw [begun]
  cases n.call? agents ctx <;> rfl

@[simp]
theorem filterMap_startedNode?_accepted : (n.accepted o).filterMap Mark.startedNode? = [] := by
  rw [accepted, List.filterMap_append, Mark.filterMap_startedNode?_map_logged]
  rfl

@[simp]
theorem filterMap_event?_accepted :
    (n.accepted o).filterMap Mark.event? = [.nodeCompleted n.id] := by
  rw [accepted, List.filterMap_append, Mark.filterMap_event?_map_logged]
  rfl

end Node

/-- The lines of passages: each has a heading and the lines of its result. -/
theorem lines_account (agents : Registry) (ctx : Context) (ps : List Passage) :
    (account agents ctx ps).filterMap Mark.line? =
      ps.flatMap fun p => p.node.heading :: p.node.lines p.outcome := by
  induction ps generalizing ctx with
  | nil => rfl
  | cons p ps ih =>
      rw [account, List.filterMap_append, ih, List.flatMap_cons]
      simp [Passage.marks, Mark.line?]

/-- Besides its lines a passage sends three events. -/
theorem signals_account (agents : Registry) (ctx : Context) (ps : List Passage) :
    (account agents ctx ps).filterMap Mark.event? =
      ps.flatMap fun p =>
      [.nodeStarted p.node.id, .nodeCompleted p.node.id, .edgeTraversed p.edge.id] := by
  induction ps generalizing ctx with
  | nil => rfl
  | cons p ps ih =>
      rw [account, List.filterMap_append, ih, List.flatMap_cons]
      simp [Passage.marks, Mark.event?]

/-! ### Calls -/

/-- The node with the identifier asks the model. -/
def Workflow.asksAt (w : Workflow) (id : String) : Bool := (w.findNode? id).any (·.asks)

/-- The model is called once for every node started that asks it. -/
def Workflow.CalledAsAsked (w : Workflow) (ms : List Mark) : Prop :=
  (ms.filterMap Mark.call?).length = (ms.filterMap Mark.startedNode?).countP w.asksAt

namespace Workflow.CalledAsAsked

variable {w : Workflow} {ms ms' : List Mark} {n : Node}

theorem append (h : w.CalledAsAsked ms) (h' : w.CalledAsAsked ms') :
    w.CalledAsAsked (ms ++ ms') := by
  rw [CalledAsAsked] at *
  rw [List.filterMap_append, List.filterMap_append, List.length_append, List.countP_append, h, h']

theorem begun (hfind : w.findNode? n.id = some n) (agents : Registry) (ctx : Context) :
    w.CalledAsAsked (n.begun agents ctx) := by
  have hasks : w.asksAt n.id = (n.call? agents ctx).isSome := by
    rw [Workflow.asksAt, hfind, Node.isSome_call?]
    rfl
  rw [CalledAsAsked, Node.filterMap_call?_begun, Node.filterMap_startedNode?_begun,
    List.countP_singleton, hasks]
  cases n.call? agents ctx <;> rfl

theorem accepted (n : Node) (o : Outcome) : w.CalledAsAsked (n.accepted o) := by
  simp [CalledAsAsked]

theorem account {ps : List Passage} (agents : Registry) (ctx : Context)
    (hps : ∀ p ∈ ps, w.findNode? p.node.id = some p.node) :
    w.CalledAsAsked (account agents ctx ps) := by
  induction ps generalizing ctx with
  | nil => rfl
  | cons p ps ih =>
      have hmarks :=
        (begun (hps p List.mem_cons_self) agents ctx).append (accepted p.node p.outcome)
      have htaken : w.CalledAsAsked [.taken p.edge.id] := rfl
      exact (hmarks.append htaken).append (ih _ fun q hq => hps q (List.mem_cons_of_mem p hq))

end Workflow.CalledAsAsked

namespace Walk

variable {w : Walk} {n : Node}

/-! ### Moves and the context -/

theorem context_remark (notes : List String) : (w.remark n notes).context = w.context := by
  induction notes generalizing w with
  | nil => rfl
  | cons note notes ih => exact (ih (w := w.info note n.id)).trans rfl

theorem context_tell (o : Outcome) : (w.tell n o).context = w.context := by
  rw [tell]
  cases n.kind with
  | llm | agent | finish => cases o.text <;> rfl
  | condition | classifier => cases o.branch <;> rfl
  | start => rfl

theorem context_accept (o : Outcome) : (w.accept n o).context = w.context.apply o.patch := by
  show ((w.remark n o.notes).tell n o).context.apply o.patch = _
  rw [context_tell, context_remark]

end Walk

namespace Executor

variable {σ : Type} {x : Executor} {env : Environment σ}

/-! ### Steps and courses -/

/-- The marks that a run starts with. -/
def opening (x : Executor) (occasion : Occasion) (task : Task) : List Mark :=
  [.begun, .logged (.info s!"Starting run {occasion.runId} of '{x.workflow.name}'" none),
    .logged ⟨.user, task.input, none⟩]

/-- Asking the model leaves the call and nothing else. -/
theorem writes_of_perform {w w' : Walk} {n : Node} {s s' : σ}
    {result : Option (Except StepError Outcome)} (h : x.perform env w n s = (result, w', s')) :
    w.Writes ((n.call? x.agents w.context).toList.map .called) w' ∧ w'.context = w.context := by
  cases perform_eq_iff.mp h with
  | done haction =>
      rw [Node.call?_of_done haction]
      exact ⟨.refl w, rfl⟩
  | asked haction =>
      rw [Node.call?_of_ask haction]
      exact ⟨Walk.writes_call _, rfl⟩

/-- Asking the model sends nothing and logs nothing. -/
theorem keeps_of_perform {w w' : Walk} {n : Node} {s s' : σ}
    {result : Option (Except StepError Outcome)} (h : x.perform env w n s = (result, w', s')) :
    w'.trail.events = w.trail.events ∧ w'.trail.log = w.trail.log := by
  cases perform_eq_iff.mp h <;> exact ⟨rfl, rfl⟩

theorem writes_of_enter_perform {w w' : Walk} {n : Node} {s s' : σ}
    {result : Option (Except StepError Outcome)}
    (h : x.perform env (w.enter n) n s = (result, w', s')) :
    w.Writes (n.begun x.agents w.context) w' ∧ w'.context = w.context := by
  obtain ⟨hwrites, hcontext⟩ := writes_of_perform h
  exact ⟨Walk.writes_enter.trans hwrites, hcontext⟩

namespace Step

variable {w w' : Walk} {s s' : σ} {n : Node} {result : Except StepError Outcome}

theorem writes (h : x.Step env w s n result w' s') : w.Writes (n.begun x.agents w.context) w' := by
  obtain ⟨_, _, hperform⟩ := h
  exact (writes_of_enter_perform hperform).1

theorem context (h : x.Step env w s n result w' s') : w'.context = w.context := by
  obtain ⟨_, _, hperform⟩ := h
  exact (writes_of_enter_perform hperform).2

theorem findNode? (h : x.Step env w s n result w' s') : x.workflow.findNode? n.id = some n := by
  rw [h.node_id]
  obtain ⟨_, hfind, _⟩ := h
  exact hfind

theorem mayYield {o : Outcome} (h : x.Step env w s n (.ok o) w' s') : n.MayYield o := by
  obtain ⟨_, _, hperform⟩ := h
  exact (achieves_of_perform hperform).mayYield

/-- Before its result a step sends its start and its heading. -/
theorem events (h : x.Step env w s n result w' s') : w'.trail.events.toList =
    w.trail.events.toList ++ [.nodeStarted n.id, .log (w.entry n.heading)] := by
  obtain ⟨_, _, hperform⟩ := h
  rw [(keeps_of_perform hperform).1, Walk.events_enter]

theorem log (h : x.Step env w s n result w' s') :
    w'.trail.log.toList = w.trail.log.toList ++ [w.entry n.heading] := by
  obtain ⟨_, _, hperform⟩ := h
  rw [(keeps_of_perform hperform).2, Walk.log_enter]

end Step

/-- A course makes the changes of its passages and writes their marks. -/
theorem Course.writes {w w' : Walk} {s s' : σ} {ps : List Passage}
    (h : x.Course env w s ps w' s') :
    w.Writes (account x.agents w.context ps) w' ∧ w'.context = w.context.after ps := by
  induction h with
  | nil w s => exact ⟨.refl w, rfl⟩
  | @cons w w₁ w' s s₁ s₂ s' n o e ps hstep hagain hk hfollow _ ih =>
      -- what later passages write depends on the context that this one leaves
      have hcontext : ((w₁.accept n o).follow e).context = w.context.apply o.patch := by
        rw [← hstep.context]
        exact Walk.context_accept o
      rw [hcontext] at ih
      refine ⟨?_, ih.2⟩
      have hpassage := (hstep.writes.trans (Walk.writes_accept n o)).trans (Walk.writes_follow e)
      exact hpassage.trans ih.1

/-- What a step hands on is what its node may yield, and a node is found under its identifier. -/
theorem Course.yields {w w' : Walk} {s s' : σ} {ps : List Passage}
    (h : x.Course env w s ps w' s') :
    ∀ p ∈ ps, x.workflow.findNode? p.node.id = some p.node ∧ p.node.MayYield p.outcome := by
  induction h with
  | nil => simp
  | cons hstep hagain hk hfollow _ ih =>
      intro p hp
      rcases List.mem_cons.mp hp with rfl | hp
      · exact ⟨hstep.findNode?, hstep.mayYield⟩
      · exact ih p hp

/-! ### Endings -/

/-- How a run may end before the node `current` in a context: its status, and the marks of the
end. -/
inductive Ending (x : Executor) (current : String) (ctx : Context) :
    Option RunStatus → List Mark → Prop where
  | stopped : Ending x current ctx (some .stopped) [.logged (.info "Run stopped" none)]
  | exhausted : Ending x current ctx (some (.stepLimit x.limits.maxSteps))
      [.logged
        (.error s!"Step limit of {x.limits.maxSteps} reached, halting before this node" current)]
  | lost : x.workflow.findNode? current = none →
      Ending x current ctx (some (.failed current "node not found"))
        [.logged (.error s!"Node {current} not found" current)]
  | dropped {n : Node} : x.workflow.findNode? n.id = some n →
      Ending x current ctx none (n.begun x.agents ctx)
  | discarded {n : Node} : x.workflow.findNode? n.id = some n →
      Ending x current ctx (some .stopped)
        (n.begun x.agents ctx ++
          [.logged (.info s!"Run stopped, discarding result of {n.label}" n.id)])
  | failed {n : Node} (error : String) : x.workflow.findNode? n.id = some n →
      Ending x current ctx (some (.failed n.id error))
        (n.begun x.agents ctx ++
          [.logged (.error s!"Node {n.label} failed: {error}" n.id), .failed n.id error])
  | completed {n : Node} {o : Outcome} : x.workflow.findNode? n.id = some n → n.MayYield o →
      Ending x current ctx (some .completed)
        (n.begun x.agents ctx ++ n.accepted o ++
          [.logged (.info "Workflow execution completed" n.id)])
  | deadEnd {n : Node} {o : Outcome} (message : String) : x.workflow.findNode? n.id = some n →
      n.MayYield o →
      Ending x current ctx (some (.deadEnd n.id))
        (n.begun x.agents ctx ++ n.accepted o ++ [.logged (.info message n.id)])

theorem Ends.ending {rest : Nat} {w : Walk} {s : σ} {f : Finish σ} (h : x.Ends env rest w s f) :
    ∃ ms, w.Writes ms f.walk ∧ x.Ending w.current w.context f.status ms := by
  cases h with
  -- nothing has been started: only the closing line is written
  | stopped => exact ⟨_, Walk.writes_record .info _ none, .stopped⟩
  | exhausted => exact ⟨_, Walk.writes_record .error _ _, .exhausted⟩
  | lost _ hfind => exact ⟨_, Walk.writes_record .error _ _, .lost hfind⟩
  | dropped _ hfind hperform =>
      -- there is no `Step` here, as the step has no result
      rw [← Workflow.id_of_findNode? hfind] at hfind
      exact ⟨_, (writes_of_enter_perform hperform).1, .dropped hfind⟩
  -- a step has been made, so the ending starts with what the node has written
  | discarded hstep =>
      exact ⟨_, hstep.writes.trans (Walk.writes_record .info _ _), .discarded hstep.findNode?⟩
  | failed hstep => exact ⟨_, hstep.writes.trans (Walk.writes_failed _), .failed _ hstep.findNode?⟩
  | @completed _ _ _ _ _ _ n o hstep =>
      have haccepted := hstep.writes.trans (Walk.writes_accept n o)
      exact ⟨_, haccepted.trans (Walk.writes_record .info _ n.id),
        .completed hstep.findNode? hstep.mayYield⟩
  | @deadEnd _ _ _ _ _ _ n o hstep =>
      have haccepted := hstep.writes.trans (Walk.writes_accept n o)
      exact ⟨_, haccepted.trans (Walk.writes_record .info _ n.id),
        .deadEnd _ hstep.findNode? hstep.mayYield⟩

variable {occasion : Occasion} {task : Task} {s : σ} {ps : List Passage} {f : Finish σ}

theorem writes_setOut (x : Executor) (occasion : Occasion) (task : Task) (start : Node) :
    (⟨occasion, .start task.input task.profile, start.id, .empty⟩ : Walk).Writes
      (x.opening occasion task) (x.setOut occasion task start) :=
  Walk.writes_start occasion x.workflow.name start.id task.input task.profile

/-- **The account of a run**: its trail is the opening, the marks of its passages, and those of its
ending. -/
theorem Journey.account (h : x.Journey env occasion task s ps f) :
    ∃ start current ms, x.workflow.startNode? = some start ∧
      x.workflow.Path start.id ps current ∧
      x.Ending current ((Context.start task.input task.profile).after ps) f.status ms ∧
      f.walk.trail = Trail.empty.writeAll occasion.clock
        (x.opening occasion task ++
          AgentGraph.account x.agents (.start task.input task.profile) ps ++ ms) := by
  obtain @⟨start, w, _, _, hstart, hcourse, _, hends⟩ := h
  obtain ⟨hwrites, hcontext⟩ := hcourse.writes
  obtain ⟨ms, hlast, hending⟩ := hends.ending
  rw [hcontext] at hending
  have htrail := (((x.writes_setOut occasion task start).trans hwrites).trans hlast).trail
  exact ⟨start, w.current, ms, hstart, hcourse.path, hending, htrail⟩

theorem Journey.yields (h : x.Journey env occasion task s ps f) :
    ∀ p ∈ ps, x.workflow.findNode? p.node.id = some p.node ∧ p.node.MayYield p.outcome := by
  obtain ⟨_, hcourse, _, _⟩ := h
  exact hcourse.yields

theorem Ending.calledAsAsked {current : String} {ctx : Context} {status : Option RunStatus}
    {ms : List Mark} (h : x.Ending current ctx status ms) : x.workflow.CalledAsAsked ms := by
  cases h with
  | stopped | exhausted | lost => rfl
  | dropped hfind => exact .begun hfind x.agents ctx
  | discarded hfind => exact .append (.begun hfind x.agents ctx) rfl
  | failed error hfind => exact .append (.begun hfind x.agents ctx) rfl
  | completed hfind => exact .append (.append (.begun hfind x.agents ctx) (.accepted _ _)) rfl
  | deadEnd message hfind => exact .append (.append (.begun hfind x.agents ctx) (.accepted _ _)) rfl

/-- A run calls the model once for every node it starts that asks it. -/
theorem Journey.length_calls (h : x.Journey env occasion task s ps f) :
    f.walk.trail.calls.toList.length = f.walk.trail.visited.toList.countP x.workflow.asksAt := by
  obtain ⟨_, _, ms, _, _, hending, htrail⟩ := h.account
  have hcourse : x.workflow.CalledAsAsked
      (AgentGraph.account x.agents (.start task.input task.profile) ps) :=
    .account x.agents _ fun p hp => (h.yields p hp).1
  have hopening : x.workflow.CalledAsAsked (x.opening occasion task) := rfl
  rw [htrail, Trail.calls_writeAll, Trail.visited_writeAll]
  exact (hopening.append hcourse).append hending.calledAsAsked

/-- The lines of the log of a run. -/
theorem Journey.lines (h : x.Journey env occasion task s ps f) :
    ∃ start current ctx ms, x.workflow.startNode? = some start ∧
      x.workflow.Path start.id ps current ∧ x.Ending current ctx f.status ms ∧
      f.walk.trail.lines =
        .info s!"Starting run {occasion.runId} of '{x.workflow.name}'" none ::
        ⟨.user, task.input, none⟩ ::
          (ps.flatMap fun p => p.node.heading :: p.node.lines p.outcome) ++
          ms.filterMap Mark.line? := by
  obtain ⟨start, current, ms, hstart, hpath, hending, htrail⟩ := h.account
  refine ⟨start, current, _, ms, hstart, hpath, hending, ?_⟩
  rw [htrail, Trail.lines_writeAll, List.filterMap_append, List.filterMap_append, lines_account]
  rfl

/-- The events of a run that are no log entries. -/
theorem Journey.signals (h : x.Journey env occasion task s ps f) :
    ∃ current ctx ms, x.Ending current ctx f.status ms ∧
      f.walk.trail.signals = .stateChanged .running ::
        (ps.flatMap fun p =>
          [.nodeStarted p.node.id, .nodeCompleted p.node.id, .edgeTraversed p.edge.id]) ++
        ms.filterMap Mark.event? := by
  obtain ⟨_, current, ms, _, _, hending, htrail⟩ := h.account
  refine ⟨current, _, ms, hending, ?_⟩
  rw [htrail, Trail.signals_writeAll, List.filterMap_append, List.filterMap_append, signals_account]
  rfl

end Executor

end AgentGraph
