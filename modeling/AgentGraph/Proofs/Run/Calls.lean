import AgentGraph.Proofs.Run.GraphWalk
import AgentGraph.Proofs.Run.Stop
import AgentGraph.Proofs.Run.Story
import AgentGraph.Proofs.Text.Template

/-!
# The calls of a run

A run calls the model once for each node it starts that asks it, and in no other way. What it says
in a call depends on the run so far only through the text that was generated last. So whoever hears
the events of a run can tell its calls: a `Listener` keeps the text put out by the node under way
and the text of the generating node that was completed last, and notes for every node that is
started what the last text is then.

`run_calls` compares the visits that a listener has noted with the calls. The proof follows the
account of a run: `Explains l ms l' visits` says that a listener who hears the marks `ms` turns from
`l` into `l'`, notes `visits`, and that the calls among the marks are those of the visits. It is
shown for what a step writes before its result and after it, and for passages, one after another.

The calls of a run are also those that its surroundings see (`drive_recorded`).
-/

namespace AgentGraph

/-! ### What is said in a call -/

/-- The instruction by which an agent node runs: that of the persona it refers to, or the generic
one when it refers to none, or to one that nobody knows. -/
inductive AgentParams.RunsBy (p : AgentParams) (agents : Registry) : String → Prop where
  | persona {id : String} {agent : AgentDefinition} : p.agentId = some id →
      Text.isBlank id = false → agents.find? id = some agent →
      RunsBy p agents agent.systemInstruction
  | generic : (∀ id, p.agentId = some id → Text.isBlank id = true ∨ agents.find? id = none) →
      RunsBy p agents "You are a helpful, concise assistant. Answer the user's request directly."

/-- What a node that asks the model puts in the system message, and the settings that it asks
for. -/
inductive Node.Prompts (n : Node) (agents : Registry) (ctx : Context) :
    String → Overrides → Prop where
  | llm {p : LlmParams} : n.data = .llm p →
      Prompts n agents ctx (Template.render p.systemInstruction ctx) ⟨p.model, p.temperature⟩
  | agent {p : AgentParams} {instruction : String} : n.data = .agent p →
      p.RunsBy agents instruction →
      Prompts n agents ctx (Template.render instruction ctx) ⟨p.model, p.temperature⟩
  | classifier {p : ClassifierParams} {question : String} : n.data = .classifier p →
      p.intents ≠ [] → AsksForIntent p.intents (Template.render p.instruction ctx) question →
      Prompts n agents ctx question ⟨p.model, some .zero⟩

theorem AgentParams.runsBy_instruction (p : AgentParams) (agents : Registry) :
    p.RunsBy agents (p.instruction agents).1 := by
  rw [instruction]
  cases hpersona : p.persona? agents with
  | some agent =>
      obtain ⟨id, hid, hagent⟩ := Option.bind_eq_some_iff.mp hpersona
      obtain ⟨hid, hblank⟩ := Option.filter_eq_some_iff.mp hid
      exact .persona hid (by simpa using hblank) hagent
  -- no persona: the agent's id is missing, blank or not in the registry
  | none =>
      refine .generic fun id hid => ?_
      by_cases hblank : Text.isBlank id = true
      · exact .inl hblank
      · simp only [persona?, hid, Option.filter_some, hblank, Bool.not_false, ↓reduceIte,
          Option.bind_some] at hpersona
        exact .inr hpersona

theorem Node.Prompts.congr {n : Node} {agents : Registry} {ctx ctx' : Context}
    {instruction : String} {overrides : Overrides} (h : n.Prompts agents ctx instruction overrides)
    (hinput : ctx'.input = ctx.input) (hprofile : ctx'.profile = ctx.profile)
    (hlast : ctx'.lastOutput = ctx.lastOutput) : n.Prompts agents ctx' instruction overrides := by
  cases h with
  | llm hd => rw [← Template.render_congr hinput hprofile hlast]; exact .llm hd
  | agent hd hruns => rw [← Template.render_congr hinput hprofile hlast]; exact .agent hd hruns
  | classifier hd hi hasks =>
      rw [← Template.render_congr hinput hprofile hlast] at hasks
      exact .classifier hd hi hasks

/-- A call holds two messages: the instruction of the node, and the input as it is. -/
theorem Node.prompts_of_call? {n : Node} {agents : Registry} {ctx : Context} {call : Call}
    (h : n.call? agents ctx = some call) : ∃ instruction overrides,
      n.Prompts agents ctx instruction overrides ∧
        call = ⟨[.system instruction, .user ctx.input], some overrides⟩ := by
  obtain ⟨finish, haction⟩ := Node.call?_eq_some_iff.mp h
  cases Node.acts_of_action haction with
  | llm hd => exact ⟨_, _, .llm hd, rfl⟩
  | @agent p hd => exact ⟨_, _, .agent hd (p.runsBy_instruction agents), rfl⟩
  | classifier hd hi =>
      have hne := List.ne_nil_of_mem (List.mem_of_head? hi)
      exact ⟨_, _, .classifier hd hne (asksForIntent_classifierPrompt hne _), rfl⟩

/-! ### Listening -/

/-- A node is started, while this is the text of the generating node completed last. -/
structure Visit where
  nodeId : String
  lastOutput : Option String
deriving DecidableEq, Repr

/-- What a listener knows: the text put out by the node that is under way, the text of the
generating node completed last, and the visits so far. -/
structure Listener where
  said : Option String
  last : Option String
  visits : List Visit

namespace Listener

/-- Nothing has been heard. -/
def fresh : Listener := ⟨none, none, []⟩

def start (l : Listener) (id : String) : Listener := ⟨none, l.last, l.visits ++ [⟨id, l.last⟩]⟩

def listen (w : Workflow) (l : Listener) (line : LogLine) : Listener :=
  { l with said := (w.generatedText? line).or l.said }

def complete (l : Listener) : Listener := { l with last := l.said.or l.last }

/-- What is known after a whole step at a node. -/
def after (l : Listener) (n : Node) (o : Outcome) : Listener :=
  ⟨o.patch.lastOutput, o.patch.lastOutput.or l.last, l.visits ++ [⟨n.id, l.last⟩]⟩

/-- Hear an event. -/
def hear (w : Workflow) (l : Listener) : Event → Listener
  | .nodeStarted id => l.start id
  | .log entry => l.listen w entry.line
  | .nodeCompleted _ => l.complete
  | .stateChanged _ | .nodeFailed .. | .edgeTraversed _ | .workflowCompleted _ => l

/-- The same for a mark. -/
def note (w : Workflow) (l : Listener) : Mark → Listener
  | .started id => l.start id
  | .logged line => l.listen w line
  | .completed _ => l.complete
  | .begun | .called _ | .failed .. | .taken _ => l

end Listener

/-- The visits that are noted when events are heard. -/
def Workflow.visits (w : Workflow) (events : List Event) : List Visit :=
  (events.foldl (Listener.hear w) .fresh).visits

namespace Listener

variable {w : Workflow} {l : Listener}

/-- Whoever hears the events of a trail knows what is known from its marks. -/
theorem foldl_hear_writeAll (clock : Nat → UInt64) (t : Trail) (ms : List Mark) :
    (t.writeAll clock ms).events.toList.foldl (hear w) l =
      ms.foldl (note w) (t.events.toList.foldl (hear w) l) := by
  induction ms generalizing t with
  | nil => rfl
  | cons m ms ih =>
      -- a mark is heard as the event it puts out, and a call puts out none
      have hwrite : (t.write clock m).events.toList.foldl (hear w) l =
          (t.events.toList.foldl (hear w) l).note w m := by
        cases m
          <;> simp [Trail.write, Trail.emit, Trail.enter, Trail.visit, Trail.traverse, Trail.call,
          hear, note, LogEntry.line]
      show ((t.write clock m).writeAll clock ms).events.toList.foldl (hear w) l = _
      rw [ih, hwrite]
      rfl

theorem map_nodeId_foldl_hear (events : List Event) :
    (events.foldl (hear w) l).visits.map (·.nodeId) =
      l.visits.map (·.nodeId) ++ events.filterMap Event.startedNode? := by
  induction events generalizing l with
  | nil => exact (List.append_nil _).symm
  | cons e events ih =>
      rw [List.foldl_cons, ih, List.filterMap_cons]
      cases e <;> simp [hear, start, listen, complete, Event.startedNode?]

theorem foldl_listen (lines : List LogLine) :
    lines.foldl (listen w) l =
      { l with said := (lines.filterMap w.generatedText?).getLast?.or l.said } := by
  induction lines generalizing l with
  | nil => rfl
  | cons line lines ih =>
      rw [List.foldl_cons, ih, List.filterMap_cons, listen]
      cases hline : w.generatedText? line with
      | none => rfl
      | some text =>
          rw [List.getLast?_cons]
          cases (lines.filterMap w.generatedText?).getLast? <;> rfl

/-- After the result of a step the last text is the one that it has put out, if it has put out
any. -/
theorem foldl_note_accepted {n : Node} {o : Outcome} (hfind : w.findNode? n.id = some n)
    (hyield : n.MayYield o) (hsaid : l.said = none) :
    (n.accepted o).foldl (note w) l =
      ⟨o.patch.lastOutput, o.patch.lastOutput.or l.last, l.visits⟩ := by
  have hheading : w.generatedText? n.heading = none := Workflow.generatedText?_info _ _
  have hlines : (n.lines o).filterMap w.generatedText? = o.patch.lastOutput.toList := by
    rw [← Workflow.filterMap_generatedText?_lines hfind hyield, List.filterMap_cons_none hheading]
  rw [Node.accepted, List.foldl_append, List.foldl_map]
  show ((n.lines o).foldl (listen w) l).complete = _
  rw [foldl_listen, hlines, hsaid]
  cases o.patch.lastOutput <;> rfl

end Listener

namespace Executor

variable {σ : Type} {x : Executor} {env : Environment σ} {occasion : Occasion} {task : Task} {s : σ}
  {ps : List Passage} {f : Finish σ}

/-! ### Visits explain calls -/

/-- The call that belongs to a visit of a node that asks the model. -/
def CallsAt (x : Executor) (task : Task) (v : Visit) (call : Call) : Prop :=
  ∃ n instruction overrides, x.workflow.findNode? v.nodeId = some n ∧
    n.Prompts x.agents ⟨task.input, task.profile, v.lastOutput, []⟩ instruction overrides ∧
    call = ⟨[.system instruction, .user task.input], some overrides⟩

/-- A listener hears the marks and notes the visits, and the calls among the marks are those of the
visits. -/
structure Explains (x : Executor) (task : Task) (l : Listener) (ms : List Mark) (l' : Listener)
    (visits : List Visit) : Prop where
  heard : ms.foldl (Listener.note x.workflow) l = l'
  noted : l'.visits = l.visits ++ visits
  found : ∀ v ∈ visits, ∃ n, x.workflow.findNode? v.nodeId = some n
  calls : List.Forall₂ (x.CallsAt task) (visits.filter (x.workflow.asksAt ·.nodeId))
    (ms.filterMap Mark.call?)

namespace Explains

variable {l l' l'' : Listener} {ms ms' : List Mark} {visits visits' : List Visit} {n : Node}
    {ctx : Context}

theorem nil (l : Listener) : x.Explains task l [] l [] where
  heard := rfl
  noted := (List.append_nil _).symm
  found := by simp
  calls := .nil

theorem append (h : x.Explains task l ms l' visits) (h' : x.Explains task l' ms' l'' visits') :
    x.Explains task l (ms ++ ms') l'' (visits ++ visits') where
  heard := by rw [List.foldl_append, h.heard, h'.heard]
  noted := by rw [h'.noted, h.noted, List.append_assoc]
  found := List.forall_mem_append.mpr ⟨h.found, h'.found⟩
  calls := by
    rw [List.filter_append, List.filterMap_append]
    exact List.rel_append h.calls h'.calls

/-- Marks that start no node and call nobody explain themselves. -/
theorem of_quiet (hheard : ms.foldl (Listener.note x.workflow) l = l')
    (hnoted : l'.visits = l.visits) (hcalls : ms.filterMap Mark.call? = []) :
    x.Explains task l ms l' [] where
  heard := hheard
  noted := hnoted.trans (List.append_nil _).symm
  found := by simp
  calls := by
    rw [hcalls]
    exact .nil

/-- The marks before the result of a step: a visit, and the call if there is one. -/
theorem begun (hfind : x.workflow.findNode? n.id = some n) (hinput : ctx.input = task.input)
    (hprofile : ctx.profile = task.profile) (hlast : ctx.lastOutput = l.last) :
    x.Explains task l (n.begun x.agents ctx) ⟨none, l.last, l.visits ++ [⟨n.id, l.last⟩]⟩
      [⟨n.id, l.last⟩] where
  heard := by
    have hheading : x.workflow.generatedText? n.heading = none := Workflow.generatedText?_info _ _
    rw [Node.begun, Node.entered]
    cases n.call? x.agents ctx <;> simp [Listener.note, Listener.start, Listener.listen, hheading]
  noted := rfl
  found := by simpa using ⟨n, hfind⟩
  calls := by
    have hasks : x.workflow.asksAt n.id = (n.call? x.agents ctx).isSome := by
      rw [Workflow.asksAt, hfind, Node.isSome_call?]
      rfl
    rw [Node.filterMap_call?_begun, List.filter_singleton, hasks]
    -- the call is prompted from the node's own context, which agrees with the listener's last text
    cases hcall : n.call? x.agents ctx with
    | none => exact .nil
    | some call =>
        obtain ⟨instruction, overrides, hprompts, rfl⟩ := Node.prompts_of_call? hcall
        rw [hinput]
        have hprompts' :
            n.Prompts x.agents ⟨task.input, task.profile, l.last, []⟩ instruction overrides :=
          hprompts.congr hinput.symm hprofile.symm hlast.symm
        exact .cons ⟨n, instruction, overrides, hfind, hprompts', rfl⟩ .nil

/-- The marks of the result of a step. -/
theorem accepted {o : Outcome} (hfind : x.workflow.findNode? n.id = some n) (hyield : n.MayYield o)
    (hsaid : l.said = none) : x.Explains task l (n.accepted o)
      ⟨o.patch.lastOutput, o.patch.lastOutput.or l.last, l.visits⟩ [] :=
  .of_quiet (Listener.foldl_note_accepted hfind hyield hsaid) rfl Node.filterMap_call?_accepted

/-- A step and its result. -/
theorem begun_accepted {o : Outcome} (hfind : x.workflow.findNode? n.id = some n)
    (hyield : n.MayYield o) (hinput : ctx.input = task.input)
    (hprofile : ctx.profile = task.profile) (hlast : ctx.lastOutput = l.last) :
    x.Explains task l (n.begun x.agents ctx ++ n.accepted o) (l.after n o) [⟨n.id, l.last⟩] :=
  (begun hfind hinput hprofile hlast).append (accepted hfind hyield rfl)

/-- The marks of passages. The last text heard is always the last output. -/
theorem account
    (hps : ∀ p ∈ ps, x.workflow.findNode? p.node.id = some p.node ∧ p.node.MayYield p.outcome)
    (hinput : ctx.input = task.input) (hprofile : ctx.profile = task.profile)
    (hlast : ctx.lastOutput = l.last) :
    ∃ l' visits, x.Explains task l (AgentGraph.account x.agents ctx ps) l' visits ∧
      (ctx.after ps).input = task.input ∧ (ctx.after ps).profile = task.profile ∧
      (ctx.after ps).lastOutput = l'.last := by
  induction ps generalizing ctx l with
  | nil => exact ⟨l, [], nil l, hinput, hprofile, hlast⟩
  | cons p ps ih =>
      obtain ⟨⟨hfind, hyield⟩, hps⟩ := List.forall_mem_cons.mp hps
      have hstep := begun_accepted hfind hyield hinput hprofile hlast
      have hinput' := (ctx.input_apply p.outcome.patch).trans hinput
      have hprofile' := (ctx.profile_apply p.outcome.patch).trans hprofile
      have hlast' : (ctx.apply p.outcome.patch).lastOutput = (l.after p.node p.outcome).last := by
        rw [Context.lastOutput_apply, hlast]
        rfl
      -- the rest is explained from the context this passage leaves
      obtain ⟨l', visits, hrest, hafter⟩ := ih hps hinput' hprofile' hlast'
      exact ⟨l', _, (hstep.append (of_quiet rfl rfl rfl)).append hrest, hafter⟩

/-- The marks of an ending. -/
theorem ending {current : String} {status : Option RunStatus} (h : x.Ending current ctx status ms)
    (hinput : ctx.input = task.input) (hprofile : ctx.profile = task.profile)
    (hlast : ctx.lastOutput = l.last) : ∃ l' visits, x.Explains task l ms l' visits := by
  have logged : ∀ (l : Listener) (line : LogLine), x.Explains task l [.logged line]
      (l.listen x.workflow line) [] := fun _ _ => .of_quiet rfl rfl rfl
  cases h with
  | stopped | exhausted | lost => exact ⟨_, _, logged _ _⟩
  -- the nodes that were begun in the end were visited, completed or not
  | dropped hfind => exact ⟨_, _, begun hfind hinput hprofile hlast⟩
  | discarded hfind => exact ⟨_, _, (begun hfind hinput hprofile hlast).append (logged _ _)⟩
  | failed error hfind =>
      exact ⟨_, _, (begun hfind hinput hprofile hlast).append (.of_quiet rfl rfl rfl)⟩
  | completed hfind hyield =>
      exact ⟨_, _, (begun_accepted hfind hyield hinput hprofile hlast).append (logged _ _)⟩
  | deadEnd message hfind hyield =>
      exact ⟨_, _, (begun_accepted hfind hyield hinput hprofile hlast).append (logged _ _)⟩

end Explains

/-- **The calls of a journey** are those of the visits that a listener notes. -/
theorem Journey.explained (h : x.Journey env occasion task s ps f) :
    (∀ v ∈ x.workflow.visits f.walk.trail.events.toList, ∃ n, x.workflow.findNode? v.nodeId =
      some n) ∧ List.Forall₂ (x.CallsAt task)
        ((x.workflow.visits f.walk.trail.events.toList).filter (x.workflow.asksAt ·.nodeId))
        f.walk.trail.calls.toList := by
  obtain ⟨_, _, ms, _, _, hending, htrail⟩ := h.account
  -- the opening lines start no node and generate no text
  have hopening : x.Explains task .fresh (x.opening occasion task) .fresh [] := by
    have hquiet : ∀ message, x.workflow.generatedText? ⟨.user, message, none⟩ = none :=
      fun message => Workflow.generatedText?_of_ne (by simp)
    apply Explains.of_quiet _ rfl rfl
    simp [opening, Listener.note, Listener.listen, Workflow.generatedText?_info, hquiet,
      Listener.fresh]
  have hnothing : (Context.start task.input task.profile).lastOutput = Listener.fresh.last := rfl
  obtain ⟨l, visits, hpassages, hinput, hprofile, hlast⟩ :=
    Explains.account h.yields rfl rfl hnothing
  obtain ⟨l', visits', hlast⟩ := Explains.ending hending hinput hprofile hlast
  have hwhole := (hopening.append hpassages).append hlast
  -- what the listener has heard at the end is what the three parts explain
  have hvisits : x.workflow.visits f.walk.trail.events.toList = [] ++ visits ++ visits' := by
    rw [Workflow.visits, htrail, Listener.foldl_hear_writeAll]
    show (List.foldl _ Listener.fresh _).visits = _
    rw [hwhole.heard, hwhole.noted]
    rfl
  rw [hvisits, htrail, Trail.calls_writeAll]
  exact ⟨hwhole.found, hwhole.calls⟩

/-- A run starts no more nodes than it may take steps. -/
theorem Journey.length_visited_le (hv : x.workflow.Valid) (h : x.Journey env occasion task s ps f) :
    f.walk.trail.visited.toList.length ≤ x.limits.maxSteps.toNat := by
  obtain ⟨_, _, _, _, _, ⟨hvisited, hle, _⟩ | ⟨n, _, _, hlt, hvisited, _⟩⟩ := h.outline hv
  · have hlength := congrArg List.length hvisited
    rw [List.length_map] at hlength
    exact hlength.trans_le hle
  · have hlength := congrArg List.length hvisited
    rw [Workflow.length_stations] at hlength
    exact hlength.trans_le hlt

end Executor

/-! ### What the surroundings see -/

/-- The same environment, which also keeps the calls that it gets. -/
def Environment.recorded {σ : Type} (env : Environment σ) : Environment (σ × List Call) where
  ask := fun s call => ((env.ask s.1 call).1, (env.ask s.1 call).2, s.2 ++ [call])
  stop := fun s => ((env.stop s.1).1, (env.stop s.1).2, s.2)

namespace Executor

variable {σ : Type} {x : Executor} {env : Environment σ} {w w' : Walk} {s s' : σ} {n : Node}

/-- The world of an environment that keeps the calls, when a walk has come so far. -/
def seen (w : Walk) (s : σ) : σ × List Call := (s, w.trail.calls.toList)

theorem stop_recorded {stop : Bool} (w : Walk) (h : env.stop s = (stop, s')) :
    env.recorded.stop (seen w s) = (stop, seen w s') := by
  simp [Environment.recorded, seen, h]

theorem ask_recorded {call : Call} {answer : Option Answer} (w : Walk)
    (h : env.ask s call = (answer, s')) :
    env.recorded.ask (seen w s) call = (answer, seen (w.call call) s') := by
  simp [Environment.recorded, seen, h, Walk.call, Trail.call]

theorem perform_recorded {result : Option (Except StepError Outcome)}
    (h : x.perform env w n s = (result, w', s')) :
    x.perform env.recorded w n (seen w s) = (result, w', seen w' s') := by
  cases perform_eq_iff.mp h with
  | done haction hresult => exact perform_eq_iff.mpr (.done haction hresult)
  | asked haction hask hresult =>
      exact perform_eq_iff.mpr (.asked haction (ask_recorded w hask) hresult)

theorem Step.recorded {result : Except StepError Outcome} (h : x.Step env w s n result w' s') :
    x.Step env.recorded w (seen w s) n result w' (seen w' s') := by
  obtain ⟨hstop, hfind, hperform⟩ := h
  exact .mk (stop_recorded w hstop) hfind (perform_recorded hperform)

/-- What follows the result of a step is no call. -/
theorem seen_eq {ms : List Mark} (h : w.Writes ms w') (hms : ms.filterMap Mark.call? = []) :
    seen w' s = seen w s := by
  rw [seen, seen, h.trail, Trail.calls_writeAll, hms, List.append_nil]

theorem seen_accept (n : Node) (o : Outcome) : seen (w.accept n o) s = seen w s :=
  seen_eq (Walk.writes_accept n o) Node.filterMap_call?_accepted

theorem Course.recorded {ps : List Passage} (h : x.Course env w s ps w' s') :
    x.Course env.recorded w (seen w s) ps w' (seen w' s') := by
  induction h with
  | nil w s => exact .nil w (seen w s)
  | @cons w w₁ w' s s₁ s₂ s' n o e ps hstep hagain hk hfollow _ ih =>
      have hleft : seen ((w₁.accept n o).follow e) s₂ = seen w₁ s₂ := seen_accept n o
      rw [hleft] at ih
      exact .cons hstep.recorded (stop_recorded w₁ hagain) hk hfollow ih

theorem Ends.recorded {rest : Nat} {f : Finish σ} (h : x.Ends env rest w s f) :
    x.Ends env.recorded rest w (seen w s) ⟨f.status, f.walk, seen f.walk f.world⟩ := by
  cases h with
  | stopped hstop => exact .stopped (stop_recorded w hstop)
  | exhausted hstop => exact .exhausted (stop_recorded w hstop)
  | lost hstop hfind => exact .lost (stop_recorded w hstop) hfind
  | dropped hstop hfind hperform =>
      exact .dropped (stop_recorded w hstop) hfind (perform_recorded hperform)
  | @discarded _ _ w' _ _ _ _ _ hstep hagain =>
      exact .discarded hstep.recorded (stop_recorded w' hagain)
  | @failed _ _ w' _ _ _ _ _ hstep hagain => exact .failed hstep.recorded (stop_recorded w' hagain)
  | @completed _ _ w' _ _ s₂ n o hstep hagain hk =>
      -- accepting an outcome makes no call, so the record of calls stands still
      have hleft : seen ((w'.accept n o).completed n) s₂ = seen w' s₂ := seen_accept n o
      rw [hleft]
      exact .completed hstep.recorded (stop_recorded w' hagain) hk
  | @deadEnd _ _ w' _ _ s₂ n o hstep hagain hk hfollow =>
      have hleft : seen ((w'.accept n o).deadEnd n o.branch) s₂ = seen w' s₂ := seen_accept n o
      rw [hleft]
      exact .deadEnd hstep.recorded (stop_recorded w' hagain) hk hfollow

variable {occasion : Occasion} {task : Task} {ps : List Passage} {f : Finish σ}

/-- **The calls on the trail are those that were made.** -/
theorem Journey.recorded (h : x.Journey env occasion task s ps f) :
    x.Journey env.recorded occasion task (s, []) ps ⟨f.status, f.walk, seen f.walk f.world⟩ := by
  obtain ⟨hstart, hcourse, hlength, hends⟩ := h
  exact .mk hstart hcourse.recorded hlength hends.recorded

/-! ### All calls of a run -/

/-- The calls are made in turn: one for each visit of a node that asks the model, in the order of
the visits, each with what the node puts in the system message after the text that was generated
last. -/
structure CallsInTurn (x : Executor) (task : Task) (a : Attempt σ) : Prop where
  visited : ∀ r, a.result = .ok (some r) →
    (x.workflow.visits a.events).map (·.nodeId) = r.visitedNodes
  found : ∀ v ∈ x.workflow.visits a.events, ∃ n, x.workflow.findNode? v.nodeId = some n
  calls : List.Forall₂ (x.CallsAt task)
    ((x.workflow.visits a.events).filter (x.workflow.asksAt ·.nodeId)) a.calls
  bounded : a.calls.length ≤ x.limits.maxSteps.toNat

theorem visits_append_closing (w : Workflow) (events : List Event) (status : Option RunStatus) :
    w.visits (events ++ closing status) = w.visits events := by
  rw [Workflow.visits, List.foldl_append, closing]
  cases status <;> rfl

theorem Journey.callsInTurn (hv : x.workflow.Valid) (h : x.Journey env occasion task s ps f) :
    x.CallsInTurn task (attemptOf f) := by
  obtain ⟨hfound, hcalls⟩ := h.explained
  rw [← visits_append_closing x.workflow _ f.status] at hfound hcalls
  refine ⟨?_, hfound, hcalls, ?_⟩
  -- the visits that are heard are the nodes that the report lists
  · intro r hr
    rw [attemptOf, Except.ok.injEq, Option.map_eq_some_iff] at hr
    obtain ⟨status, _, rfl⟩ := hr
    show (x.workflow.visits (f.walk.trail.events.toList ++ closing f.status)).map (·.nodeId) =
      f.walk.trail.visited.toList
    rw [visits_append_closing, Workflow.visits, Listener.map_nodeId_foldl_hear, h.agrees.visited]
    rfl
  · show f.walk.trail.calls.toList.length ≤ _
    rw [h.length_calls]
    exact List.countP_le_length.trans (h.length_visited_le hv)

/-- **One call for each step that asks the model.** Whatever the surroundings do, a run makes its
calls in turn, it makes no more of them than it may take steps, and the surroundings see no other
call, neither while it goes on nor after it has halted. A run that is refused makes none. -/
theorem run_calls (x : Executor) (env : Environment σ) (state : ExecutorState) (occasion : Occasion)
    (task : Task) (s : σ) :
    x.CallsInTurn task (x.run env state occasion task s) ∧
      (x.run env.recorded state occasion task (s, [])).world =
        ((x.run env state occasion task s).world, (x.run env state occasion task s).calls) := by
  cases hadmission : x.admission state with
  | error e =>
      -- a refused run has neither events nor calls, in any environment
      have hrefused : ∀ {τ : Type} (env : Environment τ) (t : τ),
          x.run env state occasion task t = ⟨.error e, [], [], state, t⟩ := by
        intro τ env t
        rw [run, hadmission]
      rw [hrefused, hrefused]
      refine ⟨?_, rfl⟩
      constructor
      case visited =>
        intro r h
        cases h
      case found =>
        intro v h
        cases h
      case calls => exact .nil
      case bounded => exact Nat.zero_le _
  | ok start =>
      obtain ⟨hv, hs, _⟩ := admission_eq_ok_iff.mp hadmission
      obtain ⟨ps, f, hjourney, hrun⟩ := run_of_valid hv hs env occasion task s
      rw [hrun, hjourney.recorded.run_eq hv hs]
      exact ⟨hjourney.callsInTurn hv, rfl⟩

end Executor

end AgentGraph
