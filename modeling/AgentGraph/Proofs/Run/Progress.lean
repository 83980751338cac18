import AgentGraph.Proofs.Run.GraphWalk
import AgentGraph.Proofs.Run.Outcome

/-!
# Runs reach an end

Two things keep a run from an end node: it may go round in circles until the ceiling on steps, and
it may halt on the way. Circles are a matter of the graph. Where no cycle can be reached, a run
makes fewer passages than there are nodes, so a ceiling of that many steps is never reached.

A run halts on the way for a stop, for a step that fails, or in a dead end. Stops are asked for by
the environment; a step fails when the model does, or when a classifier has no intents; and dead
ends are foreseen by the linter. `run_progress` puts the two together.

The environment has states, and what it does for a run may depend on them. That it does what a run
needs is therefore said by an invariant of its states.
-/

namespace AgentGraph

/-- In the states that satisfy the invariant no stop is asked for, every call comes back in time
with text, and the invariant is kept. -/
structure Environment.Obliging {σ : Type} (env : Environment σ) (I : σ → Prop) : Prop where
  unstopped : ∀ s, I s → ∃ s', env.stop s = (false, s') ∧ I s'
  answered : ∀ s call, I s → ∃ completion text s',
    env.ask s call = (some (.reply (.ok completion)), s') ∧ completion.firstText? = some text ∧ I s'

/-- When an obliging environment is asked for a stop, there is none. -/
theorem Environment.Obliging.of_stop {σ : Type} {env : Environment σ} {I : σ → Prop} {s s' : σ}
    {stop : Bool} (henv : env.Obliging I) (hs : I s) (h : env.stop s = (stop, s')) :
    stop = false ∧ I s' := by
  obtain ⟨_, hunstopped, hs'⟩ := henv.unstopped s hs
  rw [h] at hunstopped
  cases hunstopped
  exact ⟨rfl, hs'⟩

/-- Only a classifier without intents fails by itself. -/
theorem Node.action_ok {n : Node} {agents : Registry} {ctx : Context}
    {result : Except StepError Outcome} (hn : ∀ p, n.data = .classifier p → p.intents ≠ [])
    (h : n.action agents ctx = .done result) : ∃ o, result = .ok o := by
  cases acts_of_action h with
  | start | finish | condition => exact ⟨_, rfl⟩
  | noIntents hd hi => exact absurd hi (hn _ hd)

namespace Executor

variable {σ : Type} {x : Executor} {env : Environment σ} {I : σ → Prop} {occasion : Occasion}
  {task : Task} {s : σ} {ps : List Passage} {f : Finish σ}

/-! ### Circles -/

/-- **No circles**: where no cycle can be reached, the ceiling on steps is not reached either, as
long as it is not below the number of nodes. -/
theorem Journey.ne_stepLimit (hv : x.workflow.Valid)
    (hacyclic : ∀ start, x.workflow.startNode? = some start → x.workflow.AcyclicFrom start.id)
    (hsteps : x.workflow.nodes.length ≤ x.limits.maxSteps.toNat)
    (h : x.Journey env occasion task s ps f) (m : UInt64) : f.status ≠ some (.stepLimit m) := by
  intro hlimit
  obtain ⟨start, last, hstart, hpath, _, hend⟩ := h.outline hv
  have hmem : start.id ∈ x.workflow.nodes.map (·.id) :=
    List.mem_map_of_mem (Workflow.mem_of_startNode? hstart)
  have hshort : ps.length < x.workflow.nodes.length :=
    hpath.length_lt hv hmem (hacyclic start hstart)
  -- at the ceiling there are as many passages as it allows, which is too many for this path
  rw [hlimit] at hend
  rcases hend with ⟨_, _, hstopped | ⟨hlength, _⟩⟩ | ⟨_, _, _, _, _, hhalt⟩
  · cases hstopped
  · omega
  · exact hhalt

/-! ### Steps that succeed -/

/-- In an obliging environment a step succeeds, and the environment remains obliging. -/
theorem perform_ok (henv : env.Obliging I) (hs : I s) {n : Node}
    (hn : ∀ p, n.data = .classifier p → p.intents ≠ []) {w w' : Walk}
    {result : Option (Except StepError Outcome)} {s' : σ}
    (h : x.perform env w n s = (result, w', s')) : (∃ o, result = some (.ok o)) ∧ I s' := by
  cases perform_eq_iff.mp h with
  -- the node has its result at once, and the environment is not asked
  | done haction hresult =>
      obtain ⟨o, rfl⟩ := Node.action_ok hn haction
      exact ⟨⟨o, hresult⟩, hs⟩
  -- the environment answers with a text, so the call succeeds
  | @asked call finish _ _ _ hask hresult =>
      obtain ⟨completion, text, s₁, hanswer, htext, hs₁⟩ := henv.answered s call hs
      cases hask.symm.trans hanswer
      have hreply : Reply.text x.model (.ok completion) = .ok text :=
        Reply.text_eq_ok_iff.mpr ⟨completion, rfl, htext⟩
      exact ⟨⟨finish text, hresult.trans (congrArg some (resultOf_of_ok hreply))⟩, hs₁⟩

theorem Step.ok (henv : env.Obliging I) (hclear : x.workflow.Clear) (hs : I s) {n : Node}
    {w w' : Walk} {result : Except StepError Outcome} {s' : σ} (h : x.Step env w s n result w' s') :
    (∃ o, result = .ok o) ∧ I s' := by
  have hn := hclear.has_intent n h.node_mem
  obtain ⟨hstop, _, hperform⟩ := h
  obtain ⟨⟨o, ho⟩, hs'⟩ := perform_ok henv (henv.of_stop hs hstop).2 hn hperform
  exact ⟨⟨o, Option.some.inj ho⟩, hs'⟩

/-- The environment remains obliging through a course. -/
theorem Course.obliging (henv : env.Obliging I) (hclear : x.workflow.Clear) {w w' : Walk} {s' : σ}
    (h : x.Course env w s ps w' s') (hs : I s) : I s' := by
  induction h with
  | nil => exact hs
  | cons hstep hagain _ _ _ ih =>
      obtain ⟨_, hs₁⟩ := hstep.ok henv hclear hs
      exact ih (henv.of_stop hs₁ hagain).2

/-! ### The end -/

/-- In an obliging environment a run ends at an end node, or else the ceiling on steps is
reached. -/
theorem Ends.completed_or_stepLimit (henv : env.Obliging I) (hclear : x.workflow.Clear) {rest : Nat}
    {w : Walk} (hcurrent : w.current ∈ x.workflow.nodes.map (·.id)) (hs : I s)
    (h : x.Ends env rest w s f) :
    f.status = some .completed ∨ f.status = some (.stepLimit x.limits.maxSteps) := by
  cases h with
  -- an obliging environment never stops the run
  | stopped hstop =>
      obtain ⟨hfalse, _⟩ := henv.of_stop hs hstop
      cases hfalse
  | exhausted => exact .inr rfl
  -- every edge leads to a node, and a clear workflow has one for every branch
  | lost _ hfind =>
      obtain ⟨n, hn⟩ := Workflow.exists_findNode? hcurrent
      rw [hfind] at hn
      cases hn
  | dropped hstop hfind hperform =>
      have hn := hclear.has_intent _ (Workflow.mem_of_findNode? hfind)
      obtain ⟨⟨_, hnone⟩, _⟩ := perform_ok henv (henv.of_stop hs hstop).2 hn hperform
      cases hnone
  | discarded hstep hstop =>
      obtain ⟨_, hs'⟩ := hstep.ok henv hclear hs
      obtain ⟨hfalse, _⟩ := henv.of_stop hs' hstop
      cases hfalse
  | failed hstep =>
      obtain ⟨⟨_, herror⟩, _⟩ := hstep.ok henv hclear hs
      cases herror
  | completed => exact .inl rfl
  -- the linter would have foreseen a dead end
  | @deadEnd _ _ _ _ _ _ n o hstep _ hk hfollow =>
      apply absurd _ (hclear.not_foresees n o.branch)
      exact Workflow.foresees_of_follow?_eq_none hstep.node_mem hk hstep.mayChoose hfollow

theorem Journey.completed_or_stepLimit (hv : x.workflow.Valid) (henv : env.Obliging I)
    (hclear : x.workflow.Clear) (hs : I s) (h : x.Journey env occasion task s ps f) :
    f.status = some .completed ∨ f.status = some (.stepLimit x.limits.maxSteps) := by
  obtain ⟨hstart, hcourse, _, hends⟩ := h
  have hmem := List.mem_map_of_mem (f := (·.id)) (Workflow.mem_of_startNode? hstart)
  exact hends.completed_or_stepLimit henv hclear (hcourse.path.last_mem hv hmem)
    (hcourse.obliging henv hclear hs)

/-- **Progress.** In a valid workflow without a cycle that can be reached from the start node, and
under a ceiling not below the number of nodes, no run reaches the ceiling. If moreover the workflow
is clear and the environment obliging, a run that is not refused ends at an end node. -/
theorem run_progress (hv : x.workflow.Valid)
    (hacyclic : ∀ start, x.workflow.startNode? = some start → x.workflow.AcyclicFrom start.id)
    (hsteps : x.workflow.nodes.length ≤ x.limits.maxSteps.toNat)
    (env : Environment σ) (state : ExecutorState) (occasion : Occasion) (task : Task) (s : σ) :
    (∀ r, (x.run env state occasion task s).result = .ok (some r) → ∀ m, r.status ≠ .stepLimit m) ∧
    (x.workflow.Clear → state ≠ .running → ∀ I, env.Obliging I → I s →
      ∃ r n, (x.run env state occasion task s).result = .ok (some r) ∧ r.status = .completed ∧
        n ∈ x.workflow.nodes ∧ n.kind = .finish ∧ r.visitedNodes.getLast? = some n.id) := by
  constructor
  · intro r hr m hm
    obtain ⟨_, ps, f, status, hjourney, hstatus, rfl⟩ := journey_of_report hr
    apply hjourney.ne_stepLimit hv hacyclic hsteps m
    rw [hstatus]
    exact congrArg some hm
  · intro hclear hstate I henv hs
    obtain ⟨ps, f, hjourney, hrun⟩ := run_of_valid hv hstate env occasion task s
    -- the ceiling is never met, so the only other ending is at an end node
    have hcompleted : f.status = some .completed :=
      (hjourney.completed_or_stepLimit hv henv hclear hs).resolve_right
        (hjourney.ne_stepLimit hv hacyclic hsteps _)
    obtain ⟨n, hn, hk, hlast⟩ := (hjourney.isWalk hv hcompleted).completed rfl
    refine ⟨f.walk.report .completed, n, ?_, rfl, hn, hk, hlast⟩
    rw [hrun, attemptOf, hcompleted]
    rfl

/-- The help desk whose edges are all there answers every message. -/
theorem helpdesk_progress :
    ∃ r n, ((helpdesk "Support").run (.replying "Support") .idle ⟨.nil, fun _ => 0⟩ .hello
      ()).result = .ok (some r) ∧ r.status = .completed ∧ n ∈ (helpdesk "Support").workflow.nodes ∧
      n.kind = .finish ∧ r.visitedNodes.getLast? = some n.id := by
  have hobliging : (Environment.replying "Support").Obliging (fun _ => True) :=
    ⟨fun _ _ => ⟨(), rfl, trivial⟩, fun _ _ _ => ⟨_, "Support", (), rfl, by decide, trivial⟩⟩
  have hacyclic : ∀ a, (Workflow.helpdesk "Support").AcyclicFrom a := fun a =>
    Workflow.acyclicFrom_of_rank (fun id => if id = "in" then 0 else if id = "desk" then 1 else 2)
      (by decide)
  exact (run_progress (x := helpdesk "Support") (by decide) (fun start _ => hacyclic start.id)
    (by decide) (.replying "Support") .idle ⟨.nil, fun _ => 0⟩ .hello ()).2 (by decide) (by decide)
    _ hobliging trivial

end Executor

end AgentGraph
