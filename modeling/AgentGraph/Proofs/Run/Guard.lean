import AgentGraph.Proofs.Run.Journey

/-!
# What validation keeps from runs

A run looks at its graph once, before anything else. Two of the ways in which it could still go
wrong are there for graphs that nobody has looked at: that there is no node to start with, and that
there is no node to go on with. In a valid workflow neither can happen. There is one start node, and
from there on the node that comes next is the end of an edge, so it is a node
(`Course.exists_findNode?`).

`Executor.Guarded` says what this comes to for one run, and `run_guarded` that it holds of every
run.
-/

namespace AgentGraph

/-- The message of a node that is not there is never that of a step. -/
theorem StepError.message_ne_notFound (e : StepError) : e.message ≠ "node not found" := by
  intro h
  have hhead : e.message.toList.head? = some 'n' := by rw [h]; rfl
  unfold message at hhead
  cases e with
  | generation causes => simp [ToString.toString] at hhead
  | timeout ms => simp [ToString.toString] at hhead
  | noIntents label => simp [ToString.toString] at hhead

namespace Executor

variable {σ : Type} {x : Executor} {env : Environment σ} {state : ExecutorState}
    {occasion : Occasion} {task : Task}
  {s : σ}

/-! ### Invalid graphs -/

/-- A run is refused for its graph when something is wrong with that, and for the first thing that
is. -/
theorem admission_eq_invalidGraph_iff {e : ValidationError} :
    x.admission state = .error (.invalidGraph e) ↔ x.workflow.problems.head? = some e := by
  cases hproblems : x.workflow.problems.head? with
  | some first =>
      have hvalidate : validate x.workflow.nodes x.workflow.edges = .error first := by
        rw [validate, show (validateAll _ _).head? = some first from hproblems]
      rw [admission_of_invalid hvalidate]
      simp
  | none =>
      have hv : x.workflow.Valid := List.head?_eq_none_iff.mp hproblems
      obtain ⟨start, hstart⟩ := hv.exists_startNode?
      -- a valid workflow is run, or it has to wait for another run
      by_cases hs : state = .running
      · rw [hs, admission_of_running hv]
        simp
      · rw [admission_eq_ok_iff.mpr ⟨hv, hs, hstart⟩]
        simp

/-- What is asked for in vain leaves nothing behind. -/
theorem run_of_admission_error {e : EngineError} (h : x.admission state = .error e) :
    x.run env state occasion task s = ⟨.error e, [], [], state, s⟩ := by
  rw [run, h]

theorem result_eq_error_iff {e : EngineError} :
    (x.run env state occasion task s).result = .error e ↔ x.admission state = .error e := by
  cases hadmission : x.admission state with
  | error e' => simp [run_of_admission_error hadmission]
  | ok start => simp [run_of_admission hadmission, attemptOf]

/-! ### Valid workflows -/

/-- Wherever a run of a valid workflow comes, there is a node to go on with. -/
theorem Course.exists_findNode? (hv : x.workflow.Valid) {start : Node}
    (hstart : x.workflow.startNode? = some start) {w w' : Walk} {s' : σ} {ps : List Passage}
    (h : x.Course env w s ps w' s') (hw : w.current = start.id) :
    ∃ n, x.workflow.findNode? w'.current = some n := by
  have hmem : w.current ∈ x.workflow.nodes.map (·.id) := by
    rw [hw]
    exact List.mem_map_of_mem (Workflow.mem_of_startNode? hstart)
  exact Workflow.exists_findNode? (h.path.last_mem hv hmem)

/-- A run ends with the message of a missing node only where the node is missing. -/
theorem Ends.lost_of_status {remaining : Nat} {w : Walk} {f : Finish σ}
    (h : x.Ends env remaining w s f) {id : String}
    (hstatus : f.status = some (.failed id "node not found")) :
    x.workflow.findNode? w.current = none := by
  cases h with
  | lost _ hfind => exact hfind
  | @failed _ _ _ _ _ _ n error =>
      simp only [Option.some.injEq, RunStatus.failed.injEq] at hstatus
      exact absurd hstatus.2 error.message_ne_notFound
  | stopped | exhausted | dropped | discarded | completed | deadEnd => cases hstatus

/-! ### Runs -/

/-- What validation does for a run. -/
structure Guarded (x : Executor) (env : Environment σ) (state : ExecutorState) (occasion : Occasion)
    (task : Task) (s : σ) : Prop where
  /-- The run is refused for its graph just when something is wrong with that, and for the first
  thing that is. -/
  refused_iff : ∀ e, (x.run env state occasion task s).result = .error (.invalidGraph e) ↔
    (validateAll x.workflow.nodes x.workflow.edges).head? = some e
  /-- Then it sends no event and makes no call, and the executor and the world are left as they
  were. -/
  untouched : ∀ e, (x.run env state occasion task s).result = .error (.invalidGraph e) →
    x.run env state occasion task s = ⟨.error (.invalidGraph e), [], [], state, s⟩
  /-- When nothing is wrong there is a node to start with. -/
  starts : validateAll x.workflow.nodes x.workflow.edges = [] →
    ∃ start, x.workflow.startNode? = some start
  /-- After any number of passages there is a node to go on with. -/
  goesOn : validateAll x.workflow.nodes x.workflow.edges = [] → ∀ start ps w s',
    x.workflow.startNode? = some start → x.Course env (x.setOut occasion task start) s ps w s' →
      ∃ n, x.workflow.findNode? w.current = some n
  /-- No report says that a node was not found. -/
  found : validateAll x.workflow.nodes x.workflow.edges = [] → ∀ r id,
    (x.run env state occasion task s).result = .ok (some r) → r.status ≠ .failed id "node not found"

/-- **Validation guards the run completely.** -/
theorem run_guarded (x : Executor) (env : Environment σ) (state : ExecutorState)
    (occasion : Occasion) (task : Task) (s : σ) : x.Guarded env state occasion task s where
  refused_iff e := result_eq_error_iff.trans admission_eq_invalidGraph_iff
  untouched e h := run_of_admission_error (result_eq_error_iff.mp h)
  starts hv := Workflow.Valid.exists_startNode? hv
  goesOn hv start ps w s' hstart hcourse := hcourse.exists_findNode? hv hstart rfl
  -- the fallback for a lost node ends a run whose current node is missing, and no course leads to
  -- one
  found hv r id h := by
    intro hlost
    obtain ⟨-, ps, f, status, hjourney, hstatus, rfl⟩ := journey_of_report h
    obtain ⟨hstart, hcourse, -, hends⟩ := hjourney
    have hfailed : f.status = some (.failed id "node not found") := by
      rw [hstatus, ← hlost]
      rfl
    have hmissing := hends.lost_of_status hfailed
    obtain ⟨n, hn⟩ := hcourse.exists_findNode? hv hstart rfl
    rw [hmissing] at hn
    cases hn

end Executor

end AgentGraph
