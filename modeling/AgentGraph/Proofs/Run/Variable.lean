import AgentGraph.Proofs.Json.Canonical
import AgentGraph.Proofs.Run.Arrival
import AgentGraph.Proofs.Run.Profile

/-!
# What a condition reads

A condition tests the value of a variable, and variables are written by steps that succeed: a
generating node writes its text under its own identifier, and a classifier writes the intent both
under its identifier and under `intent`. So several nodes may write under one name, and the same
node does so each time a run comes back to it. `run_reads_latest` says that a condition always reads
what was written last.

`Node.wrote?` tells from the outcome of a step what it writes under a name, and `latest` picks the
last write from a list of passages. Writing to the variables is one law (`Context.lookup_write`),
and it gives the variables after any number of passages by induction (`Context.lookup_after`).
-/

namespace AgentGraph

/-! ### Names of variables -/

namespace Context

/-- The name, blanks around it aside, is that of a variable: it stands for nothing that is built in,
and for no entry of the profile. -/
def NamesVariable (name : String) : Prop :=
  Text.trim name ∉ ["", "input", "last_output", "lastOutput", "context"] ∧ NotFromProfile name

instance (name : String) : Decidable (NamesVariable name) :=
  inferInstanceAs (Decidable (_ ∧ ¬ _))

variable {name : String}

theorem resolve_of_namesVariable (h : NamesVariable name) (ctx : Context) :
    ctx.resolve name = (ctx.values.lookup (Text.trim name)).getD .null := by
  obtain ⟨hbuiltin, hprofile⟩ := h
  simp only [List.mem_cons, List.not_mem_nil, not_or, or_false] at hbuiltin
  simp only [resolve, hbuiltin, hprofile.afterStart?_eq_none, or_self, if_false]

/-! ### Writing variables -/

theorem lookup_cons_eq_ite (written : String) (value : Json) (values : List (String × Json)) :
    ((written, value) :: values).lookup name = if name = written then some value
    else values.lookup name := by
  rw [List.lookup_cons]
  by_cases hname : name = written
  · rw [if_pos hname, beq_iff_eq.mpr hname]
  · rw [if_neg hname, beq_eq_false_iff_ne.mpr hname]

/-- Leaving out the values of a name hides this name and no other. -/
theorem lookup_filter_ne (values : List (String × Json)) (written : String) :
    (values.filter (·.1 ≠ written)).lookup name = if name = written then none
    else values.lookup name := by
  rw [Json.lookup_filter (· ≠ written)]
  simp only [decide_eq_true_eq, ne_eq, ite_not]

/-- What was written is read, and under other names nothing changes. -/
theorem lookup_write (ctx : Context) (written : String) (value : Json) :
    (ctx.write written value).values.lookup name =
      if name = written then some value else ctx.values.lookup name := by
  rw [write, lookup_cons_eq_ite, lookup_filter_ne]
  by_cases hname : name = written <;> simp [hname]

/-- Of the values that a step writes under a name the last one counts. -/
theorem lookup_apply (ctx : Context) (patch : Patch) :
    (ctx.apply patch).values.lookup name =
      (patch.values.reverse.lookup name).or (ctx.values.lookup name) := by
  -- later writes hide earlier ones, so the patch is read from its end
  have hall : ∀ (written : List (String × Json)) (ctx : Context),
      (written.foldl (fun ctx v => ctx.write v.1 v.2) ctx).values.lookup name =
        (written.reverse.lookup name).or (ctx.values.lookup name) := by
    intro written
    induction written with
    | nil => exact fun ctx => rfl
    | cons v written ih =>
        intro ctx
        rw [List.foldl_cons, ih, lookup_write, List.reverse_cons, List.lookup_append,
          lookup_cons_eq_ite, Option.or_assoc]
        by_cases hname : name = v.1 <;> simp [hname]
  rw [apply]
  exact hall patch.values _

end Context

/-! ### What a step writes -/

/-- What the step at the node writes under a name when it has the outcome: a generating node writes
its text under its identifier, a classifier writes the intent under its identifier and under
`intent`, and no other node writes anything. -/
def Node.wrote? (n : Node) (o : Outcome) (name : String) : Option String :=
  match n.kind with
  | .llm | .agent => if name = n.id then o.text else none
  | .classifier => if name = Outcome.intentVariable ∨ name = n.id then o.branch else none
  | .start | .condition | .finish => none

namespace Node

variable {n : Node} {agents : Registry} {ctx : Context} {o : Outcome} {name : String}

/-- A step writes what its node writes. -/
theorem Achieves.lookup {model : String} (h : n.Achieves model ctx o) :
    o.patch.values.reverse.lookup name = (n.wrote? o name).map .string := by
  cases h with
  | start hd | finish hd | condition hd =>
      simp [wrote?, kind, hd, NodeData.kind, Outcome.passing, Outcome.decided, Patch.none]
  -- a generated text is written under the node's id
  | generated _ hk =>
      rcases hk with hk | hk <;> by_cases hname : name = n.id <;>
        simp [wrote?, hk, Outcome.generated, hname, Context.lookup_cons_eq_ite]
  | classified _ hd =>
      -- an identifier may be `intent` itself, and then one name is written twice
      simp only [wrote?, kind, hd, NodeData.kind, Outcome.classified, List.reverse_cons,
        List.reverse_nil, List.nil_append, List.singleton_append, Context.lookup_cons_eq_ite,
        List.lookup_nil]
      by_cases hname : name = n.id
      · simp [hname]
      · by_cases hintent : name = Outcome.intentVariable <;> simp [hname, hintent]

end Node

/-- What passages have written last under a name. -/
def latest (name : String) (ps : List Passage) : Option String :=
  (ps.filterMap fun p => p.node.wrote? p.outcome name).getLast?

/-- After passages a variable holds what they have written last, or what it held before. -/
theorem Context.lookup_after {name : String} {ps : List Passage} (hps : ∀ p ∈ ps,
      p.outcome.patch.values.reverse.lookup name = (p.node.wrote? p.outcome name).map .string)
    (ctx : Context) : (ctx.after ps).values.lookup name =
      ((latest name ps).map .string).or (ctx.values.lookup name) := by
  induction ps generalizing ctx with
  | nil => rfl
  | cons p ps ih =>
      obtain ⟨hp, hps⟩ := List.forall_mem_cons.mp hps
      show ((ctx.apply p.outcome.patch).after ps).values.lookup name = _
      rw [ih hps, lookup_apply, hp, latest, latest, List.filterMap_cons]
      -- what the first passage writes counts only if no later one writes under the name
      cases p.node.wrote? p.outcome name with
      | none => rfl
      | some text =>
          rw [List.getLast?_cons]
          cases (ps.filterMap fun p => p.node.wrote? p.outcome name).getLast? <;> rfl

namespace Executor

variable {σ : Type} {x : Executor} {env : Environment σ} {occasion : Occasion} {task : Task} {s : σ}
  {ps : List Passage} {f : Finish σ} {name : String}

/-! ### What a run reads -/

/-- Between two steps of a run the name of a variable stands for what was written last. -/
theorem Course.resolve {start : Node} {w : Walk} {s' : σ}
    (h : x.Course env (x.setOut occasion task start) s ps w s')
    (hname : Context.NamesVariable name) :
    w.context.resolve name = Context.textOrNull (latest (Text.trim name) ps) := by
  -- each passage writes what its node is known to write
  have hps : ∀ p ∈ ps, p.outcome.patch.values.reverse.lookup (Text.trim name) =
      (p.node.wrote? p.outcome (Text.trim name)).map .string := by
    intro p hp
    obtain ⟨k, hk⟩ := List.mem_iff_getElem?.mp hp
    obtain ⟨_, _, _, _, _, _, _, hperform⟩ := h.exists_passage hk
    exact (achieves_of_perform hperform).lookup
  have hnone : (Context.start task.input task.profile).values.lookup (Text.trim name) = none := rfl
  rw [Context.resolve_of_namesVariable hname, h.writes.2, Context.lookup_after hps]
  show (Option.or _ ((Context.start task.input task.profile).values.lookup _)).getD _ = _
  rw [hnone, Option.or_none]
  rfl

theorem Arrives.resolve {w : Walk} {n : Node} {s' : σ} (h : x.Arrives env occasion task s ps w n s')
    (hname : Context.NamesVariable name) :
    w.context.resolve name = Context.textOrNull (latest (Text.trim name) ps) := by
  obtain ⟨_, hcourse, _, _⟩ := h
  exact hcourse.resolve hname

/-- After the passages a run arrives at the node, tests the value by the condition, and decides
accordingly. -/
inductive TestsAfter (x : Executor) (env : Environment σ) (occasion : Occasion) (task : Task)
    (s : σ) (ps : List Passage) (n : Node) (p : ConditionParams) (value : Json) : Prop where
  | mk {w : Walk} {s' : σ} :
      x.Arrives env occasion task s ps w n s' → w.context.resolve p.variableName = value →
      x.perform env (w.enter n) n s' =
        (some (.ok (.decided (Condition.test p.operator value p.value))), w.enter n, s') →
      TestsAfter x env occasion task s ps n p value

/-- A condition tests what its variable stands for. -/
theorem Arrives.testsAfter {w : Walk} {n : Node} {s' : σ} {p : ConditionParams}
    (h : x.Arrives env occasion task s ps w n s') (hd : n.data = .condition p) :
    x.TestsAfter env occasion task s ps n p (w.context.resolve p.variableName) := by
  refine .mk h rfl ?_
  have haction : n.action x.agents (w.enter n).context =
      .done (.ok (.decided (p.holds w.context))) := by
    rw [Node.action, hd]
    rfl
  exact perform_eq_iff.mpr (.done haction rfl)

/-- A step that is cut short, and a stop between two steps, leave the context as it is. -/
theorem Ends.context_of_cut {rest : Nat} {w : Walk} (h : x.Ends env rest w s f)
    (hstatus : f.status = some .stopped ∨ ∃ id error, f.status = some (.failed id error)) :
    f.walk.context = w.context := by
  cases h with
  | stopped | exhausted | lost => rfl
  | discarded hstep => exact hstep.context
  | failed hstep => exact hstep.context
  | dropped | completed | deadEnd => simp at hstatus

/-- Variables hold what was written last, in a run of passages with its end. -/
structure ReadsLatest (x : Executor) (env : Environment σ) (occasion : Occasion) (task : Task)
    (s : σ) (ps : List Passage) (f : Finish σ) : Prop where
  /-- A condition that is started after some other nodes tests what the steps there have written
  last under the name of its variable, and null if they have written nothing. -/
  tested : ∀ k, ∀ n ∈ x.workflow.nodes, ∀ p, n.data = .condition p →
    Context.NamesVariable p.variableName →
    ((attemptOf f).events.filterMap Event.startedNode?)[k]? = some n.id → k ≤ ps.length ∧
      x.TestsAfter env occasion task s (ps.take k) n p
        (Context.textOrNull (latest (Text.trim p.variableName) (ps.take k)))
  /-- A step that fails or is stopped writes nothing. -/
  kept : (f.status = some .stopped ∨ ∃ id error, f.status = some (.failed id error)) →
    ∀ name, Context.NamesVariable name →
      f.walk.context.resolve name = Context.textOrNull (latest (Text.trim name) ps)

theorem Journey.readsLatest (hv : x.workflow.Valid) (h : x.Journey env occasion task s ps f) :
    x.ReadsLatest env occasion task s ps f where
  -- the condition was reached with the context that the passages before it leave
  tested := by
    intro k n hn p hd hname hk
    rw [h.startedNodes] at hk
    obtain ⟨hlength, w, m, s', harrives, hid⟩ := h.exists_arrival hk
    obtain rfl := hv.node_ext harrives.node_mem hn hid
    refine ⟨hlength, ?_⟩
    rw [← harrives.resolve hname]
    exact harrives.testsAfter hd
  kept := by
    intro hstatus name hname
    obtain ⟨_, hcourse, _, hends⟩ := h
    rw [hends.context_of_cut hstatus]
    exact hcourse.resolve hname

/-- **A condition reads what was written last.** A valid workflow is run, unless another run is
under way, and in the run that it gets variables hold what was written last. -/
theorem run_reads_latest (hv : x.workflow.Valid) {state : ExecutorState} (hs : state ≠ .running)
    (env : Environment σ) (occasion : Occasion) (task : Task) (s : σ) :
    ∃ ps f, x.Journey env occasion task s ps f ∧ x.run env state occasion task s = attemptOf f ∧
      x.ReadsLatest env occasion task s ps f := by
  obtain ⟨ps, f, hjourney, hrun⟩ := run_of_valid hv hs env occasion task s
  exact ⟨ps, f, hjourney, hrun, hjourney.readsLatest hv⟩

/-- The condition of the triage is the third node that is started. It tests the intent that was
found before it, and the message goes on to be answered. -/
theorem triage_reads_latest :
    ∃ ps f, triage.run (.replying " sales.") .idle ⟨.nil, fun _ => 0⟩ .hello () = attemptOf f ∧
      triage.ReadsLatest (.replying " sales.") ⟨.nil, fun _ => 0⟩ .hello () ps f ∧
      triage.TestsAfter (.replying " sales.") ⟨.nil, fun _ => 0⟩ .hello () (ps.take 2)
        ⟨"sorted", "Sorted", .origin, .condition ⟨" intent ", .equals, "Sales"⟩⟩
        ⟨" intent ", .equals, "Sales"⟩ (Context.textOrNull (latest "intent" (ps.take 2))) ∧
      (attemptOf f).events.filterMap Event.takenEdge? = ["ask", "sales", "yes", "done"] := by
  obtain ⟨ps, f, _, hrun, hreads⟩ := run_reads_latest (x := triage) (by decide)
    (show ExecutorState.idle ≠ .running by decide) (.replying " sales.")
      ⟨.nil, fun _ => 0⟩ .hello ()
  -- the condition is the third node started
  have hsorted : ((attemptOf f).events.filterMap Event.startedNode?)[2]? = some "sorted" := by
    rw [← hrun]
    rfl
  have htested := (hreads.tested 2
    ⟨"sorted", "Sorted", .origin, .condition ⟨" intent ", .equals, "Sales"⟩⟩ (by decide)
    ⟨" intent ", .equals, "Sales"⟩ rfl (by decide) hsorted).2
  have hedges : (attemptOf f).events.filterMap Event.takenEdge? =
      ["ask", "sales", "yes", "done"] := by
    rw [← hrun]
    rfl
  exact ⟨ps, f, hrun, hreads, htested, hedges⟩

end Executor

end AgentGraph
