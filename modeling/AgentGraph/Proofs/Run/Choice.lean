import AgentGraph.Proofs.Run.Action
import AgentGraph.Proofs.Text.Intent
import AgentGraph.Proofs.Workflow.Lint

/-!
# What a step may choose

The branch that a step chooses comes from the node alone: a condition chooses one of its two
branches, and a classifier one of its intents, whatever the model replies. Every other node chooses
nothing. With this the labels that the linter looks for are all the labels that a run can ask for.
-/

namespace AgentGraph

/-! ### Classifiers -/

/-- A classifier chooses one of its intents, be it by the fallback. -/
theorem ClassifierParams.choose_mem {p : ClassifierParams} {fallback : String}
    (hfallback : fallback ∈ p.intents) (reply : String) :
    ∃ i ∈ p.intents, (p.choose fallback reply).1 = Text.trim i := by
  rw [choose]
  split
  next intent h => exact matchIntent?_mem h
  next => exact ⟨fallback, hfallback, rfl⟩

/-! ### Nodes -/

theorem trim_trueLabel : Text.trim trueLabel = trueLabel := by decide

theorem trim_falseLabel : Text.trim falseLabel = falseLabel := by decide

namespace Node

variable {n : Node}

theorem mayChoose_decided {p : ConditionParams} (hd : n.data = .condition p) (holds : Bool) :
    n.MayChoose (Outcome.decided holds).branch := by
  cases holds with
  | true =>
      refine ⟨trueLabel, ?_, trim_trueLabel.symm⟩
      rw [hd]
      exact List.mem_cons_self
  | false =>
      refine ⟨falseLabel, ?_, trim_falseLabel.symm⟩
      rw [hd]
      exact List.mem_cons_of_mem _ List.mem_cons_self

/-- What a step comes to makes one of the choices of its node. -/
theorem Achieves.mayChoose {model : String} {ctx : Context} {o : Outcome}
    (h : n.Achieves model ctx o) : n.MayChoose o.branch := by
  cases h with
  | start hd | finish hd => simp [MayChoose, Outcome.passing, kind, hd, NodeData.kind]
  | condition hd => exact mayChoose_decided hd _
  | generated _ hk => rcases hk with hk | hk <;> simp [MayChoose, Outcome.generated, hk]
  | @classified p _ text hd hi =>
      obtain ⟨i, hmem, hchoice⟩ := p.choose_mem (List.mem_of_head? hi) text
      refine ⟨i, ?_, hchoice⟩
      rw [hd]
      exact hmem

end Node

end AgentGraph
