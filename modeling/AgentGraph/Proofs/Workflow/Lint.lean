import AgentGraph.Proofs.Workflow.Follow
import AgentGraph.Workflow.Lint
import AgentGraph.Workflow.Validation

/-!
# What the warnings say

The linter goes through the nodes in order. Two of its warnings concern the way on from a node:
`deadEnd`, when no edge leaves the node, and `missingBranch`, when no edge carries one of its
branches. The first part of this module says exactly when each is given; the second compares them
with the edges that a run follows.

The linter compares labels as they are written, a run compares them without the blanks around them.
So a run that gets stuck was warned of (`foresees_of_follow?_eq_none`), but not every warning means
that a run gets stuck: `missingBranch_exact_iff` says for which labels the two agree. A workflow
without such warnings, whose classifiers all have an intent to choose, is `Clear`.
-/

namespace AgentGraph

/-- What the step at a node may choose: one of its branches, without the blanks around it, when it
is a branching node, and nothing when it is not. -/
def Node.MayChoose (n : Node) : Option String → Prop
  | none => n.kind ≠ .condition ∧ n.kind ≠ .classifier
  | some branch => ∃ label ∈ Workflow.branchLabels n.data, branch = Text.trim label

theorem Node.MayChoose.isSome_iff {n : Node} {choice : Option String} (h : n.MayChoose choice) :
    choice.isSome ↔ n.kind = .condition ∨ n.kind = .classifier := by
  cases choice with
  | none => simpa [MayChoose] using h
  | some branch =>
      obtain ⟨label, hlabel, _⟩ := h
      cases hd : n.data <;> simp_all [Workflow.branchLabels, Node.kind, NodeData.kind]

namespace Workflow

variable {w : Workflow} {n : Node} {branch : String}

/-- The linter gives the warning when it comes to the node. -/
def WarnsAt (w : Workflow) (n : Node) (warning : LintWarning) : Prop :=
  n ∈ w.nodes ∧ warning ∈ w.lintNode w.reachable? n

theorem mem_lint {warning : LintWarning} : warning ∈ w.lint ↔ ∃ n, w.WarnsAt n warning := by
  rw [lint, List.mem_flatMap]
  rfl

/-! ### When a warning is given -/

theorem deadEnd_mem_lintNode {reachable : Option (List String)} {label : String} :
    .deadEnd label ∈ w.lintNode reachable n ↔
      n.label = label ∧ n.kind ≠ .finish ∧ w.outgoing n.id = [] := by
  rw [@and_comm (n.label = label)]
  cases hd : n.data <;> simp [lintNode, hd, Node.kind, NodeData.kind, @eq_comm _ label]

theorem missingBranch_mem_lintNode {reachable : Option (List String)} {label : String} :
    .missingBranch label branch ∈ w.lintNode reachable n ↔
      n.label = label ∧ branch ∈ branchLabels n.data ∧
      ∀ e ∈ w.outgoing n.id, e.label ≠ some branch := by
  rw [@and_comm (n.label = label)]
  cases hd : n.data <;> simp [lintNode, hd, branchLabels]

theorem edgeFromEnd_mem_lintNode {reachable : Option (List String)} {label : String} :
    .edgeFromEnd label ∈ w.lintNode reachable n ↔
      n.label = label ∧ n.kind = .finish ∧ w.outgoing n.id ≠ [] := by
  rw [@and_comm (n.label = label)]
  cases hd : n.data <;> simp [lintNode, hd, Node.kind, NodeData.kind, @eq_comm _ label]

theorem edgeIntoStart_mem_lintNode {reachable : Option (List String)} {label : String} :
    .edgeIntoStart label ∈ w.lintNode reachable n ↔
      n.label = label ∧ n.kind = .start ∧ w.incoming n.id ≠ [] := by
  rw [@and_comm (n.label = label)]
  cases hd : n.data <;> simp [lintNode, hd, Node.kind, NodeData.kind, @eq_comm _ label]

theorem unreachable_mem_lintNode {reachable : Option (List String)} {label : String} :
    .unreachable label ∈ w.lintNode reachable n ↔
      n.label = label ∧ ∃ ids, reachable = some ids ∧ n.id ∉ ids := by
  rw [@and_comm (n.label = label)]
  cases reachable <;> cases hd : n.data <;> simp [lintNode, hd, @eq_comm _ label]

theorem warnsAt_deadEnd_iff (hn : n ∈ w.nodes) :
    w.WarnsAt n (.deadEnd n.label) ↔ n.kind ≠ .finish ∧ w.outgoing n.id = [] := by
  rw [WarnsAt, and_iff_right hn, deadEnd_mem_lintNode, and_iff_right rfl]

theorem warnsAt_missingBranch_iff (hn : n ∈ w.nodes) (hb : branch ∈ branchLabels n.data) :
    w.WarnsAt n (.missingBranch n.label branch) ↔
      ∀ e ∈ w.outgoing n.id, e.label ≠ some branch := by
  rw [WarnsAt, and_iff_right hn, missingBranch_mem_lintNode, and_iff_right rfl, and_iff_right hb]

/-! ### Warnings and the edges followed -/

/-- Where no edge carries a branch even up to blanks, the linter warns. -/
theorem warnsAt_missingBranch_of_follow?_eq_none (hn : n ∈ w.nodes)
    (hb : branch ∈ branchLabels n.data) (h : w.follow? n.id (some branch) = none) :
    w.WarnsAt n (.missingBranch n.label branch) := by
  rw [warnsAt_missingBranch_iff hn hb]
  intro e he hlabel
  exact follow?_some_eq_none_iff.mp h e he (Edge.carries_of_label_eq hlabel)

/-- The linter warns of the node that a run which makes this choice there gets stuck: no edge leaves
the node, or no edge is labelled with the branch chosen. -/
def Foresees (w : Workflow) (n : Node) (choice : Option String) : Prop :=
  ∃ warning ∈ w.lint, w.WarnsAt n warning ∧
    (warning = .deadEnd n.label ∨
      ∃ label, warning = .missingBranch n.label label ∧
        choice.map Text.trim = some (Text.trim label))

/-- **Every place to get stuck is foreseen**: when a node makes one of its choices and no edge leads
on, the linter has said so. -/
theorem foresees_of_follow?_eq_none {choice : Option String} (hn : n ∈ w.nodes)
    (hk : n.kind ≠ .finish) (hc : n.MayChoose choice) (h : w.follow? n.id choice = none) :
    w.Foresees n choice := by
  cases choice with
  -- nothing was chosen, so the node has no edge at all
  | none =>
      have hwarn : w.WarnsAt n (.deadEnd n.label) := by
        rw [warnsAt_deadEnd_iff hn]
        exact ⟨hk, follow?_none_eq_none_iff.mp h⟩
      exact ⟨_, mem_lint.mpr ⟨n, hwarn⟩, hwarn, .inl rfl⟩
  -- the warning names the label as written, and a run chooses it trimmed
  | some branch =>
      obtain ⟨label, hlabel, rfl⟩ := hc
      have hwarn : w.WarnsAt n (.missingBranch n.label label) := by
        rw [follow?_trim] at h
        exact warnsAt_missingBranch_of_follow?_eq_none hn hlabel h
      refine ⟨_, mem_lint.mpr ⟨n, hwarn⟩, hwarn, .inr ⟨label, rfl, ?_⟩⟩
      rw [Option.map_some, Text.trim_trim]

/-- **When a warning about a branch is false.** Silence is always right: where a run would find no
edge for the branch, the linter warns. The warning is wrong exactly at a branch that some edge
carries up to blanks while no edge is labelled with it as it is written. -/
theorem missingBranch_exact_iff (hn : n ∈ w.nodes) (hb : branch ∈ branchLabels n.data) :
    (w.follow? n.id (some branch) = none → w.WarnsAt n (.missingBranch n.label branch)) ∧
    (¬ (w.WarnsAt n (.missingBranch n.label branch) ↔ w.follow? n.id (some branch) = none) ↔
      (∃ e ∈ w.outgoing n.id, e.Carries branch) ∧
        ∀ e ∈ w.outgoing n.id, e.label ≠ some branch) := by
  have hwarned := warnsAt_missingBranch_of_follow?_eq_none hn hb
  refine ⟨hwarned, ?_⟩
  -- with this the right side says that an edge is followed and that there is a warning
  have hfollowed : w.follow? n.id (some branch) ≠ none ↔
      ∃ e ∈ w.outgoing n.id, e.Carries branch := by
    rw [Ne, follow?_some_eq_none_iff]
    push Not
    rfl
  rw [← warnsAt_missingBranch_iff hn hb, ← hfollowed]
  constructor
  -- they can differ in one way only: an edge is followed and there is a warning
  · intro hdiffer
    by_cases hfollow : w.follow? n.id (some branch) = none
    · exact absurd ⟨fun _ => hfollow, hwarned⟩ hdiffer
    · refine ⟨hfollow, ?_⟩
      by_contra hsilent
      exact hdiffer ⟨fun h => absurd h hsilent, hwarned⟩
  · rintro ⟨hfollow, hwarn⟩ hagree
    exact hfollow (hagree.mp hwarn)

/-- The classifier of a help desk. -/
def desk (second : String) : Node :=
  ⟨"desk", "Desk", .origin, .classifier ⟨["Sales", second], "Route the message.", none⟩⟩

/-- A help desk: messages for sales and messages for a second department go to one end. The edge for
the second department is labelled `Support`, however the classifier spells the intent. -/
def helpdesk (second : String) : Workflow where
  id := .nil
  name := "Help desk"
  nodes := [⟨"in", "", .origin, .start⟩, desk second, ⟨"out", "", .origin, .finish⟩]
  edges := [⟨"ask", "in", "desk", none⟩, ⟨"sales", "desk", "out", some "Sales"⟩,
    ⟨"support", "desk", "out", some "Support"⟩]

/-- A blank behind the intent is enough for a false warning. -/
theorem helpdesk_warns_of_followed_edge :
    (helpdesk "Support ").Valid ∧
      ¬ ((helpdesk "Support ").WarnsAt (desk "Support ") (.missingBranch "Desk" "Support ") ↔
        (helpdesk "Support ").follow? "desk" (some "Support ") = none) :=
  ⟨by decide, (missingBranch_exact_iff (w := helpdesk "Support ") (n := desk "Support ")
    (by decide) (by decide)).2.mpr (by decide)⟩

/-! ### Clear workflows -/

/-- The linter finds no place to get stuck, and every classifier has an intent to choose. -/
structure Clear (w : Workflow) : Prop where
  no_deadEnd : ∀ label, .deadEnd label ∉ w.lint
  no_missingBranch : ∀ label branch, .missingBranch label branch ∉ w.lint
  has_intent : ∀ n ∈ w.nodes, ∀ p, n.data = .classifier p → p.intents ≠ []

theorem Clear.not_foresees (h : w.Clear) (n : Node) (choice : Option String) :
    ¬ w.Foresees n choice := by
  rintro ⟨warning, hlint, _, rfl | ⟨label, rfl, _⟩⟩
  · exact h.no_deadEnd _ hlint
  · exact h.no_missingBranch _ _ hlint

/-- A workflow is clear when every node but the end nodes has an edge, and every branch its own. -/
theorem clear_iff : w.Clear ↔ ∀ n ∈ w.nodes,
    (n.kind ≠ .finish → w.outgoing n.id ≠ []) ∧ (n.kind = .classifier → branchLabels n.data ≠ []) ∧
      ∀ branch ∈ branchLabels n.data, ∃ e ∈ w.outgoing n.id, e.label = some branch := by
  -- only a classifier has branches that may be missing altogether
  have hintent : ∀ n : Node, (∀ p, n.data = .classifier p → p.intents ≠ []) ↔
      (n.kind = .classifier → branchLabels n.data ≠ []) := by
    intro n
    cases hd : n.data <;> simp [Node.kind, NodeData.kind, branchLabels, hd]
  constructor
  · rintro ⟨hdead, hmissing, hclassifier⟩ n hn
    refine ⟨fun hk hnone => ?_, (hintent n).mp (hclassifier n hn), fun branch hb => ?_⟩
    · apply hdead n.label
      exact mem_lint.mpr ⟨n, (warnsAt_deadEnd_iff hn).mpr ⟨hk, hnone⟩⟩
    · by_contra hnone
      push Not at hnone
      apply hmissing n.label branch
      exact mem_lint.mpr ⟨n, (warnsAt_missingBranch_iff hn hb).mpr hnone⟩
  · intro h
    refine ⟨fun label hwarn => ?_, fun label branch hwarn => ?_, fun n hn => ?_⟩
    · obtain ⟨n, hn, hwarn⟩ := mem_lint.mp hwarn
      obtain ⟨_, hk, hnone⟩ := deadEnd_mem_lintNode.mp hwarn
      exact (h n hn).1 hk hnone
    · obtain ⟨n, hn, hwarn⟩ := mem_lint.mp hwarn
      obtain ⟨_, hb, hnone⟩ := missingBranch_mem_lintNode.mp hwarn
      obtain ⟨e, he, hlabel⟩ := (h n hn).2.2 branch hb
      exact hnone e he hlabel
    · exact (hintent n).mpr (h n hn).2.1

instance : Decidable w.Clear := decidable_of_iff _ clear_iff.symm

end Workflow

end AgentGraph
