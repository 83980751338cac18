import AgentGraph.Proofs.Run.Choice
import AgentGraph.Proofs.Run.Route
import AgentGraph.Proofs.Workflow.Path

/-!
# The course of a run

`Executor.drive` decides at every turn of its recursion between nine ways to go on. This module says
once what they are, as rules. `Step` is the step at a node that has a result. `Course` is a list of
passages, each of them a step that led on. `Ends` lists the eight ways to end. `drive_eq_iff` says
that a run is a course followed by an end, and nothing else:

    x.drive env remaining w s = f ↔ a course from (w, s), then an end with f.

What holds of runs is proved by induction on the course, one rule, and by cases on the end, never by
unfolding `drive`. The first instance is `Course.path`: the passages of a course form a path through
the workflow.
-/

namespace AgentGraph

namespace Executor

variable {σ : Type}

/-! ### The rules -/

/-- The step at the next node has a result: no stop is seen before it, the node exists, and the run
is not dropped. -/
inductive Step (x : Executor) (env : Environment σ) (w : Walk) (s : σ) (n : Node)
    (result : Except StepError Outcome) (w' : Walk) (s' : σ) : Prop where
  | mk {s₁ : σ} : env.stop s = (false, s₁) → x.workflow.findNode? w.current = some n →
      x.perform env (w.enter n) n s₁ = (some result, w', s') → Step x env w s n result w' s'

/-- The passages of a run, from one moment between two steps to another. -/
inductive Course (x : Executor) (env : Environment σ) :
    Walk → σ → List Passage → Walk → σ → Prop where
  | nil (w : Walk) (s : σ) : Course x env w s [] w s
  | cons {w w₁ w' : Walk} {s s₁ s₂ s' : σ} {n : Node} {o : Outcome} {e : Edge} {ps : List Passage} :
      x.Step env w s n (.ok o) w₁ s₁ → env.stop s₁ = (false, s₂) → n.kind ≠ .finish →
      x.workflow.follow? n.id o.branch = some e →
      Course x env ((w₁.accept n o).follow e) s₂ ps w' s' →
      Course x env w s (⟨n, o, e⟩ :: ps) w' s'

/-- The ways a run ends that may take `remaining` more steps. -/
inductive Ends (x : Executor) (env : Environment σ) :
    (remaining : Nat) → Walk → σ → Finish σ → Prop where
  | stopped {remaining : Nat} {w : Walk} {s s₁ : σ} :
      env.stop s = (true, s₁) → Ends x env remaining w s ⟨some .stopped, w.stopped, s₁⟩
  | exhausted {w : Walk} {s s₁ : σ} : env.stop s = (false, s₁) →
      Ends x env 0 w s ⟨some (.stepLimit x.limits.maxSteps), w.exhausted x.limits.maxSteps, s₁⟩
  | lost {remaining : Nat} {w : Walk} {s s₁ : σ} :
      env.stop s = (false, s₁) → x.workflow.findNode? w.current = none →
      Ends x env (remaining + 1) w s ⟨some (.failed w.current "node not found"), w.lost, s₁⟩
  | dropped {remaining : Nat} {w w' : Walk} {s s₁ s' : σ} {n : Node} :
      env.stop s = (false, s₁) → x.workflow.findNode? w.current = some n →
      x.perform env (w.enter n) n s₁ = (none, w', s') →
      Ends x env (remaining + 1) w s ⟨none, w', s'⟩
  | discarded {remaining : Nat} {w w' : Walk} {s s' s₂ : σ} {n : Node}
      {result : Except StepError Outcome} :
      x.Step env w s n result w' s' → env.stop s' = (true, s₂) →
      Ends x env (remaining + 1) w s ⟨some .stopped, w'.discarded n, s₂⟩
  | failed {remaining : Nat} {w w' : Walk} {s s' s₂ : σ} {n : Node} {error : StepError} :
      x.Step env w s n (.error error) w' s' → env.stop s' = (false, s₂) →
      Ends x env (remaining + 1) w s
        ⟨some (.failed n.id error.message), w'.failed n error.message, s₂⟩
  | completed {remaining : Nat} {w w' : Walk} {s s' s₂ : σ} {n : Node} {o : Outcome} :
      x.Step env w s n (.ok o) w' s' → env.stop s' = (false, s₂) → n.kind = .finish →
      Ends x env (remaining + 1) w s ⟨some .completed, (w'.accept n o).completed n, s₂⟩
  | deadEnd {remaining : Nat} {w w' : Walk} {s s' s₂ : σ} {n : Node} {o : Outcome} :
      x.Step env w s n (.ok o) w' s' → env.stop s' = (false, s₂) → n.kind ≠ .finish →
      x.workflow.follow? n.id o.branch = none →
      Ends x env (remaining + 1) w s
        ⟨some (.deadEnd n.id), (w'.accept n o).deadEnd n o.branch, s₂⟩

variable {x : Executor} {env : Environment σ}

/-! ### The rules say what a run does -/

theorem Ends.drive_eq {remaining : Nat} {w : Walk} {s : σ} {f : Finish σ}
    (h : x.Ends env remaining w s f) : x.drive env remaining w s = f := by
  cases h with
  -- a stop is looked for before the steps that remain, so their number is not known here
  | stopped hstop => rw [drive.eq_def]; simp [hstop]
  | exhausted hstop => rw [drive]; simp [hstop]
  | lost hstop hfind => rw [drive]; simp [hstop, hfind]
  | dropped hstop hfind hperform => rw [drive]; simp [hstop, hfind, hperform]
  -- after a step the second look decides whether its result counts
  | discarded hstep hagain =>
      obtain ⟨hstop, hfind, hperform⟩ := hstep
      rw [drive]
      simp [hstop, hfind, hperform, hagain]
  | failed hstep hagain =>
      obtain ⟨hstop, hfind, hperform⟩ := hstep
      rw [drive]
      simp [hstop, hfind, hperform, hagain, conclude]
  | completed hstep hagain hk =>
      obtain ⟨hstop, hfind, hperform⟩ := hstep
      rw [drive]
      simp [hstop, hfind, hperform, hagain, conclude, leave, hk]
  | deadEnd hstep hagain hk hfollow =>
      obtain ⟨hstop, hfind, hperform⟩ := hstep
      rw [drive]
      simp [hstop, hfind, hperform, hagain, conclude, leave, hk, hfollow]

theorem Step.drive_eq {remaining : Nat} {w w₁ : Walk} {s s₁ s₂ : σ} {n : Node} {o : Outcome}
    {e : Edge} (hstep : x.Step env w s n (.ok o) w₁ s₁) (hagain : env.stop s₁ = (false, s₂))
    (hk : n.kind ≠ .finish) (hfollow : x.workflow.follow? n.id o.branch = some e) :
    x.drive env (remaining + 1) w s = x.drive env remaining ((w₁.accept n o).follow e) s₂ := by
  obtain ⟨hstop, hfind, hperform⟩ := hstep
  rw [drive]
  simp [hstop, hfind, hperform, hagain, conclude, leave, hk, hfollow]

theorem Course.drive_eq {w w' : Walk} {s s' : σ} {ps : List Passage}
    (h : x.Course env w s ps w' s') (rest : Nat) :
    x.drive env (ps.length + rest) w s = x.drive env rest w' s' := by
  induction h with
  | nil => rw [List.length_nil, Nat.zero_add]
  | cons hstep hagain hk hfollow _ ih =>
      rw [List.length_cons, Nat.add_right_comm, hstep.drive_eq hagain hk hfollow, ih]

/-! ### There are no other ways to go on -/

/-- A step that has a result is a passage or the end. -/
theorem Step.ends_or_follows {w w₁ : Walk} {s s₁ : σ} {n : Node}
    {result : Except StepError Outcome} (hstep : x.Step env w s n result w₁ s₁) (remaining : Nat) :
    (∃ f, x.Ends env (remaining + 1) w s f) ∨
      ∃ o e s₂, result = .ok o ∧ env.stop s₁ = (false, s₂) ∧ n.kind ≠ .finish ∧
        x.workflow.follow? n.id o.branch = some e := by
  rcases hagain : env.stop s₁ with ⟨_ | _, s₂⟩
  -- no stop at the second look, so the result counts
  · cases result with
    | error error => exact .inl ⟨_, .failed hstep hagain⟩
    | ok o =>
        by_cases hk : n.kind = .finish
        · exact .inl ⟨_, .completed hstep hagain hk⟩
        · cases hfollow : x.workflow.follow? n.id o.branch with
          | none => exact .inl ⟨_, .deadEnd hstep hagain hk hfollow⟩
          | some e => exact .inr ⟨o, e, s₂, rfl, rfl, hk, hfollow⟩
  · exact .inl ⟨_, .discarded hstep hagain⟩

/-- Between two steps a run ends, or it takes another step. -/
theorem ends_or_step (x : Executor) (env : Environment σ) (remaining : Nat) (w : Walk) (s : σ) :
    (∃ f, x.Ends env remaining w s f) ∨
      ∃ rest n result w₁ s₁, remaining = rest + 1 ∧ x.Step env w s n result w₁ s₁ := by
  rcases hstop : env.stop s with ⟨_ | _, s₁⟩
  -- no stop at the first look
  · cases remaining with
    | zero => exact .inl ⟨_, .exhausted hstop⟩
    | succ rest =>
        cases hfind : x.workflow.findNode? w.current with
        | none => exact .inl ⟨_, .lost hstop hfind⟩
        | some n =>
            rcases hperform : x.perform env (w.enter n) n s₁ with ⟨_ | result, w₁, s₂⟩
            · exact .inl ⟨_, .dropped hstop hfind hperform⟩
            · exact .inr ⟨rest, n, result, w₁, s₂, rfl, .mk hstop hfind hperform⟩
  · exact .inl ⟨_, .stopped hstop⟩

/-- From everywhere a course leads to an end. -/
theorem exists_course (x : Executor) (env : Environment σ) (remaining : Nat) (w : Walk) (s : σ) :
    ∃ ps rest w' s' f, x.Course env w s ps w' s' ∧ remaining = ps.length + rest ∧
      x.Ends env rest w' s' f := by
  -- the induction is on the steps that remain: a passage takes one
  induction remaining generalizing w s with
  | zero =>
      rcases x.ends_or_step env 0 w s with ⟨f, hends⟩ | ⟨_, _, _, _, _, hrest, _⟩
      · exact ⟨[], 0, w, s, f, .nil w s, rfl, hends⟩
      · cases hrest
  | succ remaining ih =>
      have here : (∃ f, x.Ends env (remaining + 1) w s f) → ∃ ps rest w' s' f,
          x.Course env w s ps w' s' ∧ remaining + 1 = ps.length + rest ∧ x.Ends env rest w' s' f :=
        fun ⟨f, hends⟩ => ⟨[], _, w, s, f, .nil w s, (Nat.zero_add _).symm, hends⟩
      rcases x.ends_or_step env (remaining + 1) w s with hends | ⟨_, n, result, w₁, s₁, _, hstep⟩
      · exact here hends
      -- a step that leads on is put in front of the course from where it leads
      · rcases hstep.ends_or_follows remaining with hends | ⟨o, e, s₂, rfl, hagain, hk, hfollow⟩
        · exact here hends
        · obtain ⟨ps, rest, w', s', f, hcourse, hlength, hends⟩ :=
            ih ((w₁.accept n o).follow e) s₂
          refine ⟨⟨n, o, e⟩ :: ps, rest, w', s', f, .cons hstep hagain hk hfollow hcourse,
            ?_, hends⟩
          rw [hlength, List.length_cons, Nat.add_right_comm]

/-- **The rules are the run**: what `drive` computes is where a course and an end lead. -/
theorem drive_eq_iff {remaining : Nat} {w : Walk} {s : σ} {f : Finish σ} :
    x.drive env remaining w s = f ↔
      ∃ ps rest w' s', x.Course env w s ps w' s' ∧ remaining = ps.length + rest ∧
        x.Ends env rest w' s' f := by
  constructor
  · rintro rfl
    obtain ⟨ps, rest, w', s', f, hcourse, rfl, hends⟩ := x.exists_course env remaining w s
    refine ⟨ps, rest, w', s', hcourse, rfl, ?_⟩
    rw [hcourse.drive_eq, hends.drive_eq]
    exact hends
  · rintro ⟨ps, rest, w', s', hcourse, rfl, hends⟩
    rw [hcourse.drive_eq, hends.drive_eq]

/-! ### A course is a path -/

namespace Step

variable {w w' : Walk} {s s' : σ} {n : Node} {result : Except StepError Outcome}

theorem node_mem (h : x.Step env w s n result w' s') : n ∈ x.workflow.nodes := by
  obtain ⟨_, hfind, _⟩ := h
  exact Workflow.mem_of_findNode? hfind

theorem node_id (h : x.Step env w s n result w' s') : n.id = w.current := by
  obtain ⟨_, hfind, _⟩ := h
  exact Workflow.id_of_findNode? hfind

theorem route (h : x.Step env w s n result w' s') : w'.route = w.route.visit n.id := by
  obtain ⟨_, _, hperform⟩ := h
  rw [route_of_perform hperform, Walk.route_enter]

theorem mayChoose {o : Outcome} (h : x.Step env w s n (.ok o) w' s') : n.MayChoose o.branch := by
  obtain ⟨_, _, hperform⟩ := h
  exact (achieves_of_perform hperform).mayChoose

end Step

/-- The passages of a course form a path through the workflow. -/
theorem Course.path {w w' : Walk} {s s' : σ} {ps : List Passage}
    (h : x.Course env w s ps w' s') : x.workflow.Path w.current ps w'.current := by
  induction h with
  | nil => exact .nil _
  | @cons _ _ _ _ _ _ _ n o e _ hstep hagain hk hfollow _ ih =>
      have hallowed : Passage.Allowed ⟨n, o, e⟩ x.workflow :=
        ⟨hstep.node_mem, hk, hstep.mayChoose, hfollow⟩
      rw [← hstep.node_id]
      exact .cons hallowed ih

/-- A course starts the nodes of its passages and takes their edges. -/
theorem Course.route {w w' : Walk} {s s' : σ} {ps : List Passage}
    (h : x.Course env w s ps w' s') :
    w'.route.visited = w.route.visited ++ ps.map (·.node.id) ∧
      w'.route.traversed = w.route.traversed ++ ps.map (·.edge.id) := by
  induction h with
  | nil => simp
  | cons hstep hagain hk hfollow _ ih =>
      rw [ih.1, ih.2, Walk.route_follow, Walk.route_accept, hstep.route]
      simp [Route.traverse, Route.visit]

end Executor

end AgentGraph
