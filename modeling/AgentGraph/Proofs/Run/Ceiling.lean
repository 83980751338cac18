import AgentGraph.Proofs.Run.Calls
import AgentGraph.Proofs.Run.Occasion
import AgentGraph.Run.Channel

/-!
# Raising the ceiling on steps

The ceiling is looked at between two steps and nowhere else, so two runs that differ in nothing but
their ceilings go the same way until the lower one is reached (`Executor.drive_raised`). If it never
is, they are the same run. If it is, the first run ends there, having started one node and taken one
edge for each step that it was allowed, and the second one goes on from there. As trails only grow,
what the first run shows is the beginning of what the second one shows (`run_raised`).
-/

namespace AgentGraph

/-- Every call is answered, or it is late; no run is dropped. -/
def Environment.Answers {σ : Type} (env : Environment σ) : Prop :=
  ∀ s call, (env.ask s call).1 ≠ none

theorem Environment.answers_commanded {β : Type} (answer : β → Call → Answer × β)
    (schedule : Schedule) : (commanded answer schedule).Answers := by
  intro s call
  simp [commanded]

namespace Executor

variable {σ : Type} {x : Executor} {env : Environment σ}

/-- The same executor with another ceiling on steps. -/
def withCeiling (x : Executor) (maxSteps : UInt64) : Executor :=
  { x with limits := { x.limits with maxSteps } }

/-! ### Where the ceiling does not matter -/

section

variable {w w' : Walk} {s s' : σ} {ps : List Passage}

theorem Step.withCeiling {n : Node} {result : Except StepError Outcome}
    (h : x.Step env w s n result w' s') (maxSteps : UInt64) :
    (x.withCeiling maxSteps).Step env w s n result w' s' := by
  obtain ⟨hstop, hfind, hperform⟩ := h
  exact .mk hstop hfind hperform

theorem Course.withCeiling (h : x.Course env w s ps w' s') (maxSteps : UInt64) :
    (x.withCeiling maxSteps).Course env w s ps w' s' := by
  induction h with
  | nil w s => exact .nil w s
  | cons hstep hagain hk hfollow _ ih =>
      exact .cons (hstep.withCeiling maxSteps) hagain hk hfollow ih

/-- A run ends in the same way under another ceiling, and with steps left over, unless it has none
left. -/
theorem Ends.withCeiling {remaining : Nat} {f : Finish σ} (h : x.Ends env remaining w s f)
    (maxSteps : UInt64) (more : Nat) :
    (x.withCeiling maxSteps).Ends env (remaining + more) w s f ∨
      remaining = 0 ∧ f.status = some (.stepLimit x.limits.maxSteps) ∧
      f.walk = w.exhausted x.limits.maxSteps := by
  cases h with
  | stopped hstop => exact .inl (.stopped hstop)
  -- the only ending that the ceiling decides
  | exhausted => exact .inr ⟨rfl, rfl, rfl⟩
  | @lost remaining _ _ _ hstop hfind =>
      rw [Nat.add_right_comm]
      exact .inl (.lost hstop hfind)
  | dropped hstop hfind hperform =>
      rw [Nat.add_right_comm]
      exact .inl (.dropped hstop hfind hperform)
  | discarded hstep hagain =>
      rw [Nat.add_right_comm]
      exact .inl (.discarded (hstep.withCeiling maxSteps) hagain)
  | failed hstep hagain =>
      rw [Nat.add_right_comm]
      exact .inl (.failed (hstep.withCeiling maxSteps) hagain)
  | completed hstep hagain hk =>
      rw [Nat.add_right_comm]
      exact .inl (.completed (hstep.withCeiling maxSteps) hagain hk)
  | deadEnd hstep hagain hk hfollow =>
      rw [Nat.add_right_comm]
      exact .inl (.deadEnd (hstep.withCeiling maxSteps) hagain hk hfollow)

/-- A run takes nothing back. -/
theorem drive_continues (x : Executor) (env : Environment σ) (remaining : Nat) (w : Walk) (s : σ) :
    (x.drive env remaining w s).walk.trail.Continues w.trail := by
  obtain ⟨ps, rest, w', s', hcourse, -, hends⟩ :=
    drive_eq_iff.mp (Eq.refl (x.drive env remaining w s))
  obtain ⟨ms, hwrites, -⟩ := hends.ending
  exact hcourse.writes.1.continues.trans hwrites.continues

/-- What a higher ceiling does to the end `f` of a run: nothing, or the run was cut off and goes on
to `f'`. -/
inductive Raised (x : Executor) (env : Environment σ) (remaining : Nat) (w : Walk) (s : σ)
    (f f' : Finish σ) : Prop where
  | same : f' = f → Raised x env remaining w s f f'
  | goesOn {ps : List Passage} {w' : Walk} {s' : σ} : x.Course env w s ps w' s' →
      ps.length = remaining → f.status = some (.stepLimit x.limits.maxSteps) →
      f.walk = w'.exhausted x.limits.maxSteps → f'.walk.trail.Continues w'.trail →
      Raised x env remaining w s f f'

/-- **A higher ceiling changes a run only where the lower one has cut it off.** -/
theorem drive_raised (x : Executor) (env : Environment σ) (maxSteps : UInt64) (remaining more : Nat)
    (w : Walk) (s : σ) :
    x.Raised env remaining w s (x.drive env remaining w s)
      ((x.withCeiling maxSteps).drive env (remaining + more) w s) := by
  obtain ⟨ps, rest, w', s', hcourse, hlength, hends⟩ :=
    drive_eq_iff.mp (Eq.refl (x.drive env remaining w s))
  -- both runs make the same passages; the second has `more` steps left after them
  have hgo : (x.withCeiling maxSteps).drive env (remaining + more) w s =
      (x.withCeiling maxSteps).drive env (rest + more) w' s' := by
    rw [hlength, Nat.add_assoc, (hcourse.withCeiling maxSteps).drive_eq]
  rcases hends.withCeiling maxSteps more with hends' | ⟨rfl, hstatus, hwalk⟩
  -- the ending does not depend on the ceiling
  · apply Raised.same
    rw [hgo, hends'.drive_eq]
  -- the first run met its ceiling, and the second goes on from there
  · refine .goesOn hcourse hlength.symm hstatus hwalk ?_
    rw [hgo]
    exact drive_continues ..

end

/-! ### Runs -/

variable {state : ExecutorState} {occasion occasion' : Occasion} {task : Task} {s : σ}

/-- Every executor does what it does itself. -/
theorem Imitates.refl (x : Executor) : x.Imitates x Eq fun _ => True where
  limits := rfl
  model := rfl
  missing := fun _ hfind => hfind
  node := by
    intro id n _ hfind
    refine ⟨n, hfind, rfl, rfl, rfl, ?_⟩
    rintro ctx _ rfl
    rfl
  follow := fun _ _ => rfl
  onward := fun _ _ => trivial
  apply := by
    rintro ctx _ patch rfl
    rfl

/-- On another occasion the same run is told for that one. -/
theorem run_eq_attempt (x : Executor) (env : Environment σ) (state : ExecutorState)
    (occasion occasion' : Occasion) (task : Task) (s : σ) :
    x.run env state occasion' task s =
      occasion'.attempt x.workflow.name (x.run env state occasion task s) := by
  cases hadmission : x.admission state with
  | error e => exact run_refused hadmission
  | ok start =>
      obtain ⟨hv, hs, hstart⟩ := admission_eq_ok_iff.mp hadmission
      have houtput : ∀ ctx ctx' : Context, ctx = ctx' → ctx'.input = ctx.input ∧
          ctx'.lastOutput = ctx.lastOutput := by
        rintro ctx _ rfl
        exact ⟨rfl, rfl⟩
      exact run_imitated (Imitates.refl x) hv hv rfl hstart hstart rfl trivial rfl rfl houtput hs

/-- The end of the run that sets out from the node. -/
def finishFrom (x : Executor) (env : Environment σ) (occasion : Occasion) (task : Task) (s : σ)
    (start : Node) : Finish σ :=
  x.drive env x.limits.maxSteps.toNat (x.setOut occasion task start) s

theorem journey_finishFrom {start : Node} (hstart : x.workflow.startNode? = some start)
    (env : Environment σ) (occasion : Occasion) (task : Task) (s : σ) :
    ∃ ps, x.Journey env occasion task s ps (x.finishFrom env occasion task s start) := by
  obtain ⟨ps, rest, w', s', hcourse, hlength, hends⟩ :=
    drive_eq_iff.mp (Eq.refl (x.finishFrom env occasion task s start))
  exact ⟨ps, .mk hstart hcourse hlength hends⟩

theorem raised_finishFrom {m m' : UInt64} (hle : m ≤ m') (x : Executor) (env : Environment σ)
    (occasion : Occasion) (task : Task) (s : σ) (start : Node) :
    (x.withCeiling m).Raised env m.toNat (x.setOut occasion task start) s
      ((x.withCeiling m).finishFrom env occasion task s start)
      ((x.withCeiling m').finishFrom env occasion task s start) := by
  have hraised :=
    (x.withCeiling m).drive_raised env m' m.toNat (m'.toNat - m.toNat)
      (x.setOut occasion task start) s
  rw [Nat.add_sub_of_le (UInt64.le_iff_toNat_le.mp hle)] at hraised
  exact hraised

/-- When every call is answered the run has a status. -/
theorem Journey.exists_status_of_answers {ps : List Passage} {f : Finish σ}
    (h : x.Journey env occasion task s ps f) (hanswers : env.Answers) :
    ∃ status, f.status = some status := by
  cases hstatus : f.status with
  | some status => exact ⟨status, rfl⟩
  | none =>
      obtain ⟨s', call, hdropped⟩ := h.exists_dropped hstatus
      exact absurd hdropped (hanswers s' call)

/-- The first run had the ceiling `maxSteps`, and the second one, on another occasion, a higher
one. -/
structure Extends (name : String) (maxSteps : UInt64) (occasion' : Occasion) (a a' : Attempt σ)
    (r r' : Report) : Prop where
  visited : r.visitedNodes <+: r'.visitedNodes
  traversed : r.traversedEdges <+: r'.traversedEdges
  calls : a.calls <+: a'.calls
  /-- The ceiling has not ended the first run, and the second one differs in its identifier and its
  times alone. -/
  same : (∀ n, r.status ≠ .stepLimit n) → r' = occasion'.report name r ∧
    a' = occasion'.attempt name a
  /-- The second run has come further, and the first one was ended by its ceiling, just there. -/
  limited : maxSteps.toNat < r'.visitedNodes.length → r.status = .stepLimit maxSteps ∧
    r.visitedNodes.length = maxSteps.toNat ∧ r.traversedEdges.length = maxSteps.toNat

/-- A run that has not come further than the ceiling, and the same run on another occasion. -/
theorem Extends.of_attempt {name : String} {maxSteps : UInt64} {a : Attempt σ} {r : Report}
    (hle : r.visitedNodes.length ≤ maxSteps.toNat) :
    Extends name maxSteps occasion' a (occasion'.attempt name a) r (occasion'.report name r) where
  visited := List.prefix_rfl
  traversed := List.prefix_rfl
  calls := List.prefix_rfl
  same := fun _ => ⟨rfl, rfl⟩
  limited := fun hlt => absurd hlt (Nat.not_lt.mpr hle)

/-- A run that was cut off after a course, and one that has gone on from there. -/
theorem Course.extends {start : Node} {ps : List Passage} {w' : Walk} {s' : σ}
    (h : x.Course env (x.setOut occasion task start) s ps w' s') {maxSteps : UInt64}
    (hlength : ps.length = maxSteps.toNat) {f f' : Finish σ}
    (hwalk : f.walk = w'.exhausted maxSteps) (hcontinues : f'.walk.trail.Continues w'.trail)
    (name : String) (status' : RunStatus) :
    Extends name maxSteps occasion' (attemptOf f) (occasion'.attempt name (attemptOf f'))
      (f.walk.report (.stepLimit maxSteps)) (occasion'.report name (f'.walk.report status')) := by
  -- meeting the ceiling writes a line and nothing else
  have htrail : f.walk.trail.visited = w'.trail.visited ∧
      f.walk.trail.traversed = w'.trail.traversed ∧ f.walk.trail.calls = w'.trail.calls := by
    rw [hwalk]
    exact ⟨rfl, rfl, rfl⟩
  obtain ⟨hvisited, htraversed, hcalls⟩ := htrail
  obtain ⟨hnodes, hedges⟩ := h.route
  constructor
  case visited =>
    show f.walk.trail.visited.toList <+: f'.walk.trail.visited.toList
    rw [hvisited]
    exact hcontinues.visited
  case traversed =>
    show f.walk.trail.traversed.toList <+: f'.walk.trail.traversed.toList
    rw [htraversed]
    exact hcontinues.traversed
  case calls =>
    show f.walk.trail.calls.toList <+: f'.walk.trail.calls.toList
    rw [hcalls]
    exact hcontinues.calls
  case same =>
    intro hother
    exact absurd rfl (hother maxSteps)
  case limited =>
    -- a node is started and an edge taken for each step
    intro _
    refine ⟨rfl, ?_, ?_⟩
    · show f.walk.trail.visited.toList.length = _
      rw [hvisited, show w'.trail.visited.toList = _ from hnodes, ← hlength]
      simp [setOut]
    · show f.walk.trail.traversed.toList.length = _
      rw [htraversed, show w'.trail.traversed.toList = _ from hedges, ← hlength]
      simp [setOut]

/-- What the two runs show. -/
theorem Raised.extends {start : Node} {f f' : Finish σ}
    (h : x.Raised env x.limits.maxSteps.toNat (x.setOut occasion task start) s f f')
    (hv : x.workflow.Valid) {ps : List Passage} (hjourney : x.Journey env occasion task s ps f)
    {status status' : RunStatus} (hstatus : f.status = some status)
    (hstatus' : f'.status = some status') (name : String) :
    Extends name x.limits.maxSteps occasion' (attemptOf f) (occasion'.attempt name (attemptOf f'))
      (f.walk.report status) (occasion'.report name (f'.walk.report status')) := by
  cases h with
  | same heq =>
      subst heq
      obtain rfl : status' = status := Option.some.inj (hstatus'.symm.trans hstatus)
      exact .of_attempt (hjourney.length_visited_le hv)
  | goesOn hcourse hlength hlimit hwalk hcontinues =>
      -- the first run reports the ceiling it met
      obtain rfl : RunStatus.stepLimit x.limits.maxSteps = status :=
        Option.some.inj (hlimit.symm.trans hstatus)
      exact hcourse.extends hlength hwalk hcontinues name status'

/-- **Raising the ceiling only extends a run.** -/
theorem run_raised {m m' : UInt64} (hle : m ≤ m') (hv : x.workflow.Valid) (hs : state ≠ .running)
    (hanswers : env.Answers) (occasion occasion' : Occasion) (task : Task) (s : σ) :
    ∃ r r', ((x.withCeiling m).run env state occasion task s).result = .ok (some r) ∧
      ((x.withCeiling m').run env state occasion' task s).result = .ok (some r') ∧
      Extends x.workflow.name m occasion' ((x.withCeiling m).run env state occasion task s)
        ((x.withCeiling m').run env state occasion' task s) r r' := by
  obtain ⟨start, hstart⟩ := hv.exists_startNode?
  have hraised := raised_finishFrom hle x env occasion task s start
  -- the ceiling plays no part in admission
  have hrun : ∀ maxSteps, (x.withCeiling maxSteps).run env state occasion task s =
      attemptOf ((x.withCeiling maxSteps).finishFrom env occasion task s start) := fun maxSteps =>
    run_of_admission (x := x.withCeiling maxSteps) (admission_eq_ok_iff.mpr ⟨hv, hs, hstart⟩) env
      occasion task s
  -- the second run is compared on the occasion of the first one, and then told for its own
  have hretold : (x.withCeiling m').run env state occasion' task s =
      occasion'.attempt x.workflow.name ((x.withCeiling m').run env state occasion task s) :=
    (x.withCeiling m').run_eq_attempt env state occasion occasion' task s
  obtain ⟨ps, hjourney⟩ := journey_finishFrom (x := x.withCeiling m) hstart env occasion task s
  obtain ⟨ps', hjourney'⟩ := journey_finishFrom (x := x.withCeiling m') hstart env occasion task s
  obtain ⟨status, hstatus⟩ := hjourney.exists_status_of_answers hanswers
  obtain ⟨status', hstatus'⟩ := hjourney'.exists_status_of_answers hanswers
  rw [hretold, hrun m, hrun m']
  refine ⟨_, _, ?_, ?_, hraised.extends hv hjourney hstatus hstatus' x.workflow.name⟩
  · rw [attemptOf, hstatus, Option.map_some]
  · rw [Occasion.attempt, attemptOf, hstatus', Option.map_some]
    rfl

/-- Three steps lead through the help desk. With the ceiling at one the run is ended before the
second of them, and with the ceiling at three it comes to its end. -/
theorem helpdesk_raised :
    let desk := Environment.commanded
      (fun _ _ => (.reply (.ok (.ofContents [some "Support"])), ())) fun _ => []
    ∃ r r', (((helpdesk "Support").withCeiling 1).run desk .idle ⟨.nil, fun _ => 0⟩ .hello
        (.fresh ())).result = .ok (some r) ∧
      (((helpdesk "Support").withCeiling 3).run desk .idle ⟨⟨7⟩, fun _ => 1⟩ .hello
        (.fresh ())).result = .ok (some r') ∧
      r.status = .stepLimit 1 ∧ r.visitedNodes.length = 1 ∧ r'.status = .completed ∧
      Extends "Help desk" 1 ⟨⟨7⟩, fun _ => 1⟩
        (((helpdesk "Support").withCeiling 1).run desk .idle ⟨.nil, fun _ => 0⟩ .hello (.fresh ()))
        (((helpdesk "Support").withCeiling 3).run desk .idle ⟨⟨7⟩, fun _ => 1⟩ .hello (.fresh ()))
        r r' := by
  intro desk
  have hanswers : desk.Answers := Environment.answers_commanded _ _
  obtain ⟨r, r', hr, hr', h⟩ :=
    run_raised (x := helpdesk "Support") (show (1 : UInt64) ≤ 3 by decide) (by decide)
      (show ExecutorState.idle ≠ .running by decide) hanswers ⟨.nil, fun _ => 0⟩
      ⟨⟨7⟩, fun _ => 1⟩ .hello (.fresh ())
  -- the second run reaches the end node
  obtain ⟨hvisited, hcompleted⟩ : r'.visitedNodes = ["in", "desk", "out"] ∧
      r'.status = .completed := by
    have heq := hr'
    cases heq
    exact ⟨rfl, rfl⟩
  obtain ⟨hstatus, hlength, -⟩ := h.limited (by rw [hvisited]; decide)
  exact ⟨r, r', hr, hr', hstatus, hlength, hcompleted, h⟩

end Executor

end AgentGraph
