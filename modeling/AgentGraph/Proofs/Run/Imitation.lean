import AgentGraph.Proofs.Run.Account

/-!
# Runs side by side

Two runs are followed at once: one on an executor, and one on another executor that imitates it.
They may be for different users, at different times, and on workflows that differ where the runs do
not come. As long as the nodes they come to do the same in the contexts they have, the runs take the
same steps and leave the same marks, although the marks may be written at other times and the texts
of the two logs may begin differently.

`Executor.Imitates` says what has to be the same, `Walk.Abreast` says what stays the same all the
time, and `Journey.imitated` carries a whole run over. The proof goes along the rules of a run, like
that of `Journey.alike`, where the executor is the same and the surroundings differ.
-/

namespace AgentGraph

/-- The nodes cannot be told apart by what a run sees of them in contexts that are related. -/
structure Node.Imitates (n' n : Node) (agents' agents : Registry) (R : Context → Context → Prop) :
    Prop where
  id : n'.id = n.id
  label : n'.label = n.label
  kind : n'.kind = n.kind
  action : ∀ {ctx ctx'}, R ctx ctx' → n'.action agents' ctx' = n.action agents ctx

/-- Where a run of `x` can come, which is to nodes whose identifiers satisfy `P`, a run of `x'` does
the same in contexts that are related. -/
structure Executor.Imitates (x' x : Executor) (R : Context → Context → Prop) (P : String → Prop) :
    Prop where
  limits : x'.limits = x.limits
  model : x'.model = x.model
  missing : ∀ {id}, P id → x.workflow.findNode? id = none → x'.workflow.findNode? id = none
  node : ∀ {id n}, P id → x.workflow.findNode? id = some n →
    ∃ n', x'.workflow.findNode? id = some n' ∧ n'.Imitates n x'.agents x.agents R
  follow : ∀ {id} branch, P id → x'.workflow.follow? id branch = x.workflow.follow? id branch
  onward : ∀ {id branch e}, P id → x.workflow.follow? id branch = some e → P e.target
  apply : ∀ {ctx ctx'} patch, R ctx ctx' → R (ctx.apply patch) (ctx'.apply patch)

/-- Two walks have set out from `v` and `v'`, and they are at the same place, in related contexts,
and have left the same marks. -/
structure Walk.Abreast (R : Context → Context → Prop) (v v' w w' : Walk) : Prop where
  current : w'.current = w.current
  context : R w.context w'.context
  marks : ∃ ms, v.Writes ms w ∧ v'.Writes ms w'

namespace Walk.Abreast

variable {R : Context → Context → Prop} {v v' w w' u u' : Walk} {ms : List Mark} {n n' : Node}

theorem refl (hcurrent : v'.current = v.current) (hcontext : R v.context v'.context) :
    Abreast R v v' v v' :=
  ⟨hcurrent, hcontext, [], .refl v, .refl v'⟩

/-- Both walks go on and leave the same marks. -/
theorem go_on (h : Abreast R v v' w w') (hw : w.Writes ms u) (hw' : w'.Writes ms u')
    (hcurrent : u'.current = u.current) (hcontext : R u.context u'.context) :
    Abreast R v v' u u' := by
  obtain ⟨before, hv, hv'⟩ := h.marks
  exact ⟨hcurrent, hcontext, before ++ ms, hv.trans hw, hv'.trans hw'⟩

theorem record (h : Abreast R v v' w w') (kind : LogKind) (message : String)
    (nodeId : Option String) :
    Abreast R v v' (w.record kind message nodeId) (w'.record kind message nodeId) :=
  h.go_on (Walk.writes_record ..) (Walk.writes_record ..) h.current h.context

theorem enter (h : Abreast R v v' w w') (hid : n'.id = n.id) (hlabel : n'.label = n.label)
    (hkind : n'.kind = n.kind) : Abreast R v v' (w.enter n) (w'.enter n') := by
  have hentered : n'.entered = n.entered := by
    rw [Node.entered, Node.entered, Node.heading, Node.heading, hid, hlabel, hkind]
  exact h.go_on Walk.writes_enter (hentered ▸ Walk.writes_enter) h.current h.context

theorem call (h : Abreast R v v' w w') (c : Call) : Abreast R v v' (w.call c) (w'.call c) :=
  h.go_on (Walk.writes_call c) (Walk.writes_call c) h.current h.context

theorem follow (h : Abreast R v v' w w') (e : Edge) : Abreast R v v' (w.follow e) (w'.follow e) :=
  h.go_on (Walk.writes_follow e) (Walk.writes_follow e) rfl h.context

theorem failed (h : Abreast R v v' w w') (hid : n'.id = n.id) (hlabel : n'.label = n.label)
    (error : String) : Abreast R v v' (w.failed n error) (w'.failed n' error) := by
  rw [Walk.failed, Walk.failed, hid, hlabel]
  exact h.go_on (Walk.writes_failed error) (Walk.writes_failed error) h.current h.context

end Walk.Abreast

theorem Walk.current_accept {w : Walk} {n : Node} (o : Outcome) :
    (w.accept n o).current = w.current := by
  have hremark : ∀ notes (w : Walk), (w.remark n notes).current = w.current := by
    intro notes
    induction notes with
    | nil => exact fun _ => rfl
    | cons note notes ih => exact fun w => ih (w.info note n.id)
  show ((w.remark n o.notes).tell n o).current = _
  rw [tell, ← hremark o.notes w]
  cases n.kind with
  | llm | agent | finish => cases o.text <;> rfl
  | condition | classifier => cases o.branch <;> rfl
  | start => rfl

namespace Executor

variable {σ : Type} {x x' : Executor} {env : Environment σ} {R : Context → Context → Prop}
  {P : String → Prop} {v v' w w' u : Walk} {n n' : Node} {s s' : σ}

theorem Imitates.accept (h : x'.Imitates x R P) (hw : Walk.Abreast R v v' w w')
    (hn : n'.Imitates n x'.agents x.agents R) (o : Outcome) :
    Walk.Abreast R v v' (w.accept n o) (w'.accept n' o) := by
  have haccepted : n'.accepted o = n.accepted o := by
    rw [Node.accepted, Node.accepted, Node.lines, Node.lines, hn.id, hn.label, hn.kind]
  refine hw.go_on (Walk.writes_accept n o) (haccepted ▸ Walk.writes_accept n' o) ?_ ?_
  · rw [Walk.current_accept, Walk.current_accept, hw.current]
  · rw [Walk.context_accept, Walk.context_accept]
    exact h.apply o.patch hw.context

theorem Imitates.perform (h : x'.Imitates x R P) (hw : Walk.Abreast R v v' w w')
    (hn : n'.Imitates n x'.agents x.agents R) {result : Option (Except StepError Outcome)}
    (hperform : x.perform env w n s = (result, u, s')) :
    ∃ u', x'.perform env w' n' s = (result, u', s') ∧ Walk.Abreast R v v' u u' := by
  have haction' := hn.action hw.context
  -- the result of an answer depends on the limits and the model, which are the same
  have hresultOf : x'.resultOf = x.resultOf := by
    funext finish answer
    cases answer <;> simp only [resultOf, h.limits, h.model]
  cases perform_eq_iff.mp hperform with
  | done haction hresult =>
      exact ⟨w', perform_eq_iff.mpr (.done (haction'.trans haction) hresult), hw⟩
  | @asked call _ _ _ haction hask hresult =>
      rw [← hresultOf] at hresult
      exact ⟨w'.call call, perform_eq_iff.mpr (.asked (haction'.trans haction) hask hresult),
        hw.call call⟩

/-! ### The rules -/

theorem Step.imitated (h : x'.Imitates x R P) (hw : Walk.Abreast R v v' w w') (hP : P w.current)
    {result : Except StepError Outcome} (hstep : x.Step env w s n result u s') :
    ∃ n' u', x'.Step env w' s n' result u' s' ∧ n'.Imitates n x'.agents x.agents R ∧
      Walk.Abreast R v v' u u' := by
  obtain ⟨hstop, hfind, hperform⟩ := hstep
  obtain ⟨n', hfind', hn⟩ := h.node hP hfind
  obtain ⟨u', hperform', hu⟩ := h.perform (hw.enter hn.id hn.label hn.kind) hn hperform
  rw [← hw.current] at hfind'
  exact ⟨n', u', .mk hstop hfind' hperform', hn, hu⟩

theorem Course.imitated (h : x'.Imitates x R P) {ps : List Passage}
    (hcourse : x.Course env w s ps u s') (hw : Walk.Abreast R v v' w w') (hP : P w.current) :
    ∃ ps' u', x'.Course env w' s ps' u' s' ∧ ps'.length = ps.length ∧ Walk.Abreast R v v' u u' ∧
      P u.current := by
  induction hcourse generalizing w' with
  | nil w s => exact ⟨[], w', .nil w' s, rfl, hw, hP⟩
  | @cons w w₁ u s s₁ s₂ s' n o e ps hstep hagain hk hfollow _ ih =>
      have hfollow' := (h.follow o.branch hP).trans (hstep.node_id ▸ hfollow)
      obtain ⟨n', w₁', hstep', hn, hw₁⟩ := hstep.imitated h hw hP
      -- the edge leads to a place that is imitated too
      have honward : P e.target := h.onward hP (hstep.node_id ▸ hfollow)
      obtain ⟨ps', u', hrest, hlength, hu, hPu⟩ := ih ((h.accept hw₁ hn o).follow e) honward
      rw [← hw.current, ← hstep'.node_id] at hfollow'
      exact ⟨⟨n', o, e⟩ :: ps', u', .cons hstep' hagain (hn.kind ▸ hk) hfollow' hrest,
        congrArg Nat.succ hlength, hu, hPu⟩

theorem Ends.imitated (h : x'.Imitates x R P) {rest : Nat} {f : Finish σ}
    (hends : x.Ends env rest w s f) (hw : Walk.Abreast R v v' w w') (hP : P w.current) :
    ∃ u', x'.Ends env rest w' s ⟨f.status, u', f.world⟩ ∧ Walk.Abreast R v v' f.walk u' := by
  cases hends with
  | stopped hstop => exact ⟨_, .stopped hstop, hw.record ..⟩
  -- the closing lines name the current node, which is the same in both walks
  | exhausted hstop =>
      have hexhausted := hw.record .error
        s!"Step limit of {x.limits.maxSteps} reached, halting before this node" w.current
      rw [← h.limits]
      refine ⟨_, .exhausted hstop, ?_⟩
      rw [h.limits, Walk.exhausted, Walk.exhausted, hw.current]
      exact hexhausted
  | lost hstop hfind =>
      have hlost := hw.record .error s!"Node {w.current} not found" w.current
      have hfind' := h.missing hP hfind
      rw [← hw.current] at hfind' ⊢
      refine ⟨_, .lost hstop hfind', ?_⟩
      rw [Walk.lost, Walk.lost, hw.current]
      exact hlost
  | dropped hstop hfind hperform =>
      obtain ⟨n', hfind', hn⟩ := h.node hP hfind
      obtain ⟨u', hperform', hu⟩ := h.perform (hw.enter hn.id hn.label hn.kind) hn hperform
      rw [← hw.current] at hfind'
      exact ⟨u', .dropped hstop hfind' hperform', hu⟩
  -- after a step the lines name the node, whose id and label are the same
  | discarded hstep hagain =>
      obtain ⟨n', u', hstep', hn, hu⟩ := hstep.imitated h hw hP
      refine ⟨_, .discarded hstep' hagain, ?_⟩
      rw [Walk.discarded, Walk.discarded, hn.id, hn.label]
      exact hu.record ..
  | failed hstep hagain =>
      obtain ⟨n', u', hstep', hn, hu⟩ := hstep.imitated h hw hP
      rw [← hn.id]
      exact ⟨_, .failed hstep' hagain, hu.failed hn.id hn.label _⟩
  | @completed _ _ _ _ _ _ _ o hstep hagain hk =>
      obtain ⟨n', u', hstep', hn, hu⟩ := hstep.imitated h hw hP
      refine ⟨_, .completed hstep' hagain (hn.kind.trans hk), ?_⟩
      rw [Walk.completed, Walk.completed, hn.id]
      exact (h.accept hu hn o).record ..
  -- neither workflow has an edge for the branch
  | @deadEnd _ _ _ _ _ _ n o hstep hagain hk hfollow =>
      have hfollow' := (h.follow o.branch hP).trans (hstep.node_id ▸ hfollow)
      obtain ⟨n', u', hstep', hn, hu⟩ := hstep.imitated h hw hP
      rw [← hw.current, ← hstep'.node_id] at hfollow'
      rw [← hn.id]
      refine ⟨_, .deadEnd hstep' hagain (hn.kind ▸ hk) hfollow', ?_⟩
      rw [Walk.deadEnd, Walk.deadEnd, hn.id, hn.label]
      exact (h.accept hu hn o).record ..

variable {occasion occasion' : Occasion} {task task' : Task} {ps : List Passage} {f : Finish σ}

/-- **A run is imitated from its start to its end.** -/
theorem Journey.imitated (h : x'.Imitates x R P) {start start' : Node}
    (hstart : x.workflow.startNode? = some start) (hstart' : x'.workflow.startNode? = some start')
    (hid : start'.id = start.id) (hP : P start.id)
    (hR : R (.start task.input task.profile) (.start task'.input task'.profile))
    (hjourney : x.Journey env occasion task s ps f) :
    ∃ ps' u', x'.Journey env occasion' task' s ps' ⟨f.status, u', f.world⟩ ∧
      Walk.Abreast R (x.setOut occasion task start)
      (x'.setOut occasion' task' start') f.walk u' := by
  obtain ⟨hstarted, hcourse, hlength, hends⟩ := hjourney
  cases hstart.symm.trans hstarted
  -- the two runs set out abreast
  have hset : Walk.Abreast R (x.setOut occasion task start) (x'.setOut occasion' task' start')
      (x.setOut occasion task start) (x'.setOut occasion' task' start') := .refl hid hR
  obtain ⟨ps', w', hcourse', hsame, hw, hPw⟩ := hcourse.imitated h hset hP
  obtain ⟨u', hends', hu⟩ := hends.imitated h hw hPw
  rw [← h.limits, ← hsame] at hlength
  exact ⟨ps', u', .mk hstart' hcourse' hlength hends', hu⟩

end Executor

end AgentGraph
