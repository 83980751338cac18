import AgentGraph.Proofs.Run.Calls
import AgentGraph.Proofs.Run.Occasion

/-!
# A profile that is not used does not leak

Nothing but the placeholder of the profile in an instruction, and the names `user_profile.k` in a
condition, lets a run look at the profile of its user. `run_ignores_profile` says so about whole
runs: where no instruction and no condition mentions the profile, runs for two users are the same
run, although what they are about may be full of placeholders. Inputs and replies go into
instructions, and a run goes on with what they say, but they are never read as templates.

A node that does not mention the profile does the same for all users (`Node.action_profile`). So an
executor imitates itself in contexts that differ in nothing but the profile, and its runs go side by
side.
-/

namespace AgentGraph

/-! ### Nodes that do not mention the profile -/

/-- The name of a variable, blanks around it aside, does not stand for an entry of the profile. -/
def Context.NotFromProfile (name : String) : Prop :=
  ¬ Context.profileStart.toList <+: (Text.trim name).toList

theorem Context.NotFromProfile.afterStart?_eq_none {name : String} (h : NotFromProfile name) :
    Text.afterStart? profileStart.toList (Text.trim name).toList = none := by
  rw [Text.afterStart?, if_neg fun hstart => h (List.isPrefixOf_iff_prefix.mp hstart)]

theorem Context.resolve_profile {name : String} (h : NotFromProfile name) (ctx : Context)
    (profile : Profile) : ({ ctx with profile } : Context).resolve name = ctx.resolve name := by
  simp only [resolve, h.afterStart?_eq_none]

/-- No instruction and no condition mentions the profile. -/
structure Executor.IgnoresProfile (x : Executor) : Prop where
  llm : ∀ n ∈ x.workflow.nodes, ∀ p, n.data = .llm p →
    ¬ Template.Mentions p.systemInstruction .userProfile
  classifier : ∀ n ∈ x.workflow.nodes, ∀ p, n.data = .classifier p →
    ¬ Template.Mentions p.instruction .userProfile
  persona : ∀ agent ∈ x.agents.agents, ¬ Template.Mentions agent.systemInstruction .userProfile
  condition : ∀ n ∈ x.workflow.nodes, ∀ p, n.data = .condition p →
    Context.NotFromProfile p.variableName

namespace Executor

variable {x : Executor}

theorem IgnoresProfile.agent (h : x.IgnoresProfile) (p : AgentParams) :
    ¬ Template.Mentions (p.instruction x.agents).1 .userProfile := by
  have hruns := p.runsBy_instruction x.agents
  generalize (p.instruction x.agents).1 = instruction at hruns ⊢
  cases hruns with
  | persona _ _ hagent => exact h.persona _ (List.mem_of_find?_eq_some hagent)
  | generic _ => decide +kernel

/-- **A node does the same for all users** if nothing mentions the profile. -/
theorem IgnoresProfile.action (h : x.IgnoresProfile) {n : Node} (hn : n ∈ x.workflow.nodes)
    (ctx : Context) (profile : Profile) :
    n.action x.agents { ctx with profile } = n.action x.agents ctx := by
  cases hd : n.data with
  | start => simp only [Node.action, hd]
  | finish =>
      simp only [Node.action, hd]
      rfl
  -- the templates and the source read no field of the profile
  | llm p => simp only [Node.action, hd, Template.render_profile (h.llm n hn p hd)]
  | agent p => simp only [Node.action, hd, Template.render_profile (h.agent p)]
  | classifier p => simp only [Node.action, hd, Template.render_profile (h.classifier n hn p hd)]
  | condition p =>
      simp only [Node.action, hd, ConditionParams.holds,
        Context.resolve_profile (h.condition n hn p hd)]

/-- The contexts differ in nothing but the profile. -/
def SameButProfile (ctx ctx' : Context) : Prop := ∃ profile, ctx' = { ctx with profile }

theorem SameButProfile.apply {ctx ctx' : Context} (h : SameButProfile ctx ctx') (patch : Patch) :
    SameButProfile (ctx.apply patch) (ctx'.apply patch) := by
  obtain ⟨profile, rfl⟩ := h
  exact ⟨profile, by rw [Context.apply_eq, Context.apply_eq]⟩

/-- The executor imitates itself for other users. -/
theorem IgnoresProfile.imitates (h : x.IgnoresProfile) :
    x.Imitates x SameButProfile fun _ => True where
  limits := rfl
  model := rfl
  missing := fun _ hfind => hfind
  node := by
    intro id n _ hfind
    refine ⟨n, hfind, rfl, rfl, rfl, ?_⟩
    rintro ctx _ ⟨profile, rfl⟩
    exact h.action (Workflow.mem_of_findNode? hfind) ctx profile
  follow := fun _ _ => rfl
  onward := fun _ _ => trivial
  apply := fun patch hctx => hctx.apply patch

/-! ### Runs for two users -/

/-- **A profile that is not used does not leak.** When no instruction and no condition mentions the
profile, runs of two users for the same input in the same surroundings make the same calls, and give
the same report and the same events, apart from the run and its times. The input and the replies may
be any text. -/
theorem run_ignores_profile (h : x.IgnoresProfile) {σ : Type} (env : Environment σ)
    (state : ExecutorState) (occasion occasion' : Occasion) (input : String)
    (profile profile' : Profile) (s : σ) :
    x.run env state occasion' ⟨input, profile'⟩ s =
      occasion'.attempt x.workflow.name (x.run env state occasion ⟨input, profile⟩ s) := by
  cases hadmission : x.admission state with
  | error e => exact run_refused hadmission
  | ok start =>
      obtain ⟨hv, hs, hstart⟩ := admission_eq_ok_iff.mp hadmission
      -- what a report shows of a context does not depend on the profile
      have houtput : ∀ ctx ctx', SameButProfile ctx ctx' →
          ctx'.input = ctx.input ∧ ctx'.lastOutput = ctx.lastOutput := by
        rintro ctx _ ⟨profile, rfl⟩
        exact ⟨rfl, rfl⟩
      have hinput : (⟨input, profile'⟩ : Task).input = (⟨input, profile⟩ : Task).input := rfl
      exact run_imitated h.imitates hv hv rfl hstart hstart rfl trivial hinput
        ⟨profile', rfl⟩ houtput hs

/-- A model that counts its calls and speaks in placeholders. -/
def countingCalls : Environment (List Call) where
  ask := fun calls call =>
    (some (.reply (.ok (.ofContents
      [some ("Sales " ++ toString calls.length ++ " \x7b\x7buser_profile\x7d\x7d")]))),
      calls ++ [call])
  stop := fun calls => (false, calls)

/-- What comes of asking the help desk for the profile. -/
def helpdeskAskedFor (occasion : Occasion) (profile : Profile) : Attempt (List Call) :=
  (helpdesk "Support").run countingCalls .idle occasion
    ⟨"\x7b\x7buser_profile\x7d\x7d \x7b\x7binput\x7d\x7d", profile⟩ []

theorem ignoresProfile_helpdesk : (helpdesk "Support").IgnoresProfile where
  llm := by simp [helpdesk, Workflow.helpdesk, Workflow.desk]
  classifier := by
    have hdesk : ¬ Template.Mentions "Route the message." .userProfile := by decide +kernel
    simp only [helpdesk, Workflow.helpdesk, Workflow.desk]
    simp [hdesk]
  persona := by simp [helpdesk, Registry.empty]
  condition := by simp [helpdesk, Workflow.helpdesk, Workflow.desk]

/-- The help desk answers Ada, who asks for the profile, as it answers anybody. -/
theorem helpdesk_ignores_profile :
    helpdeskAskedFor ⟨⟨1⟩, fun _ => 1⟩ [("name", "Ada")] =
        Occasion.attempt ⟨⟨1⟩, fun _ => 1⟩ "Help desk" (helpdeskAskedFor ⟨.nil, fun _ => 0⟩ []) ∧
      (helpdeskAskedFor ⟨.nil, fun _ => 0⟩ []).calls.length = 1 :=
  ⟨run_ignores_profile ignoresProfile_helpdesk countingCalls .idle ⟨.nil, fun _ => 0⟩
    ⟨⟨1⟩, fun _ => 1⟩ _ []
    _ [], by decide +kernel⟩

end Executor

end AgentGraph
