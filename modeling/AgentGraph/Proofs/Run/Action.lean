import AgentGraph.Run.Executor

/-!
# What a step does

`Node.action` and `Executor.perform` are taken apart once, here. `Node.Acts` has a rule for each
kind of node, and two for classifiers: one with intents asks the model, one without fails.
`Executor.Performs` says what becomes of an action in a run: the model is asked once or not at all.
From both comes what a step that succeeds comes to (`achieves_of_perform`), with one rule for each
kind of outcome.

What a step has done is read off these rules wherever it matters.
-/

namespace AgentGraph

namespace Node

variable {n : Node} {agents : Registry} {ctx : Context}

/-- What the node does in the context, by what kind of node it is. -/
inductive Acts (n : Node) (agents : Registry) (ctx : Context) : Action → Prop where
  | start : n.data = .start → Acts n agents ctx (.done (.ok (.passing ctx.input)))
  | finish : n.data = .finish → Acts n agents ctx (.done (.ok (.passing ctx.finalOutput)))
  | condition {p : ConditionParams} : n.data = .condition p →
      Acts n agents ctx (.done (.ok (.decided (p.holds ctx))))
  | llm {p : LlmParams} : n.data = .llm p → Acts n agents ctx
      (.ask (.generation (Template.render p.systemInstruction ctx) ctx.input
        (some ⟨p.model, p.temperature⟩)) fun text => .generated n.id text [])
  | agent {p : AgentParams} : n.data = .agent p → Acts n agents ctx
      (.ask (.generation (Template.render (p.instruction agents).1 ctx) ctx.input
          (some ⟨p.model, p.temperature⟩))
        fun text => .generated n.id text (p.instruction agents).2)
  | noIntents {p : ClassifierParams} : n.data = .classifier p → p.intents = [] →
      Acts n agents ctx (.done (.error (.noIntents n.label)))
  | classifier {p : ClassifierParams} {fallback : String} : n.data = .classifier p →
      p.intents.head? = some fallback →
      Acts n agents ctx
        (.ask (.generation (classifierPrompt p.intents (Template.render p.instruction ctx))
            ctx.input (some ⟨p.model, some .zero⟩))
          fun reply => .classified n.id (p.choose fallback reply).1 (p.choose fallback reply).2)

theorem acts_of_action {a : Action} (h : n.action agents ctx = a) : n.Acts agents ctx a := by
  subst h
  cases hd : n.data with
  | start => simpa only [action, hd] using Acts.start hd
  | finish => simpa only [action, hd] using Acts.finish hd
  | condition p => simpa only [action, hd] using Acts.condition hd
  | llm p => simpa only [action, hd] using Acts.llm hd
  | agent p => simpa only [action, hd] using Acts.agent hd
  | classifier p =>
      cases hi : p.intents.head? with
      | none => simpa only [action, hd, hi] using Acts.noIntents hd (List.head?_eq_none_iff.mp hi)
      | some fallback => simpa only [action, hd, hi] using Acts.classifier hd hi

/-- What the step at the node comes to when it succeeds. Generated text is the text of a reply. -/
inductive Achieves (n : Node) (model : String) (ctx : Context) : Outcome → Prop where
  | start : n.data = .start → Achieves n model ctx (.passing ctx.input)
  | finish : n.data = .finish → Achieves n model ctx (.passing ctx.finalOutput)
  | condition {p : ConditionParams} : n.data = .condition p →
      Achieves n model ctx (.decided (p.holds ctx))
  | generated {reply : Reply} {text : String} (notes : List String) : n.kind = .llm ∨
      n.kind = .agent → reply.text model = .ok text →
      Achieves n model ctx (.generated n.id text notes)
  | classified {p : ClassifierParams} {fallback : String} (text : String) : n.data = .classifier p →
      p.intents.head? = some fallback →
      Achieves n model ctx (.classified n.id (p.choose fallback text).1 (p.choose fallback text).2)

end Node

namespace Executor

variable {σ : Type} {x : Executor} {env : Environment σ} {w w' : Walk} {n : Node} {s s' : σ}

/-- What becomes of what the node does: its own result counts, or the model is asked once and its
answer counts. -/
inductive Performs (x : Executor) (env : Environment σ) (w : Walk) (n : Node) (s : σ)
    (result : Option (Except StepError Outcome)) : Walk → σ → Prop where
  | done {own : Except StepError Outcome} : n.action x.agents w.context = .done own →
      result = some own → Performs x env w n s result w s
  | asked {call : Call} {finish : String → Outcome} {answer : Option Answer} {s' : σ} :
      n.action x.agents w.context = .ask call finish → env.ask s call = (answer, s') →
      result = answer.map (x.resultOf finish) → Performs x env w n s result (w.call call) s'

theorem perform_eq_iff {result : Option (Except StepError Outcome)} :
    x.perform env w n s = (result, w', s') ↔ x.Performs env w n s result w' s' := by
  constructor
  · intro h
    rw [perform] at h
    -- a node either has its result at once or asks the environment
    split at h
    next own haction =>
      cases h
      exact .done haction rfl
    next call finish haction =>
      cases h
      exact .asked haction rfl rfl
  · intro h
    cases h with
    | done haction hresult => rw [perform, haction, hresult]
    | asked haction hask hresult => simp only [perform, haction, hask, hresult]

theorem resultOf_of_error {finish : String → Outcome} {reply : Reply} {causes : Causes}
    (h : reply.text x.model = .error causes) :
    x.resultOf finish (.reply reply) = .error (.generation causes) := by
  rw [resultOf, h]
  rfl

theorem resultOf_of_ok {finish : String → Outcome} {reply : Reply} {text : String}
    (h : reply.text x.model = .ok text) : x.resultOf finish (.reply reply) = .ok (finish text) := by
  rw [resultOf, h]
  rfl

/-- A step that asked the model succeeds exactly when the model replies in time and with text. -/
theorem resultOf_eq_ok_iff {finish : String → Outcome} {answer : Answer} {o : Outcome} :
    x.resultOf finish answer = .ok o ↔
      ∃ reply text, answer = .reply reply ∧ reply.text x.model = .ok text ∧ finish text = o := by
  cases answer with
  | late => simp [resultOf]
  | reply reply =>
      cases hr : reply.text x.model with
      | error causes => simp [resultOf_of_error hr, hr]
      | ok text => simp [resultOf_of_ok hr, hr]

/-- A step that succeeds has its outcome from its node alone, or from the text of the reply to its
call. -/
theorem ok_of_perform {o : Outcome} (h : x.perform env w n s = (some (.ok o), w', s')) :
    n.action x.agents w.context = .done (.ok o) ∨
      ∃ call finish reply text, n.action x.agents w.context = .ask call finish ∧
        (env.ask s call).1 = some (.reply reply) ∧ reply.text x.model = .ok text ∧
        o = finish text := by
  cases perform_eq_iff.mp h with
  | done haction hresult => exact .inl (Option.some.inj hresult ▸ haction)
  | asked haction hask hresult =>
      obtain ⟨answer, rfl, hok⟩ := Option.map_eq_some_iff.mp hresult.symm
      obtain ⟨reply, text, rfl, htext, rfl⟩ := resultOf_eq_ok_iff.mp hok
      exact .inr ⟨_, _, reply, text, haction, congrArg Prod.fst hask, htext, rfl⟩

theorem achieves_of_perform {o : Outcome} (h : x.perform env w n s = (some (.ok o), w', s')) :
    n.Achieves x.model w.context o := by
  rcases ok_of_perform h with haction | ⟨_, finish, reply, text, haction, -, htext, rfl⟩
  · cases Node.acts_of_action haction with
    | start hd => exact .start hd
    | finish hd => exact .finish hd
    | condition hd => exact .condition hd
  · cases Node.acts_of_action haction with
    | llm hd => exact .generated _ (.inl (congrArg NodeData.kind hd)) htext
    | agent hd => exact .generated _ (.inr (congrArg NodeData.kind hd)) htext
    | classifier hd hi => exact .classified text hd hi

end Executor

end AgentGraph
