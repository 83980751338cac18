import AgentGraph.Proofs.Run.Choice

/-!
# What a step hands on

Only the nodes that generate text, `llm` and `agent`, change the last output, and the text they put
out is never blank: a reply without text makes the step fail. `Node.MayYield` says so of a single
outcome, and `Achieves.mayYield` says it of whatever a step comes to.

`Failure` lists the ways in which a step fails. A classifier without intents fails by itself; every
other failure goes back to what came of a call.
-/

namespace AgentGraph

/-! ### Replies -/

namespace Completion

/-- There is no text in the first choice: there is no choice, or its content is missing or blank. -/
def TextMissing (c : Completion) : Prop :=
  c.choices = [] ∨ ∃ choice rest, c.choices = choice :: rest ∧
    (choice.message.content = none ∨
      ∃ text, choice.message.content = some text ∧ Text.isBlank text = true)

theorem firstText?_eq_none_iff {c : Completion} : c.firstText? = none ↔ c.TextMissing := by
  rw [firstText?, TextMissing]
  cases hc : c.choices with
  | nil => simp
  | cons choice rest =>
      cases hm : choice.message.content with
      | none => simp [Message.text?, hm]
      | some text => simp [Message.text?, hm, Option.filter_some]

theorem isBlank_of_firstText? {c : Completion} {text : String} (h : c.firstText? = some text) :
    Text.isBlank text = false := by
  obtain ⟨choice, _, htext⟩ := Option.bind_eq_some_iff.mp h
  have hkept := (Option.filter_eq_some_iff.mp htext).2
  simpa using hkept

end Completion

namespace Reply

variable {model : String} {reply : Reply}

theorem text_eq_ok_iff {text : String} :
    reply.text model = .ok text ↔ ∃ c, reply = .ok c ∧ c.firstText? = some text := by
  cases reply with
  | error causes => simp [Reply.text, bind, Except.bind]
  | ok c =>
      cases hc : c.firstText? with
      | none => simp [Reply.text, bind, Except.bind, hc, throw, throwThe, MonadExceptOf.throw]
      | some found => simp [Reply.text, bind, Except.bind, hc, pure, Except.pure]

/-- A reply gives no text when the call failed, or when the first choice has no text. -/
theorem text_eq_error_iff {causes : Causes} :
    reply.text model = .error causes ↔ reply = .error causes ∨
      ∃ c, reply = .ok c ∧ c.TextMissing ∧ causes = [s!"{model} returned no text content"] := by
  simp only [← Completion.firstText?_eq_none_iff]
  cases reply with
  | error other => simp [Reply.text, bind, Except.bind]
  | ok c =>
      cases hc : c.firstText? with
      | none =>
          simp [Reply.text, bind, Except.bind, hc, throw, throwThe, MonadExceptOf.throw, eq_comm]
      | some found => simp [Reply.text, bind, Except.bind, hc, pure, Except.pure]

end Reply

/-! ### Nodes -/

namespace Node

variable {n : Node} {agents : Registry} {ctx : Context}

/-- The node puts out what the model generates. -/
def Generates (n : Node) : Prop := n.kind = .llm ∨ n.kind = .agent

instance (n : Node) : Decidable n.Generates := inferInstanceAs (Decidable (_ ∨ _))

/-- A generating node puts out text that is not blank and is the last output from then on; every
other node leaves the last output as it is. -/
structure MayYield (n : Node) (o : Outcome) : Prop where
  generated : n.Generates → ∃ text, o.text = some text ∧ Text.isBlank text = false ∧
    o.patch.lastOutput = some text
  passed : ¬ n.Generates → o.patch.lastOutput = none

/-- The call by which the node asks the model. -/
def call? (n : Node) (agents : Registry) (ctx : Context) : Option Call :=
  match n.action agents ctx with
  | .done _ => none
  | .ask call _ => some call

/-- The node asks the model, whatever the context is. -/
def asks (n : Node) : Bool :=
  match n.data with
  | .llm _ | .agent _ => true
  | .classifier p => !p.intents.isEmpty
  | .start | .condition _ | .finish => false

theorem isSome_call? : (n.call? agents ctx).isSome = n.asks := by
  cases hd : n.data with
  | classifier p => cases hi : p.intents <;> simp [call?, action, asks, hd, hi]
  | _ => simp [call?, action, asks, hd]

theorem call?_of_done {result : Except StepError Outcome} (h : n.action agents ctx = .done result) :
    n.call? agents ctx = none := by
  rw [call?, h]

theorem call?_of_ask {call : Call} {finish : String → Outcome}
    (h : n.action agents ctx = .ask call finish) : n.call? agents ctx = some call := by
  rw [call?, h]

theorem call?_eq_some_iff {call : Call} :
    n.call? agents ctx = some call ↔ ∃ finish, n.action agents ctx = .ask call finish := by
  rw [call?]
  cases n.action agents ctx with
  | done result => simp
  | ask other finish => simp

/-- A generating node puts out the text of a reply, and every other node leaves the last output
alone. -/
theorem Achieves.mayYield {model : String} {o : Outcome} (h : n.Achieves model ctx o) :
    n.MayYield o := by
  cases h with
  | start hd | finish hd | condition hd =>
      constructor
        <;> simp [Generates, kind, hd, NodeData.kind, Outcome.passing, Outcome.decided, Patch.none]
  | generated _ hk htext =>
      obtain ⟨_, _, hfound⟩ := Reply.text_eq_ok_iff.mp htext
      exact ⟨fun _ => ⟨_, rfl, Completion.isBlank_of_firstText? hfound, rfl⟩,
        fun hne => absurd hk hne⟩
  | classified _ hd =>
      constructor <;> simp [Generates, kind, hd, NodeData.kind, Outcome.classified]

/-- Only a classifier without intents fails by itself. -/
theorem noIntents_of_done {e : StepError} (h : n.action agents ctx = .done (.error e)) :
    e = .noIntents n.label ∧ ∃ p, n.data = .classifier p ∧ p.intents = [] := by
  cases acts_of_action h with
  | noIntents hd hi => exact ⟨rfl, _, hd, hi⟩

end Node

namespace Executor

variable {σ : Type} {x : Executor} {env : Environment σ} {w w' : Walk} {n : Node} {s s' : σ}

/-! ### Steps -/

/-- The ways in which the step at a node fails: the error, the call that was made, and the world it
leaves. -/
inductive Failure (x : Executor) (env : Environment σ) (n : Node) (ctx : Context) (s : σ) :
    StepError → Option Call → σ → Prop where
  | noIntents {p : ClassifierParams} : n.data = .classifier p → p.intents = [] →
      Failure x env n ctx s (.noIntents n.label) none s
  | late {call : Call} {s' : σ} : n.call? x.agents ctx = some call →
      env.ask s call = (some .late, s') →
      Failure x env n ctx s (.timeout x.limits.stepTimeoutMs) (some call) s'
  | refused {call : Call} {causes : Causes} {s' : σ} : n.call? x.agents ctx = some call →
      env.ask s call = (some (.reply (.error causes)), s') →
      Failure x env n ctx s (.generation causes) (some call) s'
  | textMissing {call : Call} {c : Completion} {s' : σ} : n.call? x.agents ctx = some call →
      env.ask s call = (some (.reply (.ok c)), s') → c.TextMissing →
      Failure x env n ctx s (.generation [s!"{x.model} returned no text content"]) (some call) s'

/-- A step that asked the model fails when the answer is late or has no text. -/
theorem resultOf_eq_error_iff {finish : String → Outcome} {answer : Answer} {e : StepError} :
    x.resultOf finish answer = .error e ↔
      answer = .late ∧ e = .timeout x.limits.stepTimeoutMs ∨
        ∃ reply causes, answer = .reply reply ∧ reply.text x.model = .error causes ∧
          e = .generation causes := by
  cases answer with
  | late => simp [resultOf, eq_comm]
  | reply reply =>
      cases hr : reply.text x.model with
      | error causes => simp [resultOf_of_error hr, hr, eq_comm]
      | ok text => simp [resultOf_of_ok hr, hr]

/-- **Every failure has its cause**, in the node or in what came of its call. -/
theorem failure_of_perform {e : StepError} (h : x.perform env w n s = (some (.error e), w', s')) :
    ∃ call?, x.Failure env n w.context s e call? s' ∧
      w'.trail.calls.toList = w.trail.calls.toList ++ call?.toList := by
  cases perform_eq_iff.mp h with
  | done haction hresult =>
      obtain ⟨rfl, p, hp, hi⟩ := Node.noIntents_of_done (Option.some.inj hresult ▸ haction)
      exact ⟨none, .noIntents hp hi, (List.append_nil _).symm⟩
  | @asked call _ _ _ haction hask hresult =>
      -- the call is made whatever comes of it, so every failure from here on has one
      obtain ⟨answer, rfl, herror⟩ := Option.map_eq_some_iff.mp hresult.symm
      refine ⟨some call, ?_, Array.toList_push⟩
      have hcall := Node.call?_of_ask haction
      rcases resultOf_eq_error_iff.mp herror with ⟨rfl, rfl⟩ | ⟨reply, causes, rfl, htext, rfl⟩
      · exact .late hcall hask
      · rcases Reply.text_eq_error_iff.mp htext with rfl | ⟨c, rfl, hmissing, rfl⟩
        · exact .refused hcall hask
        · exact .textMissing hcall hask hmissing

end Executor

end AgentGraph
