import AgentGraph.Proofs.Run.Arrival
import AgentGraph.Proofs.Text.Intent
import AgentGraph.Proofs.Workflow.Label

/-!
# From a label to a route

A classifier chooses an intent and a run follows the edge that carries it. The label of the edge,
the intents and the reply of the model are texts that three people have written, and each may have
put blanks around them. `run_follows_label` says that the blanks do not matter: when an author has
given an edge out of a classifier an intent as its label, and no other edge there has the same one,
then whenever a run has completed the classifier and chosen the intent, the edge that it takes next
is that one.

How a reply decides is told by `ClassifierParams.Chooses`: the first intent that is the whole reply,
else the first that the reply mentions, else the first of all. The trimmed text of it is both the
branch that is chosen and the label that the edge is stored with.

The events tell of nodes that are completed and of edges that are taken. `Event.InTurn` says that
these alternate, so that the edge taken next after a node is the one that stands at the same place
among the edges as the node does among the nodes.
-/

namespace AgentGraph

/-! ### Choosing an intent -/

namespace ClassifierParams

/-- The classifier takes the reply for the intent, which is given without the blanks around it. -/
inductive Chooses (p : ClassifierParams) (reply : String) : (intent : String) → Prop where
  | said {i : String} : FirstIn (SaysIntent reply) p.intents i → Chooses p reply (Text.trim i)
  | mentioned {i : String} : (∀ j ∈ p.intents, ¬ SaysIntent reply j) →
      FirstIn (MentionsIntent reply) p.intents i → Chooses p reply (Text.trim i)
  | fallback {i : String} : p.intents.head? = some i →
      (∀ j ∈ p.intents, ¬ SaysIntent reply j ∧ ¬ MentionsIntent reply j) →
      Chooses p reply (Text.trim i)

variable {p : ClassifierParams} {fallback reply intent : String}

/-- **The rules for replies say what is chosen.** -/
theorem chooses_iff (hfallback : p.intents.head? = some fallback) :
    p.Chooses reply intent ↔ (p.choose fallback reply).1 = intent := by
  rw [choose]
  constructor
  -- each way of choosing is what `choose` does
  · intro h
    cases h with
    | said hfirst => rw [matchIntent?_eq_some_iff.mpr (.inl ⟨_, hfirst, rfl⟩)]
    | mentioned hnone hfirst => rw [matchIntent?_eq_some_iff.mpr (.inr ⟨hnone, _, hfirst, rfl⟩)]
    | fallback hhead hnone =>
        rw [matchIntent?_eq_none_iff.mpr ⟨fun j hj => (hnone j hj).1, fun j hj => (hnone j hj).2⟩]
        exact congrArg Text.trim (Option.some.inj (hfallback.symm.trans hhead))
  -- and what `choose` does is one of the ways
  · rintro rfl
    cases hmatch : matchIntent? reply p.intents with
    | some label =>
        rcases matchIntent?_eq_some_iff.mp hmatch with ⟨i, hfirst, rfl⟩ | ⟨hnone, i, hfirst, rfl⟩
        · exact .said hfirst
        · exact .mentioned hnone hfirst
    | none =>
        obtain ⟨hsaid, hmentions⟩ := matchIntent?_eq_none_iff.mp hmatch
        exact .fallback hfallback fun j hj => ⟨hsaid j hj, hmentions j hj⟩

end ClassifierParams

/-! ### Nodes and edges in turn -/

/-- What follows the first list stands at its length. -/
theorem getElem?_length_append {α : Type} (as bs : List α) : (as ++ bs)[as.length]? = bs.head? := by
  rw [List.getElem?_append_right (Nat.le_refl _), Nat.sub_self, List.head?_eq_getElem?]

namespace Event

/-- Before each node that is completed there are as many edges taken as nodes completed. -/
def InTurn (es : List Event) : Prop :=
  ∀ before id after, es = before ++ .nodeCompleted id :: after →
    (before.filterMap takenEdge?).length = (before.filterMap completedNode?).length

variable {e : Event} {es : List Event} {id edgeId : String}

theorem inTurn_of_not_completed (h : ∀ e ∈ es, e.completedNode? = none) : InTurn es := by
  rintro before id after rfl
  have hnone := h (.nodeCompleted id) (List.mem_append_right _ List.mem_cons_self)
  cases hnone

theorem InTurn.cons (hcompleted : e.completedNode? = none) (htaken : e.takenEdge? = none)
    (h : InTurn es) : InTurn (e :: es) := by
  intro before id after heq
  cases before with
  | nil =>
      obtain ⟨rfl, _⟩ := List.cons.inj heq
      cases hcompleted
  | cons d before =>
      obtain ⟨rfl, hrest⟩ := List.cons.inj heq
      rw [List.filterMap_cons_none htaken, List.filterMap_cons_none hcompleted]
      exact h before id after hrest

/-- The node that is completed last. -/
theorem inTurn_completed (h : ∀ e ∈ es, e.completedNode? = none) :
    InTurn (.nodeCompleted id :: es) := by
  intro before other after heq
  cases before with
  | nil => rfl
  | cons d before =>
      obtain ⟨_, rfl⟩ := List.cons.inj heq
      have hnone := h (.nodeCompleted other) (List.mem_append_right _ List.mem_cons_self)
      cases hnone

theorem InTurn.passage (h : InTurn es) :
    InTurn (.nodeCompleted id :: .edgeTraversed edgeId :: es) := by
  intro before other after heq
  cases before with
  | nil => rfl
  | cons d before =>
      obtain ⟨rfl, hrest⟩ := List.cons.inj heq
      cases before with
      | nil => cases (List.cons.inj hrest).1
      | cons d before =>
          obtain ⟨rfl, hlater⟩ := List.cons.inj hrest
          exact congrArg Nat.succ (h before other after hlater)

theorem filterMap_filter_isLog {α : Type} {show? : Event → Option α}
    (hlog : ∀ entry, show? (.log entry) = none) (es : List Event) :
    (es.filter (!·.isLog)).filterMap show? = es.filterMap show? := by
  rw [List.filterMap_filter]
  congr 1
  funext e
  cases e <;> simp [isLog, entry?, hlog]

/-- Log entries do not count. -/
theorem InTurn.of_filter (h : InTurn (es.filter (!·.isLog))) : InTurn es := by
  rintro before id after rfl
  have hsplit : (before ++ .nodeCompleted id :: after).filter (!·.isLog) =
      before.filter (!·.isLog) ++ .nodeCompleted id :: after.filter (!·.isLog) := by
    rw [List.filter_append, List.filter_cons_of_pos rfl]
  have hcount := h _ id _ hsplit
  rwa [filterMap_filter_isLog (fun _ => rfl), filterMap_filter_isLog (fun _ => rfl)] at hcount

end Event

/-- The help desk before the edge for its second department got a label. -/
def Workflow.unlabelledHelpdesk : Workflow where
  id := .nil
  name := "Help desk"
  nodes := (helpdesk "Support ").nodes
  edges := [⟨"ask", "in", "desk", none⟩, ⟨"sales", "desk", "out", some "Sales"⟩,
    ⟨"support", "desk", "out", none⟩]

namespace Executor

variable {σ : Type} {x : Executor} {env : Environment σ} {occasion : Occasion} {task : Task} {s : σ}
  {ps : List Passage} {f : Finish σ}

open Event in
/-- An ending completes a node at most, and takes no edge. -/
theorem Ending.inTurn {current : String} {ctx : Context} {status : Option RunStatus}
    {ms : List Mark} (h : x.Ending current ctx status ms) :
    InTurn (ms.filterMap Mark.event? ++ closing status) := by
  have hclosing : ∀ e ∈ closing status, e.completedNode? = none := by
    cases status <;> simp [closing, completedNode?]
  have hclosed : InTurn (closing status) := inTurn_of_not_completed hclosing
  cases h with
  | stopped | exhausted | lost => exact hclosed
  -- a node that was begun and not completed is followed by no edge, as is the last one
  | dropped =>
      rw [Node.filterMap_event?_begun]
      exact .cons rfl rfl hclosed
  | discarded =>
      simp only [List.filterMap_append, Node.filterMap_event?_begun, List.append_assoc]
      exact .cons rfl rfl hclosed
  | failed error =>
      simp only [List.filterMap_append, Node.filterMap_event?_begun, List.append_assoc]
      exact .cons rfl rfl (.cons rfl rfl hclosed)
  | completed | deadEnd =>
      simp only [List.filterMap_append, Node.filterMap_event?_begun, Node.filterMap_event?_accepted,
        List.append_assoc]
      exact .cons rfl rfl (inTurn_completed hclosing)

open Event in
theorem inTurn_passages {es : List Event} (h : InTurn es) (ps : List Passage) :
    InTurn ((ps.flatMap fun p =>
      [nodeStarted p.node.id, nodeCompleted p.node.id, edgeTraversed p.edge.id]) ++ es) := by
  induction ps with
  | nil => exact h
  | cons p ps ih => exact .cons rfl rfl ih.passage

/-- **Nodes are completed and edges are taken in turn.** -/
theorem Journey.inTurn (h : x.Journey env occasion task s ps f) :
    Event.InTurn (attemptOf f).events := by
  obtain ⟨current, ctx, ms, hending, hsignals⟩ := h.signals
  apply Event.InTurn.of_filter
  have hclosing : (closing f.status).filter (!·.isLog) = closing f.status := by
    cases f.status <;> rfl
  have hfilter : (attemptOf f).events.filter (!·.isLog) =
      f.walk.trail.signals ++ closing f.status := by
    rw [attemptOf, List.filter_append, hclosing]
    rfl
  -- the change to the running state comes before all passages
  rw [hfilter, hsignals, List.cons_append, List.cons_append, List.append_assoc]
  exact .cons rfl rfl (inTurn_passages hending.inTurn ps)

/-- The edge that is taken next after a node is completed stands where the node does. -/
theorem Journey.next_edge (h : x.Journey env occasion task s ps f) {before after : List Event}
    {id : String} (hevents : (attemptOf f).events = before ++ .nodeCompleted id :: after) :
    f.walk.trail.completions[(before.filterMap Event.completedNode?).length]? = some id ∧
      f.walk.route.traversed[(before.filterMap Event.completedNode?).length]? =
        (after.filterMap Event.takenEdge?).head? := by
  have hturn := h.inTurn before id after hevents
  constructor
  · rw [← completedNodes_attemptOf, hevents, List.filterMap_append, getElem?_length_append]
    rfl
  · rw [← h.takenEdges, hevents, List.filterMap_append, ← hturn, getElem?_length_append]
    rfl

/-! ### What a classifier hears, and where a run goes -/

/-- After the passages a run arrives at the node, asks the model there, and hears the text. -/
inductive HearsAfter (x : Executor) (env : Environment σ) (occasion : Occasion) (task : Task)
    (s : σ) (ps : List Passage) (n : Node) (text : String) : Prop where
  | mk {w : Walk} {s' : σ} {call : Call} {finish : String → Outcome} {reply : Reply} :
      x.Arrives env occasion task s ps w n s' → n.action x.agents w.context = .ask call finish →
      (env.ask s' call).1 = some (.reply reply) → reply.text x.model = .ok text →
      HearsAfter x env occasion task s ps n text

/-- A classifier chooses by the text that it hears. -/
theorem StepAfter.hears {n : Node} {o : Outcome} {p : ClassifierParams}
    (h : x.StepAfter env occasion task s ps n (.ok o)) (hd : n.data = .classifier p) :
    ∃ text, x.HearsAfter env occasion task s ps n text ∧
      ∀ intent, p.Chooses text intent → o.branch = some intent := by
  obtain ⟨hstart, hcourse, hstop, hfind, hperform⟩ := h
  rcases ok_of_perform hperform with hdone | ⟨call, finish, reply, text, hask, hanswer, htext, rfl⟩
  -- a classifier never has its result at once
  · cases Node.acts_of_action hdone with
    | start hother | finish hother | condition hother => cases hd.symm.trans hother
  -- it asked, and it chooses from the text it was told
  · refine ⟨text, .mk (.mk hstart hcourse hstop hfind) hask hanswer htext,
      fun intent hchooses => ?_⟩
    cases Node.acts_of_action hask with
    | llm hother | agent hother => cases hd.symm.trans hother
    | classifier hsame hi =>
        cases hd.symm.trans hsame
        exact congrArg some ((ClassifierParams.chooses_iff hi).mp hchooses)

/-- A run that has chosen an intent at a classifier goes where the intent leads. -/
theorem Journey.follows_label (hv : x.workflow.Valid) (h : x.Journey env occasion task s ps f)
    {n : Node} (hn : n ∈ x.workflow.nodes) {p : ClassifierParams} (hd : n.data = .classifier p)
    {e : Edge} {intent : String} (hfollow : x.workflow.follow? n.id (some intent) = some e)
    {before after : List Event}
    (hevents : (attemptOf f).events = before ++ .nodeCompleted n.id :: after) :
    ∃ text, x.HearsAfter env occasion task s
        (ps.take (before.filterMap Event.completedNode?).length) n text ∧
      (p.Chooses text intent → (after.filterMap Event.takenEdge?).head? = some e.id) := by
  obtain ⟨hcompleted, hnext⟩ := h.next_edge hevents
  obtain ⟨m, o, hstep, hid, hlast⟩ := h.exists_completion hcompleted
  obtain rfl := hv.node_ext hstep.node_mem hn hid
  obtain ⟨text, hhears, hbranch⟩ := hstep.hears hd
  refine ⟨text, hhears, fun hchooses => ?_⟩
  rw [hbranch intent hchooses, hfollow] at hlast
  -- a classifier is no end node, and the intent has an edge, so the run has gone on
  rcases hlast with ⟨taken, hp, hsame⟩ | hfinish | hnone
  · obtain ⟨_, _, _, _, htraversed, _⟩ := h.outline hv
    rw [← hnext, htraversed, List.getElem?_map, hp, Option.some.inj hsame]
    rfl
  · simp [Node.kind, hd, NodeData.kind] at hfinish
  · cases hnone

/-- **Labels survive the trip from authoring to routing.** -/
theorem run_follows_label {w : Workflow} {n : Node} {p : ClassifierParams} {i edgeId : String}
    (hn : n ∈ w.nodes) (hd : n.data = .classifier p) (hi : Text.isBlank i = false)
    (hlabels : w.Labels n.id i x.workflow edgeId)
    (hother : ∀ d ∈ x.workflow.edges, d.source = n.id → d.id ≠ edgeId → ¬ d.Carries i)
    (hv : x.workflow.Valid) {state : ExecutorState} (hs : state ≠ .running) (env : Environment σ)
    (occasion : Occasion) (task : Task) (s : σ) :
    ∃ ps f, x.Journey env occasion task s ps f ∧ x.run env state occasion task s = attemptOf f ∧
      ∀ before after, (attemptOf f).events = before ++ .nodeCompleted n.id :: after →
        ∃ text, x.HearsAfter env occasion task s
            (ps.take (before.filterMap Event.completedNode?).length) n text ∧
          (p.Chooses text (Text.trim i) →
            (after.filterMap Event.takenEdge?).head? = some edgeId) := by
  obtain ⟨ps, f, hjourney, hrun⟩ := run_of_valid hv hs env occasion task s
  obtain ⟨e, hfollow, rfl⟩ := hlabels.follow? hi hother
  rw [← hlabels.nodes_eq] at hn
  exact ⟨ps, f, hjourney, hrun,
    fun before after hevents => hjourney.follows_label hv hn hd hfollow hevents⟩

/-- A message that the model finds to be one for support goes along the edge that was given the
intent as its label, blank and all. -/
theorem helpdesk_follows_label :
    ∃ before after, ((helpdesk "Support ").run (.replying "That is for SUPPORT, I think.") .idle
        ⟨.nil, fun _ => 0⟩ .hello ()).events = before ++ .nodeCompleted "desk" :: after ∧
      (after.filterMap Event.takenEdge?).head? = some "support" := by
  have hlabels :
      Workflow.unlabelledHelpdesk.Labels "desk" "Support "
      (helpdesk "Support ").workflow "support" :=
    .relabelled (e := ⟨"support", "desk", "out", none⟩) (by decide) rfl (by decide)
  obtain ⟨ps, f, _, hrun, hroutes⟩ := run_follows_label (x := helpdesk "Support ")
    (n := Workflow.desk "Support ") (by decide) rfl (by decide) hlabels (by decide) (by decide)
    (show ExecutorState.idle ≠ .running by decide) (.replying "That is for SUPPORT, I think.")
    ⟨.nil, fun _ => 0⟩ .hello ()
  have hcompleted : .nodeCompleted "desk" ∈ (attemptOf f).events := by
    rw [← hrun]
    decide +kernel
  obtain ⟨before, after, hevents⟩ := List.append_of_mem hcompleted
  obtain ⟨text, hhears, hnext⟩ := hroutes before after hevents
  rw [hrun]
  refine ⟨before, after, hevents, hnext ?_⟩
  -- the text that is heard is that of the only reply there is
  obtain ⟨_, _, hanswer, htext⟩ := hhears
  cases hanswer
  cases htext
  exact (ClassifierParams.chooses_iff rfl).mpr (by decide +kernel)

end Executor

end AgentGraph
