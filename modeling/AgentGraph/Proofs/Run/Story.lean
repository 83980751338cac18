import AgentGraph.Proofs.Run.Account
import AgentGraph.Run.Channel

/-!
# Events, log and report tell one story

A run shows what it does in three ways: by the events it sends, by its log, and by the report at its
end. `Report.ToldBy` lists how the events of a run go with its report, and `run_told` says that they
always do.

That the log, the nodes and the edges agree holds of every trail (`Trail.Agrees`). The rest is about
the order of the events, and for this the events that are no log entries are enough: their list has
a closed form (`signals_account`), three events for each passage and a few for the ending.

A channel that is too small loses the last events of a run and none of the first, since nobody takes
events out before the run has ended (`queue_sendAll`).
-/

namespace AgentGraph

/-! ### Bounded channels -/

namespace EventChannel

variable {c : EventChannel}

theorem capacity_send (e : Event) : (c.send e).capacity = c.capacity := by
  rw [send, trySend?]
  split <;> rfl

/-- An event goes to the end of the queue, if it finds room. -/
theorem queue_send (e : Event) : (c.send e).queue =
    c.queue ++ [e].take (c.capacity - c.queue.length) := by
  rw [send, trySend?]
  split
  next h =>
    obtain ⟨k, hk⟩ : ∃ k, c.capacity - c.queue.length = k + 1 :=
      ⟨_, (Nat.succ_pred (by omega)).symm⟩
    simp [hk]
  next h =>
    rw [show c.capacity - c.queue.length = 0 by omega]
    exact (List.append_nil _).symm

/-- **A channel keeps the first events** that are sent, as many as it has room for. -/
theorem queue_sendAll (es : List Event) : (c.sendAll es).queue =
    c.queue ++ es.take (c.capacity - c.queue.length) := by
  induction es generalizing c with
  | nil => simp [sendAll]
  | cons e es ih =>
      show ((c.send e).sendAll es).queue = _
      rw [ih, capacity_send, queue_send, List.append_assoc]
      -- the first event takes a place if there is one, and the others get what is left
      cases hroom : c.capacity - c.queue.length with
      | zero => simp [hroom]
      | succ k =>
          have hrest : c.capacity - (c.queue.length + 1) = k := by omega
          simp [hrest]

end EventChannel

/-! ### Verdicts -/

namespace Event

def startsNode (e : Event) : Bool := e.startedNode?.isSome

/-- The event says how the step at a node came out. -/
def isVerdict : Event → Bool
  | nodeCompleted _ | nodeFailed .. => true
  | _ => false

/-- The verdicts that are sent before another node is started. -/
def verdicts (es : List Event) : List Event := (es.takeWhile (!·.startsNode)).filter isVerdict

/-- What is sent after the start of a node settles the step: one verdict comes before the next node
is started, and it is the status of the run if the step failed. Only the last step of a stopped run
has none. -/
def Settled (status : RunStatus) (id : String) (rest : List Event) : Prop :=
  verdicts rest = [.nodeCompleted id] ∨
  (∃ error, verdicts rest = [.nodeFailed id error] ∧ status = .failed id error) ∨
  verdicts rest = [] ∧ status = .stopped ∧ ∀ e ∈ rest, e.startsNode = false

/-- Every step that the events tell of is settled. -/
def AllSettled (status : RunStatus) (es : List Event) : Prop :=
  ∀ before id rest, es = before ++ .nodeStarted id :: rest → Settled status id rest

variable {status : RunStatus} {id : String} {e : Event} {es rest : List Event}

theorem AllSettled.cons (he : e.startsNode = false) (h : AllSettled status es) :
    AllSettled status (e :: es) := by
  intro before id rest heq
  cases before with
  | nil =>
      obtain ⟨rfl, _⟩ := List.cons.inj heq
      cases he
  | cons d before => exact h before id rest (List.cons.inj heq).2

theorem AllSettled.started (hid : Settled status id es) (h : AllSettled status es) :
    AllSettled status (.nodeStarted id :: es) := by
  intro before id' rest heq
  cases before with
  | nil =>
      obtain ⟨hsame, rfl⟩ := List.cons.inj heq
      cases hsame
      exact hid
  | cons d before => exact h before id' rest (List.cons.inj heq).2

theorem allSettled_of_not_start (h : ∀ e ∈ es, e.startsNode = false) : AllSettled status es := by
  rintro before id rest rfl
  have hstart := h (.nodeStarted id) (List.mem_append_right _ List.mem_cons_self)
  cases hstart

/-- Log entries neither start a node nor settle a step. -/
theorem verdicts_filter (es : List Event) : verdicts (es.filter (!·.isLog)) = verdicts es := by
  induction es with
  | nil => rfl
  | cons e es ih =>
      cases e with
      | log entry => exact ih
      | nodeStarted id => rfl
      | nodeCompleted id => exact congrArg (nodeCompleted id :: ·) ih
      | nodeFailed id error => exact congrArg (nodeFailed id error :: ·) ih
      | stateChanged | edgeTraversed | workflowCompleted => exact ih

/-- Whether the steps are settled can be seen without the log entries. -/
theorem AllSettled.of_filter (h : AllSettled status (es.filter (!·.isLog))) :
    AllSettled status es := by
  rintro before id rest rfl
  have hsplit : (before ++ .nodeStarted id :: rest).filter (!·.isLog) =
      before.filter (!·.isLog) ++ .nodeStarted id :: rest.filter (!·.isLog) := by
    rw [List.filter_append, List.filter_cons_of_pos rfl]
  have hsettled := h _ id _ hsplit
  rw [Settled, verdicts_filter] at hsettled
  refine hsettled.imp_right (Or.imp_right fun ⟨hnone, hstopped, hlast⟩ => ⟨hnone, hstopped, ?_⟩)
  intro e he
  cases hlog : e.isLog with
  | false => exact hlast e (List.mem_filter.mpr ⟨he, by simp [hlog]⟩)
  | true => cases e <;> first | rfl | cases hlog

end Event

/-! ### The events of a run without its log -/

open Event in
/-- Passages in front of settled events are settled too, and no verdict comes before the first of
them. -/
theorem allSettled_passages {status : RunStatus} {es : List Event} (h : AllSettled status es)
    (hes : verdicts es = []) (ps : List Passage) :
    let signals := ps.flatMap fun p =>
      [nodeStarted p.node.id, nodeCompleted p.node.id, edgeTraversed p.edge.id]
    AllSettled status (signals ++ es) ∧ verdicts (signals ++ es) = [] := by
  induction ps with
  | nil => exact ⟨h, hes⟩
  | cons p ps ih =>
      obtain ⟨hsettled, hnone⟩ := ih
      rw [List.flatMap_cons]
      refine ⟨.started (.inl ?_) (.cons rfl (.cons rfl hsettled)), rfl⟩
      exact congrArg (nodeCompleted p.node.id :: ·) hnone

/-- The events tell what the report tells. -/
structure Report.ToldBy (r : Report) (events : List Event) : Prop where
  /-- The first event is that the executor runs, and the last two are the status of the run and that
  the executor has halted. -/
  framed : ∃ between, events =
    .stateChanged .running :: between ++ [.workflowCompleted r.status, .stateChanged .halted]
  log : events.filterMap Event.entry? = r.log
  visited : events.filterMap Event.startedNode? = r.visitedNodes
  traversed : events.filterMap Event.takenEdge? = r.traversedEdges
  settled : Event.AllSettled r.status events

namespace Executor

variable {σ : Type} {x : Executor} {env : Environment σ} {occasion : Occasion} {task : Task} {s : σ}
  {ps : List Passage} {f : Finish σ}

open Event in
/-- The events of an ending and the closing events are settled. -/
theorem Ending.allSettled {current : String} {ctx : Context} {status : RunStatus} {ms : List Mark}
    (h : x.Ending current ctx (some status) ms) :
    AllSettled status (ms.filterMap Mark.event? ++ closing (some status)) ∧
      verdicts (ms.filterMap Mark.event? ++ closing (some status)) = [] := by
  have hclosing : ∀ e ∈ closing (some status), e.startsNode = false := by
    simp [closing, startsNode, startedNode?]
  have hclosed : AllSettled status (closing (some status)) := allSettled_of_not_start hclosing
  cases h with
  | stopped | exhausted | lost => exact ⟨hclosed, rfl⟩
  -- the node that was discarded is the one left open, and nothing starts after it
  | discarded =>
      simp only [List.filterMap_append, Node.filterMap_event?_begun, List.append_assoc]
      exact ⟨.started (.inr (.inr ⟨rfl, rfl, hclosing⟩)) hclosed, rfl⟩
  | failed error =>
      simp only [List.filterMap_append, Node.filterMap_event?_begun, List.append_assoc]
      exact ⟨.started (.inr (.inl ⟨error, rfl, rfl⟩)) (.cons rfl hclosed), rfl⟩
  | completed | deadEnd =>
      simp only [List.filterMap_append, Node.filterMap_event?_begun, Node.filterMap_event?_accepted,
        List.append_assoc]
      exact ⟨.started (.inl rfl) (.cons rfl hclosed), rfl⟩

theorem Journey.agrees (h : x.Journey env occasion task s ps f) : f.walk.trail.Agrees := by
  obtain ⟨_, _, _, _, _, _, htrail⟩ := h.account
  rw [htrail]
  exact Trail.agrees_writeAll Trail.agrees_empty

/-- The first event of a run is that the executor runs. -/
theorem Journey.running_first (h : x.Journey env occasion task s ps f) :
    ∃ events, f.walk.trail.events.toList = .stateChanged .running :: events := by
  obtain ⟨_, _, ms, _, _, _, htrail⟩ := h.account
  rw [List.append_assoc, Trail.writeAll_append] at htrail
  have hcontinues : f.walk.trail.Continues
      (Trail.empty.writeAll occasion.clock (x.opening occasion task)) := by
    rw [htrail]
    exact Trail.writeAll_continues
  obtain ⟨events, hevents⟩ := hcontinues.events
  exact ⟨_, hevents.symm⟩

open Event in
theorem Journey.toldBy (h : x.Journey env occasion task s ps f) {status : RunStatus}
    (hstatus : f.status = some status) :
    (f.walk.report status).ToldBy (attemptOf f).events := by
  have hevents : (attemptOf f).events = f.walk.trail.events.toList ++ closing (some status) := by
    rw [attemptOf, hstatus]
  obtain ⟨hlog, hvisited, htraversed⟩ := h.agrees
  rw [hevents]
  constructor
  case framed =>
    obtain ⟨events, hfirst⟩ := h.running_first
    exact ⟨events, by rw [hfirst]; rfl⟩
  -- the closing events show no entry, node or edge
  case log =>
    rw [List.filterMap_append, hlog]
    exact List.append_nil _
  case visited =>
    rw [List.filterMap_append, hvisited]
    exact List.append_nil _
  case traversed =>
    rw [List.filterMap_append, htraversed]
    exact List.append_nil _
  -- the lines settle nothing, so they are left out of the events
  case settled =>
    obtain ⟨current, ctx, ms, hending, hsignals⟩ := h.signals
    rw [hstatus] at hending
    obtain ⟨hsettled, hnone⟩ := hending.allSettled
    apply AllSettled.of_filter
    have hfilter : (f.walk.trail.events.toList ++ closing (some status)).filter (!·.isLog) =
        f.walk.trail.signals ++ closing (some status) := List.filter_append ..
    rw [hfilter, hsignals, List.cons_append, List.cons_append, List.append_assoc]
    exact .cons rfl (allSettled_passages hsettled hnone ps).1

/-- **Events, log and report tell one story.** The events of a run that ends with a report tell what
the report tells. A channel for events, whatever its capacity, does not change what comes of the
run, and one that nobody empties keeps the first events. -/
theorem run_told {state : ExecutorState} {r : Report}
    (h : (x.run env state occasion task s).result = .ok (some r)) :
    r.ToldBy (x.run env state occasion task s).events ∧
      ∀ capacity, ∃ channel,
        x.runInto (.empty capacity) env state occasion task s =
          (x.run env state occasion task s, channel) ∧
        channel.queue = (x.run env state occasion task s).events.take capacity := by
  constructor
  · obtain ⟨hv, hs⟩ := accepted_of_ok h
    obtain ⟨ps, f, hjourney, hrun⟩ := run_of_valid hv hs env occasion task s
    rw [hrun] at h ⊢
    obtain ⟨status, hstatus, rfl⟩ := Option.map_eq_some_iff.mp (Except.ok.inj h)
    exact hjourney.toldBy hstatus
  · intro capacity
    refine ⟨_, rfl, ?_⟩
    rw [EventChannel.queue_sendAll]
    rfl

/-- The help desk tells of its run, and in a channel for two the first two events of it are left. -/
theorem helpdesk_told :
    ∃ r,
      ((helpdesk "Support").run (.replying "Support") .idle ⟨.nil, fun _ => 0⟩ .hello ()).result =
        .ok (some r) ∧
      r.status = .completed ∧
      r.ToldBy
        ((helpdesk "Support").run (.replying "Support") .idle ⟨.nil, fun _ => 0⟩ .hello ()).events ∧
      ((helpdesk "Support").runInto (.empty 2) (.replying "Support") .idle ⟨.nil, fun _ => 0⟩ .hello
        ()).2.queue =
        [.stateChanged .running,
          .log ⟨0, .info, "Starting run 00000000-0000-0000-0000-000000000000 of 'Help desk'",
            none⟩] := by
  have hstatus : ((helpdesk "Support").run (.replying "Support") .idle ⟨.nil, fun _ => 0⟩ .hello
      ()).result.map (·.map (·.status)) = .ok (some .completed) := by decide +kernel
  -- a channel of two places keeps the opening events
  have hevents : ((helpdesk "Support").run (.replying "Support") .idle ⟨.nil, fun _ => 0⟩ .hello
      ()).events.take 2 =
        [.stateChanged .running,
          .log ⟨0, .info, "Starting run 00000000-0000-0000-0000-000000000000 of 'Help desk'",
            none⟩] := by
    decide +kernel
  obtain ⟨r, hr⟩ :
      ∃ r, ((helpdesk "Support").run (.replying "Support") .idle ⟨.nil, fun _ => 0⟩ .hello
        ()).result = .ok (some r) :=
    ⟨_, rfl⟩
  rw [hr] at hstatus
  obtain ⟨htold, hchannel⟩ := run_told hr
  obtain ⟨channel, hinto, hqueue⟩ := hchannel 2
  refine ⟨r, hr, Option.some.inj (Except.ok.inj hstatus), htold, ?_⟩
  rw [hinto, hqueue, hevents]

end Executor

end AgentGraph
