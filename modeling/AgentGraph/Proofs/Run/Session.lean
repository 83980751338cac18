import AgentGraph.Proofs.Run.Journey
import AgentGraph.Run.Session

/-!
# One run at a time

However runs are asked for, answered and dropped on one executor, its state tells the truth: it is
running exactly while one run is under way, and idle only if there never was one. So a second run is
refused as long as the first one is under way, and the next one is accepted as soon as that has
returned or was dropped. `reachable_orderly` says so of every state that can be reached.

It also says that a run does not notice the others. Its pieces make up the run that the executor
would make at once, on its own, from the answers that it got (`drive_scripted`).
-/

namespace AgentGraph

@[simp]
theorem Environment.stop_scripted {τ : Type} {look : τ → Bool × τ} {answers : List Answer} {t : τ} :
    (scripted look).stop (answers, t) = ((look t).1, (answers, (look t).2)) := rfl

namespace Executor

variable {τ : Type} {x : Executor} {look : τ → Bool × τ}

/-! ### The pieces make up the run -/

/-- Give the run its answers, as long as it waits for them; it is dropped if it waits for more. -/
def replay (x : Executor) (look : τ → Bool × τ) :
    List Answer → Progress τ → Finish (List Answer × τ)
  | answers, .ended status w t => ⟨some status, w, (answers, t)⟩
  | [], .waiting p => ⟨none, p.walk, ([], p.commands)⟩
  | a :: answers, .waiting p => x.replay look answers (x.resume look p a)

theorem replay_settle {remaining : Nat} {answers : List Answer} {next : Walk → τ → Progress τ}
    (hnext : ∀ w t, x.drive (.scripted look) remaining w (answers, t) =
      x.replay look answers (next w t))
    (w : Walk) (n : Node) (result : Except StepError Outcome) (t : τ) :
    x.replay look answers (x.settle look next w n result t) =
      if (look t).1 then ⟨some .stopped, w.discarded n, (answers, (look t).2)⟩
      else
        match x.conclude w n result with
        | .halted status w => ⟨some status, w, (answers, (look t).2)⟩
        | .onward w => x.drive (.scripted look) remaining w (answers, (look t).2) := by
  rw [settle]
  rcases look t with ⟨_ | _, t₁⟩
  · cases x.conclude w n result with
    | halted status w => simp [replay]
    | onward w => simp [hnext]
  · simp [replay]

/-- **A run in pieces is a run**: to go on with the answers is to go on until one is needed, and
then to use them. -/
theorem drive_scripted (x : Executor) (look : τ → Bool × τ) (remaining : Nat) (w : Walk)
    (answers : List Answer) (t : τ) : x.drive (.scripted look) remaining w (answers, t) =
      x.replay look answers (x.advance look remaining w t) := by
  -- an answered call goes on with one step less, so the answers left are left to the induction
  induction remaining generalizing w answers t with
  | zero =>
      rcases hlook : look t with ⟨_ | _, t₁⟩ <;> rw [drive, advance] <;> simp [hlook, replay]
  | succ remaining ih =>
      rcases hlook : look t with ⟨_ | _, t₁⟩
      · cases hfind : x.workflow.findNode? w.current with
        | none => simp [drive, advance, hlook, hfind, replay]
        | some n =>
            rw [drive, advance]
            simp only [Environment.stop_scripted, hlook, hfind, Bool.false_eq_true, if_false]
            rw [perform]
            cases haction : n.action x.agents (w.enter n).context with
            | done result =>
                rw [replay_settle fun w t => ih w answers t]
                rfl
            | ask call finish =>
                cases answers with
                -- no answer is left: both wait
                | nil => rfl
                | cons a answers =>
                    rw [replay, resume, replay_settle fun w t => ih w answers t]
                    rfl
      · rw [drive, advance]
        simp [hlook, replay]

end Executor

/-! ### Sessions and their runs -/

namespace Session

variable {τ : Type} {x : Executor} {look : τ → Bool × τ}

/-- What the run of a ticket comes to, on its own and with the answers. -/
def alone (x : Executor) (look : τ → Bool × τ) (ticket : Ticket τ) (answers : List Answer) :
    Executor.Attempt (List Answer × τ) :=
  x.run (.scripted look) .idle ticket.occasion ticket.task (answers, ticket.commands)

/-- The session is that of a run on its own: with the answers that it got, and with whatever it may
still get as long as it is live, such a run ends in the same way, with the same report, events and
calls. -/
def Faithful (x : Executor) (look : τ → Bool × τ) : Session τ → Prop
  | .refused _ => True
  | .live ticket answers progress => ∀ more,
      alone x look ticket (answers ++ more) = Executor.attemptOf (x.replay look more progress)
  | .returned ticket answers status w =>
      ∃ t, alone x look ticket answers = Executor.attemptOf ⟨some status, w, ([], t)⟩
  | .dropped ticket answers w => ∃ t, alone x look ticket answers =
      Executor.attemptOf ⟨none, w, ([], t)⟩

variable {ticket : Ticket τ} {answers : List Answer} {p : Suspension τ}
    {status : RunStatus} {w : Walk}
  {t : τ}

theorem faithful_begin {state : ExecutorState} {start : Node} (h : x.admission state = .ok start) :
    (live ticket [] (x.advance look x.limits.maxSteps.toNat
      (x.setOut ticket.occasion ticket.task start) ticket.commands)).Faithful x look := by
  intro more
  obtain ⟨hv, _, hstart⟩ := Executor.admission_eq_ok_iff.mp h
  have hidle : x.admission .idle = .ok start :=
    Executor.admission_eq_ok_iff.mpr ⟨hv, by decide, hstart⟩
  rw [List.nil_append, alone, Executor.run_of_admission hidle, Executor.drive_scripted]

theorem Faithful.answer (h : (live ticket answers (.waiting p)).Faithful x look) (a : Answer) :
    (live ticket (answers ++ [a]) (x.resume look p a)).Faithful x look := by
  intro more
  rw [List.append_assoc]
  exact h (a :: more)

theorem Faithful.finish (h : (live ticket answers (.ended status w t)).Faithful x look) :
    (returned ticket answers status w).Faithful x look := by
  refine ⟨t, ?_⟩
  rw [← answers.append_nil]
  exact h []

theorem Faithful.drop (h : (live ticket answers (.waiting p)).Faithful x look) :
    (dropped ticket answers p.walk).Faithful x look := by
  refine ⟨p.commands, ?_⟩
  rw [← answers.append_nil]
  exact h []

end Session

/-! ### The state of the executor -/

namespace Shared

variable {τ : Type} {x : Executor} {look : τ → Bool × τ} {S S' : Shared τ}

/-- The state tells whether a run is under way, and whether there ever was one. -/
structure Consistent (S : Shared τ) : Prop where
  one : S.live ≤ 1
  running : S.state = .running ↔ S.live = 1
  idle : S.state = .idle ↔ S.accepted = 0

theorem consistent_fresh : (fresh : Shared τ).Consistent := by
  constructor <;> simp [fresh, live, accepted]

section

variable {state : ExecutorState} {before after : List (Session τ)} {s s' : Session τ}

theorem live_mk : live ⟨state, before ++ s :: after⟩ =
    before.countP (·.isLive) + after.countP (·.isLive) + if s.isLive then 1 else 0 := by
  rw [live, List.countP_append, List.countP_cons, Nat.add_assoc]

theorem accepted_mk : accepted ⟨state, before ++ s :: after⟩ =
    before.countP (·.isAccepted) + after.countP (·.isAccepted) + if s.isAccepted then 1 else 0 := by
  rw [accepted, List.countP_append, List.countP_cons, Nat.add_assoc]

/-- A run that goes on changes nothing. -/
theorem Consistent.go_on (h : Consistent ⟨state, before ++ s :: after⟩)
    (hlive : s'.isLive = s.isLive) (haccepted : s'.isAccepted = s.isAccepted) :
    Consistent ⟨state, before ++ s' :: after⟩ := by
  obtain ⟨hone, hrunning, hidle⟩ := h
  rw [live_mk] at hone hrunning
  rw [accepted_mk] at hidle
  constructor
  · rw [live_mk, hlive]
    exact hone
  · rw [live_mk, hlive]
    exact hrunning
  · rw [accepted_mk, haccepted]
    exact hidle

/-- The only run that is under way comes to its end. -/
theorem Consistent.halt (h : Consistent ⟨state, before ++ s :: after⟩) (hs : s.isLive = true)
    (hs' : s'.isLive = false) (haccepted : s'.isAccepted = true) :
    Consistent ⟨.halted, before ++ s' :: after⟩ := by
  have hone := h.one
  -- this run counts, so no other does
  rw [live_mk, hs, if_pos rfl] at hone
  have hnone : live ⟨.halted, before ++ s' :: after⟩ = 0 := by
    rw [live_mk, hs']
    simp only [Bool.false_eq_true, if_false]
    omega
  -- and it has been accepted, so the executor is no longer fresh
  have hsome : accepted ⟨.halted, before ++ s' :: after⟩ ≠ 0 := by
    rw [accepted_mk, haccepted, if_pos rfl]
    exact Nat.succ_ne_zero _
  constructor
  · rw [hnone]
    exact Nat.zero_le 1
  · rw [hnone]
    simp
  · simp [hsome]

end

theorem begin_of_error {e : EngineError} (h : x.admission S.state = .error e) (ticket : Ticket τ) :
    S.begin x look ticket = ⟨S.state, S.sessions ++ [.refused e]⟩ := by
  rw [Shared.begin, h]

theorem begin_of_ok {start : Node} (h : x.admission S.state = .ok start) (ticket : Ticket τ) :
    S.begin x look ticket = ⟨.running, S.sessions ++ [.live ticket [] (x.advance look
      x.limits.maxSteps.toNat (x.setOut ticket.occasion ticket.task start) ticket.commands)]⟩ := by
  rw [Shared.begin, h]
  rfl

/-- A run that is asked for is refused, or it is the only one under way. -/
theorem Consistent.begin (h : S.Consistent) (ticket : Ticket τ) :
    (S.begin x look ticket).Consistent := by
  obtain ⟨hone, hrunning, hidle⟩ := h
  cases hadmission : x.admission S.state with
  | error e =>
      rw [begin_of_error hadmission]
      constructor
      · rw [live_mk]
        exact hone
      · rw [live_mk]
        exact hrunning
      · rw [accepted_mk]
        exact hidle
  | ok start =>
      obtain ⟨_, hfree, _⟩ := Executor.admission_eq_ok_iff.mp hadmission
      -- an accepted run found the executor not running, so nothing was under way
      have hnone : S.sessions.countP (·.isLive) = 0 := by
        have hne : S.live ≠ 1 := fun hlive => hfree (hrunning.mpr hlive)
        rw [live] at hone hne
        omega
      rw [begin_of_ok hadmission]
      constructor
      · rw [live_mk, hnone]
        exact Nat.le_refl 1
      · rw [live_mk, hnone]
        exact iff_of_true rfl rfl
      · rw [accepted_mk]
        exact iff_of_false nofun (Nat.succ_ne_zero _)

theorem Consistent.step (h : S.Consistent) (hstep : S.Step x look S') : S'.Consistent := by
  cases hstep with
  | begin _ ticket => exact h.begin ticket
  | answer a => exact h.go_on rfl rfl
  | finish | drop => exact h.halt rfl rfl rfl

/-! ### The sessions of an executor -/

/-- A step that changes one session keeps the others as they are. -/
theorem forall_sessions_mk {P : Session τ → Prop} {before after : List (Session τ)}
    {s s' : Session τ} (h : ∀ r ∈ before ++ s :: after, P r) (hs : P s → P s') :
    ∀ r ∈ before ++ s' :: after, P r := by
  rw [List.forall_mem_append, List.forall_mem_cons] at h ⊢
  exact ⟨h.1, hs h.2.1, h.2.2⟩

theorem faithful_step (h : ∀ s ∈ S.sessions, s.Faithful x look) (hstep : S.Step x look S') :
    ∀ s ∈ S'.sessions, s.Faithful x look := by
  cases hstep with
  -- a refused session has nothing to be faithful to
  | begin _ ticket =>
      cases hadmission : x.admission S.state with
      | error e =>
          rw [begin_of_error hadmission]
          exact List.forall_mem_append.mpr ⟨h, List.forall_mem_singleton.mpr trivial⟩
      | ok start =>
          rw [begin_of_ok hadmission]
          exact List.forall_mem_append.mpr
            ⟨h, List.forall_mem_singleton.mpr (Session.faithful_begin hadmission)⟩
  | answer a => exact forall_sessions_mk h fun hs => hs.answer a
  | finish => exact forall_sessions_mk h fun hs => hs.finish
  | drop => exact forall_sessions_mk h fun hs => hs.drop

theorem Reachable.consistent (h : Reachable x look S) : S.Consistent := by
  induction h with
  | fresh => exact consistent_fresh
  | step _ hstep ih => exact ih.step hstep

theorem Reachable.faithful (h : Reachable x look S) : ∀ s ∈ S.sessions, s.Faithful x look := by
  induction h with
  | fresh => exact fun _ hs => absurd hs List.not_mem_nil
  | step _ hstep ih => exact faithful_step ih hstep

/-- Runs are under way only of a valid workflow. -/
theorem Reachable.valid (h : Reachable x look S) (hlive : S.live ≠ 0) : x.workflow.Valid := by
  obtain ⟨s, hs, hslive⟩ := List.countP_pos_iff.mp (Nat.pos_of_ne_zero hlive)
  cases s with
  | live ticket answers progress =>
      -- on its own it would be accepted as well, whatever answers it still gets
      have halone := h.faithful _ hs []
      exact (Executor.accepted_of_ok (congrArg Executor.Attempt.result halone)).1
  | refused | returned | dropped => cases hslive

/-! ### Being refused and being accepted -/

/-- The run is refused, and nothing else happens: the executor stays as it is, no event is sent, and
the model is not called. -/
structure Refuses (x : Executor) (look : τ → Bool × τ) (S : Shared τ) (ticket : Ticket τ)
    (e : EngineError) : Prop where
  begin : S.begin x look ticket = { S with sessions := S.sessions ++ [.refused e] }
  events : (S.begin x look ticket).events = S.events
  calls : (S.begin x look ticket).calls = S.calls
  run : ∀ {σ : Type} (env : Environment σ) (s : σ),
    x.run env S.state ticket.occasion ticket.task s = ⟨.error e, [], [], S.state, s⟩

/-- The run is accepted, and is under way. -/
structure Accepts (x : Executor) (look : τ → Bool × τ) (S : Shared τ) (ticket : Ticket τ) :
    Prop where
  begin : ∃ progress,
    S.begin x look ticket = ⟨.running, S.sessions ++ [.live ticket [] progress]⟩
  run : ∀ {σ : Type} (env : Environment σ) (s : σ),
    ∃ f, x.run env S.state ticket.occasion ticket.task s = Executor.attemptOf f

theorem refuses_of_admission {e : EngineError} (h : x.admission S.state = .error e)
    (ticket : Ticket τ) : S.Refuses x look ticket e := by
  have hbegin : S.begin x look ticket = { S with sessions := S.sessions ++ [.refused e] } :=
    begin_of_error h ticket
  constructor
  case begin => exact hbegin
  -- a refused session puts out no event and makes no call
  case events =>
    rw [hbegin, events, List.flatMap_append]
    exact List.append_nil _
  case calls =>
    rw [hbegin, calls, List.flatMap_append]
    exact List.append_nil _
  case run =>
    intro σ env s
    rw [Executor.run, h]

theorem accepts_of_admission {start : Node} (h : x.admission S.state = .ok start)
    (ticket : Ticket τ) : S.Accepts x look ticket where
  begin := ⟨_, begin_of_ok h ticket⟩
  run := fun _ _ => ⟨_, Executor.run_of_admission h _ _ _ _⟩

/-- What holds of an executor however it is used. -/
structure Orderly (x : Executor) (look : τ → Bool × τ) (S : Shared τ) : Prop where
  one : S.live ≤ 1
  running : S.state = .running ↔ S.live = 1
  idle : S.state = .idle ↔ S.accepted = 0
  halted : S.state = .halted ↔ S.live = 0 ∧ 0 < S.accepted
  /-- While a run is under way, every other run is refused. -/
  busy : S.live = 1 → ∀ ticket, S.Refuses x look ticket .alreadyRunning
  /-- A run of a workflow that is not valid is refused. -/
  invalid : ∀ e, validate x.workflow.nodes x.workflow.edges = .error e →
    ∀ ticket, S.Refuses x look ticket (.invalidGraph e)
  /-- When no run is under way, the next run of a valid workflow is accepted. -/
  free : x.workflow.Valid → S.live = 0 → ∀ ticket, S.Accepts x look ticket
  /-- As soon as a run has come to its end in any way, the next one is accepted. -/
  freed : ∀ S', S.Step x look S' → S'.live < S.live → ∀ ticket, S'.Accepts x look ticket
  /-- The report of a run, its events and its calls are those of a run on its own that gets the same
  answers. -/
  faithful : ∀ s ∈ S.sessions, s.Faithful x look

theorem Consistent.accepts (h : S.Consistent) (hv : x.workflow.Valid) (hlive : S.live = 0)
    (ticket : Ticket τ) : S.Accepts x look ticket := by
  obtain ⟨start, hstart⟩ := hv.exists_startNode?
  have hfree : S.state ≠ .running := by
    rw [ne_eq, h.running, hlive]
    decide
  exact accepts_of_admission (Executor.admission_eq_ok_iff.mpr ⟨hv, hfree, hstart⟩) ticket

/-- **One run at a time.** Whatever is done to an executor, its state tells whether a run is under
way, and runs do not notice each other. -/
theorem reachable_orderly (h : Reachable x look S) : S.Orderly x look := by
  have hconsistent := h.consistent
  obtain ⟨hone, hrunning, hidle⟩ := h.consistent
  constructor
  case one => exact hone
  case running => exact hrunning
  case idle => exact hidle
  -- the state is known from the two counts
  case halted =>
    cases hstate : S.state with
    | idle =>
        have hnone := hidle.mp hstate
        simp [hnone]
    | running =>
        have hlive := hrunning.mp hstate
        simp [hlive]
    | halted =>
        rw [hstate] at hrunning hidle
        have hne : S.live ≠ 1 := fun hlive => by cases hrunning.mpr hlive
        have hsome : S.accepted ≠ 0 := fun hnone => by cases hidle.mpr hnone
        exact iff_of_true rfl (by omega)
  -- a run that is live has been accepted, so the workflow is valid
  case busy =>
    intro hlive ticket
    apply refuses_of_admission
    rw [hrunning.mpr hlive]
    exact Executor.admission_of_running (h.valid (by omega))
  case invalid => exact fun e he ticket =>
    refuses_of_admission (Executor.admission_of_invalid he) ticket
  case free => exact fun hv hlive ticket => hconsistent.accepts hv hlive ticket
  case freed =>
    intro S' hstep hless ticket
    exact (hconsistent.step hstep).accepts (h.valid (by omega)) (by omega) ticket
  case faithful => exact h.faithful

/-- A second run is refused at the help desk while the first one waits, and then the first one
returns. -/
theorem helpdesk_orderly :
    ∃ ticket answers w,
      (⟨.halted, [.returned ticket answers .completed w, .refused .alreadyRunning]⟩ :
        Shared Unit).Orderly (.helpdesk "Support") fun _ => (false, ()) := by
  let desk := Executor.helpdesk "Support"
  let look : Unit → Bool × Unit := fun _ => (false, ())
  let ticket : Ticket Unit := ⟨⟨.nil, fun _ => 0⟩, .hello, ()⟩
  let answer : Answer := .reply (.ok (.ofContents [some "Support"]))
  -- the second run is refused while the first one waits for its answer
  obtain ⟨p, w, t, hbegun, hended⟩ : ∃ p w t,
      (fresh.begin desk look ticket).begin desk look ticket =
        ⟨.running, [] ++ .live ticket [] (.waiting p) :: [.refused .alreadyRunning]⟩ ∧
      desk.resume look p answer = .ended .completed w t :=
    ⟨_, _, _, rfl, rfl⟩
  have hwaiting : Reachable desk look ((fresh.begin desk look ticket).begin desk look ticket) :=
    .step (.step .fresh (.begin _ _)) (.begin _ _)
  rw [hbegun] at hwaiting
  have hanswered := hwaiting.step (.answer answer)
  rw [hended] at hanswered
  exact ⟨ticket, [answer], w, reachable_orderly (hanswered.step .finish)⟩

end Shared

end AgentGraph
