import AgentGraph.Proofs.Run.Outcome
import AgentGraph.Proofs.Synthesis.Faithful
import AgentGraph.Proofs.Workflow.Frame
import AgentGraph.Proofs.Workflow.Upkeep
import AgentGraph.Synthesis.Conversation

/-!
# How a synthesis goes

A synthesis makes a call, and a second one when the reply is rejected. `Exchange` is a conversation
with any number of corrections, taken apart by what the model answers, and `synthesize_protocol`
says of a whole synthesis which calls it makes and what comes of it. What the model is told about a
rejected reply names all that is wrong, one item after another (`Itemizes`).

What comes of a synthesis can be put in place of the graph of every workflow
(`synthesized_installs`).
-/

namespace AgentGraph

/-- The call has given a text that is not blank. -/
def Reply.Says (reply : Reply) (text : String) : Prop :=
  ∃ completion, reply = .ok completion ∧ completion.firstText? = some text

theorem Reply.Says.unique {reply : Reply} {text other : String} (h : reply.Says text)
    (hother : reply.Says other) : text = other := by
  obtain ⟨completion, rfl, htext⟩ := h
  obtain ⟨_, hreply, hother⟩ := hother
  cases hreply
  exact Option.some.inj (htext.symm.trans hother)

namespace Synthesis

variable {σ : Type} {ask : σ → Call → Reply × σ} {mint : Nat → Nat → Uuid}

/-! ### Conversations -/

/-- What the model answers to calls made one after another. -/
def answers (ask : σ → Call → Reply × σ) : σ → List Call → List Reply
  | _, [] => []
  | s, call :: calls => (ask s call).1 :: answers ask (ask s call).2 calls

/-- The call gives no text, so there is no graph. -/
inductive Fails : Reply → SynthesisError → Prop where
  | call (causes : Causes) : Fails (.error causes) (.call causes)
  | noText {completion : Completion} : completion.TextMissing → Fails (.ok completion) .noText

theorem Fails.not_says {reply : Reply} {e : SynthesisError} (h : Fails reply e) (text : String) :
    ¬ reply.Says text := by
  rintro ⟨completion, hreply, htext⟩
  cases h with
  | call causes => cases hreply
  | noText hmissing =>
      cases hreply
      rw [Completion.firstText?_eq_none_iff.mpr hmissing] at htext
      cases htext

theorem Fails.unique {reply : Reply} {d e : SynthesisError} (hd : Fails reply d)
    (he : Fails reply e) : d = e := by
  cases hd <;> cases he <;> rfl

/-- A conversation in which so many replies may be rejected and answered, by what comes of its first
call. -/
inductive Exchange (ask : σ → Call → Reply × σ) (mint : Nat → Nat → Uuid) :
    (corrections : Nat) → List Message → σ → Synthesized Draft σ → Prop where
  | failed {corrections : Nat} {messages : List Message} {s : σ} {e : SynthesisError} :
      Fails (ask s ⟨messages, none⟩).1 e →
      Exchange ask mint corrections messages s
        ⟨.error e, [⟨messages, none⟩], (ask s ⟨messages, none⟩).2⟩
  | accepted {corrections : Nat} {messages : List Message} {s : σ} {text : String} {draft : Draft} :
      (ask s ⟨messages, none⟩).1.Says text → readDraft (mint corrections) text = .ok draft →
      Exchange ask mint corrections messages s
        ⟨.ok draft, [⟨messages, none⟩], (ask s ⟨messages, none⟩).2⟩
  | givenUp {messages : List Message} {s : σ} {text : String} {rejection : Rejection} :
      (ask s ⟨messages, none⟩).1.Says text → readDraft (mint 0) text = .error rejection →
      Exchange ask mint 0 messages s
        ⟨.error (.rejected (maxCorrections + 1) rejection), [⟨messages, none⟩],
          (ask s ⟨messages, none⟩).2⟩
  | corrected {corrections : Nat} {messages : List Message} {s : σ} {text : String}
      {rejection : Rejection} {rest : Synthesized Draft σ} :
      (ask s ⟨messages, none⟩).1.Says text →
      readDraft (mint (corrections + 1)) text = .error rejection →
      Exchange ask mint corrections (messages ++ correction text rejection)
        (ask s ⟨messages, none⟩).2 rest →
      Exchange ask mint (corrections + 1) messages s
        { rest with calls := ⟨messages, none⟩ :: rest.calls }

/-- **Every conversation goes in one of these ways.** -/
theorem exchange_converse (ask : σ → Call → Reply × σ) (mint : Nat → Nat → Uuid) (corrections : Nat)
    (messages : List Message) (s : σ) :
    Exchange ask mint corrections messages s (converse ask mint corrections messages s) := by
  fun_induction converse ask mint corrections messages s with
  | case1 corrections messages s call _ causes hask =>
      obtain ⟨hreply, rfl⟩ := Prod.ext_iff.mp hask
      exact .failed (hreply ▸ .call causes)
  | case2 corrections messages s call _ completion htext hask =>
      obtain ⟨hreply, rfl⟩ := Prod.ext_iff.mp hask
      exact .failed (hreply ▸ .noText (Completion.firstText?_eq_none_iff.mp htext))
  | case3 corrections messages s call _ completion text htext draft hread hask =>
      obtain ⟨hreply, rfl⟩ := Prod.ext_iff.mp hask
      exact .accepted ⟨completion, hreply, htext⟩ hread
  | case4 messages s call _ completion text htext rejection hread hask =>
      obtain ⟨hreply, rfl⟩ := Prod.ext_iff.mp hask
      exact .givenUp ⟨completion, hreply, htext⟩ hread
  | case5 messages s call _ completion text htext rejection corrections rest hread hask ih =>
      obtain ⟨hreply, rfl⟩ := Prod.ext_iff.mp hask
      exact .corrected ⟨completion, hreply, htext⟩ hread ih

namespace Exchange

variable {corrections : Nat} {messages : List Message} {s : σ} {r : Synthesized Draft σ}

/-- There is a call for each reply that is answered, and one more. -/
theorem exists_calls (h : Exchange ask mint corrections messages s r) :
    ∃ later, r.calls = ⟨messages, none⟩ :: later ∧ later.length ≤ corrections := by
  induction h with
  | failed | accepted | givenUp => exact ⟨[], rfl, Nat.zero_le _⟩
  | corrected _ _ _ ih =>
      obtain ⟨later, hcalls, hlength⟩ := ih
      exact ⟨_, rfl, by rw [hcalls]; exact Nat.succ_le_succ hlength⟩

/-- What comes of a conversation is what is read in the last reply. -/
theorem result_eq_ok_iff (h : Exchange ask mint corrections messages s r) {draft : Draft} :
    r.result = .ok draft ↔ ∃ reply text, (answers ask s r.calls).getLast? = some reply ∧
    reply.Says text ∧
      readDraft (mint (corrections + 1 - r.calls.length)) text = .ok draft := by
  induction h with
  -- the last reply says nothing, so it was not accepted
  | failed hfails =>
      refine iff_of_false (fun hok => nomatch hok) ?_
      rintro ⟨_, text, hlast, hsays, -⟩
      cases hlast
      exact hfails.not_says text hsays
  | accepted hsays hdraft =>
      constructor
      · intro hok
        cases hok
        exact ⟨_, _, rfl, hsays, hdraft⟩
      · rintro ⟨_, text, hlast, hsays', hdraft'⟩
        cases hlast
        obtain rfl := hsays.unique hsays'
        cases hdraft.symm.trans hdraft'
        rfl
  | givenUp hsays hrejection =>
      refine iff_of_false (fun hok => nomatch hok) ?_
      rintro ⟨_, text, hlast, hsays', hdraft⟩
      cases hlast
      obtain rfl := hsays.unique hsays'
      cases hrejection.symm.trans hdraft
  -- the last reply is the last one of the rest
  | corrected hsays hrejection hrest ih =>
      obtain ⟨later, hcalls, -⟩ := hrest.exists_calls
      rw [ih, hcalls]
      simp [answers, List.getLast?_cons_cons]

/-- No call follows one that fails. -/
theorem of_fails (h : Exchange ask mint corrections messages s r) {i : Nat} {reply : Reply}
    {e : SynthesisError} (hreply : (answers ask s r.calls)[i]? = some reply)
    (hfails : Fails reply e) :
    r.calls.length = i + 1 ∧ r.result = .error e := by
  induction h generalizing i with
  | failed hfirst =>
      cases i with
      | zero =>
          cases hreply
          exact ⟨rfl, congrArg Except.error (hfirst.unique hfails)⟩
      | succ i => cases hreply
  | accepted hsays | givenUp hsays =>
      cases i with
      | zero =>
          cases hreply
          exact absurd hsays (hfails.not_says _)
      | succ i => cases hreply
  -- the first reply said something, so the failure is a later one
  | corrected hsays _ _ ih =>
      cases i with
      | zero =>
          cases hreply
          exact absurd hsays (hfails.not_says _)
      | succ i => exact (ih hreply).imp_left (congrArg Nat.succ)

/-- There is a second call when the first reply is rejected, and only then. -/
theorem second_iff (h : Exchange ask mint (corrections + 1) messages s r) {call : Call} :
    r.calls[1]? = some call ↔ ∃ text rejection, (ask s ⟨messages, none⟩).1.Says text ∧
      readDraft (mint (corrections + 1)) text = .error rejection ∧
        call = ⟨messages ++ correction text rejection, none⟩ := by
  cases h with
  -- there is a second call when the first reply was refused, and then only
  | failed hfails =>
      refine iff_of_false (fun hcall => nomatch hcall) ?_
      rintro ⟨text, _, hsays, -⟩
      exact hfails.not_says text hsays
  | accepted hsays hdraft =>
      refine iff_of_false (fun hcall => nomatch hcall) ?_
      rintro ⟨text, rejection, hsays', hrejection, -⟩
      obtain rfl := hsays.unique hsays'
      cases hdraft.symm.trans hrejection
  | corrected hsays hrejection hrest =>
      obtain ⟨later, hcalls, -⟩ := hrest.exists_calls
      rw [hcalls]
      constructor
      · intro hcall
        cases hcall
        exact ⟨_, _, hsays, hrejection, rfl⟩
      · rintro ⟨text, rejection, hsays', hrejection', rfl⟩
        obtain rfl := hsays.unique hsays'
        cases hrejection.symm.trans hrejection'
        rfl

/-- What comes of a conversation was read in a reply. -/
theorem exists_readDraft (h : Exchange ask mint corrections messages s r) {draft : Draft}
    (hr : r.result = .ok draft) : ∃ n text, readDraft (mint n) text = .ok draft := by
  obtain ⟨_, text, -, -, hdraft⟩ := h.result_eq_ok_iff.mp hr
  exact ⟨_, text, hdraft⟩

end Exchange

/-! ### What the model is told -/

/-- A line of a text that is no item of a list. -/
def IsPlainLine (line : String) : Prop := '\n' ∉ line.toList ∧ ¬ ['-', ' '] <+: line.toList

instance (line : String) : Decidable (IsPlainLine line) := inferInstanceAs (Decidable (_ ∧ _))

/-- The text has one item of a list for each message, in this order, and otherwise only lines that
are no items. -/
inductive Itemizes : String → List String → Prop where
  | last {line : String} : IsPlainLine line → Itemizes line []
  | line {line rest : String} {messages : List String} :
      IsPlainLine line → Itemizes rest messages → Itemizes (line ++ "\n" ++ rest) messages
  | item (message : String) {rest : String} {messages : List String} :
      Itemizes rest messages → Itemizes ("- " ++ message ++ "\n" ++ rest) (message :: messages)

theorem Itemizes.listed {rest : String} {more : List String} (h : Itemizes rest more)
    (messages : List String) : Itemizes (Rejection.listed messages ++ rest) (messages ++ more) := by
  induction messages with
  | nil => simpa [Rejection.listed] using h
  | cons message messages ih =>
      have hcons : Rejection.listed (message :: messages) ++ rest =
          "- " ++ message ++ "\n" ++ (Rejection.listed messages ++ rest) := by
        rw [Rejection.listed, List.map_cons, String.join_cons, String.append_assoc]
        rfl
      rw [hcons]
      exact .item message ih

/-- **The model is told of every problem and of every entry that could not be read.** -/
theorem itemizes_feedback (r : Rejection) :
    Itemizes r.feedback (r.problems.map Problem.message ++ r.skipped.map Skipped.message) := by
  -- each piece of the text begins or ends with a line break, so it is split there
  have hhead : "The graph you proposed was rejected:\n" =
      "The graph you proposed was rejected:" ++ "\n" := by
    decide +kernel
  have hmiddle : "\nThese entries were unreadable and got dropped:\n" =
      "" ++ "\n" ++ ("These entries were unreadable and got dropped:" ++ "\n") := by decide +kernel
  have hend : "\nReturn the complete corrected graph as ONE JSON object. " =
      "" ++ "\n" ++ "Return the complete corrected graph as ONE JSON object. " := by decide +kernel
  unfold Rejection.feedback
  rewrite [hhead, hmiddle, hend]
  set closing :=
    "Return the complete corrected graph as ONE JSON object. " ++
      "Keep the ids of nodes that were fine."
    with hclosing
  have hclose : Itemizes ("" ++ "\n" ++ closing) [] :=
    .line (by decide +kernel) (.last (by decide +kernel))
  -- the list of what was dropped is left out when it is empty
  have hskipped : Itemizes
      ((if r.skipped.isEmpty then ""
        else "" ++ "\n" ++ ("These entries were unreadable and got dropped:" ++ "\n") ++
          Rejection.listed (r.skipped.map Skipped.message)) ++ ("" ++ "\n" ++ closing))
      (r.skipped.map Skipped.message) := by
    cases r.skipped with
    | nil => exact hclose
    | cons entry skipped =>
        have hlisted := hclose.listed ((entry :: skipped).map Skipped.message)
        rw [List.append_nil] at hlisted
        rewrite [if_neg (by simp), String.append_assoc, String.append_assoc]
        exact .line (by decide +kernel) (.line (by decide +kernel) hlisted)
  have hfirst : IsPlainLine "The graph you proposed was rejected:" := by decide +kernel
  have hproblems := Itemizes.line hfirst (hskipped.listed (r.problems.map Problem.message))
  rewrite [hclosing] at hproblems
  simpa only [String.append_assoc] using hproblems

/-! ### Whole syntheses -/

/-- The rules of a synthesis. -/
structure FollowsProtocol (ask : σ → Call → Reply × σ) (mint : Nat → Nat → Uuid)
    (description language : String) (s : σ) (r : Synthesized Proposal σ) : Prop where
  one_or_two : r.calls.length = 1 ∨ r.calls.length = 2
  first : r.calls.head? = some ⟨opening description language, none⟩
  /-- A reply that is rejected is answered with what is wrong with it, and there is no other second
  call. -/
  second_iff : ∀ call, r.calls[1]? = some call ↔ ∃ text rejection,
    (ask s ⟨opening description language, none⟩).1.Says text ∧
    readDraft (mint 1) text = .error rejection ∧
      call = ⟨opening description language ++ [.assistant text, .user rejection.feedback], none⟩
  /-- What comes of the synthesis is what is read in the last reply. -/
  accepted_iff : ∀ p, r.result = .ok p ↔ p.name = nameFor description ∧ ∃ reply text,
    (answers ask s r.calls).getLast? = some reply ∧ reply.Says text ∧
      readDraft (mint (2 - r.calls.length)) text = .ok p.draft
  /-- A call that gives no text is the last one, and there is no graph. -/
  failed : ∀ i reply e, (answers ask s r.calls)[i]? = some reply → Fails reply e →
    r.calls.length = i + 1 ∧ r.result = .error e

/-- **A synthesis follows its protocol.** What the model is told about a rejected reply is all that
it was rejected for, and then all entries that could not be read. -/
theorem synthesize_protocol (ask : σ → Call → Reply × σ) (mint : Nat → Nat → Uuid)
    (description language : String) (s : σ) :
    FollowsProtocol ask mint description language s (synthesize ask mint description language s) ∧
    ∀ n text rejection, readDraft (mint n) text = .error rejection →
      Rejects (mint n) text rejection ∧
      Itemizes rejection.feedback
        (rejection.problems.map Problem.message ++ rejection.skipped.map Skipped.message) := by
  refine ⟨?_, fun n text rejection hrejection =>
    ⟨readDraft_eq_error_iff.mp hrejection, itemizes_feedback rejection⟩⟩
  have h := exchange_converse ask mint 1 (opening description language) s
  rw [synthesize, show maxCorrections = 1 from rfl]
  generalize converse ask mint 1 (opening description language) s = r at h
  obtain ⟨later, hcalls, hlength⟩ := h.exists_calls
  constructor
  case one_or_two =>
    simp only [hcalls, List.length_cons]
    omega
  case first => simp only [hcalls, List.head?_cons]
  case second_iff => exact fun call => h.second_iff
  case accepted_iff =>
    rintro ⟨name, draft⟩
    rw [← h.result_eq_ok_iff]
    cases r.result with
    | error e => simp [Except.map]
    | ok found => simp [Except.map, eq_comm]
  case failed =>
    intro i reply e hreply hfails
    obtain ⟨hend, hresult⟩ := h.of_fails hreply hfails
    refine ⟨hend, ?_⟩
    simp only [hresult, Except.map]

/-! A model that gives the replies of a list, and then fails. -/

def recite (replies : List String) (_ : Call) : Reply × List String :=
  match replies with
  | [] => (.error ["no more replies"], [])
  | text :: texts => (.ok (.ofContents [some text]), texts)

theorem answers_recite (text : String) (first second : Call) :
    answers recite [text] [first, second] =
      [.ok (.ofContents [some text]), .error ["no more replies"]] :=
  rfl

def counted (attempt place : Nat) : Uuid := ⟨.ofNat 128 (16 * attempt + place)⟩

/-- The edge leads nowhere, and one of the nodes is no node. -/
def brokenReply : String :=
  "\x7b\"nodes\":[\x7b\"id\":\"a\",\"type\":\"start\"\x7d,1],\"edges\":[\x7b\"source\":\"a\",\"target\":\"b\"\x7d]\x7d"

/-- The model is told what is wrong with its reply, and has nothing more to say. -/
theorem broken_protocol :
    (synthesize recite counted "A plan" "en" [brokenReply]).result =
      .error (.call ["no more replies"]) ∧
    ∃ rejection : Rejection,
      (synthesize recite counted "A plan" "en" [brokenReply]).calls[1]? =
        some ⟨opening "A plan" "en" ++ [.assistant brokenReply, .user rejection.feedback], none⟩ ∧
      Itemizes rejection.feedback
        ["Edge 00000000-0000-0000-0000-000000000011 references missing node b",
          "node #1: invalid type: integer `1`, expected struct Node"] := by
  obtain ⟨hprotocol, htold⟩ := synthesize_protocol recite counted "A plan" "en" [brokenReply]
  -- the messages of the first reply's rejection
  have hmessages : (match readDraft (counted 1) brokenReply with
      | .error r => r.problems.map Problem.message ++ r.skipped.map Skipped.message
      | .ok _ => []) = ["Edge 00000000-0000-0000-0000-000000000011 references missing node b",
        "node #1: invalid type: integer `1`, expected struct Node"] := by decide +kernel
  cases hread : readDraft (counted 1) brokenReply with
  | ok draft =>
      rw [hread] at hmessages
      cases hmessages
  | error rejection =>
      rw [hread] at hmessages
      have htext : (Completion.ofContents [some brokenReply]).firstText? = some brokenReply := by
        decide +kernel
      have hsecond :=
        (hprotocol.second_iff _).mpr ⟨brokenReply, rejection, ⟨_, rfl, htext⟩, hread, rfl⟩
      refine ⟨?_, rejection, hsecond, hmessages ▸ (htold 1 _ _ hread).2⟩
      -- there were two calls, and the second one had no reply
      obtain ⟨first, second, hcalls⟩ : ∃ first second,
          (synthesize recite counted "A plan" "en" [brokenReply]).calls = [first, second] := by
        rw [← List.length_eq_two]
        refine hprotocol.one_or_two.resolve_left fun hone => ?_
        obtain ⟨first, hcalls⟩ := List.length_eq_one_iff.mp hone
        rw [hcalls] at hsecond
        cases hsecond
      refine (hprotocol.failed 1 (.error ["no more replies"]) _ ?_ (.call _)).2
      rw [hcalls, answers_recite]
      rfl

/-! ### Putting a graph in place -/

/-- What an author does to have the proposal in place of the graph of a workflow that is kept. -/
def Proposal.replacement (p : Proposal) : Edit := .replaceGraph p.draft.nodes p.draft.edges

theorem Proposal.install_of_valid {p : Proposal} (h : validateAll p.draft.nodes p.draft.edges = [])
    (w : Workflow) : p.install w = .ok { w with nodes := p.draft.nodes, edges := p.draft.edges } :=
  Workflow.replaceGraph_eq_ok_iff.mpr ⟨h, rfl⟩

theorem Proposal.install_of_invalid {p : Proposal}
    (h : validateAll p.draft.nodes p.draft.edges ≠ []) (w : Workflow) :
    ∃ e, p.install w = .error e := by
  cases hinstall : p.install w with
  | ok w' => exact absurd (Workflow.replaceGraph_eq_ok_iff.mp hinstall).1 h
  | error e => exact ⟨e, rfl⟩

/-- Where a workflow is kept, the proposal comes in the place of its graph, or it is refused and
nothing is changed. -/
theorem Proposal.run_replacement (p : Proposal) (w : Workflow) :
    Edit.ComesTo w (.graph (.ok ())) (p.install w).toOption (p.replacement.carryOut.run w) :=
  Edit.run_carryOut p.replacement w

/-- **What comes of a synthesis can be put in place.** What is accepted of a reply is clean; a
synthesized proposal therefore becomes the graph of every workflow, and nothing else of the workflow
is changed. A proposal that is not valid is refused, and leaves the workflow that is kept as it
was. -/
theorem synthesized_installs :
    (∀ (mint : Nat → Uuid) (reply : String) (draft : Draft), readDraft mint reply = .ok draft →
      draft.Clean) ∧
    (∀ {σ : Type} (ask : σ → Call → Reply × σ) (mint : Nat → Nat → Uuid)
        (description language : String) (s : σ) (p : Proposal),
      (synthesize ask mint description language s).result = .ok p →
      p.draft.Clean ∧
        ∀ w : Workflow,
          p.install w = .ok { w with nodes := p.draft.nodes, edges := p.draft.edges } ∧
          p.replacement.carryOut.run w =
            (.graph (.ok ()), { w with nodes := p.draft.nodes, edges := p.draft.edges })) ∧
    ∀ (p : Proposal), validateAll p.draft.nodes p.draft.edges ≠ [] →
      ∀ w : Workflow, (p.install w).isOk = false ∧
        (p.replacement.carryOut.run w).1.isRefusal = true ∧
        (p.replacement.carryOut.run w).2 = w := by
  refine ⟨fun mint reply draft => Draft.clean_of_readDraft, ?_, ?_⟩
  · intro σ ask mint description language s p hp
    -- what was accepted in the end was read from some reply
    have hclean : p.draft.Clean := by
      have h := exchange_converse ask mint maxCorrections (opening description language) s
      rw [synthesize] at hp
      cases hresult :
        (converse ask mint maxCorrections (opening description language) s).result with
      | error e => simp [hresult, Except.map] at hp
      | ok draft =>
          simp only [hresult, Except.map, Except.ok.injEq] at hp
          obtain ⟨n, text, hdraft⟩ := h.exists_readDraft hresult
          rw [← hp]
          exact Draft.clean_of_readDraft hdraft
    refine ⟨hclean, fun w => ?_⟩
    have hinstall := Proposal.install_of_valid hclean.valid w
    have hrun := p.run_replacement w
    rw [hinstall] at hrun
    refine ⟨hinstall, ?_⟩
    generalize p.replacement.carryOut.run w = outcome at hrun ⊢
    cases hrun
    rfl
  · intro p hinvalid w
    obtain ⟨e, hinstall⟩ := Proposal.install_of_invalid hinvalid w
    have hrun := p.run_replacement w
    rw [hinstall] at hrun
    generalize p.replacement.carryOut.run w = outcome at hrun ⊢
    cases hrun with
    | refused hrefusal => exact ⟨by rw [hinstall]; rfl, hrefusal, rfl⟩

/-- Three nodes, one without an identifier, and something that is no node. Of the edges the first is
kept, with its label trimmed. The second is like it, the third has its identifier, and the last
leads from a node to itself. -/
def untidyEntries : Entries where
  nodes := [.object [("id", .string "a"), ("type", .string "start")],
    .object [("id", .string ""), ("type", .string "llm")],
    .object [("id", .string "b"), ("type", .string "end")], .null]
  edges :=
    [.object [("id", .string "e"), ("label", .string " go "), ("source", .string "a"),
      ("target", .string "b")],
      .object [("label", .string "go"), ("source", .string "a"), ("target", .string "b")],
    .object [("id", .string "e"), ("source", .string "a"), ("target", .string "b")],
    .object [("source", .string "a"), ("target", .string "a")]]

theorem finds_untidyEntries : Finds (Entries.format.compact untidyEntries) untidyEntries :=
  finds_render .compact
    (by simp [untidyEntries, Json.Readable.object, Json.Readable.string, Json.Readable.null])
    (by simp [untidyEntries, Json.Readable.object, Json.Readable.string])

/-- The text of entries is not blank, because it begins with a brace. -/
theorem isBlank_compact (entries : Entries) :
    Text.isBlank (Entries.format.compact entries) = false := by
  have htext : (Entries.format.compact entries).toList =
      Json.print .compact 0 (Entries.format.encode entries) [] := String.toList_ofList
  rw [Text.isBlank, htext, Entries.encode_format, Json.Reader.print_object]
  rfl

theorem firstText?_compact (entries : Entries) :
    (Completion.ofContents [some (Entries.format.compact entries)]).firstText? =
      some (Entries.format.compact entries) := by
  simp [Completion.firstText?, Completion.ofContents, Message.text?, isBlank_compact]

/-- What the model says first is accepted. -/
theorem synthesize_recite {description language text : String} {draft : Draft}
    (htext : (Completion.ofContents [some text]).firstText? = some text)
    (hread : readDraft (counted 1) text = .ok draft) :
    (synthesize recite counted description language [text]).result =
      .ok ⟨nameFor description, draft⟩ := by
  simp [synthesize, converse, recite, maxCorrections, htext, hread, Except.map]

/-- The untidy reply is put in order and put in place, and a proposal without nodes is refused. -/
theorem untidy_installs :
    (∃ draft : Draft, draft.nodes.map (·.id) = ["a", "00000000-0000-0000-0000-000000000011", "b"] ∧
      draft.edges =
        [⟨"e", "a", "b", some "go"⟩, ⟨"00000000-0000-0000-0000-000000000015", "a", "b", none⟩] ∧
      draft.warnings.map Warning.message =
        ["Duplicate edge a -> b removed", "Self-loop on 'a' removed",
          "Skipped node #3: invalid type: null, expected struct Node"] ∧
      draft.Clean ∧
      (synthesize recite counted "A plan" "en" [Entries.format.compact untidyEntries]).result =
        .ok ⟨"A plan", draft⟩ ∧
      ∀ w : Workflow, (Proposal.mk "A plan" draft).replacement.carryOut.run w =
        (.graph (.ok ()), { w with nodes := draft.nodes, edges := draft.edges })) ∧
    ∀ w : Workflow, ((Proposal.mk "Nothing" ⟨[], [], []⟩).replacement.carryOut.run w).2 = w := by
  obtain ⟨hclean, hinstalls, hrefuses⟩ := synthesized_installs
  refine ⟨?_, fun w => (hrefuses ⟨"Nothing", ⟨[], [], []⟩⟩ (by decide) w).2.2⟩
  -- the draft is worked out from the entries, and read from their text
  have hsettled : (settle (counted 1) untidyEntries).toOption.map
      (fun draft => (draft.nodes.map (·.id), draft.edges, draft.warnings.map Warning.message)) =
      some (["a", "00000000-0000-0000-0000-000000000011", "b"],
        [⟨"e", "a", "b", some "go"⟩, ⟨"00000000-0000-0000-0000-000000000015", "a", "b", none⟩],
        ["Duplicate edge a -> b removed", "Self-loop on 'a' removed",
          "Skipped node #3: invalid type: null, expected struct Node"]) := by decide +kernel
  cases hdraft : settle (counted 1) untidyEntries with
  | error rejection =>
      rw [hdraft] at hsettled
      cases hsettled
  | ok draft =>
      rw [hdraft] at hsettled
      obtain ⟨hnodes, hrest⟩ := Prod.mk.inj (Option.some.inj hsettled)
      obtain ⟨hedges, hwarnings⟩ := Prod.mk.inj hrest
      have hread : readDraft (counted 1) (Entries.format.compact untidyEntries) = .ok draft :=
        (readDraft_of_finds finds_untidyEntries).trans hdraft
      have hname : nameFor "A plan" = "A plan" := by decide +kernel
      have hresult :
          (synthesize recite counted "A plan" "en" [Entries.format.compact untidyEntries]).result =
            .ok ⟨"A plan", draft⟩ := by
        rw [synthesize_recite (firstText?_compact untidyEntries) hread, hname]
      exact ⟨draft, hnodes, hedges, hwarnings, hclean _ _ _ hread, hresult,
        fun w => ((hinstalls _ _ _ _ _ _ hresult).2 w).2⟩

end Synthesis

end AgentGraph
