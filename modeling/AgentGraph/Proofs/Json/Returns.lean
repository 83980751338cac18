import AgentGraph.Json.Read
import AgentGraph.Proofs.Json.Canonical
import AgentGraph.Proofs.Json.Scan

/-!
# What a reader can return

`Reader.Returns r p` says of every text that what `r` reads from it, if it reads anything, has the
property `p`. There is one law for each way to put readers together, and the fields of a record are
taken together in `Fields.Sound`. So what holds of all values of a format is found by following the
format, without following a text.

What is read as any value is a value: no object in it uses a name twice, and all members are in
order (`returns_any`).
-/

namespace AgentGraph.Json

variable {α β σ : Type}

namespace Reader

/-- Whatever the reader reads has the property. -/
def Returns (r : Reader α) (p : α → Prop) : Prop := ∀ cs a rest, r cs = (.ok a, rest) → p a

namespace Returns

variable {r : Reader α} {k : α → Reader β} {p : α → Prop} {q : β → Prop}

theorem trivial (r : Reader α) : Returns r fun _ => True := fun _ _ _ _ => True.intro

theorem pure {a : α} (h : p a) : Returns (pure a) p := by
  intro cs b rest hb
  cases hb
  exact h

theorem andThen (h : Returns r p) (hk : ∀ a, p a → Returns (k a) q) : Returns (r >>= k) q := by
  intro cs b rest hb
  obtain ⟨a, mid, ha, hgo⟩ := Yields.of_bind hb
  exact hk a (h cs a mid ha) mid b rest hgo

/-- What is read first does not matter. -/
theorem after (hk : ∀ a, Returns (k a) q) : Returns (r >>= k) q :=
  (trivial r).andThen fun a _ => hk a

/-- A reader that always faults reads nothing. -/
theorem of_faults (h : ∀ cs, Yields r cs none []) : Returns r p := by
  intro cs a rest ha
  obtain ⟨fault, unread, hfault⟩ := h cs
  rw [hfault] at ha
  cases ha

theorem mismatch (m : Mismatch) : Returns (mismatch m) p := .of_faults fun _ => yields_mismatch m

theorem failAtNext (fault : SyntaxFault) :
    Returns (failAtNext fault) p := .of_faults fun _ => yields_failAtNext fault

theorem located (h : Returns r p) : Returns (located r) p := fun cs a rest ha =>
  h cs a rest (Yields.of_located ha)

theorem closedBy (h : Returns r p) (close : Reader Unit) : Returns (closedBy r close) p := by
  intro cs a rest ha
  obtain ⟨mid, hbody, -⟩ := Yields.of_closedBy ha
  exact h cs a mid hbody

theorem nested {depth : Nat} {body : Nat → Reader α} (h : ∀ depth, Returns (body depth) p) :
    Returns (nested depth body) p := by
  match depth with
  | 0 | 1 => exact .failAtNext .tooDeep
  | depth + 2 => exact .after fun _ => h (depth + 1)

/-- Where something else stands nothing is read. -/
theorem wrongType (expected : String) : Returns (wrongType expected : Reader α) p := by
  refine .located (.after fun c => ?_)
  split
  · exact .after fun _ => .after fun _ => .mismatch _
  · exact .after fun _ => .after fun _ => .mismatch _
  · exact .after fun _ => .after fun _ => .mismatch _
  · exact .after fun _ => .after fun s => .mismatch _
  · exact .mismatch _
  · exact .mismatch _
  · split
    · refine .after fun n => ?_
      split <;> exact .mismatch _
    · exact .failAtNext _
  · exact .failAtNext _

theorem itemsRest {item : Reader α} (h : Returns item p) (fuel : Nat) (first : Bool) {read : List α}
    (hread : ∀ a ∈ read, p a) :
    Returns (itemsRest item fuel first read) fun as => ∀ a ∈ as, p a := by
  induction fuel generalizing first read with
  | zero => exact .pure fun a ha => hread a (List.mem_reverse.mp ha)
  | succ fuel ih =>
      refine .after fun more => ?_
      split
      · exact h.andThen fun a ha => ih false (List.forall_mem_cons.mpr ⟨ha, hread⟩)
      · exact .pure fun a ha => hread a (List.mem_reverse.mp ha)

theorem items {item : Reader α} (h : Returns item p) :
    Returns (items item) fun as => ∀ a ∈ as, p a :=
  .after fun _ => h.itemsRest _ true nofun

theorem membersRest {member : String → σ → Reader σ} {known : σ → Prop}
    (h : ∀ name s, known s → Returns (member name s) known) (fuel : Nat) (first : Bool) {s : σ}
    (hs : known s) :
    Returns (membersRest member fuel first s) known := by
  induction fuel generalizing first s with
  | zero => exact .pure hs
  | succ fuel ih =>
      refine .after fun more => ?_
      split
      · refine .after fun _ => .after fun name => (h name s hs).andThen fun s' hs' => ih false hs'
      · exact .pure hs

theorem foldMembers {member : String → σ → Reader σ} {known : σ → Prop}
    (h : ∀ name s, known s → Returns (member name s) known) {s : σ} (hs : known s) :
    Returns (foldMembers member s) known :=
  .after fun _ => membersRest h _ true hs

theorem check {result : Except Mismatch α} (h : ∀ a, result = .ok a → p a) :
    Returns (check result) p := by
  cases result with
  | ok a => exact .pure (h a rfl)
  | error m => exact .mismatch m

theorem listOf {depth : Nat} {expected : String} {body : Nat → Reader α}
    (h : ∀ depth, Returns (body depth) p) : Returns (listOf depth expected body) p := by
  refine .after fun c => ?_
  split
  · exact .located (.closedBy (.nested h) _)
  · exact .wrongType expected

theorem recordOf {depth : Nat} {expected : String} {fromList fromObject : Nat → Reader α}
    (hlist : ∀ depth, Returns (fromList depth) p)
    (hobject : ∀ depth, Returns (fromObject depth) p) :
    Returns (recordOf depth expected fromList fromObject) p := by
  refine .after fun c => ?_
  split
  · exact .located (.closedBy (.nested hlist) _)
  · exact .located (.closedBy (.nested hobject) _)
  · exact .wrongType expected

/-- What is read from a whole text is what the reader reads. -/
theorem of_runOn (h : Returns r p) {text : String} {a : α} (ha : r.runOn text = .ok a) : p a := by
  have hwhole : Returns (wholeText r) p := by
    refine h.andThen fun b hb => .after fun next => ?_
    split
    · exact .pure hb
    · exact .failAtNext _
  rw [runOn] at ha
  split at ha
  next b rest hread =>
    cases ha
    exact hwhole _ a rest hread
  next => cases ha

end Returns

end Reader

/-! ### Values and lists of values -/

open Reader

/-- What is read as any value is in order and uses no name twice. -/
theorem returns_any (depth : Nat) : Returns (Format.any.read depth) fun v => v.canonical = v :=
  .after fun v => .pure (canonical_canonical v)

theorem returns_list {f : Format α} {p : α → Prop} (h : ∀ depth, Returns (f.read depth) p)
    (depth : Nat) : Returns ((Format.list f).read depth) fun as => ∀ a ∈ as, p a :=
  .listOf fun depth => (h depth).items

/-! ### Records -/

/-- While a record is read, what is known of its fields is as `known` says, and the fields together
are as `whole` says. -/
structure Fields.Sound (fields : Fields β σ) (known : σ → Prop) (whole : β → Prop) : Prop where
  unknown : known fields.unknown
  member : ∀ depth name s read, known s → fields.readMember depth name s = some read →
    Returns read known
  complete : ∀ s b, known s → fields.complete s = .ok b → whole b
  items : ∀ depth expected index, Returns (fields.readItems depth expected index) whole

theorem Fields.sound_nil : Fields.nil.Sound (fun _ => True) fun _ => True where
  unknown := trivial
  member := nofun
  complete _ _ _ _ := trivial
  items _ _ _ := .trivial _

theorem Fields.Sound.cons {f : Format α} {absence : Absence α} {rest : Fields β σ} {p : α → Prop}
    {known : σ → Prop} {whole : β → Prop} (hrest : rest.Sound known whole)
    (hf : ∀ depth, Returns (f.read depth) p) (hobject : ∀ a, absence.inObject = some a → p a)
    (hlist : ∀ a, absence.inList = some a → p a) (name : String) :
    (Fields.cons name f absence rest).Sound (fun s => (∀ a, s.1 = some a → p a) ∧ known s.2)
      fun b => p b.1 ∧ whole b.2 where
  unknown := ⟨nofun, hrest.unknown⟩
  member := by
    rintro depth field ⟨a?, others⟩ read ⟨ha, hothers⟩ hread
    rw [readMember] at hread
    split at hread
    -- The member is for this field. It is read only when nothing is known of the field yet.
    · cases hread
      split
      · exact .mismatch _
      · refine .after fun _ => (hf depth).andThen fun a hp => .pure ⟨?_, hothers⟩
        rintro _ ⟨⟩
        exact hp
    · obtain ⟨inner, hinner, rfl⟩ := Option.map_eq_some_iff.mp hread
      exact (hrest.member depth field others inner hothers hinner).andThen fun s hs =>
        .pure ⟨ha, hs⟩
  complete := by
    rintro ⟨a?, others⟩ b ⟨ha, hothers⟩ hb
    rw [Fields.complete] at hb
    split at hb
    next a hfound =>
      -- what completes the field was read for it or is its default
      have hp : p a := by
        cases a? with
        | some _ => exact ha a hfound
        | none => exact hobject a hfound
      cases hcomplete : rest.complete others with
      | error m =>
          rw [hcomplete] at hb
          cases hb
      | ok b' =>
          rw [hcomplete] at hb
          cases hb
          exact ⟨hp, hrest.complete others b' hothers hcomplete⟩
    next => cases hb
  items depth expected index := by
    -- the value may come from an item or from the end of the list; the others follow either way
    have hgo : ∀ a, p a →
      Returns (do return (a, ← rest.readItems depth expected (index + 1))) fun b =>
        p b.1 ∧ whole b.2 :=
      fun a ha => (hrest.items depth expected (index + 1)).andThen fun b hb => .pure ⟨ha, hb⟩
    rw [readItems]
    refine .after fun more => ?_
    dsimp only
    split
    · exact (hf depth).andThen hgo
    · split
      next a ha => exact hgo a (hlist a ha)
      next => exact Returns.andThen (.mismatch _) hgo

theorem returns_record {γ : Type} {name : String} {fields : Fields β σ} {make : β → γ}
    {split : γ → β} {known : σ → Prop} {whole : β → Prop} (h : fields.Sound known whole)
    (depth : Nat) :
    Returns ((Format.record name fields make split).read depth) fun a => ∃ b, whole b ∧
    make b = a := by
  have hobject : ∀ depth, Returns (fields.readObject (fields.readMember depth)) whole := by
    intro depth
    refine (Returns.foldMembers (fun field s hs => ?_) h.unknown).andThen fun s hs =>
      .check fun b hb => h.complete s b hs hb
    split
    next read hread => exact h.member depth field s read hs hread
    next => exact .after fun _ => .after fun _ => .pure hs
  exact (Returns.recordOf (fun depth => h.items depth _ 0) hobject).andThen fun b hb =>
    .pure ⟨b, hb, rfl⟩

end AgentGraph.Json
