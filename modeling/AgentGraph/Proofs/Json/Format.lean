import AgentGraph.Proofs.Json.Reread

/-!
# Reading what a format has written

**What is read of the text of a value is what its format gives back** (`Format.toOption_ofText?`),
in either layout, for every format in which no name is used twice in one place and that is not
nested too deeply. So whether a written value can be read, and as what, is settled by
`Format.reread`, which knows nothing of texts.

The proof follows the readers along the text, one case for each kind of format
(`Format.yields_read`). The contents of a tagged union are read as a document first, and there the
laws for documents take over.
-/

namespace AgentGraph.Json

open Numeric Reader

/-! ### How deep formats are nested -/

mutual

/-- How many levels of nesting the documents of a format have at most. -/
def Format.levels : {α : Type} → Format α → Nat
  | _, .text | _, .single | _, .word32 | _, .word64 _ | _, .coded .. | _, .names .. | _, .any => 1
  | _, .option f => f.levels
  | _, .list f => f.levels + 1
  | _, .record _ fields _ _ => fields.levels + 1
  | _, .tagged _ _ cases => cases.levels + 1
  | _, .choice _ alternatives => alternatives.levels + 1

def Fields.levels : {β σ : Type} → Fields β σ → Nat
  | _, _, .nil => 1
  | _, _, .cons _ f _ rest => max f.levels rest.levels

def Cases.levels : {α : Type} → Cases α → Nat
  | _, .nil => 1
  | _, .bare _ _ _ rest => rest.levels
  | _, .fields _ _ members _ _ rest => max members.levels rest.levels

def Alternatives.levels : {α : Type} → Alternatives α → Nat
  | _, .nil => 1
  | _, .one _ f _ _ rest => max f.levels rest.levels
  | _, .several _ _ fields _ _ rest => max (fields.levels + 1) rest.levels

end

theorem Fields.levels_pos : ∀ {β σ : Type} (fields : Fields β σ), 1 ≤ fields.levels
  | _, _, .nil => le_rfl
  | _, _, .cons _ _ _ rest => rest.levels_pos.trans (le_max_right _ _)

theorem Cases.levels_pos : ∀ {α : Type} (cases : Cases α), 1 ≤ cases.levels
  | _, .nil => le_rfl
  | _, .bare _ _ _ rest => rest.levels_pos
  | _, .fields _ _ _ _ _ rest => rest.levels_pos.trans (le_max_right _ _)

theorem Alternatives.levels_pos :
    ∀ {α : Type} (alternatives : Alternatives α), 1 ≤ alternatives.levels
  | _, .nil => le_rfl
  | _, .one _ _ _ _ rest => rest.levels_pos.trans (le_max_right _ _)
  | _, .several _ _ _ _ _ rest => rest.levels_pos.trans (le_max_right _ _)

theorem Format.levels_pos : ∀ {α : Type} (f : Format α), 1 ≤ f.levels
  | _, .text | _, .single | _, .word32 | _, .word64 _ | _, .coded .. | _, .names .. | _,
      .any => le_rfl
  | _, .option f => f.levels_pos
  | _, .list _ | _, .record .. | _, .tagged .. | _, .choice .. => Nat.le_add_left 1 _

/-- There is a level left where something is nested. -/
theorem exists_levels {n depth : Nat} (hn : 1 ≤ n) (h : n + 1 ≤ depth) :
    ∃ d, depth = d + 2 ∧ n ≤ d + 1 :=
  ⟨depth - 2, by omega, by omega⟩

mutual

/-- What a lawful format writes can be read as a document. -/
theorem Format.readable_encode :
    ∀ {α : Type} (f : Format α), f.isLawful = true → ∀ {depth : Nat}, f.levels ≤ depth →
    ∀ a, Readable depth (f.encode a)
  | _, .text, _, depth, h, s => by
      obtain ⟨d, rfl⟩ := Nat.exists_eq_add_of_le' h
      exact .string s
  | _, .single, _, depth, h, x => by
      obtain ⟨d, rfl⟩ := Nat.exists_eq_add_of_le' h
      rw [Format.encode, ofSingle]
      -- a number that is not finite is written as null
      split
      · next hx => exact .number (.single hx)
      · exact .null
  | _, .word32, _, depth, h, n => by
      obtain ⟨d, rfl⟩ := Nat.exists_eq_add_of_le' h
      have hn : n.toNat < 2 ^ 32 := n.toNat_lt
      exact .number (.whole (hn.le.trans (by decide)))
  | _, .word64 _, _, depth, h, n => by
      obtain ⟨d, rfl⟩ := Nat.exists_eq_add_of_le' h
      exact .number (.whole (Nat.le_sub_one_of_lt n.toNat_lt))
  | _, .coded _ _ write, _, depth, h, a => by
      obtain ⟨d, rfl⟩ := Nat.exists_eq_add_of_le' h
      exact .string _
  | _, .names _ name, _, depth, h, a => by
      obtain ⟨d, rfl⟩ := Nat.exists_eq_add_of_le' h
      exact .string _
  | _, .option f, hlawful, depth, h, none => by
      obtain ⟨d, rfl⟩ := Nat.exists_eq_add_of_le' (f.levels_pos.trans h)
      exact .null
  | _, .option f, hlawful, depth, h, some a => f.readable_encode hlawful h a
  | _, .list f, hlawful, depth, h, as => by
      -- every bracket costs a level, and the rest of the levels are left for what is inside
      obtain ⟨d, rfl, hd⟩ := exists_levels f.levels_pos h
      refine .list fun v hv => ?_
      obtain ⟨a, -, rfl⟩ := List.mem_map.mp hv
      exact f.readable_encode hlawful hd a
  | _, .any, hlawful, _, _, _ => by cases hlawful
  | _, .record _ fields _ split, hlawful, depth, h, a => by
      obtain ⟨d, rfl, hd⟩ := exists_levels fields.levels_pos h
      exact .object (fields.readable_encode hlawful hd (split a))
  | _, .tagged _ tag cases, hlawful, depth, h, a => by
      obtain ⟨d, rfl, hd⟩ := exists_levels cases.levels_pos h
      rw [Format.encode, Cases.encode_eq]
      -- a value that no case fits is written as an object without members
      cases hselect : cases.select a with
      | none => exact .object (by simp)
      | some m =>
          exact .object
            (List.forall_mem_cons.mpr ⟨.string m.1, cases.readable_select hlawful hd hselect⟩)
  | _, .choice _ alternatives, hlawful, depth, h, a => by
      obtain ⟨d, rfl, hd⟩ := exists_levels alternatives.levels_pos h
      rw [Format.encode, Alternatives.encode_eq]
      cases hselect : alternatives.select a with
      | none => exact .null
      | some m => exact .object (by simpa using alternatives.readable_select hlawful hd hselect)

theorem Fields.readable_encode :
    ∀ {β σ : Type} (fields : Fields β σ), fields.isLawful = true →
    ∀ {depth : Nat}, fields.levels ≤ depth → ∀ b, ∀ m ∈ fields.encode b, Readable depth m.2
  | _, _, .nil, _, _, _, _, _, hm => by cases hm
  | _, _, .cons name f absence rest, hlawful, depth, h, (a, b), m, hm => by
      simp only [Fields.isLawful, Bool.and_eq_true] at hlawful
      rw [Fields.encode] at hm
      split at hm
      · exact rest.readable_encode hlawful.2 ((le_max_right _ _).trans h) b m hm
      · rcases List.mem_cons.mp hm with rfl | hm
        · exact f.readable_encode hlawful.1.2 ((le_max_left _ _).trans h) a
        · exact rest.readable_encode hlawful.2 ((le_max_right _ _).trans h) b m hm

theorem Fields.readable_encodeItems : ∀ {β σ : Type} (fields : Fields β σ), fields.isLawful = true →
    ∀ {depth : Nat}, fields.levels ≤ depth → ∀ b, ∀ v ∈ fields.encodeItems b, Readable depth v
  | _, _, .nil, _, _, _, _, _, hv => by cases hv
  | _, _, .cons name f absence rest, hlawful, depth, h, (a, b), v, hv => by
      simp only [Fields.isLawful, Bool.and_eq_true] at hlawful
      rcases List.mem_cons.mp hv with rfl | hv
      · exact f.readable_encode hlawful.1.2 ((le_max_left _ _).trans h) a
      · exact rest.readable_encodeItems hlawful.2 ((le_max_right _ _).trans h) b v hv

theorem Cases.readable_select {tag : String} :
    ∀ {α : Type} (cases : Cases α), cases.isLawful tag = true →
    ∀ {depth : Nat}, cases.levels ≤ depth → ∀ {a : α} {label : String} {ms : List (String × Json)},
      cases.select a = some (label, ms) → ∀ m ∈ ms, Readable depth m.2
  | _, .nil, _, _, _, _, _, _, hselect => by cases hselect
  | _, .bare _ _ _ rest, hlawful, _, h, _, _, _, hselect => by
      simp only [Cases.isLawful, Bool.and_eq_true] at hlawful
      -- either this case is chosen, or the value is left to the others
      rcases Cases.of_select_bare hselect with ⟨-, -, rfl⟩ | ⟨-, hselect⟩
      · exact List.forall_mem_nil _
      · exact rest.readable_select hlawful.2 h hselect
  | _, .fields _ _ members _ _ rest, hlawful, _, h, _, _, _, hselect => by
      simp only [Cases.isLawful, Bool.and_eq_true] at hlawful
      rcases Cases.of_select_fields hselect with ⟨b, -, -, rfl⟩ | ⟨-, hselect⟩
      · exact members.readable_encode hlawful.1.2 ((le_max_left _ _).trans h) b
      · exact rest.readable_select hlawful.2 ((le_max_right _ _).trans h) hselect

theorem Alternatives.readable_select :
    ∀ {α : Type} (alternatives : Alternatives α), alternatives.isLawful = true →
    ∀ {depth : Nat}, alternatives.levels ≤ depth → ∀ {a : α} {label : String} {v : Json},
      alternatives.select a = some (label, v) → Readable depth v
  | _, .nil, _, _, _, _, _, _, hselect => by cases hselect
  | _, .one _ f _ _ rest, hlawful, _, h, _, _, _, hselect => by
      simp only [Alternatives.isLawful, Bool.and_eq_true] at hlawful
      rcases Alternatives.of_select_one hselect with ⟨b, -, -, rfl⟩ | ⟨-, hselect⟩
      · exact f.readable_encode hlawful.1.2 ((le_max_left _ _).trans h) b
      · exact rest.readable_select hlawful.2 ((le_max_right _ _).trans h) hselect
  | _, .several _ _ fields _ _ rest, hlawful, _, h, _, _, _, hselect => by
      simp only [Alternatives.isLawful, Bool.and_eq_true] at hlawful
      -- several fields are written as one list, which costs a level more
      rcases Alternatives.of_select_several hselect with ⟨b, -, -, rfl⟩ | ⟨-, hselect⟩
      · obtain ⟨d, rfl, hd⟩ := exists_levels fields.levels_pos ((le_max_left _ _).trans h)
        exact .list (fields.readable_encodeItems hlawful.1.2 hd b)
      · exact rest.readable_select hlawful.2 ((le_max_right _ _).trans h) hselect

end

/-! ### The readers of formats -/

namespace Reader

variable {α σ : Type} {style : Style} {rest ws : List Char}

theorem yields_stringAs (expected : String) (meaning : String → Except Mismatch α) (s : String)
    (hws : Blanks ws) (rest : List Char) :
    Yields (stringAs expected meaning) (ws ++ printString s rest) (meaning s).toOption rest := by
  refine (yields_peekValue hws rfl).andThen ?_
  rw [if_pos rfl]
  exact (yields_skip.andThen
    ((yields_stringBody s rest).andThen (yields_check (meaning s) rest))).located

theorem yields_numberAs (style : Style) (expected : String) (meaning : Number → Except Mismatch α)
    {n : Number} (hn : n.Plain) (k : Nat) (hws : Blanks ws) (hrest : EndsNumber rest) :
    Yields (numberAs expected meaning) (ws ++ print style k (.number n) rest)
    (meaning n.reread).toOption rest := by
  obtain ⟨c, more, hprint, hbegins, hnumber⟩ := exists_print_number style hn k hrest
  rw [hprint]
  refine (yields_peekValue hws (isBlank_of_beginsNumber hbegins)).andThen ?_
  rw [if_pos hbegins]
  exact (hnumber.andThen (yields_check (meaning n.reread) rest)).located

/-- Null is no number. -/
theorem yields_numberAs_null (expected : String) (meaning : Number → Except Mismatch α) (k : Nat)
    (hws : Blanks ws) :
    Yields (numberAs expected meaning) (ws ++ print style k .null rest) none rest := by
  refine (yields_peekValue hws rfl).andThen ?_
  have hnull : Yields (do
      skip
      word ['u', 'l', 'l']
      mismatch (.wrongType .null expected) : Reader α) ('n' :: 'u' :: 'l' :: 'l' :: rest)
      none rest :=
    yields_skip.andThen ((yields_word ['u', 'l', 'l'] rest).andThen (yields_mismatch _))
  exact ((yields_peek? _).andThen hnull).located

theorem yields_listOf {depth : Nat} (expected : String) {body : Nat → Reader α} {k : Nat}
    {vs : List Json} {o : Option α} (hws : Blanks ws) {ws' : List Char} (hws' : Blanks ws')
    (h : Yields (body (depth + 1)) (openItems style k vs rest) o (ws' ++ ']' :: rest)) :
    Yields (listOf (depth + 2) expected body) (ws ++ print style k (.list vs) rest) o rest := by
  rw [print_list]
  refine (yields_peekValue hws rfl).andThen ?_
  rw [if_pos rfl]
  have hnested :
      Yields (nested (depth + 2) body) ('[' :: openItems style k vs rest) o (ws' ++ ']' :: rest) :=
    yields_skip.andThen h
  exact (hnested.closedBy (yields_endList hws')).located

theorem yields_recordOf {depth : Nat} (expected : String) (fromList : Nat → Reader α)
    {fromObject : Nat → Reader α} {k : Nat} {ms : List (String × Json)} {o : Option α}
    (hws : Blanks ws)
    (h : Yields (fromObject (depth + 1)) (openMembers style k ms rest) o ('\x7d' :: rest)) :
    Yields (recordOf (depth + 2) expected fromList fromObject)
    (ws ++ print style k (.object ms) rest) o rest := by
  rw [print_object]
  refine (yields_peekValue hws rfl).andThen ?_
  have hnested : Yields (nested (depth + 2) fromObject) ('\x7b' :: openMembers style k ms rest) o
      ('\x7d' :: rest) :=
    yields_skip.andThen h
  exact (hnested.closedBy (yields_endObject blanks_nil)).located

/-- A step that only adds to what the other one takes note of. -/
theorem Steps.map {τ : Type} {depth : Nat} {step : String → σ → Reader σ}
    {step' : String → τ → Reader τ} (g : σ → τ) {ms : List (String × Json)}
    (hstep : ∀ m ∈ ms, ∀ s, step' m.1 (g s) = g <$> step m.1 s) {s : σ} {o : Option σ}
    (h : Steps style depth step ms s o) : Steps style depth step' ms (g s) (o.map g) := by
  induction h with
  | done s => exact .done (g s)
  | @stop name v ms s h =>
      refine .stop fun rest hrest => ?_
      rw [hstep (name, v) (List.mem_cons_self ..)]
      exact (h rest hrest).map g
  | @next name v ms s s' o h _ ih =>
      -- the same text is read, and the state goes through `g` afterwards
      have hhead : ∀ rest, EndsNumber rest →
          Yields (step' name (g s)) (style.colon ++ print style depth v rest)
          (some (g s')) rest := by
        intro rest hrest
        rw [hstep (name, v) (List.mem_cons_self ..)]
        exact (h rest hrest).map g
      exact .next hhead (ih fun m hm => hstep m (List.mem_cons_of_mem _ hm))

end Reader

/-! ### Tagged unions -/

/-- The tag and the members beside it are found. -/
theorem yields_tagAndRest {style : Style} {rest ws : List Char} {depth : Nat} (name : String)
    {tag label : String} {known : List String} {ms : List (String × Json)} (k : Nat)
    (hws : Blanks ws) (hlabel : label ∈ known) (hne : ∀ m ∈ ms, m.1 ≠ tag)
    (hreadable : ∀ m ∈ ms, Readable (depth + 1) m.2) :
    Yields (tagAndRest (depth + 2) name tag known)
      (ws ++ print style k (.object ((tag, .string label) :: ms)) rest)
      (some (label, .object (rereadMembers ms))) rest := by
  refine yields_recordOf _ _ hws ?_
  -- the step of the reader is named, so that the two lemmas about it can be stated
  set member : String → Option String × List (String × Json) →
    Reader (Option String × List (String × Json)) :=
    fun key acc =>
      if key = tag then
        if acc.1.isSome then mismatch (.duplicateField tag)
        else do
          colon
          return (some (← Reader.label known), acc.2)
      else do
        colon
        return (acc.1, (key, ← value (depth + 1)) :: acc.2) with hmember
  obtain ⟨wsColon, hwsColon, hcolon⟩ := yields_colon style
  -- the tag comes first: its label is noted, and no member yet
  have htag : ∀ rest, EndsNumber rest → Yields (member tag (none, []))
      (style.colon ++ print style (k + 1) (.string label) rest) (some (some label, [])) rest := by
    intro rest _
    have hknown :
        Yields (Reader.label known) (wsColon ++ printString label rest) (some label) rest := by
      have := yields_stringAs "variant identifier"
        (fun s => if s ∈ known then .ok s else .error (.unknownVariant s known)) label hwsColon rest
      rwa [if_pos hlabel] at this
    rw [hmember]
    dsimp only
    rw [if_pos rfl]
    exact (hcolon _).andThen (hknown.andThen (.pure _ _))
  -- behind it no member is called like the tag, so they are set aside one by one
  have hmore :
      Steps style (k + 1) member ms (some label, [])
      (some (some label, (rereadMembers ms).reverse)) := by
    have hsteps : Steps style (k + 1) (fun name read => do
        colon
        return (name, ← value (depth + 1)) :: read) ms []
        (some ((rereadMembers ms).reverse ++ [])) := by
      refine steps_members (fun m hm read rest hrest => ?_) []
      exact (hcolon _).andThen
        ((yields_value (hreadable m hm) (k + 1) hwsColon hrest).andThen (.pure _ _))
    rw [List.append_nil] at hsteps
    refine hsteps.map (fun read => (some label, read)) fun m hm read => ?_
    rw [hmember]
    dsimp only
    rw [if_neg (hne m hm), map_eq_bind]
    simp
  refine (yields_foldMembers (.next htag hmore)).andThen ?_
  dsimp only
  rw [List.reverse_reverse]
  exact .pure _ _

/-- Without a tag there is no alternative. -/
theorem yields_tagAndRest_none {style : Style} {rest ws : List Char} {depth : Nat}
    (name tag : String) (known : List String) (k : Nat) (hws : Blanks ws) :
    Yields (tagAndRest (depth + 2) name tag known)
    (ws ++ print style k (.object []) rest) none rest := by
  refine yields_recordOf _ _ hws ?_
  exact (yields_foldMembers (.done _)).andThen (yields_mismatch _)

/-! ### Records -/

/-- What an object's reader does with one member. -/
def Fields.noteMember {β σ : Type} (fields : Fields β σ) (depth : Nat) (name : String) (known : σ) :
    Reader σ :=
  match fields.readMember depth name known with
  | some read => read
  | none => do
    colon
    skipValue
    return known

theorem Fields.noteMember_cons {α β σ : Type} {name : String} {f : Format α} {absence : Absence α}
    {rest : Fields β σ} {depth : Nat} {n : String} (hn : n ≠ name) (a? : Option α) (known : σ) :
    (Fields.cons name f absence rest).noteMember depth n (a?, known) =
      (a?, ·) <$> rest.noteMember depth n known := by
  rw [Fields.noteMember, Fields.readMember, if_neg hn, Fields.noteMember]
  cases rest.readMember depth n known with
  | some read => exact (map_eq_bind _ read).symm
  | none => simp

/-- A record is what becomes of its members. -/
theorem yields_record {α β σ : Type} {fields : Fields β σ} {name : String} {make : β → α}
    {split : α → β} {style : Style} {depth k : Nat} {ms : List (String × Json)} {o : Option σ}
    (h : Steps style (k + 1) (fields.noteMember (depth + 1)) ms fields.unknown o) {ws : List Char}
    (hws : Blanks ws) (rest : List Char) :
    Yields ((Format.record name fields make split).read (depth + 2))
      (ws ++ print style k (.object ms) rest)
      ((o.bind fun known => (fields.complete known).toOption).map make) rest := by
  -- the fields are noted as they come, and looked through when the object ends
  have hobject :
      Yields (fields.readObject (fields.readMember (depth + 1))) (openMembers style k ms rest)
        (o.bind fun known => (fields.complete known).toOption) ('\x7d' :: rest) :=
    (yields_foldMembers h).bind fun known _ => yields_check (fields.complete known) _
  have hrecord : Yields (recordOf (depth + 2) s!"struct {name}"
      (fun depth => fields.readItems depth s!"struct {name} with {elements fields.count}" 0)
      (fun depth => fields.readObject (fields.readMember depth)))
      (ws ++ print style k (.object ms) rest) _ rest :=
    yields_recordOf _ _ hws hobject
  exact hrecord.map make

/-- The item that stands next is read as the first field, and the others after it. -/
theorem Fields.yields_readItems_cons {α β σ : Type} {name : String} {f : Format α}
    {absence : Absence α} {rest : Fields β σ} {depth index : Nat} {expected : String}
    {cs mid more unread : List Char} {a? : Option α} {b? : Option β}
    (hitem : Yields (hasItem (index = 0)) cs (some true) mid)
    (hf : Yields (f.read depth) mid a? more)
    (hrest : Yields (rest.readItems depth expected (index + 1)) more b? unread) :
    Yields ((Fields.cons name f absence rest).readItems depth expected index) cs
      (do return (← a?, ← b?)) unread := by
  rw [Fields.readItems]
  exact hitem.andThen (hf.bind fun a _ => hrest.bind fun b _ => .pure (a, b) _)

/-! ### Every format -/

section

variable {style : Style}

/-- An object with one member, read as an alternative. -/
theorem yields_alternative {α : Type} {depth k : Nat} (bare : Reader α) {full : Nat → Reader α}
    {label : String} {v : Json} {o : Option α} {ws rest : List Char} (hws : Blanks ws)
    (h : Yields (full (depth + 1)) (openMembers style k [(label, v)] rest) o
      (style.lineBreak k ++ '\x7d' :: rest)) :
    Yields (alternative (depth + 2) bare full)
    (ws ++ print style k (.object [(label, v)]) rest) o rest := by
  rw [print_object]
  refine (yields_peekValue hws rfl).andThen ?_
  have hnested :
      Yields (nested (depth + 2) full) ('\x7b' :: openMembers style k [(label, v)] rest) o
        (style.lineBreak k ++ '\x7d' :: rest) :=
    yields_skip.andThen h
  cases o with
  | none => exact hnested.fault
  | some a => exact hnested.andThen ((yields_peekToken? (blanks_lineBreak style k) rfl).andThen
      (yields_skip.andThen (.pure a rest)))

/-- Null is read as no value. -/
theorem Format.yields_option_null {α : Type} (f : Format α) (depth k : Nat) {ws : List Char}
    (hws : Blanks ws) (rest : List Char) :
    Yields ((Format.option f).read depth) (ws ++ print style k .null rest) (some none) rest := by
  refine (yields_peekToken? hws rfl).andThen ?_
  exact yields_skip.andThen ((yields_word ['u', 'l', 'l'] rest).andThen (.pure _ _))

/-- Everything else is read as a value. -/
theorem Format.yields_option {α : Type} {f : Format α} {depth k : Nat} {ws rest : List Char}
    (hws : Blanks ws) {v : Json} (hnull : v ≠ .null) {c : Char} (hc : Begins v c) {o : Option α}
    (hread : Yields (f.read depth) (print style k v rest) o rest) :
    Yields ((Format.option f).read depth) (ws ++ print style k v rest) (o.map some) rest := by
  obtain ⟨more, hmore⟩ := hc.print style k rest
  rw [hmore] at hread ⊢
  refine (yields_peekToken? hws hc.notBlank).andThen ?_
  split
  · next heq => exact absurd (hc.null (Option.some.inj heq)) hnull
  · rw [← map_eq_bind]
    exact hread.map some

mutual

/-- **What is read of the text of a value is what its format gives back.** -/
theorem Format.yields_read :
    ∀ {α : Type} (f : Format α), f.isLawful = true → ∀ {depth : Nat}, f.levels ≤ depth →
    ∀ (a : α) (k : Nat) {ws rest : List Char}, Blanks ws → EndsNumber rest →
      Yields (f.read depth) (ws ++ print style k (f.encode a) rest) (f.reread a) rest
  | _, .text, _, _, _, s, _, _, rest, hws, _ => yields_stringAs "a string" .ok s hws rest
  | _, .single, _, _, _, x, k, _, _, hws, hrest => by
      rw [Format.encode, ofSingle, Format.reread, rereadSingle]
      split
      · next hx => exact yields_numberAs style "f32" _ (.single hx) k hws hrest
      · exact yields_numberAs_null "f32" _ k hws
  | _, .word32, _, _, _, n, k, _, _, hws, hrest => by
      -- a word has no more digits than are read exactly
      have hplain : (Number.whole n.toNat).Plain := .whole (n.toNat_lt.le.trans (by decide))
      have :=
        yields_numberAs style "u32"
          (fun n => (n.toWord (Nat.pow 2 32) "u32").map UInt32.ofNat) hplain k
        hws hrest
      rwa [toWord_word32] at this
  | _, .word64 name, _, _, _, n, k, _, _, hws, hrest => by
      have hplain : (Number.whole n.toNat).Plain := .whole (Nat.le_sub_one_of_lt n.toNat_lt)
      have :=
        yields_numberAs style name
          (fun n => (n.toWord (Nat.pow 2 64) name).map UInt64.ofNat) hplain k
        hws hrest
      rwa [toWord_word64] at this
  | _, .coded expected parse write, _, _, _, a, k, _, rest, hws, _ => by
      have := yields_stringAs expected (fun s => (parse s).mapError .malformed) (write a) hws rest
      rwa [toOption_mapError] at this
  | _, .names table name, _, _, _, a, k, _, rest, hws, _ => by
      refine (yields_peekValue hws rfl).andThen ?_
      have := yields_stringAs "variant identifier" (lookUpName table) (name a) blanks_nil rest
      rwa [toOption_lookUpName] at this
  | _, .option f, _, depth, _, none, k, _, rest, hws, _ => f.yields_option_null depth k hws rest
  | _, .option f, hlawful, depth, hdepth, some a, k, ws, rest, hws, hrest => by
      obtain ⟨c, hc⟩ := (f.readable_encode hlawful hdepth a).begins
      have hread := f.yields_read hlawful hdepth a k blanks_nil hrest
      rw [Format.encode, Option.map_some, Option.getD_some, Format.reread]
      split
      · next hnull =>
        -- a value that is written as null is taken for none
        rw [hnull]
        exact f.yields_option_null depth k hws rest
      · next hnull => exact Format.yields_option hws hnull hc hread
  | _, .list f, hlawful, depth, hdepth, as, k, ws, rest, hws, hrest => by
      obtain ⟨d, rfl, hd⟩ := exists_levels f.levels_pos hdepth
      -- an item is in front of a comma or a bracket, which ends a number
      refine yields_listOf _ hws blanks_nil ?_
      exact yields_items (fun a _ => (f.readable_encode hlawful hd a).begins)
        fun a _ rest hrest => f.yields_read hlawful hd a (k + 1) blanks_nil hrest
  | _, .any, hlawful, _, _, _, _, _, _, _, _ => by cases hlawful
  | _, .record name fields make split, hlawful, depth, hdepth, a, k, ws, rest, hws, hrest => by
      obtain ⟨d, rfl, hd⟩ := exists_levels fields.levels_pos hdepth
      exact yields_record (fields.steps_read hlawful hd (split a) (k + 1)) hws rest
  | _, .tagged name tag cases, hlawful, depth, hdepth, a, k, ws, rest, hws, hrest => by
      obtain ⟨d, rfl, hd⟩ := exists_levels cases.levels_pos hdepth
      rw [Format.encode, Cases.encode_eq, Format.reread]
      cases hselect : cases.select a with
      | none =>
          -- no case fits the value, so it has no tag, and it is refused
          rw [Cases.reread_of_select hselect]
          exact (yields_tagAndRest_none name tag cases.tags k hws).fault
      | some m =>
          obtain ⟨label, ms⟩ := m
          -- the members behind the tag are set aside as they are, and decoded from memory
          rw [← Cases.decode_reread cases hlawful name a label ms hselect]
          exact (yields_tagAndRest name k hws (Cases.mem_tags hselect)
            (Cases.ne_tag hlawful hselect) (cases.readable_select hlawful hd hselect)).andThen
            (yields_check _ _)
  | _, .choice name alternatives, hlawful, depth, hdepth, a, k, ws, rest, hws, hrest => by
      obtain ⟨d, rfl, hd⟩ := exists_levels alternatives.levels_pos hdepth
      rw [Format.encode, Alternatives.encode_eq, Format.reread]
      cases hselect : alternatives.select a with
      | none =>
          rw [Alternatives.reread_of_select hselect]
          exact (yields_peekValue hws rfl).andThen (yields_failAtNext _)
      | some m =>
          obtain ⟨label, v⟩ := m
          -- an alternative with contents is an object with one member, named for it
          refine yields_alternative _ hws ?_
          obtain ⟨wsColon, hwsColon, hcolon⟩ := yields_colon style
          have hlabel := yields_stringAs "variant identifier"
            (fun s => if s ∈ alternatives.labels then .ok s
              else .error (.unknownVariant s alternatives.labels)) label
            (blanks_lineBreak style (k + 1))
            (style.colon ++ print style (k + 1) v (printMembers style k [] rest))
          rw [if_pos (Alternatives.mem_labels hselect)] at hlabel
          exact Yields.andThen hlabel ((hcolon _).andThen
            (alternatives.yields_readContents hlawful hd hselect (k + 1) hwsColon
            (endsNumber_printMembers [])))

/-- What comes of the members of a record. -/
theorem Fields.steps_read :
    ∀ {β σ : Type} (fields : Fields β σ), fields.isLawful = true →
    ∀ {depth : Nat}, fields.levels ≤ depth → ∀ (b : β) (k : Nat),
      Steps style k (fields.noteMember depth) (fields.encode b) fields.unknown (fields.known b)
  | _, _, .nil, _, _, _, _, _ => .done ()
  | _, _, .cons name f absence rest, hlawful, depth, hdepth, (a, b), k => by
      simp only [Fields.isLawful, Bool.and_eq_true, decide_eq_true_eq] at hlawful
      obtain ⟨⟨hname, hf⟩, hrest⟩ := hlawful
      -- once the first field is dealt with, the others go on as if it were not there
      have hothers : ∀ a?,
          Steps style k ((Fields.cons name f absence rest).noteMember depth) (rest.encode b)
            (a?, rest.unknown) ((rest.known b).map (a?, ·)) := fun a? =>
        (rest.steps_read hrest ((le_max_right _ _).trans hdepth) b k).map (a?, ·) fun m hm s =>
          Fields.noteMember_cons (ne_of_mem_of_not_mem (rest.names_encode b m hm) hname) a? s
      rw [Fields.encode, Fields.known]
      split
      -- the field is hidden, so nothing is written for it
      · have := hothers none
        rw [Option.map_eq_bind] at this
        exact this
      -- The field is written. When its value cannot be read again the reading stops there.
      · obtain ⟨ws, hws, hcolon⟩ := yields_colon style
        have hread : ∀ unread, EndsNumber unread → Yields
            ((Fields.cons name f absence rest).noteMember depth name (none, rest.unknown))
            (style.colon ++ print style k (f.encode a) unread)
              ((f.reread a).map fun a => (some a, rest.unknown))
            unread := by
          intro unread hunread
          rw [Fields.noteMember, Fields.readMember, if_pos rfl]
          exact (hcolon _).andThen
            ((f.yields_read hf ((le_max_left _ _).trans hdepth) a k hws hunread).map fun a =>
            (some a, rest.unknown))
        cases hreread : f.reread a with
        | none =>
            rw [hreread] at hread
            exact .stop hread
        | some a' =>
            rw [hreread] at hread
            have := hothers (some a')
            rw [Option.map_eq_bind] at this
            exact .next hread this

/-- What comes of the items of a record after the first one. -/
theorem Fields.yields_readItems :
    ∀ {β σ : Type} (fields : Fields β σ), fields.isLawful = true →
    ∀ {depth : Nat}, fields.levels ≤ depth →
    ∀ (expected : String) (index : Nat) (b : β) (k : Nat) {rest : List Char},
      Yields (fields.readItems depth expected (index + 1))
        (printItems style k (fields.encodeItems b) rest)
        (fields.rereadItems b) (style.lineBreak k ++ ']' :: rest)
  | _, _, .nil, _, _, _, _, _, _, _, _ => .pure _ _
  | _, _, .cons name f absence rest, hlawful, depth, hdepth, expected, index, (a, b), k,
      unread => by
      simp only [Fields.isLawful, Bool.and_eq_true] at hlawful
      have hf := (le_max_left _ _).trans hdepth
      obtain ⟨c, hc⟩ := (f.readable_encode hlawful.1.2 hf a).begins
      -- the next character has to be seen before it is known that there is an item
      obtain ⟨more, hmore⟩ :=
        hc.print style (k + 1) (printItems style k (rest.encodeItems b) unread)
      have hread := f.yields_read hlawful.1.2 hf a (k + 1) blanks_nil
        (endsNumber_printItems (rest.encodeItems b) : EndsNumber (printItems style k _ unread))
      rw [List.nil_append, hmore] at hread
      rw [Fields.encodeItems, printItems, hmore]
      exact Fields.yields_readItems_cons
        (yields_hasItem_next (blanks_lineBreak style _) hc.notBlank hc.notClosing)
        hread (rest.yields_readItems hlawful.2 ((le_max_right _ _).trans hdepth) expected
          (index + 1) b k)

/-- What comes of the items of a record. -/
theorem Fields.yields_readItems_open :
    ∀ {β σ : Type} (fields : Fields β σ), fields.isLawful = true →
    ∀ {depth : Nat}, fields.levels ≤ depth →
    ∀ (expected : String) (b : β) (k : Nat) (rest : List Char),
      ∃ ws, Blanks ws ∧
      Yields (fields.readItems depth expected 0) (openItems style k (fields.encodeItems b) rest)
        (fields.rereadItems b) (ws ++ ']' :: rest)
  | _, _, .nil, _, _, _, _, _, _, _ => ⟨[], blanks_nil, .pure _ _⟩
  | _, _, .cons name f absence rest, hlawful, depth, hdepth, expected, (a, b), k, unread => by
      simp only [Fields.isLawful, Bool.and_eq_true] at hlawful
      have hf := (le_max_left _ _).trans hdepth
      obtain ⟨c, hc⟩ := (f.readable_encode hlawful.1.2 hf a).begins
      obtain ⟨more, hmore⟩ :=
        hc.print style (k + 1) (printItems style k (rest.encodeItems b) unread)
      have hread := f.yields_read hlawful.1.2 hf a (k + 1) blanks_nil
        (endsNumber_printItems (rest.encodeItems b) : EndsNumber (printItems style k _ unread))
      rw [List.nil_append, hmore] at hread
      refine ⟨style.lineBreak k, blanks_lineBreak style k, ?_⟩
      rw [Fields.encodeItems, openItems, hmore]
      exact Fields.yields_readItems_cons
        (yields_hasItem_first (blanks_lineBreak style _) hc.notBlank hc.notClosing)
        hread (rest.yields_readItems hlawful.2 ((le_max_right _ _).trans hdepth) expected 0 b k)

/-- What comes of the contents of an alternative. -/
theorem Alternatives.yields_readContents : ∀ {α : Type} (alternatives : Alternatives α),
    alternatives.isLawful = true → ∀ {depth : Nat}, alternatives.levels ≤ depth →
    ∀ {a : α} {label : String} {v : Json}, alternatives.select a = some (label, v) →
      ∀ (k : Nat) {ws rest : List Char}, Blanks ws → EndsNumber rest →
        Yields (alternatives.readContents depth label) (ws ++ print style k v rest)
          (alternatives.reread a) rest
  | _, .nil, _, _, _, _, _, _, h, _, _, _, _, _ => by cases h
  | _, .one found f make split others, hlawful, depth, hdepth, a, label, v, h, k, ws, rest,
      hws, hrest => by
      simp only [Alternatives.isLawful, Bool.and_eq_true, decide_eq_true_eq] at hlawful
      rw [Alternatives.readContents, Alternatives.reread]
      rcases Alternatives.of_select_one h with ⟨b, hsplit, rfl, rfl⟩ | ⟨hsplit, h⟩ <;> rw [hsplit]
      -- the value is of this alternative
      · rw [if_pos rfl]
        exact (f.yields_read hlawful.1.2 ((le_max_left _ _).trans hdepth) b k hws hrest).map make
      -- it is of a later one, and labels differ
      · rw [if_neg (ne_of_mem_of_not_mem (Alternatives.mem_labels h) hlawful.1.1)]
        exact others.yields_readContents hlawful.2 ((le_max_right _ _).trans hdepth) h k hws hrest
  | _, .several found name members make split others, hlawful, depth, hdepth, a, label, v, h, k,
      ws, rest, hws, hrest => by
      simp only [Alternatives.isLawful, Bool.and_eq_true, decide_eq_true_eq] at hlawful
      rw [Alternatives.readContents, Alternatives.reread]
      rcases Alternatives.of_select_several h with ⟨b, hsplit, rfl, rfl⟩ | ⟨hsplit, h⟩
        <;> rw [hsplit]
      · rw [if_pos rfl]
        obtain ⟨d, rfl, hd⟩ := exists_levels members.levels_pos ((le_max_left _ _).trans hdepth)
        obtain ⟨ws', hws', hitems⟩ := members.yields_readItems_open hlawful.1.2 hd
          s!"{name} with {elements members.count}" b k rest
        have hlist : Yields (listOf (d + 2) name fun depth =>
            members.readItems depth s!"{name} with {elements members.count}" 0)
            (ws ++ print style k (.list (members.encodeItems b)) rest) _ rest :=
              yields_listOf name hws hws' hitems
        exact hlist.map make
      · rw [if_neg (ne_of_mem_of_not_mem (Alternatives.mem_labels h) hlawful.1.1)]
        exact others.yields_readContents hlawful.2 ((le_max_right _ _).trans hdepth) h k hws hrest

end

end

/-! ### Whole texts -/

theorem toOption_runOn {α : Type} {r : Reader α} {text : String} {o : Option α}
    (h : Yields r text.toList o []) : (r.runOn text).toOption = o := by
  rw [Reader.runOn]
  cases o with
  | some a =>
      have hwhole : Yields (wholeText r) text.toList (some a) [] := h.andThen rfl
      rw [show (wholeText r).run text.toList = _ from hwhole]
      rfl
  | none =>
      obtain ⟨fault, unread, hfault⟩ : Yields (wholeText r) text.toList none [] := h.fault
      rw [show (wholeText r).run text.toList = _ from hfault]
      rfl

/-- **What is read of the text of a value is what its format gives back**, in either layout. -/
theorem Format.toOption_ofText? {α : Type} {f : Format α} (hlawful : f.isLawful = true)
    (hlevels : f.levels ≤ maxDepth) (style : Style) (a : α) :
    (f.ofText? ((f.encode a).render style)).toOption = f.reread a := by
  refine toOption_runOn ?_
  rw [render, String.toList_ofList]
  exact f.yields_read hlawful hlevels a 0 blanks_nil endsNumber_nil

end AgentGraph.Json
