import AgentGraph.Json.Printer
import AgentGraph.Json.Reader
import Mathlib.Tactic.IntervalCases

/-!
# Reading what was written: the leaves

`Reader.Yields r cs o rest` says what comes of a reader on a text: with `o = some a` it reads `a`
and leaves `rest`, and with `o = none` it faults. One law for each way to put readers together
(`Yields.bind`, `Yields.map`, `Yields.located`, `Yields.closedBy`) makes this a calculus, in which a
reader is followed along a text that a printer has written. The laws can also be read backwards
(`Yields.of_bind` and the others): from what a whole reader has read to what its parts have read.

Here are the leaves: blanks, punctuation, words and strings. A string is read back as it was written
(`stringBody_printChars`), because one turn of the reader undoes the writing of one character
(`stringRest_escapeChar`).
-/

namespace AgentGraph.Json.Reader

variable {α β : Type} {cs mid rest : List Char}

/-! ### What comes of a reader -/

/-- The reader reads `o` and leaves `rest`, or faults if there is nothing to read. -/
def Yields (r : Reader α) (cs : List Char) (o : Option α) (rest : List Char) : Prop :=
  match o with
  | some a => r cs = (.ok a, rest)
  | none => ∃ fault unread, r cs = (.error fault, unread)

theorem bind_apply (r : Reader α) (k : α → Reader β) :
    (r >>= k) cs = match r cs with
      | (.ok a, rest) => k a rest
      | (.error fault, rest) => (.error fault, rest) := by
  show ((ExceptT.bind r k) : StateM (List Char) _) cs = _
  simp only [ExceptT.bind, ExceptT.mk, bind, StateT.bind, Id]
  rcases r cs with ⟨_ | _, _⟩ <;> rfl

theorem map_eq_bind (f : α → β) (r : Reader α) : f <$> r = r >>= fun a => pure (f a) :=
  (bind_pure_comp f r).symm

namespace Yields

variable {r : Reader α} {k : α → Reader β} {o : Option α} {o' : Option β} {a : α}

theorem pure (a : α) (cs : List Char) : Yields (pure a) cs (some a) cs := rfl

/-- What was read is gone on with. -/
theorem andThen (h : Yields r cs (some a) mid) (hk : Yields (k a) mid o' rest) :
    Yields (r >>= k) cs o' rest := by
  have heq : (r >>= k) cs = k a mid := by rw [bind_apply, show r cs = _ from h]
  cases o' with
  | some b => exact heq.trans hk
  | none =>
      obtain ⟨fault, unread, hfault⟩ := hk
      exact ⟨fault, unread, heq.trans hfault⟩

/-- A fault is passed on. -/
theorem fault (h : Yields r cs none mid) : Yields (r >>= k) cs none rest := by
  obtain ⟨fault, unread, hfault⟩ := h
  exact ⟨fault, unread, by rw [bind_apply, hfault]⟩

theorem bind {g : α → Option β} (h : Yields r cs o mid)
    (hk : ∀ a, o = some a → Yields (k a) mid (g a) rest) : Yields (r >>= k) cs (o.bind g) rest := by
  cases o with
  | some a => exact h.andThen (hk a rfl)
  | none => exact h.fault

theorem map (f : α → β) (h : Yields r cs o rest) : Yields (f <$> r) cs (o.map f) rest := by
  rw [map_eq_bind, Option.map_eq_bind]
  exact h.bind fun a _ => .pure (f a) rest

theorem located (h : Yields r cs o rest) : Yields (located r) cs o rest := by
  simp only [Reader.located, tryCatch, tryCatchThe, MonadExceptOf.tryCatch]
  cases o with
  | some a =>
      show ((ExceptT.tryCatch r _) : StateM (List Char) _) cs = _
      simp only [ExceptT.tryCatch, ExceptT.mk, Bind.bind, StateT.bind, Id]
      rw [show r cs = _ from h]
      rfl
  | none =>
      obtain ⟨fault, unread, hfault⟩ := h
      simp only [Yields, ExceptT.tryCatch, ExceptT.mk, Bind.bind, StateT.bind, Id]
      rw [hfault]
      cases hplace : fault.unread <;> simp only [hplace] <;> exact ⟨_, _, rfl⟩

theorem closedBy {close : Reader Unit} (h : Yields r cs o mid)
    (hclose : Yields close mid (some ()) rest) : Yields (closedBy r close) cs o rest := by
  cases o with
  | some a =>
      show Reader.closedBy r close cs = _
      rw [Reader.closedBy, show r cs = _ from h]
      simp only [show close mid = _ from hclose]
  | none =>
      obtain ⟨fault, unread, hfault⟩ := h
      exact ⟨fault, (close unread).2, by rw [Reader.closedBy, hfault]⟩

theorem eq (h : Yields r cs (some a) rest) : r cs = (.ok a, rest) := h

/-! What was read has been put together from what its parts have read. -/

theorem of_pure {b : α} (h : Yields (Pure.pure a) cs (some b) rest) : a = b ∧ cs = rest := by
  obtain ⟨ha, hrest⟩ := Prod.mk.inj h.eq
  exact ⟨Except.ok.inj ha, hrest⟩

theorem of_bind {b : β} (h : Yields (r >>= k) cs (some b) rest) :
    ∃ a mid, Yields r cs (some a) mid ∧ Yields (k a) mid (some b) rest := by
  rw [Yields, bind_apply] at h
  split at h
  next a mid hr => exact ⟨a, mid, hr, h⟩
  next => cases h

theorem of_located (h : Yields (Reader.located r) cs (some a) rest) :
    Yields r cs (some a) rest := by
  cases hr : r cs with
  | mk result mid =>
      cases result with
      | ok b =>
          have hyields : Yields r cs (some b) mid := hr
          cases hyields.located.eq.symm.trans h.eq
          exact hr
      | error fault =>
          -- a fault that is given its place is still a fault
          have hyields : Yields r cs none [] := ⟨fault, mid, hr⟩
          obtain ⟨_, _, hfault⟩ := hyields.located
          cases hfault.symm.trans h.eq

theorem of_closedBy {close : Reader Unit} (h : Yields (Reader.closedBy r close) cs (some a) rest) :
    ∃ mid, Yields r cs (some a) mid ∧ Yields close mid (some ()) rest := by
  have h := h.eq
  rw [Reader.closedBy] at h
  split at h
  next b mid hr =>
    split at h
    next after hclose =>
      cases h
      exact ⟨mid, hr, hclose⟩
    next => cases h
  next => cases h

end Yields

theorem yields_mismatch (m : Mismatch) : Yields (mismatch m : Reader α) cs none rest := ⟨_, _, rfl⟩

theorem yields_failAtNext (fault : SyntaxFault) :
    Yields (failAtNext fault : Reader α) cs none rest := ⟨_, _, rfl⟩

/-- A mismatch is a fault. -/
theorem yields_check (result : Except Mismatch α) (cs : List Char) :
    Yields (match result with | .ok a => pure a | .error m => mismatch m) cs
    result.toOption cs := by
  cases result with
  | ok a => exact .pure a cs
  | error m => exact yields_mismatch m

/-! ### Blanks and punctuation -/

/-- Blanks that may stand before what is read next. -/
def Blanks (ws : List Char) : Prop := ∀ c ∈ ws, isBlank c = true

theorem blanks_nil : Blanks [] := by simp [Blanks]

theorem blanks_lineBreak (style : Style) (depth : Nat) : Blanks (style.lineBreak depth) := by
  cases style with
  | compact => exact blanks_nil
  | pretty =>
      intro c hc
      rcases List.mem_cons.mp hc with rfl | hc
      · rfl
      · rw [List.eq_of_mem_replicate hc]
        rfl

theorem dropWhile_blanks {ws : List Char} (hws : Blanks ws) {c : Char} (hc : isBlank c = false) :
    (ws ++ c :: rest).dropWhile isBlank = c :: rest := by
  induction ws with
  | nil => exact List.dropWhile_cons_of_neg (by simpa using hc)
  | cons w ws ih =>
      obtain ⟨hw, hws⟩ := List.forall_mem_cons.mp hws
      rw [List.cons_append, List.dropWhile_cons_of_pos hw, ih hws]

section

variable {ws : List Char} {c : Char}

theorem peekToken?_apply :
    peekToken? cs = (.ok (cs.dropWhile isBlank).head?, cs.dropWhile isBlank) := rfl

theorem yields_peekToken? (hws : Blanks ws) (hc : isBlank c = false) :
    Yields peekToken? (ws ++ c :: rest) (some (some c)) (c :: rest) := by
  rw [Yields, peekToken?_apply, dropWhile_blanks hws hc]
  rfl

theorem yields_peekValue (hws : Blanks ws) (hc : isBlank c = false) :
    Yields peekValue (ws ++ c :: rest) (some c) (c :: rest) :=
  (yields_peekToken? hws hc).andThen (.pure c _)

/-! The steps on single characters never fail, and neither does a word that is there. -/

theorem yields_unread (cs : List Char) : Yields unread cs (some cs) cs := rfl

theorem yields_peek? (cs : List Char) : Yields peek? cs (some cs.head?) cs := rfl

theorem yields_skip : Yields skip (c :: rest) (some ()) rest := rfl

theorem yields_next? (c : Char) (rest : List Char) :
    Yields next? (c :: rest) (some (some c)) rest := rfl

theorem yields_word (letters rest : List Char) :
    Yields (word letters) (letters ++ rest) (some ()) rest := by
  induction letters with
  | nil => rfl
  | cons c letters ih =>
      refine (yields_next? c (letters ++ rest)).andThen ?_
      simpa using ih

theorem yields_endList (hws : Blanks ws) : Yields endList (ws ++ ']' :: rest) (some ()) rest :=
  (yields_peekToken? hws rfl).andThen rfl

theorem yields_endObject (hws : Blanks ws) :
    Yields endObject (ws ++ '\x7d' :: rest) (some ()) rest :=
  (yields_peekToken? hws rfl).andThen rfl

/-- The colon is read, and the blanks after it are left. -/
theorem yields_colon (style : Style) : ∃ ws, Blanks ws ∧
    ∀ rest, Yields colon (style.colon ++ rest) (some ()) (ws ++ rest) := by
  cases style with
  | compact => exact ⟨[], blanks_nil, fun rest => rfl⟩
  | pretty => exact ⟨[' '], by simp [Blanks, isBlank], fun rest => rfl⟩

theorem yields_hasItem_none (first : Bool) (hws : Blanks ws) :
    Yields (hasItem first) (ws ++ ']' :: rest) (some false) (']' :: rest) :=
  (yields_peekToken? hws rfl).andThen rfl

theorem yields_hasMember_none (first : Bool) (hws : Blanks ws) :
    Yields (hasMember first) (ws ++ '\x7d' :: rest) (some false) ('\x7d' :: rest) :=
  (yields_peekToken? hws rfl).andThen rfl

theorem yields_hasMember_first (hws : Blanks ws) :
    Yields (hasMember true) (ws ++ '"' :: rest) (some true) ('"' :: rest) :=
  (yields_peekToken? hws rfl).andThen rfl

theorem yields_hasMember_next (hws : Blanks ws) :
    Yields (hasMember false) (',' :: (ws ++ '"' :: rest)) (some true) ('"' :: rest) := by
  refine (yields_peekToken? blanks_nil rfl).andThen ?_
  exact yields_skip.andThen ((yields_peekToken? hws rfl).andThen rfl)

end

/-! ### Strings -/

/-- The reader undoes the escape of a control character. -/
theorem stringRest_escapeChar_control (fuel : Nat) (read : List Char) {c : Char} (hc : c.toNat < 32)
    (rest : List Char) :
    stringRest (fuel + 1) read (escapeChar c ++ rest) = stringRest fuel (c :: read) rest := by
  rw [← Char.ofNat_toNat c]
  interval_cases c.toNat <;> rfl

/-- Any other character stands for itself. -/
theorem escapeChar_plain {c : Char} (hcontrol : ¬ c.toNat < 32) (hquote : c ≠ '"')
    (hbackslash : c ≠ '\\') : escapeChar c = [c] := by
  have hspace : ¬ c < ' ' := hcontrol
  have hne : ∀ d : Char, d.toNat < 32 → c ≠ d := by
    rintro d hd rfl
    exact hcontrol hd
  rw [escapeChar]
  · exact if_neg hspace
  all_goals first | exact hquote | exact hbackslash | exact hne _ (by decide)

/-- The reader undoes the escape of one character. -/
theorem stringRest_escapeChar (fuel : Nat) (read : List Char) (c : Char) (rest : List Char) :
    stringRest (fuel + 1) read (escapeChar c ++ rest) = stringRest fuel (c :: read) rest := by
  by_cases hcontrol : c.toNat < 32
  · exact stringRest_escapeChar_control fuel read hcontrol rest
  by_cases hquote : c = '"'
  · subst hquote
    rfl
  by_cases hbackslash : c = '\\'
  · subst hbackslash
    rfl
  -- any other character stands for itself
  · have hspace : ¬ c < ' ' := hcontrol
    rw [escapeChar_plain hcontrol hquote hbackslash, stringRest, List.singleton_append,
      bind_apply, (yields_next? c rest).eq]
    simp only [if_neg hspace]

theorem stringRest_printChars (cs : List Char) (fuel : Nat) (read rest : List Char)
    (hfuel : cs.length < fuel) :
    stringRest fuel read (printChars cs ('"' :: rest)) =
      (.ok (String.ofList (read.reverse ++ cs)), rest) := by
  induction cs generalizing fuel read with
  | nil =>
      obtain ⟨fuel, rfl⟩ := Nat.exists_eq_succ_of_ne_zero (Nat.ne_of_gt hfuel)
      rw [List.append_nil]
      rfl
  | cons c cs ih =>
      obtain ⟨fuel, rfl⟩ := Nat.exists_eq_succ_of_ne_zero (Nat.ne_of_gt (Nat.zero_lt_of_lt hfuel))
      rw [printChars, stringRest_escapeChar, ih fuel (c :: read) (Nat.lt_of_succ_lt_succ hfuel)]
      simp

theorem length_escapeChar_pos (c : Char) : 0 < (escapeChar c).length := by
  rw [escapeChar.eq_def]
  split
  case h_8 => split <;> exact Nat.zero_lt_succ _
  all_goals exact Nat.zero_lt_succ _

theorem length_le_printChars (cs rest : List Char) :
    cs.length + rest.length ≤ (printChars cs rest).length := by
  induction cs with
  | nil => exact (Nat.zero_add _).le
  | cons c cs ih =>
      have hpos := length_escapeChar_pos c
      rw [printChars, List.length_append, List.length_cons]
      omega

/-- **A string is read back as it was written.** -/
theorem yields_stringBody (s : String) (rest : List Char) :
    Yields stringBody (printChars s.toList ('"' :: rest)) (some s) rest := by
  have hfuel : s.toList.length < (printChars s.toList ('"' :: rest)).length + 1 :=
    Nat.lt_succ_of_le ((Nat.le_add_right _ _).trans (length_le_printChars _ _))
  have hread := stringRest_printChars s.toList _ [] rest hfuel
  rw [List.reverse_nil, List.nil_append, String.ofList_toList] at hread
  exact Yields.andThen (a := printChars s.toList ('"' :: rest)) rfl hread

end AgentGraph.Json.Reader
