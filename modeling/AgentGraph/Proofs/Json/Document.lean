import AgentGraph.Json.Value
import AgentGraph.Proofs.Json.Number

/-!
# Reading what was written: documents

A list or an object is read item by item, so what comes of reading it is put together from what
comes of reading each item where it stands (`yields_items`, `yields_foldMembers`). A document that
is not nested too deeply is read back as it was written, up to its numbers: a 32-bit number comes
back as a 64-bit number (`yields_value`).

A text is put in front of what follows it (`suffix_print`), so the text of an object ends with its
brace.
-/

namespace AgentGraph.Json

open Numeric Reader

/-! ### What documents come back as -/

/-- A number that is written as a number, and is read without loss of digits. -/
inductive Number.Plain : Number → Prop
  | whole {n : Nat} (h : n ≤ maxSignificand) : Number.Plain (.whole n)
  | single {x : Single} (h : x.isFinite = true) : Number.Plain (.single x)

/-- What is read where a number was written. -/
def Number.reread (n : Number) : Number :=
  match (Reader.number (n.text?.getD "").toList).1 with
  | .ok m => m
  | .error _ => n

mutual

/-- What is read where a document was written. -/
def reread : Json → Json
  | number n => number n.reread
  | list vs => list (rereadItems vs)
  | object ms => object (rereadMembers ms)
  | v => v

def rereadItems : List Json → List Json
  | [] => []
  | v :: vs => v.reread :: rereadItems vs

def rereadMembers : List (String × Json) → List (String × Json)
  | [] => []
  | (name, v) :: ms => (name, v.reread) :: rereadMembers ms

end

theorem rereadItems_eq_map (vs : List Json) : rereadItems vs = vs.map reread := by
  induction vs with
  | nil => rfl
  | cons v vs ih => rw [rereadItems, ih, List.map_cons]

theorem rereadMembers_eq_map (ms : List (String × Json)) :
    rereadMembers ms = ms.map fun m => (m.1, m.2.reread) := by
  induction ms with
  | nil => rfl
  | cons m ms ih => rw [rereadMembers, ih, List.map_cons]

/-- A document of plain numbers that can be read with the given number of levels left. -/
inductive Readable : (depth : Nat) → Json → Prop
  | null {depth : Nat} : Readable (depth + 1) .null
  | bool {depth : Nat} (b : Bool) : Readable (depth + 1) (.bool b)
  | number {depth : Nat} {n : Number} (h : n.Plain) : Readable (depth + 1) (.number n)
  | string {depth : Nat} (s : String) : Readable (depth + 1) (.string s)
  | list {depth : Nat} {vs : List Json} (h : ∀ v ∈ vs, Readable (depth + 1) v) :
      Readable (depth + 2) (.list vs)
  | object {depth : Nat} {ms : List (String × Json)} (h : ∀ m ∈ ms, Readable (depth + 1) m.2) :
      Readable (depth + 2) (.object ms)

/-! ### How texts begin -/

theorem exists_decimal {x : Single} (hx : x.isFinite = true) : ∃ text, x.decimal? = some text := by
  rw [Binary.isFinite] at hx
  cases hparts : x.parts with
  | finite negative m q => exact ⟨_, by rw [Binary.decimal?, hparts]⟩
  | infinite negative =>
      rw [hparts] at hx
      cases hx
  | nan =>
      rw [hparts] at hx
      cases hx

theorem Number.Plain.number {n : Number} (h : n.Plain) : ∃ text, n.text? = some text ∧
    ∀ rest, EndsNumber rest → Reader.number (text.toList ++ rest) = (.ok n.reread, rest) := by
  -- first some number is read, whatever follows the text; then it is the one that the text alone
  -- gives
  obtain ⟨text, m, htext, hread⟩ : ∃ text m, n.text? = some text ∧
      ∀ rest, EndsNumber rest → Reader.number (text.toList ++ rest) = (.ok m, rest) := by
    cases h with
    | @whole n hn =>
        have hdigits : (toString (n : Int)).toList = decimalDigits n := Nat.toList_repr
        refine ⟨toString (n : Int), .whole n, rfl, fun rest hrest => ?_⟩
        rw [hdigits]
        exact number_whole hn hrest
    | @single x hx =>
        obtain ⟨text, htext⟩ := exists_decimal hx
        obtain ⟨y, hy, -⟩ := exists_readsAs_decimal htext
        exact ⟨text, .double y, htext, hy⟩
  refine ⟨text, htext, ?_⟩
  have hreread : n.reread = m := by
    have := hread [] endsNumber_nil
    rw [List.append_nil] at this
    rw [Number.reread, htext, Option.getD_some, this]
  rwa [hreread]

theorem ne_of_beginsNumber {c d : Char} (hc : beginsNumber c = true) (hd : beginsNumber d = false) :
    c ≠ d := by
  rintro rfl
  exact absurd (hc.symm.trans hd) (by decide)

theorem isBlank_of_beginsNumber {c : Char} (hc : beginsNumber c = true) : isBlank c = false := by
  have hne : ∀ d, beginsNumber d = false → c ≠ d := fun d => ne_of_beginsNumber hc
  simp [isBlank, hne ' ' rfl, hne '\n' rfl, hne '\t' rfl, hne '\r' rfl]

/-- The text of the document begins with the character. -/
structure Begins (v : Json) (c : Char) : Prop where
  print : ∀ style depth rest, ∃ more, v.print style depth rest = c :: more
  notBlank : isBlank c = false
  notClosing : c ≠ ']'
  null : c = 'n' → v = .null

/-- Where another character than `n` begins the text, there is no null to tell apart. -/
theorem Begins.of_ne {v : Json} {c : Char}
    (hprint : ∀ style depth rest, ∃ more, v.print style depth rest = c :: more)
    (hblank : isBlank c = false) (hclosing : c ≠ ']') (hn : c ≠ 'n') : Begins v c :=
  ⟨hprint, hblank, hclosing, fun hc => absurd hc hn⟩

theorem Readable.begins {depth : Nat} {v : Json} (h : Readable depth v) : ∃ c, Begins v c := by
  cases h with
  | null => exact ⟨'n', fun _ _ rest => ⟨_, rfl⟩, rfl, by decide, fun _ => rfl⟩
  | bool b =>
      cases b with
      | false => exact ⟨'f', .of_ne (fun _ _ rest => ⟨_, rfl⟩) rfl (by decide) (by decide)⟩
      | true => exact ⟨'t', .of_ne (fun _ _ rest => ⟨_, rfl⟩) rfl (by decide) (by decide)⟩
  -- the reader of numbers decides what a number can begin with
  | @number _ n hn =>
      obtain ⟨text, htext, hread⟩ := hn.number
      obtain ⟨c, more, hcs, hbegins⟩ := beginsNumber_of_number (hread [] endsNumber_nil)
      rw [List.append_nil] at hcs
      refine ⟨c, .of_ne (fun style k rest => ⟨more ++ rest, ?_⟩) (isBlank_of_beginsNumber hbegins)
        (ne_of_beginsNumber hbegins rfl) (ne_of_beginsNumber hbegins rfl)⟩
      rw [Json.print, htext, Option.getD_some, hcs, List.cons_append]
  | string s => exact ⟨'"', .of_ne (fun _ _ rest => ⟨_, rfl⟩) rfl (by decide) (by decide)⟩
  | @list _ vs _ =>
      refine ⟨'[', .of_ne (fun _ _ rest => ?_) rfl (by decide) (by decide)⟩
      cases vs <;> exact ⟨_, rfl⟩
  | @object _ ms _ =>
      refine ⟨'\x7b', .of_ne (fun _ _ rest => ?_) rfl (by decide) (by decide)⟩
      cases ms <;> exact ⟨_, rfl⟩

namespace Reader

variable {α β σ : Type} {style : Style} {depth : Nat} {rest : List Char}

theorem endsNumber_cons {c : Char} (hdigit : c.isDigit = false) (hpoint : c ≠ '.') (he : c ≠ 'e')
    (hE : c ≠ 'E') : EndsNumber (c :: rest) := by
  simp [EndsNumber, hdigit, hpoint, he, hE]

theorem endsNumber_lineBreak {c : Char} (hc : EndsNumber (c :: rest)) :
    EndsNumber (style.lineBreak depth ++ c :: rest) := by
  cases style with
  | compact => exact hc
  | pretty => exact endsNumber_cons rfl (by decide) (by decide) (by decide)

theorem endsNumber_printItems (vs : List Json) : EndsNumber (printItems style depth vs rest) := by
  cases vs with
  | nil => exact endsNumber_lineBreak (endsNumber_cons rfl (by decide) (by decide) (by decide))
  | cons v vs => exact endsNumber_cons rfl (by decide) (by decide) (by decide)

theorem endsNumber_printMembers (ms : List (String × Json)) :
    EndsNumber (printMembers style depth ms rest) := by
  cases ms with
  | nil => exact endsNumber_lineBreak (endsNumber_cons rfl (by decide) (by decide) (by decide))
  | cons m ms => exact endsNumber_cons rfl (by decide) (by decide) (by decide)

/-! ### How long texts are -/

mutual

theorem length_le_print (style : Style) : ∀ (depth : Nat) (v : Json) (rest : List Char),
    rest.length ≤ (print style depth v rest).length
  | _, .null, rest => by simp only [print, List.length_cons]; omega
  | _, .bool b, rest => by cases b <;> simp only [print, List.length_cons] <;> omega
  | _, .number n, rest => by simp [print]
  | _, .string s, rest => by
      have := length_le_printChars s.toList ('"' :: rest)
      simp only [print, printString, List.length_cons] at this ⊢
      omega
  | _, .list [], rest => by simp only [print, List.length_cons]; omega
  -- in a list or an object there are brackets besides what is written for the parts
  | depth, .list (v :: vs), rest => by
      have hitem := length_le_print style (depth + 1) v (printItems style depth vs rest)
      have hitems := length_lt_printItems style depth vs rest
      simp only [print, List.length_cons, List.length_append]
      omega
  | _, .object [], rest => by simp only [print, List.length_cons]; omega
  | depth, .object ((name, v) :: ms), rest => by
      have hmember := length_le_print style (depth + 1) v (printMembers style depth ms rest)
      have hmembers := length_lt_printMembers style depth ms rest
      have hname := length_le_printChars name.toList
        ('"' :: (style.colon ++ print style (depth + 1) v (printMembers style depth ms rest)))
      simp only [print, printString, List.length_cons, List.length_append] at hname ⊢
      omega

/-- A list is not longer than its text. -/
theorem length_lt_printItems (style : Style) : ∀ (depth : Nat) (vs : List Json) (rest : List Char),
    vs.length + rest.length < (printItems style depth vs rest).length
  | depth, [], rest => by
      simp only [printItems, List.length_append, List.length_cons, List.length_nil]
      omega
  | depth, v :: vs, rest => by
      have hitem := length_le_print style (depth + 1) v (printItems style depth vs rest)
      have hitems := length_lt_printItems style depth vs rest
      simp only [printItems, List.length_append, List.length_cons]
      omega

/-- An object has no more members than its text is long. -/
theorem length_lt_printMembers (style : Style) :
    ∀ (depth : Nat) (ms : List (String × Json)) (rest : List Char), ms.length + rest.length <
    (printMembers style depth ms rest).length
  | depth, [], rest => by
      simp only [printMembers, List.length_append, List.length_cons, List.length_nil]
      omega
  | depth, (name, v) :: ms, rest => by
      have hmember := length_le_print style (depth + 1) v (printMembers style depth ms rest)
      have hmembers := length_lt_printMembers style depth ms rest
      have hname := length_le_printChars name.toList
        ('"' :: (style.colon ++ print style (depth + 1) v (printMembers style depth ms rest)))
      simp only [printMembers, printString, List.length_append, List.length_cons] at hname ⊢
      omega

end

/-! ### How texts end -/

theorem suffix_printChars (cs rest : List Char) : rest <:+ printChars cs rest := by
  induction cs with
  | nil => exact List.suffix_rfl
  | cons c cs ih => exact ih.trans (List.suffix_append _ _)

theorem suffix_printString (s : String) (rest : List Char) : rest <:+ printString s rest :=
  (List.suffix_cons _ _).trans ((suffix_printChars s.toList _).trans (List.suffix_cons _ _))

/-- A member's value ends as its text does. -/
theorem suffix_member {text rest : List Char} (h : rest <:+ text) (lineBreak colon : List Char)
    (name : String) : rest <:+ lineBreak ++ printString name (colon ++ text) := by
  have hcolon : rest <:+ colon ++ text := h.trans (List.suffix_append colon text)
  exact (hcolon.trans (suffix_printString name _)).trans (List.suffix_append lineBreak _)

mutual

/-- The text of a document is put in front of what follows it. -/
theorem suffix_print (style : Style) :
    ∀ (depth : Nat) (v : Json) (rest : List Char), rest <:+ print style depth v rest
  | _, .null, rest => List.suffix_append ['n', 'u', 'l', 'l'] rest
  | _, .bool true, rest => List.suffix_append ['t', 'r', 'u', 'e'] rest
  | _, .bool false, rest => List.suffix_append ['f', 'a', 'l', 's', 'e'] rest
  | _, .number n, rest => List.suffix_append _ rest
  | _, .string s, rest => suffix_printString s rest
  | _, .list [], rest => List.suffix_append ['[', ']'] rest
  -- the parts are written one before the other, each in front of what follows it
  | depth, .list (v :: vs), rest => by
      have hrest :=
        (suffix_printItems style depth vs rest).trans (suffix_print style (depth + 1) v _)
      exact (hrest.trans (List.suffix_append _ _)).trans (List.suffix_cons _ _)
  | _, .object [], rest => List.suffix_append ['\x7b', '\x7d'] rest
  | depth, .object ((name, v) :: ms), rest => by
      have hmembers := (List.suffix_cons _ rest).trans (suffix_printMembers style depth ms rest)
      have hvalue := hmembers.trans (suffix_print style (depth + 1) v _)
      exact (suffix_member hvalue _ style.colon name).trans (List.suffix_cons _ _)

theorem suffix_printItems (style : Style) : ∀ (depth : Nat) (vs : List Json) (rest : List Char),
    rest <:+ printItems style depth vs rest
  | depth, [], rest => (List.suffix_cons _ rest).trans (List.suffix_append _ _)
  | depth, v :: vs, rest => by
      have hrest :=
        (suffix_printItems style depth vs rest).trans (suffix_print style (depth + 1) v _)
      exact (hrest.trans (List.suffix_append _ _)).trans (List.suffix_cons _ _)

/-- The text of an object ends with its closing brace. -/
theorem suffix_printMembers (style : Style) :
    ∀ (depth : Nat) (ms : List (String × Json)) (rest : List Char),
    '\x7d' :: rest <:+ printMembers style depth ms rest
  | depth, [], rest => List.suffix_append _ _
  | depth, (name, v) :: ms, rest => by
      have hvalue :=
        (suffix_printMembers style depth ms rest).trans (suffix_print style (depth + 1) v _)
      exact (suffix_member hvalue _ style.colon name).trans (List.suffix_cons _ _)

end

/-! ### Walking lists -/

/-- The text of a list after its opening bracket. -/
def openItems (style : Style) (depth : Nat) : List Json → List Char → List Char
  | [], rest => ']' :: rest
  | v :: vs, rest => style.lineBreak (depth + 1) ++
      print style (depth + 1) v (printItems style depth vs rest)

theorem print_list (vs : List Json) :
    print style depth (.list vs) rest = '[' :: openItems style depth vs rest := by
  cases vs <;> rfl

theorem yields_hasItem_first {ws : List Char} {c : Char} (hws : Blanks ws)
    (hblank : isBlank c = false) (hclosing : c ≠ ']') :
    Yields (hasItem true) (ws ++ c :: rest) (some true) (c :: rest) := by
  refine (yields_peekToken? hws hblank).andThen ?_
  split
  · next heq => cases heq
  · next heq => exact absurd (Option.some.inj heq) hclosing
  · rfl
  · rfl

theorem yields_hasItem_next {ws : List Char} {c : Char} (hws : Blanks ws)
    (hblank : isBlank c = false) (hclosing : c ≠ ']') :
    Yields (hasItem false) (',' :: (ws ++ c :: rest)) (some true) (c :: rest) := by
  refine (yields_peekToken? blanks_nil rfl).andThen ?_
  refine yields_skip.andThen ((yields_peekToken? hws hblank).andThen ?_)
  split
  · next heq => cases heq
  · next heq => exact absurd (Option.some.inj heq) hclosing
  · rfl

/-- What comes of the items after the first one. -/
theorem yields_itemsRest {item : Reader α} {doc : β → Json} {meaning : β → Option α} {bs : List β}
    (hbegins : ∀ b ∈ bs, ∃ c, Begins (doc b) c)
    (hitem : ∀ b ∈ bs, ∀ rest, EndsNumber rest →
      Yields item (print style (depth + 1) (doc b) rest) (meaning b) rest)
    {fuel : Nat} (hfuel : bs.length < fuel) (read : List α) :
    Yields (itemsRest item fuel false read) (printItems style depth (bs.map doc) rest)
      ((bs.mapM meaning).map (read.reverse ++ ·)) (']' :: rest) := by
  induction bs generalizing fuel read with
  | nil =>
      obtain ⟨fuel, rfl⟩ := Nat.exists_eq_succ_of_ne_zero (Nat.ne_of_gt hfuel)
      rw [itemsRest]
      refine (yields_hasItem_none false (blanks_lineBreak style depth)).andThen ?_
      simpa using Yields.pure read.reverse (']' :: rest)
  | cons b bs ih =>
      obtain ⟨fuel, rfl⟩ := Nat.exists_eq_succ_of_ne_zero (Nat.ne_of_gt (Nat.zero_lt_of_lt hfuel))
      obtain ⟨⟨c, hc⟩, hbegins⟩ := List.forall_mem_cons.mp hbegins
      obtain ⟨hb, hitem⟩ := List.forall_mem_cons.mp hitem
      have htail := ih hbegins hitem (Nat.lt_of_succ_lt_succ hfuel)
      -- the first item is read up to the comma or bracket behind it, the others by the hypothesis
      have hhead := hb (printItems style depth (bs.map doc) rest) (endsNumber_printItems _)
      obtain ⟨more, hmore⟩ := hc.print style (depth + 1) (printItems style depth (bs.map doc) rest)
      rw [itemsRest, List.map_cons, printItems]
      rw [hmore] at hhead ⊢
      refine (yields_hasItem_next (blanks_lineBreak style _) hc.notBlank hc.notClosing).andThen ?_
      have hread := hhead.bind (k := fun a => itemsRest item fuel false (a :: read)) fun a _ =>
        htail (a :: read)
      have hvalue : ((b :: bs).mapM meaning).map (read.reverse ++ ·) =
          (meaning b).bind fun a => (bs.mapM meaning).map ((a :: read).reverse ++ ·) := by
        rw [List.mapM_cons]
        cases meaning b with
        | none => rfl
        | some a => cases bs.mapM meaning <;> simp
      rw [hvalue]
      exact hread

/-- **What comes of reading a list.** -/
theorem yields_items {item : Reader α} {doc : β → Json} {meaning : β → Option α} {bs : List β}
    (hbegins : ∀ b ∈ bs, ∃ c, Begins (doc b) c)
    (hitem : ∀ b ∈ bs, ∀ rest, EndsNumber rest →
      Yields item (print style (depth + 1) (doc b) rest) (meaning b) rest) :
    Yields (items item) (openItems style depth (bs.map doc) rest) (bs.mapM meaning)
      (']' :: rest) := by
  refine (yields_unread _).andThen ?_
  rw [itemsRest]
  cases bs with
  | nil => exact (yields_hasItem_none true blanks_nil).andThen rfl
  | cons b bs =>
      obtain ⟨⟨c, hc⟩, hbegins⟩ := List.forall_mem_cons.mp hbegins
      obtain ⟨hb, hitem⟩ := List.forall_mem_cons.mp hitem
      -- the fuel is the length of the unread text, and each item takes up some of it
      have hlength := length_lt_printItems style depth (bs.map doc) rest
      have hlength' :=
        length_le_print style (depth + 1) (doc b) (printItems style depth (bs.map doc) rest)
      have hhead := hb (printItems style depth (bs.map doc) rest) (endsNumber_printItems _)
      obtain ⟨more, hmore⟩ := hc.print style (depth + 1) (printItems style depth (bs.map doc) rest)
      rw [List.map_cons, openItems]
      rw [hmore] at hhead hlength' ⊢
      refine (yields_hasItem_first (blanks_lineBreak style _) hc.notBlank hc.notClosing).andThen ?_
      rw [if_pos rfl, List.mapM_cons]
      refine hhead.bind fun a _ => ?_
      have htail :
          Yields (itemsRest item (style.lineBreak (depth + 1) ++ c :: more).length false [a])
            (printItems style depth (bs.map doc) rest) _ (']' :: rest) :=
        yields_itemsRest hbegins hitem
          (by rw [List.length_map] at hlength; rw [List.length_append]; omega) [a]
      simpa [Option.map_eq_bind, Function.comp_def] using htail

/-! ### Walking objects -/

/-- The text of an object after its opening brace. -/
def openMembers (style : Style) (depth : Nat) : List (String × Json) → List Char → List Char
  | [], rest => '\x7d' :: rest
  | (name, v) :: ms, rest =>
    style.lineBreak (depth + 1) ++
      printString name (style.colon ++ print style (depth + 1) v (printMembers style depth ms rest))

theorem print_object (ms : List (String × Json)) :
    print style depth (.object ms) rest = '\x7b' :: openMembers style depth ms rest := by
  cases ms <;> rfl

theorem suffix_openMembers (style : Style) (depth : Nat) (ms : List (String × Json))
    (rest : List Char) : '\x7d' :: rest <:+ openMembers style depth ms rest := by
  cases ms with
  | nil => exact List.suffix_rfl
  | cons m ms =>
      have hvalue :=
        (suffix_printMembers style depth ms rest).trans (suffix_print style (depth + 1) m.2 _)
      exact suffix_member hvalue _ style.colon m.1

/-- What comes of taking note of the members of an object, one after the other. -/
inductive Steps (style : Style) (depth : Nat) (step : String → σ → Reader σ) :
    List (String × Json) → σ → Option σ → Prop
  | done (s : σ) : Steps style depth step [] s (some s)
  | stop {name : String} {v : Json} {ms : List (String × Json)} {s : σ}
      (h : ∀ rest, EndsNumber rest →
        Yields (step name s) (style.colon ++ print style depth v rest) none rest) :
      Steps style depth step ((name, v) :: ms) s none
  | next {name : String} {v : Json} {ms : List (String × Json)} {s s' : σ} {o : Option σ}
      (h : ∀ rest, EndsNumber rest →
        Yields (step name s) (style.colon ++ print style depth v rest) (some s') rest)
      (more : Steps style depth step ms s' o) :
      Steps style depth step ((name, v) :: ms) s o

section

variable {step : String → σ → Reader σ} {ms : List (String × Json)} {s : σ} {o : Option σ}

/-- One member: its name, and what is made of its value. -/
theorem yields_member {k : σ → Reader β} {name : String} {cs : List Char} {o : Option β}
    {mid : List Char} (h : Yields (step name s >>= k) cs o mid) :
    Yields (do
      skip
      let name ← stringBody
      k (← step name s)) (printString name cs) o mid :=
  yields_skip.andThen ((yields_stringBody name cs).andThen h)

/-- What comes of the members after the first one. -/
theorem yields_membersRest (h : Steps style (depth + 1) step ms s o) {fuel : Nat}
    (hfuel : ms.length < fuel) :
    Yields (membersRest step fuel false s) (printMembers style depth ms rest) o
      ('\x7d' :: rest) := by
  induction h generalizing fuel with
  | done s =>
      obtain ⟨fuel, rfl⟩ := Nat.exists_eq_succ_of_ne_zero (Nat.ne_of_gt hfuel)
      rw [membersRest]
      exact (yields_hasMember_none false (blanks_lineBreak style depth)).andThen rfl
  -- a step that fails ends the reading there, and nothing is said of what remains
  | @stop name v ms s hstep =>
      obtain ⟨fuel, rfl⟩ := Nat.exists_eq_succ_of_ne_zero (Nat.ne_of_gt (Nat.zero_lt_of_lt hfuel))
      rw [membersRest]
      refine (yields_hasMember_next (blanks_lineBreak style _)).andThen ?_
      rw [if_pos rfl]
      exact yields_member (hstep _ (endsNumber_printMembers ms)).fault
  | @next name v ms s s' o hstep _ ih =>
      obtain ⟨fuel, rfl⟩ := Nat.exists_eq_succ_of_ne_zero (Nat.ne_of_gt (Nat.zero_lt_of_lt hfuel))
      rw [membersRest]
      refine (yields_hasMember_next (blanks_lineBreak style _)).andThen ?_
      rw [if_pos rfl]
      exact yields_member
        ((hstep _ (endsNumber_printMembers ms)).andThen (ih (Nat.lt_of_succ_lt_succ hfuel)))

/-- **What comes of reading an object.** -/
theorem yields_foldMembers (h : Steps style (depth + 1) step ms s o) :
    Yields (foldMembers step s) (openMembers style depth ms rest) o ('\x7d' :: rest) := by
  refine (yields_unread _).andThen ?_
  rw [membersRest]
  cases h with
  | done s => exact (yields_hasMember_none true blanks_nil).andThen rfl
  | @stop name v ms s hstep =>
      refine (yields_hasMember_first (blanks_lineBreak style _)).andThen ?_
      rw [if_pos rfl]
      exact yields_member (hstep _ (endsNumber_printMembers ms)).fault
  | @next name v ms s s' o hstep hmore =>
      refine (yields_hasMember_first (blanks_lineBreak style _)).andThen ?_
      rw [if_pos rfl]
      refine yields_member
        ((hstep _ (endsNumber_printMembers ms)).andThen (yields_membersRest hmore ?_))
      -- the fuel is the length of the unread text, and each member takes up some of it
      have hlength := length_lt_printMembers style depth ms rest
      have hlength' := length_le_print style (depth + 1) v (printMembers style depth ms rest)
      have hname := length_le_printChars name.toList
        ('"' :: (style.colon ++ print style (depth + 1) v (printMembers style depth ms rest)))
      simp only [openMembers, printString, List.length_append, List.length_cons] at hname ⊢
      omega

end

/-! ### Any value -/

/-- Every member of an object can be read. -/
theorem steps_members {member : String → List (String × Json) → Reader (List (String × Json))}
    {ms : List (String × Json)}
    (hmember : ∀ m ∈ ms, ∀ read rest, EndsNumber rest →
      Yields (member m.1 read) (style.colon ++ print style depth m.2 rest)
      (some ((m.1, m.2.reread) :: read)) rest)
    (read : List (String × Json)) :
    Steps style depth member ms read (some ((rereadMembers ms).reverse ++ read)) := by
  induction ms generalizing read with
  | nil => exact .done read
  | cons m ms ih =>
      obtain ⟨hm, hms⟩ := List.forall_mem_cons.mp hmember
      have htail := ih hms ((m.1, m.2.reread) :: read)
      refine .next (fun rest hrest => hm read rest hrest) ?_
      rw [rereadMembers, List.reverse_cons, List.append_assoc]
      exact htail

theorem value_succ (depth : Nat) : ∃ inner, value (depth + 1) = valueWithin inner := by
  cases depth <;> exact ⟨_, rfl⟩

/-- A plain number is read from what it is printed as, and that begins like a number. -/
theorem exists_print_number (style : Style) {n : Number} (hn : n.Plain) (k : Nat)
    (hrest : EndsNumber rest) :
    ∃ c more, print style k (.number n) rest = c :: more ∧ beginsNumber c = true ∧
      Yields number (c :: more) (some n.reread) rest := by
  obtain ⟨text, htext, hread⟩ := hn.number
  have hnumber : Yields number (text.toList ++ rest) (some n.reread) rest := hread rest hrest
  obtain ⟨c, more, hcs, hbegins⟩ := beginsNumber_of_number hnumber
  rw [hcs] at hnumber
  refine ⟨c, more, ?_, hbegins, hnumber⟩
  rw [print, htext, Option.getD_some, hcs]

/-- **A document is read back as it was written, up to its numbers.** -/
theorem yields_value {v : Json} (h : Readable depth v) (k : Nat) {ws : List Char} (hws : Blanks ws)
    (hrest : EndsNumber rest) :
    Yields (value depth) (ws ++ print style k v rest) (some v.reread) rest := by
  induction h generalizing k ws rest with
  | @null depth =>
      obtain ⟨inner, hinner⟩ := value_succ depth
      rw [hinner]
      refine (yields_peekValue hws rfl).andThen (Yields.located ?_)
      exact yields_skip.andThen ((yields_word ['u', 'l', 'l'] rest).andThen (.pure _ _))
  | @bool depth b =>
      obtain ⟨inner, hinner⟩ := value_succ depth
      rw [hinner]
      cases b with
      | false =>
          refine (yields_peekValue hws rfl).andThen (Yields.located ?_)
          exact yields_skip.andThen ((yields_word ['a', 'l', 's', 'e'] rest).andThen (.pure _ _))
      | true =>
          refine (yields_peekValue hws rfl).andThen (Yields.located ?_)
          exact yields_skip.andThen ((yields_word ['r', 'u', 'e'] rest).andThen (.pure _ _))
  -- a number begins like none of the other values, so the reader gets to its last case
  | @number depth n hn =>
      obtain ⟨inner, hinner⟩ := value_succ depth
      obtain ⟨c, more, hprint, hbegins, hnumber⟩ := exists_print_number style hn k hrest
      rw [hinner, hprint]
      refine (yields_peekValue hws (isBlank_of_beginsNumber hbegins)).andThen (Yields.located ?_)
      split
      case h_7 =>
        rw [if_pos hbegins]
        exact hnumber.andThen (.pure _ _)
      all_goals exact absurd hbegins (by decide)
  | @string depth s =>
      obtain ⟨inner, hinner⟩ := value_succ depth
      rw [hinner]
      refine (yields_peekValue hws rfl).andThen (Yields.located ?_)
      exact yields_skip.andThen ((yields_stringBody s rest).andThen (.pure _ _))
  | @list depth vs h ih =>
      rw [print_list]
      refine (yields_peekValue hws rfl).andThen (Yields.located ?_)
      refine yields_skip.andThen ?_
      -- the items are read one level further down, where they are readable too
      have hitems : Yields (items (value (depth + 1))) (openItems style k (vs.map id) rest)
          (vs.mapM fun v => some v.reread) (']' :: rest) :=
        yields_items (fun v hv => (h v hv).begins) fun v hv rest hrest =>
          ih v hv (k + 1) blanks_nil hrest
      rw [List.map_id, show vs.mapM (fun v => some v.reread) =
        some (vs.map reread) from List.mapM_pure] at hitems
      rw [reread, rereadItems_eq_map]
      exact (hitems.closedBy (yields_endList blanks_nil)).andThen (.pure _ _)
  | @object depth ms h ih =>
      rw [print_object]
      refine (yields_peekValue hws rfl).andThen (Yields.located ?_)
      refine yields_skip.andThen ?_
      -- members are kept in reverse, and the list is reversed behind the closing brace
      have hsteps : Steps style (k + 1) (fun name read => do
          colon
          return (name, ← value (depth + 1)) :: read) ms [] _ :=
        steps_members (fun m hm read rest hrest => ?_) []
      · rw [reread, ← List.reverse_reverse (rereadMembers ms),
          ← List.append_nil (rereadMembers ms).reverse]
        exact ((yields_foldMembers hsteps).closedBy (yields_endObject blanks_nil)).andThen
          (.pure _ _)
      · obtain ⟨ws, hws, hcolon⟩ := yields_colon style
        exact (hcolon _).andThen ((ih m hm (k + 1) hws hrest).andThen (.pure _ _))

end Reader

end AgentGraph.Json
