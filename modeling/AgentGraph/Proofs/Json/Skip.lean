import AgentGraph.Proofs.Json.Inversion

/-!
# What can be read can be passed over

A value that nobody asked for is passed over. That needs no tree, only the brackets that are open,
so it is not bounded by a limit of nesting. Where a value can be read, with whatever limit, it is
passed over with the same rest (`yields_skipValue`).

`PassedOver` says that passing over a value comes to its end in a number of steps that its text pays
for. The induction is on the values inside one another, and inside a list or an object along the
walk of its reader (`skipLoop_items`, `skipLoop_members`).
-/

namespace AgentGraph.Json.Reader

variable {cs mid rest : List Char}

/-! ### Steps -/

/-- Whoever is to pass over the text of a value gets to its end, in so many steps. -/
def PassedOver (cs rest : List Char) : Prop :=
  ∃ used, used + 2 * rest.length ≤ 2 * cs.length ∧
    ∀ room brackets, skipLoop (used + room) .value brackets cs =
      skipLoop room .afterItem brackets rest

section

variable {room : Nat} {point : SkipPoint} {bracket : Bracket} {outer : List Bracket}

theorem skipLoop_close (hcs : cs.dropWhile isBlank = bracket.closing :: rest)
    (hpoint : point ≠ .value) :
    skipLoop (room + 1) point (bracket :: outer) cs = skipLoop room .afterItem outer rest := by
  have htoken : Yields peekToken? cs (some (some bracket.closing)) (bracket.closing :: rest) :=
    yields_peekToken?_iff.mpr ⟨by rw [hcs]; rfl, hcs.symm⟩
  -- a closing bracket is not taken for the comma between two parts
  have hcomma : ¬ (bracket.closing = ',' ∧ point = .afterItem) := by
    cases bracket <;> simp [Bracket.closing]
  cases point with
  | value => exact absurd rfl hpoint
  | opened | afterItem =>
      rw [skipLoop, bind_apply, htoken.eq]
      · dsimp only
        rw [if_neg hcomma, if_pos rfl]
        rfl
      · exact nofun

theorem skipLoop_comma (hcs : cs.dropWhile isBlank = ',' :: rest) :
    skipLoop (room + 1) .afterItem (bracket :: outer) cs =
      (do
        skipName bracket
        skipLoop room .value (bracket :: outer)) rest := by
  have htoken : Yields peekToken? cs (some (some ',')) (',' :: rest) :=
    yields_peekToken?_iff.mpr ⟨by rw [hcs]; rfl, hcs.symm⟩
  rw [skipLoop, bind_apply, htoken.eq]
  · rfl
  · exact nofun

theorem skipLoop_first {c : Char} (hcs : cs.dropWhile isBlank = c :: rest)
    (hc : c ≠ bracket.closing) :
    skipLoop (room + 1) .opened (bracket :: outer) cs = (do
        skipName bracket
        skipLoop room .value (bracket :: outer)) (c :: rest) := by
  have htoken : Yields peekToken? cs (some (some c)) (c :: rest) :=
    yields_peekToken?_iff.mpr ⟨by rw [hcs]; rfl, hcs.symm⟩
  rw [skipLoop, bind_apply, htoken.eq]
  · dsimp only
    rw [if_neg (fun h => nomatch h.2), if_neg hc, if_neg (by decide)]
  · exact nofun

end

/-! ### Lists and objects -/

variable {inner : Option (Reader Json)}

theorem skipLoop_items
    (hinner : ∀ {cs v rest}, Yields (valueWithin inner) cs (some v) rest → PassedOver cs rest)
    {first : Bool} {vs : List Json} (h : ReadsItems (valueWithin inner) first cs vs mid)
    (hend : Yields endList mid (some ()) rest) :
    ∃ used, used + 2 * rest.length ≤ 2 * cs.length + first.toNat ∧
      ∀ room brackets, skipLoop (used + room) (if first then .opened else .afterItem)
        (.list :: brackets) cs =
          skipLoop room .afterItem brackets rest := by
  induction h with
  | @done first cs mid hmore =>
      obtain ⟨rfl, more, hclosing⟩ := yields_hasItem_false hmore
      rw [hclosing] at hend
      cases yields_endList_cons hend
      have hle := length_dropBlanks_le cs
      rw [hclosing, List.length_cons] at hle
      refine ⟨1, by omega, fun room brackets => ?_⟩
      rw [Nat.add_comm]
      exact skipLoop_close hclosing (by cases first <;> decide)
  | @next first cs mid after rest' v vs hmore hv _ _ ih =>
      -- one round for the item, and then those for the others
      obtain ⟨used', hused', hskip'⟩ := ih hend
      rw [if_neg (by decide)] at hskip'
      have hle := length_dropBlanks_le cs
      rcases yields_hasItem_true hmore with ⟨rfl, rfl, c, more, hc, hne⟩ | ⟨rfl, more, hcomma, rfl⟩
      · obtain ⟨used, hused, hskip⟩ := hinner hv
        have hne' : c ≠ Bracket.list.closing := hne
        refine ⟨1 + used + used', ?_, fun room brackets => ?_⟩
        · simp only [Bool.toNat_true, Bool.toNat_false] at hused' ⊢
          omega
        · rw [if_pos rfl, show 1 + used + used' + room = used + (used' + room) + 1 by omega,
            skipLoop_first hc hne']
          show skipLoop _ _ _ _ = _
          rw [← hc, hskip, hskip']
      · obtain ⟨used, hused, hskip⟩ := hinner (yields_valueWithin_dropBlanks.mp hv)
        rw [hcomma, List.length_cons] at hle
        refine ⟨1 + used + used', ?_, fun room brackets => ?_⟩
        · simp only [Bool.toNat_false] at hused' ⊢
          omega
        · rw [if_neg (by decide), show 1 + used + used' + room = used + (used' + room) + 1 by omega,
            skipLoop_comma hcomma]
          show skipLoop _ _ _ _ = _
          rw [hskip, hskip']

theorem yields_skipName {more text : List Char} {name : String}
    (hmore : more.dropWhile isBlank = '"' :: mid) (hname : Yields stringBody mid (some name) text)
    (hcolon : Yields colon text (some ()) rest) :
    Yields (skipName .object) more (some ()) rest := by
  have htoken : Yields peekToken? more (some (some '"')) ('"' :: mid) :=
    yields_peekToken?_iff.mpr ⟨by rw [hmore]; rfl, hmore.symm⟩
  rw [skipName]
  exact htoken.andThen (yields_skip.andThen ((yields_skipString hname).andThen hcolon))

theorem skipLoop_members
    (hinner : ∀ {cs v rest}, Yields (valueWithin inner) cs (some v) rest → PassedOver cs rest)
    {first : Bool} {ms ms' : List (String × Json)}
    (h : ReadsMembers (keepMember (valueWithin inner)) first cs ms ms' mid)
    (hend : Yields endObject mid (some ()) rest) :
    ∃ used, used + 2 * rest.length ≤ 2 * cs.length + first.toNat ∧
      ∀ room brackets, skipLoop (used + room) (if first then .opened else .afterItem)
        (.object :: brackets) cs =
          skipLoop room .afterItem brackets rest := by
  induction h with
  | @done first cs mid s hmore =>
      obtain ⟨rfl, more, hclosing⟩ := yields_hasMember_false hmore
      rw [hclosing] at hend
      cases yields_endObject_cons hend
      have hle := length_dropBlanks_le cs
      rw [hclosing, List.length_cons] at hle
      refine ⟨1, by omega, fun room brackets => ?_⟩
      rw [Nat.add_comm]
      exact skipLoop_close hclosing (by cases first <;> decide)
  | @next first cs mid text after rest' name ms ms' ms'' hmore hname hmember _ _ ih =>
      -- one round for the name and the value behind it, and then those for the others
      obtain ⟨used', hused', hskip'⟩ := ih hend
      rw [if_neg (by decide)] at hskip'
      obtain ⟨v, inside, hcolon, hv, rfl⟩ := of_keepMember hmember
      obtain ⟨used, hused, hskip⟩ := hinner hv
      have hle := length_dropBlanks_le cs
      have hname' := hname.length_le .stringBody
      have hcolon' := hcolon.length_le .colon
      obtain ⟨-, ⟨rfl, hmid⟩ | ⟨rfl, more, hcomma, hmid⟩⟩ := yields_hasMember_true hmore
      · have hskipName := yields_skipName (by rw [List.dropWhile_idempotent, ← hmid]) hname hcolon
        have hne : '"' ≠ Bracket.object.closing := by decide
        rw [← hmid, List.length_cons] at hle
        refine ⟨1 + used + used', ?_, fun room brackets => ?_⟩
        · simp only [Bool.toNat_true, Bool.toNat_false] at hused' ⊢
          omega
        · rw [if_pos rfl, show 1 + used + used' + room = used + (used' + room) + 1 by omega,
            skipLoop_first hmid.symm hne, hmid, bind_apply, hskipName.eq]
          show skipLoop _ _ _ _ = _
          rw [hskip, hskip']
      · have hskipName := yields_skipName hmid.symm hname hcolon
        have hle' := length_dropBlanks_le more
        rw [← hmid, List.length_cons] at hle'
        rw [hcomma, List.length_cons] at hle
        refine ⟨1 + used + used', ?_, fun room brackets => ?_⟩
        · simp only [Bool.toNat_false] at hused' ⊢
          omega
        · rw [if_neg (by decide), show 1 + used + used' + room = used + (used' + room) + 1 by omega,
            skipLoop_comma hcomma, bind_apply, hskipName.eq]
          show skipLoop _ _ _ _ = _
          rw [hskip, hskip']

/-! ### Values -/

/-- A value without brackets is passed over in one round, by a reader of its own. -/
theorem passedOver_of_scalar {c : Char} {more : List Char} {r : Reader Unit}
    (hcs : cs.dropWhile isBlank = c :: more) (hr : Consumes r) (hread : Yields r more (some ()) rest)
    (hstep : ∀ room brackets, skipLoop (room + 1) .value brackets cs =
      (r >>= fun _ => skipLoop room .afterItem brackets) more) : PassedOver cs rest := by
  have hle := length_dropBlanks_le cs
  have hle' := hread.length_le hr
  rw [hcs, List.length_cons] at hle
  refine ⟨1, by omega, fun room brackets => ?_⟩
  rw [Nat.add_comm, hstep, bind_apply, hread.eq]

/-- A list or an object is passed over in one round for its opening bracket, and those that lead to
the closing one. -/
theorem passedOver_of_bracket {bracket : Bracket} {c : Char} {more : List Char}
    (hcs : cs.dropWhile isBlank = c :: more)
    (hloop : ∃ used, used + 2 * rest.length ≤ 2 * more.length + true.toNat ∧
      ∀ room brackets, skipLoop (used + room) .opened (bracket :: brackets) more =
        skipLoop room .afterItem brackets rest)
    (hstep : ∀ room brackets, skipLoop (room + 1) .value brackets cs =
      skipLoop room .opened (bracket :: brackets) more) : PassedOver cs rest := by
  have hle := length_dropBlanks_le cs
  obtain ⟨used, hused, hskip⟩ := hloop
  rw [hcs, List.length_cons] at hle
  rw [Bool.toNat_true] at hused
  refine ⟨used + 1, by omega, fun room brackets => ?_⟩
  rw [Nat.add_right_comm, hstep, hskip]

theorem passedOver_of_number {c : Char} {more : List Char} {n : Number}
    (hcs : cs.dropWhile isBlank = c :: more) (hbegins : beginsNumber c = true)
    (hn : Yields number (c :: more) (some n) rest) : PassedOver cs rest := by
  by_cases hminus : c = '-'
  -- the sign is skipped first; then the digits are those of a number without sign
  · subst hminus
    have hunsigned : Yields (unsignedNumber Bool.false) more (some n) rest := hn
    refine passedOver_of_scalar hcs .skipUnsigned (yields_skipUnsigned hunsigned)
      fun room brackets => ?_
    rw [skipLoop, bind_apply, (yields_peekValue_of_dropBlanks hcs).eq]
    rfl
  · have hskip : Yields skipUnsigned (c :: more) (some ()) rest :=
      yields_skipUnsigned ((number_of_ne_minus hminus).symm.trans hn)
    have hlt := length_lt_of_skipUnsigned hskip
    have hle := length_dropBlanks_le cs
    have hdigit : c.isDigit = true := by simpa [beginsNumber, hminus] using hbegins
    rw [hcs] at hle
    refine ⟨1, by omega, fun room brackets => ?_⟩
    rw [Nat.add_comm, skipLoop, bind_apply, (yields_peekValue_of_dropBlanks hcs).eq]
    dsimp only
    split
    case h_8 =>
      rw [if_pos hdigit, bind_apply, hskip.eq]
    all_goals exact absurd hdigit (by decide)

theorem passedOver_of_readsValue
    (hinner : ∀ item, inner = some item → Consumes item ∧ (∃ within, item = valueWithin within) ∧
      ∀ {cs v rest}, Yields item cs (some v) rest → PassedOver cs rest)
    {v : Json} (h : ReadsValue inner (cs.dropWhile isBlank) v rest) : PassedOver cs rest := by
  generalize hcs : cs.dropWhile isBlank = text at h
  cases h with
  | null hword | yes hword | no hword =>
      refine passedOver_of_scalar hcs (.word _) hword fun room brackets => ?_
      rw [skipLoop, bind_apply, (yields_peekValue_of_dropBlanks hcs).eq]
      rfl
  | string hs =>
      refine passedOver_of_scalar hcs (Consumes.unread.andThen fun _ => .skipStringRest _)
        (yields_skipString hs) fun room brackets => ?_
      rw [skipLoop, bind_apply, (yields_peekValue_of_dropBlanks hcs).eq]
      rfl
  | number hbegins hn => exact passedOver_of_number hcs hbegins hn
  | @list more mid rest item vs hitem hitems hend =>
      obtain ⟨hconsumes, ⟨within, rfl⟩, hpassed⟩ := hinner item hitem
      have hwalk := readsItems_of_items hconsumes hitems (ne_nil_of_endList hend)
      refine passedOver_of_bracket hcs (skipLoop_items hpassed hwalk hend) fun room brackets => ?_
      rw [skipLoop, bind_apply, (yields_peekValue_of_dropBlanks hcs).eq]
      rfl
  | @object more mid rest item ms hitem hmembers hend =>
      obtain ⟨hconsumes, ⟨within, rfl⟩, hpassed⟩ := hinner item hitem
      have hwalk :=
        readsMembers_of_foldMembers (fun name read => .keepMember hconsumes name read) hmembers
          (ne_nil_of_endObject hend)
      refine passedOver_of_bracket hcs (skipLoop_members hpassed hwalk hend) fun room brackets => ?_
      rw [skipLoop, bind_apply, (yields_peekValue_of_dropBlanks hcs).eq]
      rfl

/-- Whatever the limit of nesting was. -/
theorem passedOver_value {depth : Nat} {v : Json} (h : Yields (value depth) cs (some v) rest) :
    PassedOver cs rest := by
  induction depth using value.induct generalizing cs v rest with
  | case1 | case2 =>
      refine passedOver_of_readsValue ?_ (yields_valueWithin_iff.mp h)
      rintro _ ⟨⟩
  | case3 depth ih =>
      refine passedOver_of_readsValue ?_ (yields_valueWithin_iff.mp h)
      rintro _ ⟨⟩
      exact ⟨.value _, value_succ depth, ih⟩

/-- **What can be read can be passed over.** -/
theorem yields_skipValue {depth : Nat} {v : Json} (h : Yields (value depth) cs (some v) rest) :
    Yields skipValue cs (some ()) rest := by
  obtain ⟨used, hused, hskip⟩ := passedOver_value h
  obtain ⟨room, hroom⟩ : ∃ room, 2 * cs.length + 2 = used + (room + 1) :=
    ⟨2 * cs.length + 1 - used, by omega⟩
  rw [skipValue]
  refine (yields_unread cs).andThen ?_
  show skipLoop _ _ _ _ = _
  rw [hroom, hskip]
  rfl

end AgentGraph.Json.Reader
