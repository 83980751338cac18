import AgentGraph.Json.Value
import AgentGraph.Proofs.Json.Number

/-!
# Passing over strings and numbers

A string or a number that nobody asked for is passed over, and it is looked at less closely than
when it is read. Here it is shown that passing over gets as far as reading does: wherever a string
is read it is passed over with the same rest (`yields_skipString`), and so is a number
(`yields_skipUnsigned`).

A reader that `Consumes` leaves no more than it was given. There is one law for each way to put
readers together, and one lemma for each reader of a leaf. What passes over a leaf is simpler than
what reads it, so for strings and numbers the lemma goes by way of passing over.
-/

namespace AgentGraph.Json.Reader

open Numeric

variable {α β : Type} {cs mid rest : List Char}

/-! ### Strings -/

theorem length_of_hexEscape {n : Nat} (h : Yields hexEscape cs (some n) rest) :
    cs.length = rest.length + 4 := by
  rw [hexEscape] at h
  obtain ⟨_, _, ⟨⟩, h⟩ := h.of_bind
  split at h
  next =>
    split at h
    · cases h
      rfl
    · cases h
  next => split at h <;> cases h

theorem eq_cons_of_pairMark {c : Char} (h : Yields (pairMark c) cs (some ()) rest) :
    cs = c :: rest := by
  rw [pairMark] at h
  obtain ⟨_, _, ⟨⟩, h⟩ := h.of_bind
  split at h
  next => cases h
  next d heq =>
    obtain ⟨cs, rfl⟩ := List.head?_eq_some_iff.mp heq
    split at h
    next hd =>
      cases h
      rw [hd, List.tail_cons]
    next => cases h

/-- An escape by number is one of four digits, or a pair of them. -/
theorem hexEscapes_of_unicodeEscape {c : Char} (h : Yields unicodeEscape cs (some c) rest) :
    ∃ n mid, Yields hexEscape cs (some n) mid ∧
      (mid = rest ∨ ∃ low last, mid = '\\' :: 'u' :: last ∧
        Yields hexEscape last (some low) rest) := by
  rw [unicodeEscape] at h
  obtain ⟨n, mid, hhex, h⟩ := h.of_bind
  refine ⟨n, mid, hhex, ?_⟩
  split at h
  · cases h
  split at h
  · exact .inl h.of_pure.2
  -- the first half of a pair: the other half has to follow at once
  · obtain ⟨_, mid', hmark, h⟩ := h.of_bind
    obtain ⟨_, last, hmark', h⟩ := h.of_bind
    obtain ⟨low, last', hlow, h⟩ := h.of_bind
    split at h
    · cases h
    · have hrest := (Yields.of_pure h).2
      subst hrest
      exact .inr ⟨low, last, by rw [eq_cons_of_pairMark hmark, eq_cons_of_pairMark hmark'], hlow⟩

/-- An escape is one by number or one letter. -/
theorem cons_of_escape {d : Char} (h : Yields escape cs (some d) rest) :
    (∃ more, cs = 'u' :: more ∧ Yields unicodeEscape more (some d) rest) ∨
      ∃ c, cs = c :: rest ∧ c ≠ 'u' ∧ (simpleEscape? c).isSome = true := by
  rw [escape] at h
  obtain ⟨c?, mid, hnext, h⟩ := h.of_bind
  cases cs with
  | nil =>
      cases hnext
      cases h
  | cons c cs =>
      -- what comes next decides; `cases` turns each comparison into an equation of characters
      cases hnext
      split at h
      next heq => cases heq
      next heq =>
        cases heq
        exact .inl ⟨cs, rfl, h⟩
      next c' hne heq =>
        cases heq
        split at h
        next e he =>
          obtain ⟨-, rfl⟩ := h.of_pure
          exact .inr ⟨c, rfl, hne, by rw [he]; rfl⟩
        next => cases h

/-- An escape that is read is passed over. A pair of escapes by number is one character, and two
are passed over. -/
theorem yields_skipStringRest_escape {d : Char} (hescape : Yields escape cs (some d) mid)
    {room : Nat} (hroom : cs.length < room)
    (hrest : ∀ room, mid.length < room → Yields (skipStringRest room) mid (some ()) rest) :
    Yields (skipStringRest (room + 1)) ('\\' :: cs) (some ()) rest := by
  rw [skipStringRest]
  refine (yields_peek? _).andThen (yields_skip.andThen ?_)
  rcases cons_of_escape hescape with ⟨more, rfl, hunicode⟩ | ⟨e, rfl, hne, hsimple⟩
  · obtain ⟨n, after, hhex, hafter⟩ := hexEscapes_of_unicodeEscape hunicode
    have hlength := length_of_hexEscape hhex
    rw [List.length_cons] at hroom
    refine (yields_next? 'u' more).andThen (hhex.andThen ?_)
    rcases hafter with rfl | ⟨low, last, rfl, hlow⟩
    · exact hrest room (by omega)
    -- the second half of the pair is passed over as an escape of its own
    · have hlength' := length_of_hexEscape hlow
      rw [List.length_cons, List.length_cons] at hlength
      obtain ⟨room, rfl⟩ := Nat.exists_eq_succ_of_ne_zero (show room ≠ 0 by omega)
      rw [skipStringRest]
      refine (yields_peek? _).andThen (yields_skip.andThen ((yields_next? 'u' last).andThen ?_))
      exact hlow.andThen (hrest room (by omega))
  · rw [List.length_cons] at hroom
    refine (yields_next? e mid).andThen ?_
    split
    next heq => cases heq
    next heq => exact absurd (Option.some.inj heq) hne
    next heq =>
      cases heq
      rw [if_pos hsimple]
      exact hrest room (by omega)

/-- The rest of a string that is read is passed over. The induction is on the characters that are
read. -/
theorem yields_skipStringRest {fuel : Nat} {read : List Char} {s : String}
    (h : Yields (stringRest fuel read) cs (some s) rest) {room : Nat} (hroom : cs.length < room) :
    Yields (skipStringRest room) cs (some ()) rest := by
  induction fuel generalizing cs read room with
  | zero => cases h
  | succ fuel ih =>
      obtain ⟨room, rfl⟩ := Nat.exists_eq_succ_of_ne_zero (Nat.ne_of_gt (Nat.zero_lt_of_lt hroom))
      rw [stringRest] at h
      obtain ⟨c?, _, hnext, h⟩ := h.of_bind
      cases cs with
      | nil =>
        cases hnext
        cases h
      | cons c cs =>
        cases hnext
        rw [List.length_cons] at hroom
        split at h
        next heq => cases heq
        next heq =>
          cases heq
          cases h
          rfl
        next heq =>
          cases heq
          obtain ⟨d, mid, hescape, hread⟩ := h.of_bind
          exact yields_skipStringRest_escape hescape (Nat.lt_of_succ_lt_succ hroom) fun room hroom =>
            ih hread hroom
        -- every other character is passed over, unless it is a control character
        next c' hquote hbackslash heq =>
          cases heq
          rw [skipStringRest]
          refine (yields_peek? (c :: cs)).andThen ?_
          split at h
          next => cases h
          next hspace =>
            split
            next heq => cases heq
            next heq => exact absurd (Option.some.inj heq) hquote
            next heq => exact absurd (Option.some.inj heq) hbackslash
            next heq =>
              cases heq
              rw [if_neg hspace]
              exact yields_skip.andThen (ih h (by rw [List.tail_cons]; omega))

/-- **A string that is read is passed over.** -/
theorem yields_skipString {s : String} (h : Yields stringBody cs (some s) rest) :
    Yields skipString cs (some ()) rest := by
  rw [stringBody] at h
  obtain ⟨_, _, ⟨⟩, h⟩ := h.of_bind
  exact (yields_unread cs).andThen (yields_skipStringRest h (Nat.lt_succ_self _))

/-! ### Digits -/

/-- What is left after the digits that come next. -/
def pastDigits (cs : List Char) : List Char := cs.dropWhile Char.isDigit

theorem pastDigits_cons {c : Char} (hc : c.isDigit = true) : pastDigits (c :: cs) = pastDigits cs :=
  List.dropWhile_cons_of_pos hc

theorem pastDigits_end (h : EndsDigits cs) : pastDigits cs = cs := by
  cases cs with
  | nil => rfl
  | cons c cs => exact List.dropWhile_cons_of_neg (by simp [h c rfl])

theorem yields_countDigits (cs : List Char) :
    Yields countDigits cs (some (cs.takeWhile Char.isDigit).length) (pastDigits cs) := rfl

/-- Either no digit comes next, or the next one is seen. -/
theorem digit_or_end_of_peekDigit? {digit? : Option Nat}
    (h : Yields peekDigit? cs (some digit?) mid) :
    mid = cs ∧ (digit? = none ∧ EndsDigits cs ∨
      ∃ c more, cs = c :: more ∧ c.isDigit = true ∧ digit? = some (digitValue c)) := by
  cases cs with
  | nil =>
      cases h
      exact ⟨rfl, .inl ⟨rfl, by simp [EndsDigits]⟩⟩
  | cons c cs =>
      by_cases hc : c.isDigit = true
      · have := (peekDigit?_cons hc).symm.trans h.eq
        cases this
        exact ⟨rfl, .inr ⟨c, cs, rfl, hc, rfl⟩⟩
      · have hend : EndsDigits (c :: cs) := endsDigits_cons (by simpa using hc)
        have := (peekDigit?_end hend).symm.trans h.eq
        cases this
        exact ⟨rfl, .inl ⟨rfl, hend⟩⟩

/-! ### The parts of a number

When all digits are read the number is put together, and nothing more is read for that. -/

theorem rest_of_assemble {positive : Bool} {significand : Nat} {exponent : Int} {x : Double}
    (h : Yields (assemble positive significand exponent) cs (some x) rest) : cs = rest := by
  rw [assemble] at h
  dsimp only at h
  -- in each case the magnitude is computed, or it is too large, and nothing is read
  split at h
  · split at h
    · split at h
      · obtain ⟨_, _, hfail, -⟩ := h.of_bind
        cases hfail
      · exact h.of_pure.2
    · exact h.of_pure.2
  · split at h
    · exact h.of_pure.2
    · obtain ⟨_, _, hfail, -⟩ := h.of_bind
      cases hfail

theorem rest_of_hugeExponent {positive positiveExponent : Bool} {significand : Nat} {x : Double}
    (h : Yields (hugeExponent positive significand positiveExponent) cs (some x) rest) :
    pastDigits cs = rest := by
  rw [hugeExponent] at h
  split at h
  · cases h
  · obtain ⟨_, _, hcount, h⟩ := h.of_bind
    cases hcount
    exact h.of_pure.2

theorem rest_of_exponentRest {positive positiveExponent : Bool} {significand fuel exponent : Nat}
    {start : Int} {x : Double}
    (h : Yields (exponentRest positive significand start positiveExponent fuel exponent) cs
      (some x) rest) :
    pastDigits cs = rest := by
  induction fuel generalizing cs exponent with
  | zero => cases h
  | succ fuel ih =>
      rw [exponentRest] at h
      obtain ⟨digit?, _, hdigit, h⟩ := h.of_bind
      obtain ⟨rfl, ⟨rfl, hend⟩ | ⟨c, more, rfl, hc, rfl⟩⟩ := digit_or_end_of_peekDigit? hdigit
      · rw [pastDigits_end hend]
        exact rest_of_assemble h
      -- one more digit; if the exponent gets too large the other digits are passed over at once
      · rw [pastDigits_cons hc]
        obtain ⟨_, _, hskip, h⟩ := h.of_bind
        cases hskip
        split at h
        · exact rest_of_hugeExponent h
        · exact ih h

theorem digit_of_exponentDigits {positive positiveExponent : Bool} {significand : Nat} {start : Int}
    {x : Double}
    (h : Yields (exponentDigits positive significand start positiveExponent) cs (some x) rest) :
    ∃ c more, cs = c :: more ∧ c.isDigit = true ∧ pastDigits more = rest := by
  rw [exponentDigits] at h
  obtain ⟨c?, after, hnext, h⟩ := h.of_bind
  cases cs with
  | nil =>
      cases hnext
      cases h
  | cons c cs =>
      cases hnext
      dsimp only [List.head?_cons] at h
      split at h
      next hc =>
        obtain ⟨_, _, ⟨⟩, h⟩ := h.of_bind
        exact ⟨c, cs, rfl, hc, rest_of_exponentRest h⟩
      next => cases h

/-- An exponent that is read has a sign or none, and a digit. -/
theorem digits_of_exponentPart {positive : Bool} {significand : Nat} {start : Int} {x : Double}
    (h : Yields (exponentPart positive significand start) cs (some x) rest) :
    ∃ sign c more, sign ∈ [[], ['+'], ['-']] ∧ cs.tail = sign ++ c :: more ∧ c.isDigit = true ∧
      pastDigits more = rest := by
  rw [exponentPart] at h
  obtain ⟨_, mid, ⟨⟩, h⟩ := h.of_bind
  obtain ⟨sign?, _, ⟨⟩, h⟩ := h.of_bind
  -- a sign is optional, and a digit has to follow in any case
  split at h
  next heq =>
    obtain ⟨more, hmore⟩ := List.head?_eq_some_iff.mp heq
    obtain ⟨_, _, ⟨⟩, h⟩ := h.of_bind
    obtain ⟨_, _, ⟨⟩, h⟩ := h.of_bind
    obtain ⟨c, more', hcs, hc, hrest⟩ := digit_of_exponentDigits h
    rw [hmore] at hcs ⊢
    exact ⟨['+'], c, more', by simp, congrArg _ hcs, hc, hrest⟩
  next heq =>
    obtain ⟨more, hmore⟩ := List.head?_eq_some_iff.mp heq
    obtain ⟨_, _, ⟨⟩, h⟩ := h.of_bind
    obtain ⟨_, _, ⟨⟩, h⟩ := h.of_bind
    obtain ⟨c, more', hcs, hc, hrest⟩ := digit_of_exponentDigits h
    rw [hmore] at hcs ⊢
    exact ⟨['-'], c, more', by simp, congrArg _ hcs, hc, hrest⟩
  next =>
    obtain ⟨_, _, ⟨⟩, h⟩ := h.of_bind
    obtain ⟨c, more', hcs, hc, hrest⟩ := digit_of_exponentDigits h
    exact ⟨[], c, more', by simp, hcs, hc, hrest⟩

theorem yields_skipExponentDigits {more : List Char} {c : Char} (hc : c.isDigit = true) :
    Yields skipExponentDigits (c :: more) (some ()) (pastDigits more) := by
  rw [skipExponentDigits]
  refine (yields_next? c more).andThen ?_
  dsimp only
  rw [if_pos hc]
  exact (yields_countDigits more).andThen (.pure _ _)

theorem yields_skipExponent {sign more : List Char} {c : Char} (e : Char)
    (hsign : sign ∈ [[], ['+'], ['-']]) (hc : c.isDigit = true) :
    Yields skipExponent (e :: (sign ++ c :: more)) (some ()) (pastDigits more) := by
  have hdigits : Yields skipExponentDigits (c :: more) (some ()) (pastDigits more) :=
    yields_skipExponentDigits hc
  rw [skipExponent]
  refine yields_skip.andThen ((yields_peek? _).andThen ?_)
  simp only [List.mem_cons, List.not_mem_nil, or_false] at hsign
  rcases hsign with rfl | rfl | rfl
  -- without a sign the first character is a digit, so it is not taken for one
  · have hne : ∀ d : Char, d.isDigit = false → c ≠ d := by
      rintro d hd rfl
      rw [hc] at hd
      cases hd
    simp only [List.nil_append, List.head?_cons]
    split
    next heq => exact absurd (Option.some.inj heq) (hne '+' rfl)
    next heq => exact absurd (Option.some.inj heq) (hne '-' rfl)
    next => exact hdigits
  · exact hdigits
  · exact hdigits

theorem yields_skipAfterDigits {positive : Bool} {significand : Nat} {exponent : Int} {x : Double}
    (h : Yields (afterDigits positive significand exponent) cs (some x) rest) :
    Yields skipAfterDigits cs (some ()) rest := by
  have hexponent : ∀ {e : Char}, cs.head? = some e →
      Yields (exponentPart positive significand exponent) cs (some x) rest →
      Yields skipExponent cs (some ()) rest := by
    intro e he h
    obtain ⟨more, rfl⟩ := List.head?_eq_some_iff.mp he
    obtain ⟨sign, c, more', hsign, hmore, hc, rfl⟩ := digits_of_exponentPart h
    rw [List.tail_cons] at hmore
    rw [hmore]
    exact yields_skipExponent e hsign hc
  rw [afterDigits] at h
  obtain ⟨c?, _, hpeek, h⟩ := h.of_bind
  rw [skipAfterDigits]
  refine Yields.andThen hpeek ?_
  cases hpeek
  -- the letter decides on either side, so both go the same way
  split
  next heq => exact hexponent heq (by rwa [heq] at h)
  next heq => exact hexponent heq (by rwa [heq] at h)
  next hlower hupper =>
    split at h
    next heq => exact absurd heq hlower
    next heq => exact absurd heq hupper
    next =>
      cases rest_of_assemble h
      rfl

theorem digits_of_fractionRest {positive : Bool} {start : Int} {fuel significand read : Nat}
    {x : Double} (h : Yields (fractionRest positive start fuel significand read) cs (some x) rest) :
    (read = 0 → ¬ EndsDigits cs) ∧ Yields skipAfterDigits (pastDigits cs) (some ()) rest := by
  induction fuel generalizing cs significand read with
  | zero => cases h
  | succ fuel ih =>
      rw [fractionRest] at h
      obtain ⟨digit?, _, hdigit, h⟩ := h.of_bind
      obtain ⟨rfl, ⟨rfl, hend⟩ | ⟨c, more, rfl, hc, rfl⟩⟩ := digit_or_end_of_peekDigit? hdigit
      -- the digits end here, and there has to be one
      · dsimp only at h
        split at h
        next =>
          obtain ⟨c?, _, -, h⟩ := h.of_bind
          split at h <;> cases h
        next hread =>
          rw [pastDigits_end hend]
          exact ⟨fun h => absurd h hread, yields_skipAfterDigits h⟩
      · have hsome : ¬ EndsDigits (c :: more) :=
          fun h => absurd (hc.symm.trans (h c rfl)) (by decide)
        refine ⟨fun _ => hsome, ?_⟩
        dsimp only at h
        split at h
        -- the significand is full, so the other digits are only counted
        · obtain ⟨_, _, hcount, h⟩ := h.of_bind
          cases hcount
          exact yields_skipAfterDigits h
        · obtain ⟨_, _, ⟨⟩, h⟩ := h.of_bind
          rw [pastDigits_cons hc]
          exact (ih h).2

/-- A fraction that is read is passed over. -/
theorem yields_skipFraction {positive : Bool} {significand : Nat} {start : Int} {x : Double}
    (h : Yields (fractionPart positive significand start) cs (some x) rest) :
    Yields skipFraction cs (some ()) rest := by
  rw [fractionPart] at h
  obtain ⟨_, _, hskip, h⟩ := h.of_bind
  obtain ⟨_, _, ⟨⟩, h⟩ := h.of_bind
  obtain ⟨hsome, hafter⟩ := digits_of_fractionRest h
  rw [skipFraction]
  refine Yields.andThen hskip ((yields_countDigits _).andThen ?_)
  rw [if_neg]
  · exact hafter
  -- if no digit were counted there would be none at the front, which the reader refuses
  · intro hnone
    refine hsome rfl fun c hc => ?_
    obtain ⟨more, hmore⟩ := List.head?_eq_some_iff.mp hc
    rw [List.length_eq_zero_iff, hmore] at hnone
    by_contra hdigit
    rw [List.takeWhile_cons_of_pos (by simpa using hdigit)] at hnone
    cases hnone

/-! What follows a whole number is told by its first character. -/

theorem yields_skipAfterWhole_point (hpoint : cs.head? = some '.')
    (h : Yields skipFraction cs (some ()) rest) : Yields skipAfterWhole cs (some ()) rest := by
  rw [skipAfterWhole]
  refine (yields_peek? cs).andThen ?_
  rw [hpoint]
  exact h

theorem yields_skipAfterWhole_of_ne (hpoint : cs.head? ≠ some '.')
    (h : Yields skipAfterDigits cs (some ()) rest) : Yields skipAfterWhole cs (some ()) rest := by
  rw [skipAfterWhole]
  refine (yields_peek? cs).andThen ?_
  split
  next heq => exact absurd heq hpoint
  next => exact h

theorem yields_skipAfterDigits_of_ne (hlower : cs.head? ≠ some 'e') (hupper : cs.head? ≠ some 'E') :
    Yields skipAfterDigits cs (some ()) cs := by
  rw [skipAfterDigits]
  refine (yields_peek? cs).andThen ?_
  split
  next heq => exact absurd heq hlower
  next heq => exact absurd heq hupper
  next => rfl

theorem yields_skipAfterWhole {positive : Bool} {significand : Nat} {n : Number}
    (h : Yields (afterWhole positive significand) cs (some n) rest) :
    Yields skipAfterWhole cs (some ()) rest := by
  -- read directly or behind the digits, an exponent is passed over in the same way
  have hexponent : ∀ {e : Char} {f : Double → Number}, e = 'e' ∨ e = 'E' → cs.head? = some e →
      Yields (do return f (← exponentPart positive significand 0)) cs (some n) rest →
      Yields skipAfterDigits cs (some ()) rest := by
    intro e f he heq h
    obtain ⟨x, mid, hread, hpure⟩ := h.of_bind
    obtain ⟨-, rfl⟩ := hpure.of_pure
    have hafter : Yields (afterDigits positive significand 0) cs (some x) mid := by
      rw [afterDigits]
      refine (yields_peek? cs).andThen ?_
      rw [heq]
      rcases he with rfl | rfl <;> exact hread
    exact yields_skipAfterDigits hafter
  rw [afterWhole] at h
  obtain ⟨c?, _, ⟨⟩, h⟩ := h.of_bind
  split at h
  next heq =>
    obtain ⟨x, _, hread, hpure⟩ := h.of_bind
    obtain ⟨-, rfl⟩ := hpure.of_pure
    exact yields_skipAfterWhole_point heq (yields_skipFraction hread)
  next heq => exact yields_skipAfterWhole_of_ne (by rw [heq]; decide) (hexponent (.inl rfl) heq h)
  next heq => exact yields_skipAfterWhole_of_ne (by rw [heq]; decide) (hexponent (.inr rfl) heq h)
  next hpoint hlower hupper =>
    -- nothing follows, whichever number it is
    have hrest : cs = rest := by
      split at h
      · exact h.of_pure.2
      · split at h <;> exact h.of_pure.2
    subst hrest
    exact yields_skipAfterWhole_of_ne hpoint (yields_skipAfterDigits_of_ne hlower hupper)

theorem yields_skipAfterWhole_of_longWhole {positive : Bool} {significand : Nat} {n : Number}
    (h : Yields (longWhole positive significand) cs (some n) rest) :
    Yields skipAfterWhole (pastDigits cs) (some ()) rest := by
  rw [longWhole] at h
  obtain ⟨exponent, after, hcount, h⟩ := h.of_bind
  have hafter : pastDigits cs = after := by
    cases hcount
    rfl
  obtain ⟨c?, _, ⟨⟩, h⟩ := h.of_bind
  rw [hafter]
  split at h
  next heq =>
    obtain ⟨x, _, hread, hpure⟩ := h.of_bind
    obtain ⟨-, rfl⟩ := hpure.of_pure
    exact yields_skipAfterWhole_point heq (yields_skipFraction hread)
  next hpoint =>
    obtain ⟨x, _, hread, hpure⟩ := h.of_bind
    obtain ⟨-, rfl⟩ := hpure.of_pure
    exact yields_skipAfterWhole_of_ne hpoint (yields_skipAfterDigits hread)

theorem yields_skipAfterWhole_of_wholeRest {positive : Bool} {fuel significand : Nat} {n : Number}
    (h : Yields (wholeRest positive fuel significand) cs (some n) rest) :
    Yields skipAfterWhole (pastDigits cs) (some ()) rest := by
  induction fuel generalizing cs significand with
  | zero => cases h
  | succ fuel ih =>
      rw [wholeRest] at h
      obtain ⟨digit?, _, hdigit, h⟩ := h.of_bind
      obtain ⟨rfl, ⟨rfl, hend⟩ | ⟨c, more, rfl, hc, rfl⟩⟩ := digit_or_end_of_peekDigit? hdigit
      · rw [pastDigits_end hend]
        exact yields_skipAfterWhole h
      · dsimp only at h
        split at h
        · exact yields_skipAfterWhole_of_longWhole h
        · obtain ⟨_, _, ⟨⟩, h⟩ := h.of_bind
          rw [pastDigits_cons hc]
          exact ih h

/-- **A number that is read is passed over.** -/
theorem yields_skipUnsigned {positive : Bool} {n : Number}
    (h : Yields (unsignedNumber positive) cs (some n) rest) :
    Yields skipUnsigned cs (some ()) rest := by
  rw [unsignedNumber] at h
  obtain ⟨c?, _, hnext, h⟩ := h.of_bind
  rw [skipUnsigned]
  refine Yields.andThen hnext ?_
  split at h
  next => cases h
  next =>
    obtain ⟨digit?, _, hdigit, h⟩ := h.of_bind
    refine Yields.andThen hdigit ?_
    -- no digit may follow a zero in front
    obtain ⟨rfl, ⟨rfl, hend⟩ | ⟨c, more, hmore, hc, rfl⟩⟩ := digit_or_end_of_peekDigit? hdigit
    · exact yields_skipAfterWhole h
    · cases h
  next c hzero =>
    split at h
    next hc =>
      obtain ⟨_, _, ⟨⟩, h⟩ := h.of_bind
      split
      next heq => exact absurd heq (by simpa using hzero)
      next heq =>
        cases heq
        rw [if_pos hc]
        exact (yields_countDigits _).andThen (yields_skipAfterWhole_of_wholeRest h)
      next heq => cases heq
    next => cases h

/-! ### How much is read -/

/-- What the reader leaves is not longer than what it was given. -/
def Consumes (r : Reader α) : Prop := ∀ cs a rest, Yields r cs (some a) rest →
    rest.length ≤ cs.length

theorem Yields.length_le {r : Reader α} {a : α} (h : Yields r cs (some a) rest) (hr : Consumes r) :
    rest.length ≤ cs.length := hr cs a rest h

namespace Consumes

variable {r : Reader α} {k : α → Reader β}

theorem pure (a : α) : Consumes (pure a) := fun _ _ _ h => h.of_pure.2 ▸ Nat.le_refl _

theorem andThen (hr : Consumes r) (hk : ∀ a, Consumes (k a)) : Consumes (r >>= k) := by
  intro cs b rest h
  obtain ⟨a, mid, hread, hgo⟩ := h.of_bind
  exact (hk a _ _ _ hgo).trans (hr _ _ _ hread)

theorem located (hr : Consumes r) :
    Consumes (Reader.located r) := fun _ _ _ h => hr _ _ _ h.of_located

theorem closedBy {close : Reader Unit} (hr : Consumes r) (hclose : Consumes close) :
    Consumes (Reader.closedBy r close) := by
  intro cs a rest h
  obtain ⟨mid, hread, hend⟩ := h.of_closedBy
  exact (hclose _ _ _ hend).trans (hr _ _ _ hread)

theorem failHere (fault : SyntaxFault) :
    Consumes (Reader.failHere fault : Reader α) := fun _ _ _ h => nomatch h
theorem failAtNext (fault : SyntaxFault) :
    Consumes (Reader.failAtNext fault : Reader α) := fun _ _ _ h => nomatch h

theorem unread : Consumes Reader.unread := by
  rintro cs _ _ ⟨⟩
  exact Nat.le_refl _

theorem peek? : Consumes Reader.peek? := by
  rintro cs _ _ ⟨⟩
  exact Nat.le_refl _

theorem skip : Consumes Reader.skip := by
  rintro cs _ _ ⟨⟩
  rw [List.length_tail]
  omega

theorem next? : Consumes Reader.next? := peek?.andThen fun _ => skip.andThen fun _ => .pure _

theorem skipBlanks : Consumes Reader.skipBlanks := by
  rintro cs _ _ ⟨⟩
  exact (List.dropWhile_suffix _).length_le

theorem peekToken? : Consumes Reader.peekToken? := skipBlanks.andThen fun _ => peek?

theorem peekValue : Consumes Reader.peekValue := by
  refine peekToken?.andThen fun c? => ?_
  cases c? with
  | none => exact .failAtNext _
  | some c => exact .pure c

theorem word (letters : List Char) : Consumes (Reader.word letters) := by
  induction letters with
  | nil => exact .pure ()
  | cons c letters ih =>
      refine next?.andThen fun d? => ?_
      split
      · exact .failHere _
      · split
        · exact ih
        · exact .failHere _

theorem hexEscape : Consumes Reader.hexEscape := fun _ _ _ h => by
  rw [length_of_hexEscape h]
  exact Nat.le_add_right _ _

theorem countDigits : Consumes Reader.countDigits := by
  rintro cs _ _ ⟨⟩
  exact (List.dropWhile_suffix _).length_le

theorem peekDigit? : Consumes Reader.peekDigit? := by
  refine peek?.andThen fun c? => ?_
  split
  · split <;> exact .pure _
  · exact .pure _

theorem skipStringRest (fuel : Nat) : Consumes (Reader.skipStringRest fuel) := by
  induction fuel with
  | zero => exact .failHere _
  | succ fuel ih =>
      refine peek?.andThen fun c? => ?_
      split
      · exact .failHere _
      · exact skip
      · refine skip.andThen fun _ => next?.andThen fun e? => ?_
        split
        · exact .failHere _
        · exact hexEscape.andThen fun _ => ih
        · split
          · exact ih
          · exact .failHere _
      · split
        · exact .failHere _
        · exact skip.andThen fun _ => ih

theorem stringBody : Consumes Reader.stringBody := fun _ _ _ h =>
  (unread.andThen fun _ => skipStringRest _) _ _ _ (yields_skipString h)

theorem skipExponentDigits : Consumes Reader.skipExponentDigits := by
  refine next?.andThen fun c? => ?_
  split
  · split
    · exact countDigits.andThen fun _ => .pure _
    · exact .failHere _
  · exact .failHere _

theorem skipExponent : Consumes Reader.skipExponent := by
  refine skip.andThen fun _ => peek?.andThen fun sign? => ?_
  dsimp only
  split
  · exact skip.andThen fun _ => skipExponentDigits
  · exact skip.andThen fun _ => skipExponentDigits
  · exact skipExponentDigits

theorem skipAfterDigits : Consumes Reader.skipAfterDigits := by
  refine peek?.andThen fun c? => ?_
  split
  · exact skipExponent
  · exact skipExponent
  · exact .pure _

theorem skipAfterWhole : Consumes Reader.skipAfterWhole := by
  refine peek?.andThen fun c? => ?_
  split
  · refine skip.andThen fun _ => countDigits.andThen fun read => ?_
    split
    · exact .failAtNext _
    · exact skipAfterDigits
  · exact skipAfterDigits

end Consumes

theorem length_lt_of_skipUnsigned (h : Yields skipUnsigned cs (some ()) rest) :
    rest.length < cs.length := by
  rw [skipUnsigned] at h
  obtain ⟨c?, mid, hnext, h⟩ := h.of_bind
  cases cs with
  | nil =>
      cases hnext
      cases h
  | cons c cs =>
      cases hnext
      -- the first character is taken away, and the rest takes only more
      apply Nat.lt_succ_of_le
      split at h
      · obtain ⟨digit?, _, hdigit, h⟩ := h.of_bind
        have hle := hdigit.length_le .peekDigit?
        split at h
        · cases h
        · exact (h.length_le .skipAfterWhole).trans hle
      · split at h
        · obtain ⟨_, _, hcount, h⟩ := h.of_bind
          exact (h.length_le .skipAfterWhole).trans (hcount.length_le .countDigits)
        · cases h
      · cases h

namespace Consumes

theorem skipUnsigned :
    Consumes Reader.skipUnsigned := fun _ _ _ h => (length_lt_of_skipUnsigned h).le

theorem number : Consumes Reader.number := by
  have hunsigned : ∀ positive, Consumes (unsignedNumber positive) := fun _ _ _ _ h =>
    skipUnsigned _ _ _ (yields_skipUnsigned h)
  refine peek?.andThen fun c? => ?_
  split
  · exact skip.andThen fun _ => hunsigned _
  · exact hunsigned _

end Consumes

end AgentGraph.Json.Reader
