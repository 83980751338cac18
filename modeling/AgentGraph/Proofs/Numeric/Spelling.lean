import AgentGraph.Numeric.Decimal
import AgentGraph.Proofs.Numeric.Range
import AgentGraph.Proofs.Numeric.Shortest
import AgentGraph.Proofs.Text.Lower

/-!
# How numbers are spelled

A text that is read as a number is, after its sign, a word or a decimal
(`Double.unsignedOf?_eq_some_iff`). A decimal has digits around at most one point, and perhaps an
exponent (`DecimalText`). What is read is no finite number just when the text is a word, or a
decimal beyond the range (`Double.exists_ofText?_not_finite_iff`).
-/

namespace AgentGraph.Numeric

variable {cs rest digits : List Char} {n : Nat} {e : Int} {negative : Bool}

/-! ### The grammar -/

/-- Whether a text begins with a minus, and what comes behind its sign. -/
def splitSign : List Char → Bool × List Char
  | '-' :: cs => (true, cs)
  | '+' :: cs => (false, cs)
  | cs => (false, cs)

/-- Nothing but digits, at least one. -/
structure Digits (cs : List Char) : Prop where
  ne_nil : cs ≠ []
  isDigit : ∀ c ∈ cs, c.isDigit = true

/-- An exponent, with its mark and perhaps a sign, or nothing. -/
inductive ExponentText : List Char → Int → Prop
  | none : ExponentText [] 0
  | some {mark : Char} {cs : List Char} (hmark : mark = 'e' ∨
      mark = 'E') (hdigits : Digits (splitSign cs).2) : ExponentText (mark :: cs)
        (if (splitSign cs).1 then -(digitsValue (splitSign cs).2 : Int) else digitsValue
          (splitSign cs).2)

/-- The text of the decimal `n * 10 ^ e`: digits with or without a point, then perhaps an
exponent. -/
inductive DecimalText : List Char → Nat → Int → Prop
  | whole {digits rest : List Char} {e : Int} (hdigits : Digits digits)
      (hexponent : ExponentText rest e) : DecimalText (digits ++ rest) (digitsValue digits) e
  | point {whole fraction rest : List Char} {e : Int} (hdigits : Digits (whole ++ fraction))
      (hexponent : ExponentText rest e) :
      DecimalText (whole ++ '.' :: (fraction ++ rest)) (digitsValue (whole ++ fraction))
        (e - fraction.length)

/-- A word in small letters. -/
def lowerWord (cs : List Char) : String := String.ofList (cs.map Char.toLower)

/-- A word for something that is no finite number, or a decimal beyond the range. -/
inductive SpellsNoFinite : List Char → Prop
  | infinity {cs : List Char} (h : lowerWord cs = "inf" ∨ lowerWord cs = "infinity") :
      SpellsNoFinite cs
  | nan {cs : List Char} (h : lowerWord cs = "nan") : SpellsNoFinite cs
  | beyond {cs : List Char} {n : Nat} {e : Int} (h : DecimalText cs n e) (hgreat : Double.overflow ≤
      n * 10 ^ e) : SpellsNoFinite cs

/-! ### Scanning digits -/

theorem spanDigits_append (hdigits : ∀ c ∈ digits, c.isDigit = true)
    (hrest : ∀ c ∈ rest.head?, c.isDigit = false) :
    spanDigits (digits ++ rest) = (digits, rest) := by
  have hstop : rest.takeWhile Char.isDigit = [] ∧ rest.dropWhile Char.isDigit = rest := by
    cases rest with
    | nil => exact ⟨rfl, rfl⟩
    | cons c rest =>
        have hc : c.isDigit = false := hrest c rfl
        simp [hc]
  rw [spanDigits, List.takeWhile_append_of_pos hdigits, List.dropWhile_append_of_pos hdigits,
    hstop.1, hstop.2, List.append_nil]

theorem isDigit_of_mem_spanDigits {c : Char} (hc : c ∈ (spanDigits cs).1) : c.isDigit = true :=
  List.mem_takeWhile_imp hc

theorem spanDigits_fst_append_snd (cs : List Char) : (spanDigits cs).1 ++ (spanDigits cs).2 = cs :=
  List.takeWhile_append_dropWhile

theorem digits_iff :
    Digits digits ↔ ¬ (digits.isEmpty = true ∨ ¬ digits.all Char.isDigit = true) := by
  rw [not_or, not_not, List.isEmpty_iff, List.all_eq_true]
  exact ⟨fun h => ⟨h.ne_nil, h.isDigit⟩, fun h => ⟨h.1, h.2⟩⟩

theorem splitSign_of_digits (h : Digits digits) : splitSign digits = (false, digits) := by
  unfold splitSign
  split
  · exact absurd (h.isDigit '-' (List.mem_cons_self ..)) (by decide)
  · exact absurd (h.isDigit '+' (List.mem_cons_self ..)) (by decide)
  · rfl

/-- A whole number is written with digits. -/
theorem digits_decimalDigits (n : Nat) :
    Digits (decimalDigits n) := ⟨Nat.toDigits_ne_nil, fun _ => isDigit_decimalDigits⟩

theorem digitsValue_decimalDigits (n : Nat) :
    digitsValue (decimalDigits n) = n := Nat.ofDigitChars_ten_toDigits

/-- An exponent does not begin with a digit or a point. -/
theorem ExponentText.head? (h : ExponentText rest e) : ∀ c ∈ rest.head?, c = 'e' ∨ c = 'E' := by
  cases h with
  | none => simp
  | some hmark hdigits => simpa using hmark

namespace Double

/-! ### Readers and grammar -/

theorem exponentOf?_cons (mark : Char) (cs : List Char) : exponentOf? (mark :: cs) =
    if mark ≠ 'e' ∧ mark ≠ 'E' then none
    else if (splitSign cs).2.isEmpty ∨ ¬ (splitSign cs).2.all Char.isDigit then none
    else some (if (splitSign cs).1 then -(digitsValue (splitSign cs).2 : Int) else digitsValue
      (splitSign cs).2) :=
  rfl

theorem exponentOf?_eq_some_iff : exponentOf? cs = some e ↔ ExponentText cs e := by
  cases cs with
  | nil =>
      constructor
      · intro h
        cases h
        exact .none
      · intro h
        cases h
        rfl
  | cons mark cs =>
      rw [exponentOf?_cons]
      constructor
      · intro h
        split at h
        · cases h
        next hmark =>
        split at h
        · cases h
        next hdigits =>
        cases h
        exact .some (by tauto) (digits_iff.mpr hdigits)
      · intro h
        cases h with
        | some hmark hdigits => rw [if_neg (by tauto), if_neg (digits_iff.mp hdigits)]

/-- The digits behind a point, if there is one, and what comes then. -/
def splitFraction : List Char → List Char × List Char
  | '.' :: cs => spanDigits cs
  | cs => ([], cs)

/-- The decimal that is read where no word stands. -/
def decimalOf? (cs : List Char) : Option (Nat × Int) :=
  let (whole, rest) := spanDigits cs
  let (fraction, rest) := splitFraction rest
  if whole.isEmpty ∧ fraction.isEmpty then none
  else (exponentOf? rest).map fun e => (digitsValue (whole ++ fraction), e - fraction.length)

theorem unsignedOf?_eq (negative : Bool) (cs : List Char) : unsignedOf? negative cs =
    if lowerWord cs = "inf" ∨ lowerWord cs = "infinity" then some (.infinity negative)
    else if lowerWord cs = "nan" then some .nan
    else (decimalOf? cs).map fun d => ofScientific negative d.1 d.2 := by
  simp only [decimalOf?, apply_ite (Option.map _), Option.map_none, Option.map_map]
  rfl

theorem splitFraction_cases (cs : List Char) :
    (∃ more, cs = '.' :: more ∧ splitFraction cs = spanDigits more) ∨
    splitFraction cs = ([], cs) := by
  unfold splitFraction
  split
  · exact .inl ⟨_, rfl, rfl⟩
  · exact .inr rfl

/-- An exponent is no fraction. -/
theorem splitFraction_exponent (h : ExponentText rest e) : splitFraction rest = ([], rest) := by
  rcases splitFraction_cases rest with ⟨more, rfl, -⟩ | hsplit
  · exact absurd (h.head? '.' rfl) (by decide)
  · exact hsplit

theorem decimalText_of_splitFraction {whole : List Char} (hwhole : ∀ c ∈ whole, c.isDigit = true)
    (hne : ¬ (whole.isEmpty = true ∧ (splitFraction rest).1.isEmpty = true))
    (hexponent : ExponentText (splitFraction rest).2 e) : DecimalText (whole ++ rest)
      (digitsValue (whole ++ (splitFraction rest).1)) (e - (splitFraction rest).1.length) := by
  rcases splitFraction_cases rest with ⟨cs, rfl, hsplit⟩ | hsplit <;> rw [hsplit] at hne hexponent ⊢
  · have hdigits : Digits (whole ++ (spanDigits cs).1) := by
      refine ⟨fun hnil => hne (by simpa using hnil), fun c hc => ?_⟩
      exact (List.mem_append.mp hc).elim (hwhole c) isDigit_of_mem_spanDigits
    have hpoint := DecimalText.point hdigits hexponent
    rwa [spanDigits_fst_append_snd] at hpoint
  · have hdigits : Digits whole := ⟨fun hnil => hne (by simp [hnil]), hwhole⟩
    simpa using DecimalText.whole hdigits hexponent

theorem decimalOf?_eq_some_iff : decimalOf? cs = some (n, e) ↔ DecimalText cs n e := by
  constructor
  · intro h
    unfold decimalOf? at h
    dsimp only at h
    split at h
    · cases h
    next hne =>
    obtain ⟨e', hexponent, heq⟩ := Option.map_eq_some_iff.mp h
    cases heq
    have hdecimal := decimalText_of_splitFraction (fun c => isDigit_of_mem_spanDigits) hne
      (exponentOf?_eq_some_iff.mp hexponent)
    rwa [spanDigits_fst_append_snd] at hdecimal
  · intro h
    -- what follows the digits is a mark of an exponent or nothing, and no digit
    have hnotDigit : ∀ {c : Char}, c = 'e' ∨ c = 'E' → c.isDigit = false := by
      rintro c (rfl | rfl) <;> rfl
    cases h with
    | @whole digits rest e hdigits hexponent =>
        have hspan := spanDigits_append hdigits.isDigit fun c hc => hnotDigit (hexponent.head? c hc)
        unfold decimalOf?
        simp only [hspan, splitFraction_exponent hexponent, exponentOf?_eq_some_iff.mpr hexponent]
        rw [if_neg fun hempty => hdigits.ne_nil (List.isEmpty_iff.mp hempty.1)]
        simp
    | @point whole fraction rest e hdigits hexponent =>
        have hwhole : ∀ c ∈ whole, c.isDigit = true :=
          fun c hc => hdigits.isDigit c (List.mem_append_left _ hc)
        have hfraction : ∀ c ∈ fraction, c.isDigit = true :=
          fun c hc => hdigits.isDigit c (List.mem_append_right _ hc)
        -- digits are split off twice: before the point and behind it
        have hspan : spanDigits (whole ++ '.' :: (fraction ++ rest)) =
            (whole, '.' :: (fraction ++ rest)) :=
          spanDigits_append hwhole (by simp)
        have hspan' := spanDigits_append hfraction fun c hc => hnotDigit (hexponent.head? c hc)
        unfold decimalOf?
        simp only [hspan, splitFraction, hspan', exponentOf?_eq_some_iff.mpr hexponent]
        rw [if_neg fun hempty => hdigits.ne_nil (by simpa using hempty)]
        rfl

end Double

/-- A decimal begins with a digit or a point. -/
theorem DecimalText.exists_cons (h : DecimalText cs n e) :
    ∃ c more, cs = c :: more ∧ (c.isDigit = true ∨ c = '.') := by
  have hcons : ∀ {digits : List Char}, Digits digits → ∃ c more, digits = c :: more ∧
      c.isDigit = true := by
    intro digits hdigits
    obtain ⟨c, more, rfl⟩ := List.exists_cons_of_ne_nil hdigits.ne_nil
    exact ⟨c, more, rfl, hdigits.isDigit c (List.mem_cons_self ..)⟩
  cases h with
  | whole hdigits hexponent =>
      obtain ⟨c, more, rfl, hc⟩ := hcons hdigits
      exact ⟨c, _, rfl, .inl hc⟩
  | @point whole fraction rest e hdigits hexponent =>
      cases whole with
      | nil => exact ⟨'.', _, rfl, .inr rfl⟩
      | cons c whole => exact ⟨c, _, rfl, .inl (hdigits.isDigit c (List.mem_cons_self ..))⟩

/-- A decimal is no word: its first character comes before the letters. -/
theorem lowerWord_ne_of_decimalText (h : DecimalText cs n e) {word : String}
    (hword : ∀ c ∈ word.toList.head?, 60 ≤ c.toNat) : lowerWord cs ≠ word := by
  obtain ⟨c, more, rfl, hc⟩ := h.exists_cons
  have hcode : c.toLower.toNat < 60 := by
    have hlower := Text.toNat_toLower c
    have hlt : c.toNat < 60 := by
      rcases hc with hdigit | rfl
      · exact (Char.isDigit_iff_toNat.mp hdigit).2.trans_lt (by decide)
      · decide
    split at hlower <;> omega
  rintro rfl
  have hle := hword c.toLower (by rw [lowerWord, String.toList_ofList]; rfl)
  omega

namespace Double

/-- **What is read, without its sign, is a word or a decimal.** -/
theorem unsignedOf?_eq_some_iff {x : Double} : unsignedOf? negative cs = some x ↔
    (lowerWord cs = "inf" ∨ lowerWord cs = "infinity") ∧ x = .infinity negative ∨
      lowerWord cs = "nan" ∧ x = .nan ∨ ∃ n e, DecimalText cs n e ∧
      x = ofScientific negative n e := by
  rw [unsignedOf?_eq]
  constructor
  · intro h
    split at h
    · next hword =>
      cases h
      exact .inl ⟨hword, rfl⟩
    split at h
    · next hword =>
      cases h
      exact .inr (.inl ⟨hword, rfl⟩)
    · obtain ⟨⟨n, e⟩, hdecimal, rfl⟩ := Option.map_eq_some_iff.mp h
      exact .inr (.inr ⟨n, e, decimalOf?_eq_some_iff.mp hdecimal, rfl⟩)
  · rintro (⟨hword, rfl⟩ | ⟨hword, rfl⟩ | ⟨n, e, hdecimal, rfl⟩)
    · rw [if_pos hword]
    · rw [hword, if_neg (by decide), if_pos rfl]
    -- the words begin with letters, and decimals do not
    · have hinf : lowerWord cs ≠ "inf" := lowerWord_ne_of_decimalText hdecimal (by simp)
      have hinfinity : lowerWord cs ≠ "infinity" := lowerWord_ne_of_decimalText hdecimal (by simp)
      have hnan : lowerWord cs ≠ "nan" := lowerWord_ne_of_decimalText hdecimal (by simp)
      rw [if_neg (not_or.mpr ⟨hinf, hinfinity⟩), if_neg hnan, decimalOf?_eq_some_iff.mpr hdecimal,
        Option.map_some]

theorem ofText?_eq (s : String) :
    ofText? s = unsignedOf? (splitSign s.toList).1 (splitSign s.toList).2 := by
  unfold ofText?
  generalize s.toList = cs
  split
  · rfl
  · rfl
  · rw [splitSign] <;> assumption

/-! ### Finite numbers -/

theorem isFinite_ofMagnitude_zero (negative : Bool) :
    (Binary.ofMagnitude negative 0 : Double).isFinite = true := by
  cases negative <;> decide

theorem isFinite_infinity (negative : Bool) :
    (Binary.infinity negative : Double).isFinite = false := by
  cases negative <;> decide

theorem one_lt_overflow : 1 < overflow := by
  have hpow : (2 : ℚ) ^ 0 < 2 ^ (970 : ℤ) := by
    rw [← zpow_natCast]
    exact zpow_lt_zpow_right₀ one_lt_two (by decide)
  rw [overflow_eq]
  generalize (2 : ℚ) ^ (970 : ℤ) = unit at hpow ⊢
  linarith only [hpow]

theorem overflow_le_pow : overflow ≤ 10 ^ (400 : ℤ) := by
  calc overflow ≤ 2 ^ 54 * 2 ^ (970 : ℤ) := by
        rw [overflow_eq]
        gcongr
        norm_num
    _ ≤ 2 ^ (1026 : ℤ) := by
        rw [← zpow_natCast, ← zpow_add₀ two_ne_zero]
        exact zpow_le_zpow_right₀ one_le_two (by decide)
    _ = 8 ^ (342 : ℤ) := by
        rw [show (8 : ℚ) = 2 ^ (3 : ℤ) by norm_num, ← zpow_mul]
        norm_num
    _ ≤ 10 ^ (342 : ℤ) := zpow_le_zpow_left₀ (by decide) (by norm_num) (by norm_num)
    _ ≤ 10 ^ (400 : ℤ) := zpow_le_zpow_right₀ (by norm_num) (by decide)

theorem pow_le_least : (10 : ℚ) ^ (-400 : ℤ) ≤ 2 ^ (Width.double.quantum - 1) := by
  calc (10 : ℚ) ^ (-400 : ℤ) ≤ 8 ^ (-400 : ℤ) := by
        rw [zpow_neg, zpow_neg]
        exact inv_anti₀ (by positivity) (zpow_le_zpow_left₀ (by decide) (by norm_num) (by norm_num))
    _ = 2 ^ (-1200 : ℤ) := by
        rw [show (8 : ℚ) = 2 ^ (3 : ℤ) by norm_num, ← zpow_mul]
        norm_num
    _ ≤ 2 ^ (Width.double.quantum - 1) := zpow_le_zpow_right₀ one_le_two (by decide)

/-- **A decimal is read as the nearest number**, however far from the range it lies. -/
theorem ofScientific_eq_round (negative : Bool) (n : Nat) (e : Int) : ofScientific negative n e =
    .round negative (Shortest.inUnits n 1 (-e)).1 (Shortest.inUnits n 1 (-e)).2 0 := by
  have hden : 0 < (Shortest.inUnits n 1 (-e)).2 := Shortest.inUnits_den_pos Nat.one_pos n (-e)
  obtain ⟨c, hc, hnum⟩ := Shortest.exists_inUnits_num 1 (-e)
  have hvalue : ((Shortest.inUnits n 1 (-e)).1 / (Shortest.inUnits n 1 (-e)).2 * 2 ^ (0 : ℤ) : ℚ) =
      n * 10 ^ e := by
    rw [Shortest.inUnits_ratio, Nat.cast_one, div_one, neg_neg, zpow_zero, mul_one]
  unfold ofScientific
  rcases Nat.eq_zero_or_pos n with rfl | hn
  · rw [if_pos rfl, hnum, Nat.zero_mul, Binary.round, if_pos rfl]
  rw [if_neg hn.ne']
  have hlow :
      (10 : ℚ) ^ ((Nat.toDigits 10 n).length - 1) ≤
      n := by exact_mod_cast pow_length_decimalDigits_le hn
  have hhigh : (n : ℚ) < 10 ^ (Nat.toDigits 10 n).length := by
    exact_mod_cast lt_pow_length_decimalDigits n
  have hlength : 0 < (Nat.toDigits 10 n).length := Nat.length_toDigits_pos
  generalize (Nat.toDigits 10 n).length = length at *
  have hten : (0 : ℚ) < 10 := by norm_num
  have hrange : decimalRange = 400 := rfl
  dsimp only
  -- what is far beyond the range is not computed, and the result is that of rounding all the same
  split_ifs with hgreat hsmall he
  · -- beyond the range
    have hpos : 0 < (Shortest.inUnits n 1 (-e)).1 := hnum n ▸ Nat.mul_pos hn hc
    refine (Binary.round_eq_infinity hpos hden ?_).symm
    rw [Bool.eq_false_iff, Ne, isFinite_round_iff negative hpos hden, hvalue, not_lt]
    calc overflow ≤ 10 ^ (400 : ℤ) := overflow_le_pow
      _ ≤ 10 ^ (((length - 1 : Nat) : ℤ) + e) := zpow_le_zpow_right₀ (by norm_num) (by omega)
      _ = 10 ^ (length - 1) * 10 ^ e := by rw [zpow_add₀ hten.ne', zpow_natCast]
      _ ≤ n * 10 ^ e := by gcongr
  · -- too near to zero
    refine (Binary.round_eq_zero negative hden ?_).symm
    rw [hvalue]
    calc (n * 10 ^ e : ℚ) < 10 ^ length * 10 ^ e := by gcongr
      _ = 10 ^ (length + e : ℤ) := by rw [zpow_add₀ hten.ne', zpow_natCast]
      _ ≤ 10 ^ (-400 : ℤ) := zpow_le_zpow_right₀ (by norm_num) (by omega)
      _ ≤ 2 ^ (Width.double.quantum - 1) := pow_le_least
  -- in the range the fraction is the same on either side
  · unfold Shortest.inUnits
    rcases he.lt_or_eq with hlt | rfl
    · rw [if_neg (by omega), neg_neg]
    · rw [neg_zero, if_pos le_rfl]
      show Binary.round negative (n * 1) 1 0 = .round negative n 1 0
      rw [Nat.mul_one]
  · rw [Shortest.inUnits, if_pos (by omega), Nat.one_mul]

theorem ofScientific_whole (negative : Bool) (n : Nat) :
    ofScientific negative n 0 = .round negative n 1 0 := by
  have hunits : Shortest.inUnits n 1 (-0) = (n, 1) := rfl
  rw [ofScientific_eq_round, hunits]

/-- **A decimal is read as a finite number just when it lies within the range.** -/
theorem isFinite_ofScientific_iff (negative : Bool) (n : Nat) (e : Int) :
    (ofScientific negative n e).isFinite = true ↔ (n * 10 ^ e : ℚ) < overflow := by
  rcases Nat.eq_zero_or_pos n with rfl | hn
  · rw [Nat.cast_zero, zero_mul]
    exact iff_of_true (isFinite_ofMagnitude_zero negative) (one_pos.trans one_lt_overflow)
  obtain ⟨c, hc, hnum⟩ := Shortest.exists_inUnits_num 1 (-e)
  rw [ofScientific_eq_round, isFinite_round_iff negative (hnum n ▸ Nat.mul_pos hn hc)
    (Shortest.inUnits_den_pos Nat.one_pos n (-e)), Shortest.inUnits_ratio, Nat.cast_one, div_one,
    neg_neg, zpow_zero, mul_one]

/-- **What is read is no finite number just where the text says so**: it is a word, or a decimal
beyond the range. -/
theorem exists_ofText?_not_finite_iff {s : String} :
    (∃ x, ofText? s = some x ∧ x.isFinite = false) ↔ SpellsNoFinite (splitSign s.toList).2 := by
  simp only [ofText?_eq, unsignedOf?_eq_some_iff]
  constructor
  · rintro ⟨x, ⟨hword, -⟩ | ⟨hword, -⟩ | ⟨n, e, hdecimal, rfl⟩, hfinite⟩
    · exact .infinity hword
    · exact .nan hword
    -- a decimal below the end would have been rounded to a finite number
    · refine .beyond hdecimal (not_lt.mp fun hlt => ?_)
      rw [(isFinite_ofScientific_iff _ n e).mpr hlt] at hfinite
      cases hfinite
  · rintro (hword | hword | ⟨hdecimal, hgreat⟩)
    · exact ⟨_, .inl ⟨hword, rfl⟩, isFinite_infinity _⟩
    · exact ⟨_, .inr (.inl ⟨hword, rfl⟩), by decide⟩
    · refine ⟨_, .inr (.inr ⟨_, _, hdecimal, rfl⟩), ?_⟩
      rw [Bool.eq_false_iff, Ne, isFinite_ofScientific_iff]
      exact not_lt.mpr hgreat

end Double

end AgentGraph.Numeric
