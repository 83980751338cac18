import AgentGraph.Json.Number
import AgentGraph.Proofs.Json.Scan
import AgentGraph.Proofs.Numeric.Digits

/-!
# Reading numbers that were written

A whole number in the 64-bit range is read back as it was written (`number_whole`). A 32-bit number
is written with a fraction or an exponent, and is read as a 64-bit number, in one way whatever
follows. The reader rounds twice, so this need not be the number that was written; but it becomes
that number again when it is made one of 32 bits (`exists_readsAs_decimal`).
-/

namespace AgentGraph.Json.Reader

open Numeric

variable {cs rest : List Char}

/-! ### Where digits end -/

/-- No digit comes next. -/
def EndsDigits (rest : List Char) : Prop := ∀ c ∈ rest.head?, c.isDigit = false

/-- What comes next is not a part of a number. -/
def EndsNumber (rest : List Char) : Prop :=
  ∀ c ∈ rest.head?, c.isDigit = false ∧ c ≠ '.' ∧ c ≠ 'e' ∧ c ≠ 'E'

theorem EndsNumber.endsDigits (h : EndsNumber rest) : EndsDigits rest := fun c hc => (h c hc).1

theorem endsNumber_nil : EndsNumber [] := by simp [EndsNumber]

theorem endsDigits_cons {c : Char} (hc : c.isDigit = false) : EndsDigits (c :: rest) := by
  simpa [EndsDigits] using hc

theorem peekDigit?_cons {c : Char} (hc : c.isDigit = true) :
    peekDigit? (c :: rest) = (.ok (some (digitValue c)), c :: rest) := by
  show (peek? >>= _ : Reader _) _ = _
  rw [bind_apply, show peek? (c :: rest) = (.ok (some c), c :: rest) from rfl]
  dsimp only
  rw [if_pos hc]
  rfl

theorem peekDigit?_end (h : EndsDigits rest) : peekDigit? rest = (.ok none, rest) := by
  cases rest with
  | nil => rfl
  | cons c rest =>
      show (peek? >>= _ : Reader _) _ = _
      rw [bind_apply, show peek? (c :: rest) = (.ok (some c), c :: rest) from rfl]
      dsimp only
      rw [if_neg (by rw [h c rfl]; decide)]
      rfl

/-! ### Digits -/

theorem le_ofDigitChars (digits : List Char) (n : Nat) : n ≤ Nat.ofDigitChars 10 digits n := by
  rw [Nat.ofDigitChars_eq_ofDigitChars_zero]
  have : 1 * n ≤ 10 ^ digits.length * n := Nat.mul_le_mul_right n (Nat.pow_pos (by decide))
  omega

theorem ofDigitChars_cons (c : Char) (digits : List Char) (n : Nat) :
    Nat.ofDigitChars 10 (c :: digits) n = Nat.ofDigitChars 10 digits (n * 10 + digitValue c) := by
  rw [Nat.ofDigitChars_cons, Nat.mul_comm]
  rfl

theorem digitValue_lt {c : Char} (hc : c.isDigit = true) : digitValue c < 10 := by
  obtain ⟨hlow, hhigh⟩ := Char.isDigit_iff_toNat.mp hc
  have : '9'.toNat = '0'.toNat + 9 := rfl
  rw [digitValue]
  omega

theorem ofDigitChars_lt {digits : List Char} (hdigits : ∀ c ∈ digits, c.isDigit = true) :
    Nat.ofDigitChars 10 digits 0 < 10 ^ digits.length := by
  induction digits with
  | nil => exact Nat.one_pos
  | cons c digits ih =>
      obtain ⟨hc, hdigits⟩ := List.forall_mem_cons.mp hdigits
      rw [ofDigitChars_cons, Nat.ofDigitChars_eq_ofDigitChars_zero, List.length_cons, pow_succ]
      calc 10 ^ digits.length * (0 * 10 + digitValue c) + Nat.ofDigitChars 10 digits 0
          ≤ 10 ^ digits.length * 9 + Nat.ofDigitChars 10 digits 0 := by
            have := digitValue_lt hc
            gcongr
            omega
        _ < 10 ^ digits.length * 10 := by
            have := ih hdigits
            omega

section

variable {digits : List Char} {fuel n : Nat}

theorem wholeRest_digits (positive : Bool) (hdigits : ∀ c ∈ digits, c.isDigit = true)
    (hfuel : digits.length < fuel) (hfit : Nat.ofDigitChars 10 digits n ≤ maxSignificand)
    (hrest : EndsDigits rest) :
    wholeRest positive fuel n (digits ++ rest) =
      afterWhole positive (Nat.ofDigitChars 10 digits n) rest := by
  induction digits generalizing fuel n with
  | nil =>
      obtain ⟨fuel, rfl⟩ := Nat.exists_eq_succ_of_ne_zero (Nat.ne_of_gt hfuel)
      rw [wholeRest, List.nil_append, bind_apply, peekDigit?_end hrest]
      rfl
  | cons c digits ih =>
      obtain ⟨fuel, rfl⟩ := Nat.exists_eq_succ_of_ne_zero (Nat.ne_of_gt (Nat.zero_lt_of_lt hfuel))
      obtain ⟨hc, hdigits⟩ := List.forall_mem_cons.mp hdigits
      rw [ofDigitChars_cons] at hfit ⊢
      -- what is read so far is not more than the whole, so this digit fits too
      have hle := (le_ofDigitChars digits _).trans hfit
      rw [wholeRest, List.cons_append, bind_apply, peekDigit?_cons hc]
      dsimp only
      rw [if_neg (not_lt.mpr hle)]
      exact ih hdigits (Nat.lt_of_succ_lt_succ hfuel) hfit

theorem fractionRest_digits (positive : Bool) (start : Int) (read : Nat)
    (hdigits : ∀ c ∈ digits, c.isDigit = true) (hfuel : digits.length < fuel)
    (hread : 0 < read + digits.length) (hfit : Nat.ofDigitChars 10 digits n ≤ maxSignificand)
    (hrest : EndsDigits rest) :
    fractionRest positive start fuel n read (digits ++ rest) =
      afterDigits positive (Nat.ofDigitChars 10 digits n)
      (start - (read + digits.length : Nat)) rest := by
  induction digits generalizing fuel n read with
  | nil =>
      obtain ⟨fuel, rfl⟩ := Nat.exists_eq_succ_of_ne_zero (Nat.ne_of_gt hfuel)
      rw [fractionRest, List.nil_append, bind_apply, peekDigit?_end hrest]
      dsimp only
      -- a fraction without digits would be refused here
      rw [if_neg (show ¬ read = 0 from Nat.ne_of_gt hread)]
      rfl
  | cons c digits ih =>
      obtain ⟨fuel, rfl⟩ := Nat.exists_eq_succ_of_ne_zero (Nat.ne_of_gt (Nat.zero_lt_of_lt hfuel))
      obtain ⟨hc, hdigits⟩ := List.forall_mem_cons.mp hdigits
      rw [ofDigitChars_cons] at hfit ⊢
      have hle := (le_ofDigitChars digits _).trans hfit
      -- every digit of the fraction takes one off the exponent
      have hih := ih (read + 1) hdigits (Nat.lt_of_succ_lt_succ hfuel) (by omega) hfit
      rw [fractionRest, List.cons_append, bind_apply, peekDigit?_cons hc]
      dsimp only
      rw [if_neg (not_lt.mpr hle), List.length_cons,
        show read + (digits.length + 1) = read + 1 + digits.length by omega, ← hih]
      rfl

theorem exponentRest_digits (positive : Bool) (significand : Nat) (start : Int)
    (positiveExponent : Bool) (hdigits : ∀ c ∈ digits, c.isDigit = true)
    (hfuel : digits.length < fuel) (hfit : Nat.ofDigitChars 10 digits n ≤ maxExponent)
    (hrest : EndsDigits rest) :
    exponentRest positive significand start positiveExponent fuel n (digits ++ rest) =
      assemble positive significand
        (if positiveExponent then start + Nat.ofDigitChars 10 digits n
          else start - Nat.ofDigitChars 10 digits n)
        rest := by
  induction digits generalizing fuel n with
  | nil =>
      obtain ⟨fuel, rfl⟩ := Nat.exists_eq_succ_of_ne_zero (Nat.ne_of_gt hfuel)
      rw [exponentRest, List.nil_append, bind_apply, peekDigit?_end hrest]
      rfl
  | cons c digits ih =>
      obtain ⟨fuel, rfl⟩ := Nat.exists_eq_succ_of_ne_zero (Nat.ne_of_gt (Nat.zero_lt_of_lt hfuel))
      obtain ⟨hc, hdigits⟩ := List.forall_mem_cons.mp hdigits
      rw [ofDigitChars_cons] at hfit ⊢
      -- an exponent that has become too large would be skipped from here on
      have hle := (le_ofDigitChars digits _).trans hfit
      rw [exponentRest, List.cons_append, bind_apply, peekDigit?_cons hc]
      dsimp only
      rw [bind_apply, show skip (c :: (digits ++ rest)) = (.ok (), digits ++ rest) from rfl]
      dsimp only
      rw [if_neg (not_lt.mpr hle)]
      exact ih hdigits (Nat.lt_of_succ_lt_succ hfuel) hfit

end

/-! ### The parts of a number -/

/-- The whole part of a number: zero alone, or digits that do not begin with zero. -/
structure Whole (digits : List Char) : Prop where
  ne_nil : digits ≠ []
  isDigit : ∀ c ∈ digits, c.isDigit = true
  head : digits.head? = some '0' → digits = ['0']

theorem unsignedNumber_whole (positive : Bool) {digits : List Char} (hwhole : Whole digits)
    (hfit : Nat.ofDigitChars 10 digits 0 ≤ maxSignificand) (hrest : EndsDigits rest) :
    unsignedNumber positive (digits ++ rest) =
      afterWhole positive (Nat.ofDigitChars 10 digits 0) rest := by
  obtain ⟨c, digits, rfl⟩ := List.exists_cons_of_ne_nil hwhole.ne_nil
  obtain ⟨hc, hdigits⟩ := List.forall_mem_cons.mp hwhole.isDigit
  have hnext : next? (c :: digits ++ rest) = (.ok (some c), digits ++ rest) := rfl
  rw [unsignedNumber, bind_apply, hnext]
  by_cases hzero : c = '0'
  -- a zero in front stands alone
  · subst hzero
    obtain rfl : digits = [] := (List.cons.inj (hwhole.head rfl)).2
    show (peekDigit? >>= _ : Reader _) _ = _
    rw [List.nil_append, bind_apply, peekDigit?_end hrest]
    rfl
  · simp only
    rw [ofDigitChars_cons] at hfit ⊢
    rw [if_pos hc, ← wholeRest_digits positive hdigits (Nat.lt_succ_of_le _) hfit hrest,
      Nat.zero_mul, Nat.zero_add]
    · rfl
    · rw [List.length_append]
      exact Nat.le_add_right _ _

theorem fractionPart_digits (positive : Bool) {n : Nat} (start : Int) {digits : List Char}
    (hdigits : ∀ c ∈ digits, c.isDigit = true) (hne : digits ≠ [])
    (hfit : Nat.ofDigitChars 10 digits n ≤ maxSignificand) (hrest : EndsDigits rest) :
    fractionPart positive n start ('.' :: (digits ++ rest)) =
      afterDigits positive (Nat.ofDigitChars 10 digits n) (start - digits.length) rest := by
  have hpos := List.length_pos_iff.mpr hne
  have hread : fractionRest positive start ((digits ++ rest).length + 1) n 0 (digits ++ rest) = _ :=
    fractionRest_digits positive start 0 hdigits (by rw [List.length_append]; omega)
      (by omega) hfit hrest
  rw [Nat.zero_add] at hread
  exact hread

/-- The sign of an exponent. -/
def signOf (positive : Bool) : Char := if positive then '+' else '-'

theorem exponentPart_digits (positive : Bool) (n : Nat) (start : Int) (positiveExponent : Bool)
    {digits : List Char} (hdigits : ∀ c ∈ digits, c.isDigit = true) (hne : digits ≠ [])
    (hfit : Nat.ofDigitChars 10 digits 0 ≤ maxExponent) (hrest : EndsDigits rest) :
    exponentPart positive n start ('e' :: signOf positiveExponent :: (digits ++ rest)) =
      assemble positive n
        (if positiveExponent then start + Nat.ofDigitChars 10 digits 0
          else start - Nat.ofDigitChars 10 digits 0)
        rest := by
  obtain ⟨c, digits, rfl⟩ := List.exists_cons_of_ne_nil hne
  obtain ⟨hc, hdigits⟩ := List.forall_mem_cons.mp hdigits
  rw [ofDigitChars_cons, Nat.zero_mul, Nat.zero_add] at hfit ⊢
  have hfuel : digits.length < (digits ++ rest).length + 1 := by
    rw [List.length_append]
    omega
  rw [← exponentRest_digits positive n start positiveExponent hdigits hfuel hfit hrest]
  -- the sign is looked at once, and its two cases go on in the same way
  have hnext :
      exponentPart positive n start ('e' :: signOf positiveExponent :: (c :: digits ++ rest)) =
        (if c.isDigit then
          (do exponentRest positive n start positiveExponent ((← unread).length + 1) (digitValue c)
            : Reader Double)
        else failHere .badNumber) (digits ++ rest) := by
    cases positiveExponent <;> rfl
  rw [hnext, if_pos hc]
  rfl

theorem afterDigits_end (positive : Bool) (n : Nat) (e : Int) (hrest : EndsNumber rest) :
    afterDigits positive n e rest = assemble positive n e rest := by
  cases rest with
  | nil => rfl
  | cons c rest =>
      obtain ⟨-, -, he, hE⟩ := hrest c rfl
      rw [afterDigits, bind_apply, show peek? (c :: rest) = (.ok (some c), c :: rest) from rfl]
      refine congrFun (g := assemble positive n e) ?_ (c :: rest)
      split
      · next heq => exact absurd (Option.some.inj heq) he
      · next heq => exact absurd (Option.some.inj heq) hE
      · rfl

theorem afterDigits_exponent (positive : Bool) (n : Nat) (e : Int) :
    afterDigits positive n e ('e' :: rest) = exponentPart positive n e ('e' :: rest) := rfl

theorem afterWhole_end (n : Nat) (hrest : EndsNumber rest) :
    afterWhole true n rest = (.ok (.whole n), rest) := by
  cases rest with
  | nil => rfl
  | cons c rest =>
      obtain ⟨-, hpoint, he, hE⟩ := hrest c rfl
      rw [afterWhole, bind_apply, show peek? (c :: rest) = (.ok (some c), c :: rest) from rfl]
      refine congrFun (g := (pure (.whole n) : Reader Number)) ?_ (c :: rest)
      split
      · next heq => exact absurd (Option.some.inj heq) hpoint
      · next heq => exact absurd (Option.some.inj heq) he
      · next heq => exact absurd (Option.some.inj heq) hE
      · rfl

/-! ### Putting a number together -/

/-- The number with the significand `n` and the power `e` of ten, as it is computed. -/
def scaled (positive : Bool) (n : Nat) (e : Int) : Double :=
  (Double.timesPowerOfTen n e).signed (!positive)

/-- The powers of ten with small exponents are not near the end of the range. -/
theorem assemble_eq (positive : Bool) {n : Nat} {e : Int} (hn : n ≤ maxSignificand)
    (hlow : -100 ≤ e) (hhigh : e ≤ 70) (rest : List Char) :
    assemble positive n e rest = (.ok (scaled positive n e), rest) := by
  -- the power is so small that nothing has to be taken off the exponent first,
  have hshrink : shrink 4 (.ofNat n) e = (.ofNat n, e) := by
    rw [shrink]
    exact if_neg (by simp only [maxPower]; omega)
  -- and so that it is in the table.
  have hnat : e.natAbs ≤ maxPower := by
    simp only [maxPower]
    omega
  simp only [assemble, scaled, Double.signed, Double.timesPowerOfTen, hshrink, hnat, ↓reduceIte]
  by_cases hpos : 0 ≤ e
  -- the product is below `2 ^ 304`, far from infinity
  · have hfinite :
        ((Binary.ofNat n : Double).scaleUp (.ofNat (Nat.pow 10 e.natAbs))).isInfinite = false := by
      refine Double.not_isInfinite_scaleUp ?_ (Nat.pow_pos (by decide)) ?_
      · exact Nat.lt_of_le_of_lt hn (by decide)
      · calc Nat.pow 10 e.natAbs ≤ 10 ^ 70 := Nat.pow_le_pow_right (by decide) (by omega)
          _ < 2 ^ 240 := by decide
    simp only [ge_iff_le, hpos, ↓reduceIte, hfinite]
    cases positive <;> rfl
  · simp only [ge_iff_le, hpos, ↓reduceIte]
    cases positive <;> rfl

/-! ### Numbers of 32 bits -/

/-- What a reader makes of a text, whatever follows. -/
def ReadsAs (text : List Char) (y : Double) : Prop :=
  ∀ rest, EndsNumber rest → number (text ++ rest) = (.ok (.double y), rest)

theorem number_of_ne_minus {c : Char} (hc : c ≠ '-') :
    number (c :: rest) = unsignedNumber true (c :: rest) := by
  have hpeek : peek? (c :: rest) = (.ok (some c), c :: rest) := rfl
  rw [number, bind_apply, hpeek]
  refine congrFun (g := unsignedNumber true) ?_ (c :: rest)
  split
  · next heq => exact absurd (Option.some.inj heq) hc
  · rfl

/-- A sign before a whole part. -/
theorem number_sign (negative : Bool) {whole : List Char} (hwhole : Whole whole)
    (more : List Char) :
    number ((if negative then ['-'] else []) ++ (whole ++ more)) = unsignedNumber (!negative)
    (whole ++ more) := by
  obtain ⟨c, whole, rfl⟩ := List.exists_cons_of_ne_nil hwhole.ne_nil
  cases negative with
  | true => rfl
  | false =>
      refine number_of_ne_minus ?_
      rintro rfl
      exact absurd (hwhole.isDigit '-' (List.mem_cons_self ..)) (by decide)

/-- What is read as a number begins as one. -/
theorem beginsNumber_of_number {n : Number} (h : number cs = (.ok n, rest)) :
    ∃ c unread, cs = c :: unread ∧ beginsNumber c = true := by
  cases cs with
  | nil => cases h
  | cons c cs =>
      refine ⟨c, cs, rfl, ?_⟩
      by_contra hbegins
      simp only [beginsNumber, Bool.or_eq_true, decide_eq_true_eq, not_or] at hbegins
      obtain ⟨hminus, hdigit⟩ := hbegins
      have hzero : c ≠ '0' := by
        rintro rfl
        exact hdigit rfl
      rw [number_of_ne_minus hminus, unsignedNumber, bind_apply,
        show next? (c :: cs) = (.ok (some c), cs) from rfl] at h
      simp only [hdigit] at h
      cases h

theorem afterWhole_point (positive : Bool) (n : Nat) :
    afterWhole positive n ('.' :: rest) =
      (Number.double <$> fractionPart positive n 0) ('.' :: rest) := by
  rw [map_eq_bind]
  rfl

theorem afterWhole_exponent (positive : Bool) (n : Nat) :
    afterWhole positive n ('e' :: rest) =
      (Number.double <$> exponentPart positive n 0) ('e' :: rest) := by
  rw [map_eq_bind]
  rfl

section

variable {whole fraction : List Char}

/-- The significand of a number with few digits fits. -/
theorem significand_le (hwhole : Whole whole) (hfraction : ∀ c ∈ fraction, c.isDigit = true)
    (hlength : whole.length + fraction.length ≤ 19) :
    Nat.ofDigitChars 10 fraction (Nat.ofDigitChars 10 whole 0) ≤ maxSignificand := by
  have hdigits : ∀ c ∈ whole ++ fraction, c.isDigit = true := fun c hc =>
    (List.mem_append.mp hc).elim (hwhole.isDigit c) (hfraction c)
  have hlt := ofDigitChars_lt hdigits
  rw [Nat.ofDigitChars_append, List.length_append] at hlt
  have hpow : 10 ^ (whole.length + fraction.length) ≤ 10 ^ 19 :=
    Nat.pow_le_pow_right (by decide) hlength
  have : 10 ^ 19 ≤ maxSignificand := by decide
  omega

/-- The significand has the digits of both parts, and the exponent says how many of them are the
fraction. -/
theorem readsAs_positional (negative : Bool) (hwhole : Whole whole) (fraction : List Char)
    (hfraction : ∀ c ∈ fraction, c.isDigit = true) (hne : fraction ≠ [])
    (hlength : whole.length + fraction.length ≤ 19) :
    ReadsAs ((if negative then ['-'] else []) ++ (whole ++ '.' :: fraction))
      (scaled (!negative) (Nat.ofDigitChars 10 (whole ++ fraction) 0) (0 - fraction.length)) := by
  have hfit := significand_le hwhole hfraction hlength
  intro rest hrest
  rw [List.append_assoc, List.append_assoc, number_sign _ hwhole, List.cons_append,
    unsignedNumber_whole _ hwhole ((le_ofDigitChars _ _).trans hfit) (endsDigits_cons rfl),
    afterWhole_point, map_eq_bind, bind_apply,
    fractionPart_digits _ 0 hfraction hne hfit hrest.endsDigits, afterDigits_end _ _ _ hrest,
    assemble_eq _ hfit (by omega) (by omega), Nat.ofDigitChars_append]
  rfl

/-- An exponent is added to that. -/
theorem readsAs_scientific (negative positiveExponent : Bool) {exponent : List Char}
    (hwhole : Whole whole) (hfraction : ∀ c ∈ fraction, c.isDigit = true)
    (hlength : whole.length + fraction.length ≤ 19) (hexponent : ∀ c ∈ exponent, c.isDigit = true)
    (hne : exponent ≠ []) (hsmall : Nat.ofDigitChars 10 exponent 0 ≤ 60) :
    ReadsAs ((if negative then ['-'] else []) ++
        (whole ++ ((if fraction = [] then [] else '.' :: fraction) ++
          'e' :: signOf positiveExponent :: exponent)))
      (scaled (!negative) (Nat.ofDigitChars 10 (whole ++ fraction) 0)
        (if positiveExponent then 0 - fraction.length + Nat.ofDigitChars 10 exponent 0
          else 0 - fraction.length - Nat.ofDigitChars 10 exponent 0)) := by
  have hfit := significand_le hwhole hfraction hlength
  have hexponentFit : Nat.ofDigitChars 10 exponent 0 ≤ maxExponent := hsmall.trans (by decide)
  set e := Nat.ofDigitChars 10 exponent 0
  intro rest hrest
  -- the exponent is read last, and the digits of the fraction have been taken off it
  have hpart :=
    exponentPart_digits (!negative) (Nat.ofDigitChars 10 fraction (Nat.ofDigitChars 10 whole 0))
      (0 - fraction.length) positiveExponent hexponent hne hexponentFit hrest.endsDigits
  rw [assemble_eq _ hfit (by split <;> omega) (by split <;> omega)] at hpart
  rw [List.append_assoc, List.append_assoc, number_sign _ hwhole, Nat.ofDigitChars_append]
  by_cases hnil : fraction = []
  · subst hnil
    rw [List.length_nil, Nat.cast_zero, sub_zero, Nat.ofDigitChars_nil] at hpart ⊢
    rw [if_pos rfl, List.nil_append, List.cons_append,
      unsignedNumber_whole _ hwhole ((le_ofDigitChars _ _).trans hfit) (endsDigits_cons rfl),
      afterWhole_exponent, map_eq_bind, bind_apply, List.cons_append, hpart]
    rfl
  · rw [if_neg hnil, List.cons_append, List.cons_append,
      unsignedNumber_whole _ hwhole ((le_ofDigitChars _ _).trans hfit) (endsDigits_cons rfl),
      afterWhole_point, map_eq_bind, bind_apply, List.append_assoc, List.cons_append,
      fractionPart_digits _ 0 hfraction hnil hfit (endsDigits_cons rfl), afterDigits_exponent,
      List.cons_append, hpart]
    rfl

end

theorem whole_zero : Whole ['0'] := ⟨by simp, by simp, fun _ => rfl⟩

/-- Digits that do not begin with zero are a whole part. -/
theorem Whole.of_head_ne {digits : List Char} (hne : digits ≠ [])
    (hdigits : ∀ c ∈ digits, c.isDigit = true) (hhead : digits.head? ≠ some '0') : Whole digits :=
  ⟨hne, hdigits, fun h => absurd h hhead⟩

theorem isDigit_replicate_zero (n : Nat) : ∀ c ∈ List.replicate n '0', c.isDigit = true := by
  intro c hc
  rw [List.eq_of_mem_replicate hc]
  rfl

section

variable {d : Decimal}

/-- The number that the decimal is read as, the same for all texts of it. -/
def ReadsDecimal (text : List Char) (negative : Bool) (d : Decimal) : Prop :=
  ∃ pad : Nat, (pad = 0 ∨ d.power - pad = -1) ∧ d.significand * 10 ^ pad < 2 ^ 53 ∧
    ReadsAs ((if negative then ['-'] else []) ++ text)
      (scaled (!negative) (d.significand * 10 ^ pad) (d.power - pad))

theorem significand_lt (hd : d.Proper) :
    d.significand < 10 ^ d.digits.length := ofDigitChars_lt hd.isDigit

theorem significand_fits (hd : d.Proper) : d.significand * 10 ^ 0 < 2 ^ 53 := by
  have hlt := significand_lt hd
  have hpow : 10 ^ d.digits.length ≤ 10 ^ 10 := Nat.pow_le_pow_right (by decide) hd.length_le
  omega

/-- A text without more zeros than the decimal has is read with the significand of the decimal. -/
theorem readsDecimal_of_readsAs {text : List Char} {negative : Bool} (hd : d.Proper)
    (h : ReadsAs ((if negative then ['-'] else []) ++ text)
      (scaled (!negative) d.significand d.power)) :
    ReadsDecimal text negative d := by
  refine ⟨0, .inl rfl, significand_fits hd, ?_⟩
  rwa [pow_zero, mul_one, Nat.cast_zero, sub_zero]

/-- Zeros may stand between the point and the digits. -/
theorem readsDecimal_below_one (negative : Bool) (hd : d.Proper) (hneg : d.exponent < 0)
    (hleast : -8 ≤ d.exponent) :
    ReadsDecimal
      (['0'] ++ '.' :: (List.replicate (-d.exponent - 1).toNat '0' ++ d.digits)) negative d := by
  have hlength := hd.length_le
  have hpos := List.length_pos_iff.mpr hd.ne_nil
  -- it is a fraction of zeros and the digits behind a zero
  have hread :=
    readsAs_positional negative whole_zero (List.replicate (-d.exponent - 1).toNat '0' ++ d.digits)
      (fun c hc => (List.mem_append.mp hc).elim (isDigit_replicate_zero _ c) (hd.isDigit c))
      (by simp [hd.ne_nil])
    (by rw [List.length_append, List.length_replicate, List.length_singleton]; omega)
  have hpower :
      (0 : Int) - (List.replicate (-d.exponent - 1).toNat '0' ++ d.digits).length = d.power := by
    rw [List.length_append, List.length_replicate, Decimal.power]
    omega
  rw [hpower, Nat.ofDigitChars_append, Nat.ofDigitChars_append,
    show Nat.ofDigitChars 10 ['0'] 0 = 0 from rfl, Nat.ofDigitChars_replicate_zero,
    Nat.mul_zero] at hread
  exact readsDecimal_of_readsAs hd hread

/-- Zeros may follow the digits, to fill up the whole part and for the fraction. -/
theorem readsDecimal_padded (negative : Bool) (hd : d.Proper) (hnonneg : 0 ≤ d.exponent)
    (hgreatest : d.exponent ≤ 12) {zeros : Nat}
    (hzeros : d.digits.length + zeros = d.exponent.toNat + 1) :
    ReadsDecimal ((d.digits ++ List.replicate zeros '0') ++ '.' :: ['0']) negative d := by
  have hwhole : Whole (d.digits ++ List.replicate zeros '0') := by
    refine .of_head_ne (by simp [hd.ne_nil]) (fun c hc => ?_) ?_
    · exact (List.mem_append.mp hc).elim (hd.isDigit c) (isDigit_replicate_zero _ c)
    · rw [List.head?_append_of_ne_nil _ hd.ne_nil]
      exact hd.head_ne
  have hread := readsAs_positional negative hwhole ['0'] (by simp) (by simp)
    (by rw [List.length_append, List.length_replicate, List.length_singleton]; omega)
  -- the zero of the fraction is read as one more digit, and taken off again by the exponent
  have hsignificand : Nat.ofDigitChars 10 ((d.digits ++ List.replicate zeros '0') ++ ['0']) 0 =
      d.significand * 10 ^ (zeros + 1) := by
    rw [List.append_assoc, ← List.replicate_succ', Nat.ofDigitChars_append,
      Nat.ofDigitChars_replicate_zero, Nat.mul_comm]
    rfl
  have hpos := List.length_pos_iff.mpr hd.ne_nil
  have hpower : d.power - (zeros + 1 : Nat) = -1 := by
    rw [Decimal.power]
    omega
  refine ⟨zeros + 1, .inr hpower, ?_, ?_⟩
  -- at most thirteen digits and the zero of the fraction: this is read exactly
  · calc d.significand * 10 ^ (zeros + 1)
        < 10 ^ d.digits.length * 10 ^ (zeros + 1) :=
          Nat.mul_lt_mul_of_pos_right (significand_lt hd) (Nat.pow_pos (by decide))
      _ = 10 ^ (d.digits.length + zeros + 1) := by rw [← pow_add, add_assoc]
      _ ≤ 10 ^ 14 := Nat.pow_le_pow_right (by decide) (by omega)
      _ < 2 ^ 53 := by decide
  · rw [hpower, ← hsignificand]
    exact hread

/-- The point may stand between the digits. -/
theorem readsDecimal_divided (negative : Bool) (hd : d.Proper) (hnonneg : 0 ≤ d.exponent)
    {whole : Nat} (hwhole : whole = d.exponent.toNat + 1) (hmany : whole < d.digits.length) :
    ReadsDecimal (d.digits.take whole ++ '.' :: d.digits.drop whole) negative d := by
  have hlength := hd.length_le
  have hne : d.digits.drop whole ≠ [] := by
    rw [ne_eq, List.drop_eq_nil_iff]
    omega
  have htake : Whole (d.digits.take whole) := by
    refine .of_head_ne ?_ (fun c hc => hd.isDigit c (List.mem_of_mem_take hc)) ?_
    · rw [ne_eq, List.take_eq_nil_iff]
      exact not_or.mpr ⟨by omega, hd.ne_nil⟩
    · rw [List.head?_take, if_neg (by omega)]
      exact hd.head_ne
  -- the point stands among the digits, and the digits behind it are the fraction
  have hread :=
    readsAs_positional negative htake _ (fun c hc => hd.isDigit c (List.mem_of_mem_drop hc)) hne
      (by rw [← List.length_append, List.take_append_drop]; omega)
  have hpower : (0 : Int) - (d.digits.drop whole).length = d.power := by
    rw [List.length_drop, Decimal.power]
    omega
  rw [List.take_append_drop, hpower] at hread
  exact readsDecimal_of_readsAs hd hread

theorem readsDecimal_positional (negative : Bool) (hd : d.Proper) (hleast : -8 ≤ d.exponent)
    (hgreatest : d.exponent ≤ 12) : ReadsDecimal (NumberLayout.positional d) negative d := by
  unfold NumberLayout.positional
  by_cases hneg : d.exponent < 0
  · rw [if_pos hneg]
    exact readsDecimal_below_one negative hd hneg hleast
  rw [if_neg hneg]
  dsimp only
  -- where the digits end, before the point or behind it, decides about the zeros
  rcases le_or_gt d.digits.length (d.exponent.toNat + 1) with hfew | hmany
  · have hlength :
        (d.digits ++ List.replicate (d.exponent.toNat + 1 - d.digits.length) '0').length =
          d.exponent.toNat + 1 := by
      rw [List.length_append, List.length_replicate]
      omega
    rw [List.take_of_length_le hlength.le, List.drop_of_length_le hlength.le]
    exact readsDecimal_padded negative hd (not_lt.mp hneg) hgreatest (by omega)
  · have hfraction : (d.digits.drop (d.exponent.toNat + 1)).isEmpty = false := by
      rw [List.isEmpty_eq_false_iff, ne_eq, List.drop_eq_nil_iff]
      omega
    rw [Nat.sub_eq_zero_of_le hmany.le, List.replicate_zero, List.append_nil, hfraction,
      if_neg Bool.false_ne_true]
    exact readsDecimal_divided negative hd (not_lt.mp hneg) rfl hmany

theorem readsDecimal_scientific (negative : Bool) (hd : d.Proper) :
    ReadsDecimal (NumberLayout.scientific d) negative d := by
  have hlength := hd.length_le
  have hleast := hd.least
  have hgreatest := hd.greatest
  obtain ⟨c, digits, hdigits⟩ := List.exists_cons_of_ne_nil hd.ne_nil
  obtain ⟨hc, hrest⟩ := List.forall_mem_cons.mp (hdigits ▸ hd.isDigit)
  have hwhole : Whole [c] := by
    refine .of_head_ne (by simp) (by simpa using hc) ?_
    have := hd.head_ne
    rwa [hdigits] at this
  have hexponent : ∀ c ∈ decimalDigits d.exponent.natAbs, c.isDigit = true :=
    fun c hc => isDigit_decimalDigits hc
  have hread := readsAs_scientific negative (!decide (d.exponent < 0)) hwhole hrest
    (by rw [hdigits, List.length_cons] at hlength; rw [List.length_singleton]; omega) hexponent
      Nat.toDigits_ne_nil
    (by rw [decimalDigits, Nat.ofDigitChars_ten_toDigits]; omega)
  have hsign : signOf (!decide (d.exponent < 0)) = if d.exponent < 0 then '-' else '+' := by
    by_cases hneg : d.exponent < 0 <;> simp [hneg, signOf]
  -- whichever sign it has, the exponent is that of the last digit
  have hpower : (if (!decide (d.exponent < 0)) = true
      then (0 : Int) - digits.length + Nat.ofDigitChars 10 (decimalDigits d.exponent.natAbs) 0
      else 0 - digits.length - Nat.ofDigitChars 10 (decimalDigits d.exponent.natAbs) 0) =
        d.power := by
    rw [decimalDigits, Nat.ofDigitChars_ten_toDigits, Decimal.power, hdigits, List.length_cons]
    by_cases hneg : d.exponent < 0
    · rw [if_neg (by simp [hneg])]
      omega
    · rw [if_pos (by simp [hneg])]
      omega
  have hsignificand : Nat.ofDigitChars 10 ([c] ++ digits) 0 = d.significand := by
    rw [Decimal.significand, hdigits]
    rfl
  rw [hsign, hpower, hsignificand] at hread
  refine readsDecimal_of_readsAs hd ?_
  unfold NumberLayout.scientific
  rw [hdigits]
  cases digits with
  | nil => exact hread
  | cons c' digits => simpa using hread

/-- A decimal is read in either layout. -/
theorem readsDecimal_write (negative : Bool) (layout : NumberLayout)
    (hlayout : -8 ≤ layout.least ∧ layout.greatest ≤ 12) (hd : d.Proper) :
    ReadsDecimal (layout.write d) negative d := by
  unfold NumberLayout.write
  by_cases hrange : layout.least ≤ d.exponent ∧ d.exponent ≤ layout.greatest
  · rw [if_pos hrange]
    exact readsDecimal_positional negative hd (by omega) (by omega)
  · rw [if_neg hrange]
    exact readsDecimal_scientific negative hd

end

theorem convert_scaled_zero (negative : Bool) :
    (scaled (!negative) 0 (-1)).convert = (Binary.ofMagnitude negative 0 : Single) := by
  cases negative <;> decide

/-- **The text of a 32-bit number is read as a 64-bit number that is nearest to that number.** -/
theorem exists_readsAs_decimal {x : Single} {text : String} (htext : x.decimal? = some text) :
    ∃ y, ReadsAs text.toList y ∧ y.convert = x := by
  unfold Binary.decimal? at htext
  split at htext
  · next negative m q hparts =>
    obtain ⟨hm, hlow, hhigh⟩ := Single.parts_bounds hparts
    cases htext
    rw [String.toList_ofList]
    -- zero is written by itself; every other number as its shortest digits
    rcases Nat.eq_zero_or_pos m with rfl | hpos
    · obtain ⟨k, -, ⟨-, hnormal, -⟩, rfl⟩ := Binary.exists_encodes_of_parts hparts
      obtain rfl : k = 0 := hnormal.resolve_right (by decide)
      exact ⟨_, readsAs_positional negative whole_zero ['0'] (by simp) (by simp) (by simp),
        convert_scaled_zero negative⟩
    · rw [if_neg hpos.ne']
      obtain ⟨pad, hpad, hfit, hread⟩ :=
        readsDecimal_write negative (.ofWidth .single) (by decide)
          (Shortest.proper_digits hpos hm hlow hhigh)
      refine ⟨_, hread, ?_⟩
      rw [scaled, Bool.not_not]
      exact Shortest.convert_signed_timesPowerOfTen hparts hpos hpad hfit
  · cases htext

/-! ### Whole numbers -/

theorem whole_decimalDigits (n : Nat) : Whole (decimalDigits n) := by
  rcases Nat.eq_zero_or_pos n with rfl | hpos
  · exact whole_zero
  · exact .of_head_ne Nat.toDigits_ne_nil (fun c hc => isDigit_decimalDigits hc)
      (head?_decimalDigits hpos)

/-- A whole number of at most 64 bits is read back as it was written. -/
theorem number_whole {n : Nat} (hn : n ≤ maxSignificand) (hrest : EndsNumber rest) :
    number (decimalDigits n ++ rest) = (.ok (.whole n), rest) := by
  have hvalue : Nat.ofDigitChars 10 (decimalDigits n) 0 = n := Nat.ofDigitChars_ten_toDigits
  have hsign := number_sign false (whole_decimalDigits n) rest
  rw [Bool.not_false, unsignedNumber_whole true (whole_decimalDigits n)
    (hvalue.symm ▸ hn) hrest.endsDigits, hvalue, afterWhole_end n hrest] at hsign
  exact hsign

end AgentGraph.Json.Reader
