import AgentGraph.Proofs.Text.Calendar
import AgentGraph.Proofs.Text.Trim
import Mathlib.Algebra.Order.Group.Nat
import Mathlib.Order.Lattice.Nat

/-!
# Points in time survive their text

A clock shows ordinary points in time: in a year of the calendar that is looked at, and in no leap
second. Each of them is read back as it was written (`ofText_toString`): its fields are scanned one
by one, and the calendar gives back the day.
-/

namespace AgentGraph.Instant

open Text

/-- What a clock shows. -/
structure IsOrdinary (t : Instant) : Prop where
  nanos_lt : t.nanos < 10 ^ 9
  year_le : t.date.year.natAbs ≤ maxYear

/-! ### Scanning -/

/-- The scanner takes a value from the front of the text and leaves the rest. -/
def Takes {α : Type} (scan : Scan α) (cs : List Char) (a : α) (rest : List Char) : Prop :=
  scan cs = .ok (a, rest)

section

variable {α β : Type} {scan : Scan α} {k : α → Scan β} {cs mid rest : List Char} {a : α} {b : β}

theorem Takes.andThen (h : Takes scan cs a mid) (hk : Takes (k a) mid b rest) :
    Takes (scan >>= k) cs b rest := by
  show (scan cs >>= fun p => k p.1 p.2) = _
  rw [show scan cs = _ from h]
  exact hk

theorem Takes.pure (a : α) (cs : List Char) : Takes (pure a) cs a cs := rfl

theorem takes_get (cs : List Char) : Takes get cs cs cs := rfl

theorem takes_set (cs rest : List Char) : Takes (set rest) cs () rest := rfl

end

/-- Nothing is skipped where there is no blank. -/
theorem takes_skipBlanks {c : Char} (hc : isBlankChar c = false) (rest : List Char) :
    Takes skipBlanks (c :: rest) () (c :: rest) := by
  show Except.ok ((), (c :: rest).dropWhile isBlankChar) = _
  rw [List.dropWhile_cons_of_neg (by simp [hc])]

theorem takes_mark {c : Char} (hc : isBlankChar c = false) (rest : List Char) :
    Takes (mark c) (c :: rest) () rest := by
  refine (takes_skipBlanks hc rest).andThen ?_
  refine Takes.andThen (takes_get _) ?_
  dsimp only
  rw [if_pos rfl]
  rfl

/-- Digits up to what is no digit. -/
theorem takes_digits {ds : List Char} (hds : ∀ c ∈ ds, c.isDigit = true) (hne : ds ≠ [])
    {most : Nat} (hmost : ds.length ≤ most) {c : Char} (hc : c.isDigit = false) (rest : List Char) :
    Takes (digits most) (ds ++ c :: rest) ds (c :: rest) := by
  have hfound : ((ds ++ c :: rest).take most).takeWhile Char.isDigit = ds := by
    rw [List.take_append, List.take_of_length_le hmost, List.takeWhile_append_of_pos hds]
    cases most - ds.length with
    | zero => simp
    | succ n => simp [hc]
  refine Takes.andThen (takes_get _) ?_
  dsimp only
  rw [hfound, if_neg (by simpa using hne)]
  show Except.ok (ds, (ds ++ c :: rest).drop ds.length) = _
  rw [List.drop_left]

/-! ### Numbers with leading zeros -/

theorem isDigit_padded (width n : Nat) : ∀ c ∈ padded width n, c.isDigit = true := by
  intro c hc
  rcases List.mem_append.mp hc with hzero | hdigit
  · rw [List.eq_of_mem_replicate hzero]
    rfl
  · exact Nat.isDigit_of_mem_toDigits (by decide) (by decide) hdigit

theorem padded_ne_nil (width n : Nat) : padded width n ≠ [] :=
  List.append_ne_nil_of_right_ne_nil _ Nat.toDigits_ne_nil

theorem length_padded_le {width n : Nat} (hwidth : 0 < width) (hn : n < 10 ^ width) :
    (padded width n).length = width := by
  have := (Nat.length_toDigits_le_iff (by decide) hwidth).mpr hn
  rw [padded, List.length_append, List.length_replicate]
  omega

theorem digitsValue_padded (width n : Nat) : Numeric.digitsValue (padded width n) = n := by
  show Nat.ofDigitChars 10 (_ ++ _) 0 = n
  rw [Nat.ofDigitChars_append, Nat.ofDigitChars_replicate_zero, Nat.mul_zero,
    Nat.ofDigitChars_ten_toDigits]

/-- A number begins with a digit. -/
theorem exists_padded (width n : Nat) : ∃ c cs, padded width n = c :: cs ∧ c.isDigit = true := by
  obtain ⟨c, cs, hcs⟩ := List.exists_cons_of_ne_nil (padded_ne_nil width n)
  exact ⟨c, cs, hcs, isDigit_padded width n c (hcs ▸ List.mem_cons_self ..)⟩

/-! ### The fields -/

theorem takes_field {least greatest n : Nat} (hn : n < 100) (hlow : least ≤ n)
    (hhigh : n ≤ greatest) {c : Char} (hc : c.isDigit = false) (rest : List Char) :
    Takes (field 2 least greatest) (padded 2 n ++ c :: rest) n (c :: rest) := by
  obtain ⟨d, ds, hds, hd⟩ := exists_padded 2 n
  have hskip : Takes skipBlanks (padded 2 n ++ c :: rest) () (padded 2 n ++ c :: rest) := by
    rw [hds]
    exact takes_skipBlanks (isBlankChar_of_isDigit hd) _
  refine hskip.andThen ?_
  refine (takes_digits (isDigit_padded 2 n) (padded_ne_nil 2 n) (length_padded_le (by decide) hn).le
    hc rest).andThen ?_
  dsimp only
  rw [digitsValue_padded, if_neg (by omega)]
  rfl

/-- A year after its sign. -/
theorem takes_signedYear {n : Nat} (hn : n ≤ maxYear) (sign : Int) (cs rest : List Char) :
    Takes (do
      set (padded 4 n ++ '-' :: rest)
      let ds ← digits (padded 4 n ++ '-' :: rest).length
      if ds.length > 18 then throw .outOfRange
      return sign * Numeric.digitsValue ds) cs (sign * n) ('-' :: rest) := by
  -- the largest year has six digits, well within the reader's bound
  have hlength : (padded 4 n).length ≤ 18 := by
    have hlt : n < 10 ^ 6 := Nat.lt_of_le_of_lt hn (by decide)
    have := (Nat.length_toDigits_le_iff (by decide) (by decide)).mpr hlt
    rw [padded, List.length_append, List.length_replicate]
    omega
  refine Takes.andThen (takes_set _ _) ?_
  refine (takes_digits (isDigit_padded 4 n) (padded_ne_nil 4 n) ?_ rfl rest).andThen ?_
  · rw [List.length_append]
    exact Nat.le_add_right _ _
  · rw [if_neg (by omega), digitsValue_padded]
    rfl

theorem takes_year {y : Int} (hy : y.natAbs ≤ maxYear) (rest : List Char) :
    Takes year (yearText y ++ '-' :: rest) y ('-' :: rest) := by
  unfold yearText
  split
  -- four digits and no sign
  · next hrange =>
    obtain ⟨d, ds, hds, hd⟩ := exists_padded 4 y.toNat
    have hmark : '-'.isDigit = false := rfl
    have hdigits := takes_digits (isDigit_padded 4 y.toNat) (padded_ne_nil 4 y.toNat)
      (length_padded_le (by decide) (by omega : y.toNat < 10 ^ 4)).le hmark rest
    have hvalue := digitsValue_padded 4 y.toNat
    rw [hds] at hdigits hvalue ⊢
    refine (takes_skipBlanks (isBlankChar_of_isDigit hd) _).andThen ?_
    refine Takes.andThen (takes_get _) ?_
    split
    · next heq =>
      cases (List.cons.inj heq).1
      exact absurd hd (by decide)
    · next heq =>
      cases (List.cons.inj heq).1
      exact absurd hd (by decide)
    · refine hdigits.andThen ?_
      rw [hvalue, Int.toNat_of_nonneg hrange.1]
      exact .pure _ _
  -- a sign, and as many digits as it takes
  · next hrange =>
    by_cases hneg : y < 0
    · rw [if_pos hneg]
      refine (takes_skipBlanks rfl _).andThen (Takes.andThen (takes_get _) ?_)
      have := takes_signedYear hy (-1) ('-' :: (padded 4 y.natAbs ++ '-' :: rest)) rest
      rwa [show (-1 : Int) * y.natAbs = y by omega] at this
    · rw [if_neg hneg]
      refine (takes_skipBlanks rfl _).andThen (Takes.andThen (takes_get _) ?_)
      have := takes_signedYear hy 1 ('+' :: (padded 4 y.natAbs ++ '-' :: rest)) rest
      rwa [show (1 : Int) * y.natAbs = y by omega] at this

/-- The digits of a fraction. -/
theorem takes_fraction_padded {k n : Nat} (hk : 0 < k) (hk9 : k ≤ 9) (hn : n < 10 ^ k) :
    Takes fraction ('.' :: (padded k n ++ ['Z'])) (n * 10 ^ (9 - k)) ['Z'] := by
  have hlength := length_padded_le hk hn
  refine Takes.andThen (takes_get _) (Takes.andThen (takes_set _ _) ?_)
  refine (takes_digits (isDigit_padded k n) (padded_ne_nil k n) (hlength.trans_le hk9) rfl
    []).andThen ?_
  rw [digitsValue_padded, hlength]
  rfl

/-- The fraction of a second. -/
theorem takes_fraction {n : Nat} (hn : n < 10 ^ 9) :
    Takes fraction (fractionText n ++ ['Z']) n ['Z'] := by
  unfold fractionText
  split
  · next hzero =>
    subst hzero
    exact Takes.andThen (takes_get _) (.pure _ _)
  split
  · next hmillis =>
    have htakes := takes_fraction_padded (by decide) (by decide) (by omega : n / 1000000 < 10 ^ 3)
    -- the places left out are zeros
    rwa [show n / 1000000 * 10 ^ (9 - 3) =
      n from Nat.div_mul_cancel (Nat.dvd_of_mod_eq_zero hmillis)] at htakes
  split
  · next hmicros =>
    have htakes := takes_fraction_padded (by decide) (by decide) (by omega : n / 1000 < 10 ^ 6)
    rwa [show n / 1000 * 10 ^ (9 - 6) = n from Nat.div_mul_cancel (Nat.dvd_of_mod_eq_zero hmicros)]
      at htakes
  · have htakes := takes_fraction_padded (by decide) (by decide) hn
    rwa [show n * 10 ^ (9 - 9) = n from Nat.mul_one n] at htakes

/-- The seconds end where the fraction or the offset begins. -/
theorem exists_fractionText (n : Nat) :
    ∃ c rest, fractionText n ++ ['Z'] = c :: rest ∧ c.isDigit = false := by
  unfold fractionText
  split
  · exact ⟨'Z', [], rfl, rfl⟩
  split
  · exact ⟨'.', _, rfl, rfl⟩
  split
  · exact ⟨'.', _, rfl, rfl⟩
  · exact ⟨'.', _, rfl, rfl⟩

theorem daysInMonth_le (year : Int) (month : Nat) : daysInMonth year month ≤ 31 := by
  unfold daysInMonth
  split
  · split <;> decide
  all_goals decide

theorem secondOfDay_lt (t : Instant) : t.secondOfDay < 86400 := by
  have := Int.fmod_lt_of_pos t.seconds (show (0 : Int) < 86400 by decide)
  rw [secondOfDay]
  omega

theorem days_add_secondOfDay (t : Instant) :
    t.seconds.fdiv 86400 * 86400 + t.secondOfDay = t.seconds := by
  have := Int.fmod_nonneg_of_pos t.seconds (show (0 : Int) < 86400 by decide)
  have := Int.fdiv_mul_add_fmod t.seconds 86400
  rw [secondOfDay]
  omega

/-- **A point in time that a clock shows is read back as it was written.** -/
theorem ofText_toString {t : Instant} (ht : t.IsOrdinary) : ofText t.toString = .ok t := by
  obtain ⟨hnanos, hyear⟩ := ht
  obtain ⟨hmonth1, hmonth12, hday1, hday⟩ : 1 ≤ t.date.month ∧ t.date.month ≤ 12 ∧ 1 ≤ t.date.day ∧
      t.date.day ≤ daysInMonth t.date.year t.date.month := Date.ofDays_valid _
  have hday31 : t.date.day ≤ 31 := hday.trans (daysInMonth_le _ _)
  have hdays : t.date.toDays = t.seconds.fdiv 86400 := Date.toDays_ofDays _
  have hsecond := t.secondOfDay_lt
  have hnanosDiv : t.nanos / 1000000000 = 0 := Nat.div_eq_of_lt hnanos
  have hnanosMod : t.nanos % 1000000000 = t.nanos := Nat.mod_eq_of_lt hnanos
  -- the fields are read in the order they are written
  suffices h : Takes instant t.toString.toList t [] by
    show (instant t.toString.toList).map (·.1) = _
    rw [show instant t.toString.toList = _ from h]
    rfl
  rw [toString, String.toList_ofList, hnanosDiv, hnanosMod, Nat.add_zero, dateText, minuteText]
  simp only [List.append_assoc, List.cons_append]
  refine (takes_year hyear _).andThen ?_
  refine (takes_mark rfl _).andThen ?_
  refine (takes_field (by omega) hmonth1 hmonth12 rfl _).andThen ?_
  refine (takes_mark rfl _).andThen ?_
  refine (takes_field (by omega) hday1 hday31 rfl _).andThen ?_
  refine Takes.andThen (takes_get _) ?_
  refine Takes.andThen (takes_set _ _) ?_
  refine (takes_field (by omega) (Nat.zero_le _) (by omega) rfl _).andThen ?_
  refine (takes_mark rfl _).andThen ?_
  refine (takes_field (by omega) (Nat.zero_le _) (by omega) rfl _).andThen ?_
  refine (takes_mark rfl _).andThen ?_
  obtain ⟨c, rest, hfraction, hc⟩ := exists_fractionText t.nanos
  have htakes := takes_fraction hnanos
  rw [hfraction] at htakes ⊢
  refine (takes_field (by omega) (Nat.zero_le _) (by omega) hc _).andThen ?_
  refine htakes.andThen ?_
  refine (takes_skipBlanks rfl _).andThen ?_
  have hoffset : Takes offset ['Z'] 0 [] := rfl
  refine hoffset.andThen ?_
  have hskip : Takes skipBlanks [] () [] := rfl
  refine hskip.andThen ?_
  refine Takes.andThen (takes_get _) ?_
  dsimp only
  -- the date is a real one, so none of the checks fails
  have hrange : ¬ (t.date.year.natAbs > maxYear ∨
      daysInMonth t.date.year t.date.month < t.date.day ∨ 86400 ≤ Int.natAbs 0) :=
    not_or.mpr ⟨by omega, not_or.mpr ⟨Nat.not_lt.mpr hday, by decide⟩⟩
  rw [if_pos List.isEmpty_nil, if_neg hrange, if_neg (by omega)]
  have hseconds : t.date.toDays * 86400 +
      (t.secondOfDay / 3600 * 3600 + t.secondOfDay / 60 % 60 * 60 + t.secondOfDay % 60 : Nat) -
      0 = t.seconds := by
    have htotal := t.days_add_secondOfDay
    omega
  exact congrArg (fun seconds => Except.ok (Instant.mk seconds t.nanos, ([] : List Char))) hseconds

end AgentGraph.Instant
