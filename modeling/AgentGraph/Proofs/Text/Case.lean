import AgentGraph.Proofs.Text.Lower

/-!
# Two ways to ignore case

A text can be compared up to the case of the letters A to Z, or up to the case of all letters. The
letters from A to Z do not change how the rest of a text is lowered (`lowerFrom_map_toLower`), so
texts that are equal in the first way are equal in the second. The converse needs that all other
characters are the same ones and stand at the same places (`equalIgnoringAsciiCase_iff`).
-/

namespace AgentGraph.Text

variable {c d : Char} {cs ds : List Char}

/-! ### Letters from A to Z -/

theorem toLower_of_not_ascii (h : 0x80 ≤ c.toNat) : c.toLower = c := by
  have hcode := toNat_toLower c
  rw [if_neg (by omega)] at hcode
  exact Char.toNat_inj.mp hcode

theorem toLower_toLower (c : Char) : c.toLower.toLower = c.toLower := by
  have hcode := toNat_toLower c
  have hagain := toNat_toLower c.toLower
  refine Char.toNat_inj.mp ?_
  split at hcode <;> split at hagain <;> omega

/-- The code point lies in one of the ranges. -/
def inSomeRange (ranges : List (Nat × Nat)) (n : Nat) : Bool :=
  ranges.any fun (first, last) => first ≤ n && n ≤ last

/-- For the letters from A to Z only the ranges that begin up to `z` count. -/
theorem inRanges_eq_inSomeRange (table : Array (Nat × Nat)) (hc : c.toNat ≤ 122) :
    inRanges table c = inSomeRange (table.toList.filter (·.1 ≤ 122)) c.toNat := by
  rw [inRanges, inSomeRange, List.any_filter, ← Array.any_toList]
  refine congrArg (table.toList.any ·) (funext fun range => ?_)
  by_cases hfirst : range.1 ≤ c.toNat
  · simp [hfirst.trans hc]
  · simp [hfirst]

/-- A table that has with a capital from A to Z also the small letter, and the other way round, does
not tell the cases of these letters apart. -/
theorem inRanges_toLower {table : Array (Nat × Nat)} {ranges : List (Nat × Nat)}
    (hranges : table.toList.filter (·.1 ≤ 122) = ranges)
    (hletters : ∀ n ∈ List.range' 65 26, inSomeRange ranges (n + 32) = inSomeRange ranges n)
    (c : Char) :
    inRanges table c.toLower = inRanges table c := by
  have hcode := toNat_toLower c
  split at hcode
  · next hupper =>
    rw [inRanges_eq_inSomeRange table (by omega), inRanges_eq_inSomeRange table (by omega),
      hranges, hcode]
    exact hletters c.toNat (List.mem_range'_1.mpr ⟨hupper.1, by omega⟩)
  · rw [Char.toNat_inj.mp hcode]

theorem inRanges_cased_toLower (c : Char) :
    inRanges CaseTable.cased c.toLower = inRanges CaseTable.cased c := by
  have hranges : CaseTable.cased.toList.filter (·.1 ≤ 122) = [(65, 90), (97, 122)] := by
    decide +kernel
  exact inRanges_toLower hranges (by decide) c

theorem inRanges_caseIgnorable_toLower (c : Char) :
    inRanges CaseTable.caseIgnorable c.toLower = inRanges CaseTable.caseIgnorable c := by
  have hranges : CaseTable.caseIgnorable.toList.filter (·.1 ≤ 122) =
      [(39, 39), (46, 46), (58, 58), (94, 94), (96, 96)] := by decide +kernel
  exact inRanges_toLower hranges (by decide) c

theorem meetsCased_map_toLower (cs : List Char) :
    meetsCased (cs.map Char.toLower) = meetsCased cs := by
  induction cs with
  | nil => rfl
  | cons c cs ih =>
      rw [List.map_cons, meetsCased_cons, meetsCased_cons, inRanges_cased_toLower,
        inRanges_caseIgnorable_toLower, ih]

theorem lowerAt_of_ascii (h : c.toNat < 0x80) (before after : List Char) :
    lowerAt before c after = [c.toLower] := by
  rw [lowerAt, if_pos h]

theorem lowerAt_map_toLower (before : List Char) (c : Char) (after : List Char) :
    lowerAt (before.map Char.toLower) c.toLower (after.map Char.toLower) =
      lowerAt before c after := by
  rcases Nat.lt_or_ge c.toNat 0x80 with hascii | hbeyond
  · rw [lowerAt_of_ascii hascii, lowerAt_of_ascii (toNat_toLower_lt.mpr hascii), toLower_toLower]
  · rw [toLower_of_not_ascii hbeyond]
    exact lowerAt_congr (meetsCased_map_toLower before) (meetsCased_map_toLower after)

/-- **The case of the letters from A to Z is lost when a text is lowered, and nothing else depends
on it.** -/
theorem lowerFrom_map_toLower (before cs : List Char) :
    lowerFrom (before.map Char.toLower) (cs.map Char.toLower) = lowerFrom before cs := by
  induction cs generalizing before with
  | nil => rfl
  | cons c cs ih =>
      rw [List.map_cons, lowerFrom, lowerFrom, lowerAt_map_toLower, ← List.map_cons, ih]

/-! ### The other characters -/

/-- The characters that are not ASCII are the same ones, at the same places. -/
def SameBeyondAscii (cs ds : List Char) : Prop :=
  ∀ (i : Nat) (c : Char), 0x80 ≤ c.toNat → (cs[i]? = some c ↔ ds[i]? = some c)

/-- At the first place: the same character, or two that are ASCII. -/
theorem SameBeyondAscii.head (h : SameBeyondAscii (c :: cs) (d :: ds)) :
    c = d ∨ c.toNat < 0x80 ∧ d.toNat < 0x80 := by
  rcases Nat.lt_or_ge c.toNat 0x80 with hc | hc
  · rcases Nat.lt_or_ge d.toNat 0x80 with hd | hd
    · exact .inr ⟨hc, hd⟩
    · exact .inl (Option.some.inj ((h 0 d hd).mpr rfl))
  · exact .inl (Option.some.inj ((h 0 c hc).mp rfl)).symm

theorem SameBeyondAscii.tail (h : SameBeyondAscii (c :: cs) (d :: ds)) : SameBeyondAscii cs ds :=
  fun i => h (i + 1)

theorem sameBeyondAscii_of_map_toLower (h : cs.map Char.toLower = ds.map Char.toLower) :
    SameBeyondAscii cs ds := by
  have hmem : ∀ {cs ds : List Char}, cs.map Char.toLower = ds.map Char.toLower →
      ∀ (i : Nat) (c : Char), 0x80 ≤ c.toNat → cs[i]? = some c → ds[i]? = some c := by
    intro cs ds h i c hc hi
    have hlower : (ds.map Char.toLower)[i]? = some c := by
      rw [← h, List.getElem?_map, hi, Option.map_some, toLower_of_not_ascii hc]
    obtain ⟨d, hd, rfl⟩ := Option.map_eq_some_iff.mp (List.getElem?_map ▸ hlower)
    rw [toLower_of_not_ascii
      (Nat.not_lt.mp fun hlt => absurd (toNat_toLower_lt.mpr hlt) (Nat.not_lt.mpr hc))]
    exact hd
  exact fun i c hc => ⟨hmem h i c hc, hmem h.symm i c hc⟩

/-- The number of characters that a character becomes does not depend on its place. -/
theorem length_lowerAt (before before' : List Char) (c : Char) (after after' : List Char) :
    (lowerAt before c after).length = (lowerAt before' c after').length := by
  rw [lowerAt, lowerAt]
  split
  · rfl
  · split
    · rfl
    · rfl

theorem lowerFrom_ne_nil (before : List Char) (c : Char) (cs : List Char) :
    lowerFrom before (c :: cs) ≠ [] := by
  have hlength := length_le_lowerFrom before (c :: cs)
  rw [List.length_cons] at hlength
  exact List.ne_nil_of_length_pos (by omega)

/-- Texts with one lower-case form that agree beyond ASCII differ only in the case of the letters
from A to Z. -/
theorem map_toLower_of_lowerFrom {before before' : List Char}
    (h : lowerFrom before cs = lowerFrom before' ds) (hsame : SameBeyondAscii cs ds) :
    cs.map Char.toLower = ds.map Char.toLower := by
  induction cs generalizing ds before before' with
  | nil =>
      cases ds with
      | nil => rfl
      | cons d ds => exact absurd h.symm (lowerFrom_ne_nil before' d ds)
  | cons c cs ih =>
      cases ds with
      | nil => exact absurd h (lowerFrom_ne_nil before c cs)
      | cons d ds =>
          rw [lowerFrom, lowerFrom] at h
          rw [List.map_cons, List.map_cons]
          -- the same character is lowered alike, and a letter of ASCII by `toLower`
          rcases hsame.head with rfl | ⟨hc, hd⟩
          · obtain ⟨-, htail⟩ := List.append_inj h (length_lowerAt ..)
            rw [ih htail hsame.tail]
          · rw [lowerAt_of_ascii hc, lowerAt_of_ascii hd] at h
            obtain ⟨hhead, htail⟩ := List.cons.inj h
            rw [hhead, ih htail hsame.tail]

/-- **Equal up to the case of the letters A to Z is equal up to the case of all letters, with all
characters beyond ASCII the same.** -/
theorem equalIgnoringAsciiCase_iff {s t : String} :
    equalIgnoringAsciiCase s t = true ↔ lower s = lower t ∧ SameBeyondAscii s.toList t.toList := by
  rw [equalIgnoringAsciiCase, decide_eq_true_iff, lower, lower, String.ofList_inj]
  constructor
  · intro h
    refine ⟨?_, sameBeyondAscii_of_map_toLower h⟩
    rw [← lowerFrom_map_toLower, h, lowerFrom_map_toLower]
  · rintro ⟨hlower, hsame⟩
    exact map_toLower_of_lowerFrom hlower hsame

end AgentGraph.Text
