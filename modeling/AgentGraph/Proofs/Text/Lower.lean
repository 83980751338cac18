import AgentGraph.Proofs.Text.Trim
import AgentGraph.Text.Lower
import AgentGraph.Text.Search
import Mathlib.Data.List.Infix

/-!
# Lower case and what stands around a text

The lower-case form of a character depends on its surroundings in one case only: a sigma is final
when a letter with case comes before it and none comes behind it. Characters without case
(`IsUncased`) at the ends of a text make no difference to that. So when a text is a core with such
characters around it (`Frames`), its lower-case form is that of the core with something around it
(`Frames.exists_lower`), and it is not the form of the core unless there is nothing around
(`Frames.eq_of_lower_eq`). What `trim` drops has no case, so a trimmed text is a core of the text.
-/

namespace AgentGraph.Text

variable {c : Char} {cs rest before : List Char}

/-! ### Searching -/

/-- Every place is looked at. -/
theorem occursIn_iff_infix {needle cs : List Char} :
    occursIn needle cs = true ↔ needle <:+: cs := by
  induction cs with
  | nil => rw [occursIn, List.isEmpty_iff, List.infix_nil]
  | cons c rest ih =>
      rw [occursIn, Bool.or_eq_true, List.isPrefixOf_iff_prefix, ih, List.infix_cons_iff]

theorem contains_iff_infix {text needle : String} :
    contains text needle = true ↔ needle.toList <:+: text.toList := occursIn_iff_infix

/-! ### Surroundings of a sigma -/

/-- The character is neither a lower-case nor an upper-case letter. -/
def IsUncased (c : Char) : Prop := inRanges CaseTable.cased c = false

instance (c : Char) : Decidable (IsUncased c) := inferInstanceAs (Decidable (_ = false))

theorem meetsCased_cons (c : Char) (cs : List Char) : meetsCased (c :: cs) =
    if inRanges CaseTable.caseIgnorable c then meetsCased cs else inRanges CaseTable.cased c := by
  rw [meetsCased, List.dropWhile_cons]
  by_cases hc : inRanges CaseTable.caseIgnorable c = true
  · rw [if_pos hc, if_pos hc, meetsCased]
  · rw [if_neg hc, if_neg hc]

theorem meetsCased_of_uncased (h : ∀ c ∈ cs, IsUncased c) : meetsCased cs = false := by
  induction cs with
  | nil => rfl
  | cons c cs ih =>
      obtain ⟨hc, hcs⟩ := List.forall_mem_cons.mp h
      rw [meetsCased_cons]
      split
      · exact ih hcs
      · exact hc

/-- Characters without case are not met. -/
theorem meetsCased_append (cs : List Char) (hrest : ∀ c ∈ rest, IsUncased c) :
    meetsCased (cs ++ rest) = meetsCased cs := by
  induction cs with
  | nil => exact meetsCased_of_uncased hrest
  | cons c cs ih => rw [List.cons_append, meetsCased_cons, meetsCased_cons, ih]

theorem lowerAt_congr {before before' after after' : List Char}
    (hbefore : meetsCased before = meetsCased before')
    (hafter : meetsCased after = meetsCased after') :
    lowerAt before c after = lowerAt before' c after' := by
  rw [lowerAt, lowerAt, lowerSigma, lowerSigma, hbefore, hafter]

/-! ### Parts of a text -/

theorem length_lowerAt_pos (before : List Char) (c : Char) (after : List Char) :
    0 < (lowerAt before c after).length := by
  rw [lowerAt]
  split
  · exact Nat.one_pos
  · split
    · exact Nat.one_pos
    · split <;> exact Nat.succ_pos _

theorem length_le_lowerFrom (before cs : List Char) : cs.length ≤ (lowerFrom before cs).length := by
  induction cs generalizing before with
  | nil => exact Nat.zero_le _
  | cons c rest ih =>
      have hpos := length_lowerAt_pos before c rest
      have hrest := ih (c :: before)
      rw [lowerFrom, List.length_append, List.length_cons]
      omega

/-- What is in front is lowered first. -/
theorem exists_lowerFrom_append (before front cs : List Char) : ∃ lowered,
    lowerFrom before (front ++ cs) = lowered ++ lowerFrom (front.reverse ++ before) cs ∧
      front.length ≤ lowered.length := by
  induction front generalizing before with
  | nil => exact ⟨[], rfl, Nat.le_refl _⟩
  | cons c front ih =>
      obtain ⟨lowered, heq, hle⟩ := ih (c :: before)
      have hpos := length_lowerAt_pos before c (front ++ cs)
      refine ⟨lowerAt before c (front ++ cs) ++ lowered, ?_, ?_⟩
      · rw [List.cons_append, lowerFrom, heq, List.append_assoc, List.reverse_cons,
          List.append_assoc]
        rfl
      · rw [List.length_append, List.length_cons]
        omega

/-- What has no case may be put behind a text. -/
theorem lowerFrom_append (hrest : ∀ c ∈ rest, IsUncased c) (before cs : List Char) :
    lowerFrom before (cs ++ rest) = lowerFrom before cs ++ lowerFrom
    (cs.reverse ++ before) rest := by
  induction cs generalizing before with
  | nil => rfl
  | cons c cs ih =>
      rw [List.cons_append, lowerFrom, lowerFrom, ih,
        lowerAt_congr rfl (meetsCased_append cs hrest), List.append_assoc, List.reverse_cons,
        List.append_assoc]
      rfl

/-- What has no case may come before a text. -/
theorem lowerFrom_of_uncased (hbefore : ∀ c ∈ before, IsUncased c) (seen cs : List Char) :
    lowerFrom (seen ++ before) cs = lowerFrom seen cs := by
  induction cs generalizing seen with
  | nil => rfl
  | cons c cs ih =>
      rw [lowerFrom, lowerFrom, lowerAt_congr (meetsCased_append seen hbefore) rfl,
        ← List.cons_append, ih]

/-! ### Frames -/

/-- The text is the core with characters around it that have no case. -/
def Frames (s core : String) : Prop :=
  ∃ front back, s.toList = front ++ core.toList ++ back ∧ ∀ c ∈ front ++ back, IsUncased c

namespace Frames

variable {s t u core : String}

theorem trans (h : Frames s t) (h' : Frames t u) : Frames s u := by
  obtain ⟨front, back, hs, huncased⟩ := h
  obtain ⟨front', back', ht, huncased'⟩ := h'
  refine ⟨front ++ front', back' ++ back, ?_, fun c hc => ?_⟩
  · simp only [hs, ht, List.append_assoc]
  · simp only [List.mem_append, or_assoc] at hc huncased huncased'
    rcases hc with hc | hc | hc | hc
    · exact huncased c (.inl hc)
    · exact huncased' c (.inl hc)
    · exact huncased' c (.inr hc)
    · exact huncased c (.inr hc)

theorem length_le (h : Frames s t) : t.toList.length ≤ s.toList.length := by
  obtain ⟨front, back, hs, _⟩ := h
  rw [hs, List.length_append, List.length_append]
  omega

/-- Of two texts of one length, neither frames the other. -/
theorem eq_of_length_le (h : Frames s t) (hle : s.toList.length ≤ t.toList.length) : s = t := by
  obtain ⟨front, back, hs, _⟩ := h
  rw [hs, List.length_append, List.length_append] at hle
  have hfront : front = [] := List.eq_nil_of_length_eq_zero (by omega)
  have hback : back = [] := List.eq_nil_of_length_eq_zero (by omega)
  apply String.toList_injective
  rw [hs, hfront, hback, List.nil_append, List.append_nil]

/-- What is dropped at the ends of a text frames what is left. -/
theorem of_trimBy {p : Char → Bool} (hp : ∀ c, p c = true → IsUncased c) (s : String) :
    Frames s (trimBy p s) := by
  refine ⟨s.toList.takeWhile p, (s.toList.dropWhile p).rtakeWhile p, ?_, fun c hc => hp c ?_⟩
  · rw [toList_trimBy, List.append_assoc, List.rdropWhile_append_rtakeWhile,
      List.takeWhile_append_dropWhile]
  · rcases List.mem_append.mp hc with hc | hc
    · exact List.mem_takeWhile_imp hc
    · exact List.mem_rtakeWhile_imp hc

/-- **Lowering keeps the frame apart from the core.** -/
theorem exists_lower (h : Frames s core) : ∃ front back,
    (lower s).toList = front ++ (lower core).toList ++ back ∧
      s.toList.length ≤ front.length + core.toList.length + back.length := by
  obtain ⟨front, back, hs, huncased⟩ := h
  -- the frame holds no cased letter, so a final sigma is decided within the core
  have hfront : ∀ c ∈ front.reverse, IsUncased c := fun c hc =>
    huncased c (List.mem_append_left _ (List.mem_reverse.mp hc))
  have hback : ∀ c ∈ back, IsUncased c := fun c hc => huncased c (List.mem_append_right _ hc)
  obtain ⟨lowered, heq, hle⟩ := exists_lowerFrom_append [] front (core.toList ++ back)
  refine ⟨lowered, lowerFrom (core.toList.reverse ++ front.reverse) back, ?_, ?_⟩
  · rw [lower, lower, String.toList_ofList, String.toList_ofList, hs, List.append_assoc, heq,
      List.append_nil, lowerFrom_append hback, ← List.nil_append front.reverse,
      lowerFrom_of_uncased hfront, List.nil_append, List.append_assoc]
  · have hlength := length_le_lowerFrom (core.toList.reverse ++ front.reverse) back
    rw [hs, List.length_append, List.length_append]
    omega

theorem contains_lower (h : Frames s core) : contains (lower s) (lower core) = true := by
  obtain ⟨front, back, hlower, _⟩ := h.exists_lower
  exact contains_iff_infix.mpr ⟨front, back, hlower.symm⟩

/-- A frame is seen in the lower-case form too. -/
theorem eq_of_lower_eq (h : Frames s core) (heq : lower core = lower s) : s = core := by
  obtain ⟨front, back, hlower, hle⟩ := h.exists_lower
  have hlength := congrArg List.length hlower
  rw [heq, List.length_append, List.length_append] at hlength
  apply h.eq_of_length_le
  omega

end Frames

theorem lower_eq_empty_iff {s : String} : lower s = "" ↔ s = "" := by
  constructor
  · intro h
    have hle := length_le_lowerFrom [] s.toList
    rw [String.ofList_eq_empty_iff.mp h] at hle
    exact String.toList_eq_nil_iff.mp (List.eq_nil_of_length_eq_zero (Nat.le_zero.mp hle))
  · rintro rfl
    rfl

/-! ### Letters from A to Z -/

/-- Only the letters from A to Z have another lower-case form. -/
theorem toNat_toLower (c : Char) :
    c.toLower.toNat = if 65 ≤ c.toNat ∧ c.toNat ≤ 90 then c.toNat + 32 else c.toNat := by
  delta Char.toLower
  split
  next h =>
    -- the sum stays below the size of the word
    have hupper : 65 ≤ c.toNat ∧ c.toNat ≤ 90 :=
      ⟨UInt32.le_iff_toNat_le.mp h.1, UInt32.le_iff_toNat_le.mp h.2⟩
    have hlast : c.val.toNat ≤ 90 := hupper.2
    have hstep : (32 : UInt32).toNat = 32 := rfl
    rw [if_pos hupper]
    show (c.val + 32).toNat = c.val.toNat + 32
    rw [UInt32.toNat_add]
    omega
  next h =>
    rw [if_neg fun hupper =>
      h ⟨UInt32.le_iff_toNat_le.mpr hupper.1, UInt32.le_iff_toNat_le.mpr hupper.2⟩]

theorem isBlankChar_toLower (c : Char) : isBlankChar c.toLower = isBlankChar c := by
  have hcode := toNat_toLower c
  rw [Bool.eq_iff_iff]
  simp only [isBlankChar, Bool.or_eq_true, Bool.and_eq_true, decide_eq_true_eq]
  split at hcode <;> omega

theorem toNat_toLower_lt : c.toLower.toNat < 0x80 ↔ c.toNat < 0x80 := by
  have hcode := toNat_toLower c
  split at hcode <;> omega

section EqualIgnoringAsciiCase

variable {s t : String}

theorem toLower_mem_of_equal (h : equalIgnoringAsciiCase s t = true) (hc : c ∈ s.toList) :
    ∃ d ∈ t.toList, d.toLower = c.toLower := by
  have hletters : s.toList.map Char.toLower = t.toList.map Char.toLower := of_decide_eq_true h
  exact List.mem_map.mp (hletters ▸ List.mem_map_of_mem hc)

theorem not_isBlankChar_of_equal (h : equalIgnoringAsciiCase s t = true)
    (ht : ∀ d ∈ t.toList, isBlankChar d = false) (hc : c ∈ s.toList) : isBlankChar c = false := by
  obtain ⟨d, hd, hlower⟩ := toLower_mem_of_equal h hc
  rw [← isBlankChar_toLower, ← hlower, isBlankChar_toLower, ht d hd]

end EqualIgnoringAsciiCase

/-! ### Blanks -/

/-- Code points are looked up in the table as they stand, which is faster than with their
characters. -/
theorem isUncased_of_mem {codes : List Nat} (h : c.toNat ∈ codes) (hcodes : ∀ n ∈ codes,
    (CaseTable.cased.any fun (first, last) => first ≤ n && n ≤ last) =
      false) : IsUncased c := hcodes c.toNat h

/-- The code points of the blanks. -/
def blankCodes : List Nat :=
  [0x9, 0xa, 0xb, 0xc, 0xd, 0x20, 0x85, 0xa0, 0x1680, 0x2000, 0x2001, 0x2002, 0x2003, 0x2004,
    0x2005, 0x2006, 0x2007, 0x2008, 0x2009, 0x200a, 0x2028, 0x2029, 0x202f, 0x205f, 0x3000]

theorem isUncased_of_isBlankChar (h : isBlankChar c = true) : IsUncased c := by
  have hcode : c.toNat ∈ blankCodes := by
    simp [isBlankChar, blankCodes] at h ⊢
    omega
  exact isUncased_of_mem hcode (by decide +kernel)

theorem frames_trim (s : String) :
    Frames s (trim s) := .of_trimBy (fun _ => isUncased_of_isBlankChar) s

end AgentGraph.Text
