import AgentGraph.Text.Blank
import Mathlib.Data.List.DropRight

/-!
# Trimming

`trim` drops what is blank at both ends and nothing else, so a second `trim` finds nothing to drop.
This is what lets a label be trimmed once where it is stored and once more where it is compared.
-/

namespace AgentGraph.Text

theorem isBlankChar_of_isDigit {c : Char} (hc : c.isDigit = true) : isBlankChar c = false := by
  obtain ⟨hlow, hhigh⟩ := Char.isDigit_iff_toNat.mp hc
  have h0 : '0'.toNat = 48 := rfl
  have h9 : '9'.toNat = 57 := rfl
  simp only [isBlankChar, Bool.or_eq_false_iff, Bool.and_eq_false_iff, decide_eq_false_iff_not]
  omega

theorem toList_trimBy (p : Char → Bool) (s : String) :
    (trimBy p s).toList = (s.toList.dropWhile p).rdropWhile p := by
  rw [trimBy, String.toList_ofList]
  rfl

/-- Dropping at the end leaves the beginning alone. -/
theorem dropWhile_rdropWhile_dropWhile (p : Char → Bool) (cs : List Char) :
    ((cs.dropWhile p).rdropWhile p).dropWhile p = (cs.dropWhile p).rdropWhile p := by
  rw [List.dropWhile_eq_self_iff]
  intro hl
  have hpre : (cs.dropWhile p).rdropWhile p <+: cs.dropWhile p := List.rdropWhile_prefix p _
  have hlen : 0 < (cs.dropWhile p).length := Nat.lt_of_lt_of_le hl hpre.length_le
  rw [hpre.getElem hl]
  exact List.dropWhile_eq_self_iff.mp (List.dropWhile_idempotent p cs) hlen

theorem trimBy_trimBy (p : Char → Bool) (s : String) : trimBy p (trimBy p s) = trimBy p s := by
  apply String.toList_injective
  rw [toList_trimBy p (trimBy p s), toList_trimBy, dropWhile_rdropWhile_dropWhile,
    List.rdropWhile_idempotent]

@[simp]
theorem trim_trim (s : String) : trim (trim s) = trim s := trimBy_trimBy isBlankChar s

/-- Only of blank text nothing is left. -/
theorem trim_eq_empty_iff {s : String} : trim s = "" ↔ isBlank s = true := by
  rw [← String.toList_inj, trim, toList_trimBy, isBlank, List.all_eq_true]
  show (s.toList.dropWhile isBlankChar).rdropWhile isBlankChar = [] ↔ _
  rw [List.rdropWhile_eq_nil_iff]
  constructor
  · intro hrest c hc
    rw [← List.takeWhile_append_dropWhile (p := isBlankChar) (l := s.toList)] at hc
    rcases List.mem_append.mp hc with hc | hc
    · exact List.mem_takeWhile_imp hc
    · exact hrest c hc
  · exact fun hall c hc => hall c ((List.dropWhile_sublist _).mem hc)

theorem trim_ne_empty {s : String} (h : isBlank s = false) : trim s ≠ "" := by
  intro hempty
  rw [trim_eq_empty_iff.mp hempty] at h
  cases h

/-- What is dropped makes no difference. -/
theorem trimBy_surrounded {p : Char → Bool} {front back : String}
    (hfront : ∀ c ∈ front.toList, p c = true) (hback : ∀ c ∈ back.toList, p c = true) (s : String) :
    trimBy p (front ++ s ++ back) = trimBy p s := by
  apply String.toList_injective
  rw [toList_trimBy, toList_trimBy, String.toList_append, String.toList_append, List.append_assoc,
    List.dropWhile_append_of_pos hfront, List.dropWhile_append]
  split
  next hnothing => rw [List.dropWhile_eq_nil_iff.mpr hback, List.isEmpty_iff.mp hnothing]
  next =>
    rw [List.rdropWhile, List.reverse_append, List.dropWhile_append_of_pos fun c hc =>
      hback c (List.mem_reverse.mp hc)]
    rfl

theorem trimBy_eq_self {p : Char → Bool} {s : String} (h : ∀ c ∈ s.toList, p c = false) :
    trimBy p s = s := by
  have hfirst : s.toList.dropWhile p = s.toList :=
    List.dropWhile_eq_self_iff.mpr fun hl => Bool.eq_false_iff.mp (h _ (List.getElem_mem hl))
  apply String.toList_injective
  rw [toList_trimBy, hfirst]
  exact List.rdropWhile_eq_self_iff.mpr fun hl => Bool.eq_false_iff.mp (h _ (List.getLast_mem hl))

theorem isBlank_trim (s : String) : isBlank (trim s) = isBlank s := by
  rw [Bool.eq_iff_iff, ← trim_eq_empty_iff, trim_trim, trim_eq_empty_iff]

end AgentGraph.Text
