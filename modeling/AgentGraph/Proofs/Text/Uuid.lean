import AgentGraph.Uuid
import AgentGraph.Proofs.Text.Split
import Mathlib.Algebra.GroupWithZero.Nat
import Mathlib.Algebra.Order.Group.Nat
import Mathlib.Order.Lattice.Nat

/-!
# Identifiers survive their text

An identifier is written as five groups of digits, and the groups are found again because no digit
is a hyphen (`splitBy_joinGroups`). So every identifier is read back as it was written
(`Uuid.ofText_toString`), and two identifiers with the same text are the same.
-/

namespace AgentGraph

namespace Uuid

open Json Text

/-! ### Digits -/

theorem hexValue?_digitChar : ∀ d < 16, Reader.hexValue? (Nat.digitChar d) = some d := by
  decide

theorem hexValue?_append (cs ds : List Char) (n : Nat) :
    (cs ++ ds).foldlM (fun n c => (Reader.hexValue? c).map (16 * n + ·)) n =
      (cs.foldlM (fun n c => (Reader.hexValue? c).map (16 * n + ·)) n).bind fun n =>
        ds.foldlM (fun n c => (Reader.hexValue? c).map (16 * n + ·)) n := by
  rw [List.foldlM_append]
  rfl

/-- The digits of a number have its value. -/
theorem hexValue?_hexDigits (n : Nat) : hexValue? (hexDigits n) = some n := by
  induction n using Nat.strong_induction_on with
  | _ n ih =>
      rw [hexDigits, Nat.toDigits_eq_if (by decide)]
      split
      · next hlt =>
        simp [hexValue?, hexValue?_digitChar n hlt]
      -- the last digit is the rest, and the others are those of the quotient
      · next hge =>
        have hquotient := ih (n / 16) (by omega)
        have hdigit := hexValue?_digitChar (n % 16) (Nat.mod_lt _ (by decide))
        rw [hexValue?, hexDigits] at hquotient
        rw [hexValue?, hexValue?_append, hquotient]
        simp [hdigit]
        omega

theorem hexValue?_replicate_zero (n : Nat) (cs : List Char) :
    hexValue? (List.replicate n '0' ++ cs) = hexValue? cs := by
  induction n with
  | zero => rfl
  | succ n ih => exact ih

/-- What has a value holds only digits. -/
theorem isSome_of_hexValue? {cs : List Char} {n : Nat} (h : hexValue? cs = some n) :
    ∀ c ∈ cs, (Reader.hexValue? c).isSome = true := by
  -- a fold that comes through has read every character
  have hfold : ∀ start,
      (cs.foldlM (fun n c => (Reader.hexValue? c).map (16 * n + ·)) start).isSome = true →
        ∀ c ∈ cs, (Reader.hexValue? c).isSome = true := by
    clear h
    induction cs with
    | nil => simp
    | cons c cs ih =>
        intro start hsome
        rw [List.foldlM_cons] at hsome
        cases hc : Reader.hexValue? c with
        | none => simp [hc] at hsome
        | some d =>
            rw [hc] at hsome
            exact List.forall_mem_cons.mpr ⟨by rw [hc]; rfl, ih _ hsome⟩
  rw [hexValue?] at h
  exact hfold 0 (by rw [h]; rfl)

theorem hexValue?_digits (u : Uuid) : hexValue? u.digits = some u.value.toNat := by
  rw [digits, hexValue?_replicate_zero, hexValue?_hexDigits]

theorem length_digits (u : Uuid) : u.digits.length = 32 := by
  have hlength : (hexDigits u.value.toNat).length ≤ 32 :=
    (Nat.length_toDigits_le_iff (by decide) (by decide)).mpr u.value.isLt
  rw [digits, List.length_append, List.length_replicate]
  omega

/-! ### Groups -/

/-- The groups are found again. -/
theorem splitBy_joinGroups (lengths : List Nat) (hne : lengths ≠ []) (cs : List Char)
    (hcs : ∀ c ∈ cs, c ≠ '-') (hlength : lengths.sum = cs.length) :
    (splitBy (· = '-') [] (joinGroups lengths cs)).map List.length = lengths ∧
      (splitBy (· = '-') [] (joinGroups lengths cs)).flatten = cs := by
  induction lengths generalizing cs with
  | nil => exact absurd rfl hne
  | cons n lengths ih =>
      cases lengths with
      | nil =>
          have hall : joinGroups [n] cs = cs := by
            rw [joinGroups, List.take_of_length_le]
            simpa using hlength.symm.le
          rw [hall, splitBy_none (by simpa using hcs)]
          simpa using hlength.symm
      | cons m lengths =>
          -- the first group ends at its hyphen, and the rest is left to the induction
          have htake : ∀ c ∈ cs.take n, decide (c = '-') = false := fun c hc =>
            decide_eq_false (hcs c (List.mem_of_mem_take hc))
          have hsum : n + (m :: lengths).sum = cs.length := hlength
          obtain ⟨hlengths, hflatten⟩ := ih (List.cons_ne_nil m lengths) (cs.drop n)
            (fun c hc => hcs c (List.mem_of_mem_drop hc)) (by rw [List.length_drop]; omega)
          rw [joinGroups, splitBy_append (by rfl), splitBy_none htake, List.cons_append,
            List.nil_append, List.map_cons, List.flatten_cons, hlengths, hflatten]
          · constructor
            · simp
              omega
            · simp
          · exact List.cons_ne_nil m lengths

theorem length_joinGroups (lengths : List Nat) (hne : lengths ≠ []) (cs : List Char)
    (hlength : lengths.sum ≤ cs.length) :
    (joinGroups lengths cs).length + 1 = lengths.sum + lengths.length := by
  induction lengths generalizing cs with
  | nil => exact absurd rfl hne
  | cons n lengths ih =>
      rw [List.sum_cons] at hlength ⊢
      cases lengths with
      | nil => simp [joinGroups] at hlength ⊢; omega
      | cons m lengths =>
          have htail :=
            ih (List.cons_ne_nil m lengths) (cs.drop n) (by rw [List.length_drop]; omega)
          rw [joinGroups, List.length_append, List.length_cons, List.length_take, List.length_cons]
          · omega
          · exact List.cons_ne_nil m lengths

theorem mem_joinGroups {lengths : List Nat} {cs : List Char} {c : Char}
    (h : c ∈ joinGroups lengths cs) : c = '-' ∨ c ∈ cs := by
  induction lengths, cs using joinGroups.induct with
  | case1 => cases h
  | case2 cs n => exact .inr (List.mem_of_mem_take h)
  | case3 cs n lengths hne ih =>
      rw [joinGroups] at h
      · rcases List.mem_append.mp h with htake | hrest
        · exact .inr (List.mem_of_mem_take htake)
        rcases List.mem_cons.mp hrest with hmark | hrest
        · exact .inl hmark
        · exact (ih hrest).imp_right List.mem_of_mem_drop
      · exact hne

theorem isSome_of_mem_digits {u : Uuid} {c : Char} (h : c ∈ u.digits) :
    (Reader.hexValue? c).isSome = true :=
  isSome_of_hexValue? (hexValue?_digits u) c h

/-- Only digits and hyphens are written. -/
theorem of_mem_toString {u : Uuid} {c : Char} (h : c ∈ u.toString.toList) :
    c = '-' ∨ (Reader.hexValue? c).isSome = true := by
  rw [toString, String.toList_ofList] at h
  exact (mem_joinGroups h).imp_right isSome_of_mem_digits

theorem length_toString (u : Uuid) : u.toString.toList.length = 36 := by
  have := length_joinGroups groupLengths (by decide) u.digits (length_digits u).ge
  rw [toString, String.toList_ofList]
  exact Nat.succ.inj this

/-- **An identifier is read back as it was written.** -/
theorem ofText_toString (u : Uuid) : ofText u.toString = .ok u := by
  have hhyphen : ∀ c ∈ u.digits, c ≠ '-' := by
    rintro _ hc rfl
    exact absurd (isSome_of_mem_digits hc) (by decide)
  obtain ⟨hlengths, hflatten⟩ := splitBy_joinGroups groupLengths (by decide) u.digits hhyphen
    (by rw [length_digits]; rfl)
  have hgroups : ofGroups? (joinGroups groupLengths u.digits) = some u := by
    rw [ofGroups?, if_pos hlengths, hflatten, hexValue?_digits]
    simp
  -- the groups with their hyphens are longer than the plain form
  have hlength : (joinGroups groupLengths u.digits).length ≠ 32 := by
    have := length_toString u
    rw [toString, String.toList_ofList] at this
    omega
  rw [ofText, toString, String.toList_ofList]
  simp only [hlength, ↓reduceIte, hgroups]
  rfl

end Uuid

end AgentGraph
