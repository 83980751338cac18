import AgentGraph.Template
import Mathlib.Algebra.Group.Nat.Even
import Mathlib.Data.List.DropRight

/-!
# Where placeholders stand

A placeholder begins with two opening braces and has none behind them. So a text begins with one
placeholder at most (`slotAt?_eq_some_iff`), and placeholders never overlap. The lemmas about
`StandsIn` take the first character, the first placeholder or the first double braces off a text and
say where a placeholder stands in what is left.

Opening braces may stand right before a placeholder, and then it matters how many they are.
`bracesAtEnd` counts them.
-/

namespace AgentGraph.Template

variable {s t : Slot} {c : Char} {cs rest before after : List Char}

/-! ### Placeholders -/

namespace Slot

/-- A placeholder without its opening braces. -/
def body (s : Slot) : List Char := s.name.toList ++ ['\x7d', '\x7d']

theorem body_ne_nil (s : Slot) : s.body ≠ [] :=
  List.append_ne_nil_of_right_ne_nil _ (List.cons_ne_nil _ _)

theorem ne_brace_of_mem_body (hc : c ∈ s.body) : c ≠ '\x7b' := by
  have hall : s.body.all (· ≠ '\x7b') = true := by cases s <;> decide
  exact of_decide_eq_true (List.all_eq_true.mp hall c hc)

theorem opening_prefix_placeholder (s : Slot) : opening <+: s.placeholder := ⟨s.body, rfl⟩

theorem eq_of_placeholder_prefix (h : s.placeholder <+: t.placeholder) : s = t := by
  revert h
  cases s <;> cases t <;> decide

theorem mem_all (s : Slot) : s ∈ all := by cases s <;> decide

end Slot

/-- A text begins with one placeholder at most. -/
theorem slotAt?_eq_some_iff : slotAt? cs = some s ↔ s.placeholder <+: cs := by
  have found : ∀ {t : Slot}, slotAt? cs = some t → t.placeholder <+: cs := by
    intro t h
    have hprefix := List.find?_some h
    exact List.isPrefixOf_iff_prefix.mp hprefix
  constructor
  · exact found
  · intro h
    cases hfind : slotAt? cs with
    | none =>
        have hnone := List.find?_eq_none.mp hfind s s.mem_all
        exact absurd (List.isPrefixOf_iff_prefix.mpr h) hnone
    | some t =>
        -- no placeholder begins with another one
        rcases List.prefix_or_prefix_of_prefix h (found hfind) with hst | hts
        · rw [Slot.eq_of_placeholder_prefix hst]
        · rw [Slot.eq_of_placeholder_prefix hts]

theorem slotAt?_eq_none_iff : slotAt? cs = none ↔ ∀ s : Slot, ¬ s.placeholder <+: cs := by
  constructor
  · intro h s hs
    rw [slotAt?_eq_some_iff.mpr hs] at h
    cases h
  · intro h
    cases hfind : slotAt? cs with
    | none => rfl
    | some s => exact absurd (slotAt?_eq_some_iff.mp hfind) (h s)

theorem slotAt?_placeholder (s : Slot) (rest : List Char) :
    slotAt? (s.placeholder ++ rest) = some s :=
  slotAt?_eq_some_iff.mpr (List.prefix_append _ _)

/-- A placeholder begins at double braces only. -/
theorem slotAt?_of_not_opening (h : ¬ opening <+: cs) : slotAt? cs = none :=
  slotAt?_eq_none_iff.mpr fun s hs => h (s.opening_prefix_placeholder.trans hs)

theorem not_opening_of_ne (h : c ≠ '\x7b') (rest : List Char) : ¬ opening <+: c :: rest := by
  intro hprefix
  exact h (List.cons_prefix_cons.mp hprefix).1.symm

/-- Inside a placeholder no other one begins. -/
theorem Slot.not_opening_body (s : Slot) (rest : List Char) :
    ¬ opening <+: '\x7b' :: (s.body ++ rest) := by
  obtain ⟨c, body, hbody⟩ := List.exists_cons_of_ne_nil s.body_ne_nil
  have hc : c ≠ '\x7b' := Slot.ne_brace_of_mem_body (hbody ▸ List.mem_cons_self)
  rw [hbody]
  intro hprefix
  exact hc (List.cons_prefix_cons.mp (List.cons_prefix_cons.mp hprefix).2).1.symm

/-! ### The braces before a place -/

/-- The number of opening braces that a text ends with. -/
def bracesAtEnd (cs : List Char) : Nat := (cs.rtakeWhile (· = '\x7b')).length

theorem bracesAtEnd_concat (cs : List Char) (c : Char) :
    bracesAtEnd (cs ++ [c]) = if c = '\x7b' then bracesAtEnd cs + 1 else 0 := by
  rw [bracesAtEnd, List.rtakeWhile_concat]
  by_cases hc : c = '\x7b' <;> simp [hc, bracesAtEnd]

theorem bracesAtEnd_append_braces (cs : List Char) (hrest : ∀ c ∈ rest, c = '\x7b') :
    bracesAtEnd (cs ++ rest) = bracesAtEnd cs + rest.length := by
  induction rest using List.reverseRecOn with
  | nil => rw [List.append_nil]; rfl
  | append_singleton rest c ih =>
      obtain ⟨hrest, hc⟩ := List.forall_mem_append.mp hrest
      rw [← List.append_assoc, bracesAtEnd_concat, if_pos (List.forall_mem_singleton.mp hc),
        ih hrest, List.length_append, List.length_singleton, Nat.add_assoc]

/-- What is in front does not count when there is another character behind it. -/
theorem bracesAtEnd_append (cs : List Char) (hrest : ∃ c ∈ rest, c ≠ '\x7b') :
    bracesAtEnd (cs ++ rest) = bracesAtEnd rest := by
  induction rest using List.reverseRecOn with
  | nil => simp at hrest
  | append_singleton rest c ih =>
      rw [← List.append_assoc, bracesAtEnd_concat, bracesAtEnd_concat]
      by_cases hc : c = '\x7b'
      · rw [ih (by simpa [hc] using hrest)]
      · rw [if_neg hc, if_neg hc]

theorem bracesAtEnd_eq_zero (h : cs.getLast? ≠ some '\x7b') : bracesAtEnd cs = 0 := by
  induction cs using List.reverseRecOn with
  | nil => rfl
  | append_singleton cs c _ =>
      rw [List.getLast?_concat] at h
      rw [bracesAtEnd_concat, if_neg fun hc => h (congrArg some hc)]

theorem bracesAtEnd_braces (h : ∀ c ∈ cs, c = '\x7b') : bracesAtEnd cs = cs.length := by
  rw [← List.nil_append cs, bracesAtEnd_append_braces [] h]
  exact Nat.zero_add _

theorem braces_or_other (cs : List Char) : (∀ c ∈ cs, c = '\x7b') ∨ ∃ c ∈ cs, c ≠ '\x7b' := by
  by_cases h : ∀ c ∈ cs, c = '\x7b'
  · exact .inl h
  · push Not at h
    exact .inr h

/-- A text that ends in no brace makes no difference in front of another one. -/
theorem bracesAtEnd_append_of_zero (hcs : bracesAtEnd cs = 0) (rest : List Char) :
    bracesAtEnd (cs ++ rest) = bracesAtEnd rest := by
  rcases braces_or_other rest with hall | hother
  · rw [bracesAtEnd_append_braces cs hall, hcs, bracesAtEnd_braces hall, Nat.zero_add]
  · exact bracesAtEnd_append cs hother

theorem bracesAtEnd_placeholder (s : Slot) (rest : List Char) :
    bracesAtEnd (s.placeholder ++ rest) = bracesAtEnd rest :=
  bracesAtEnd_append_of_zero (by cases s <;> decide) rest

/-- A character in front makes no difference, unless it begins double braces. -/
theorem bracesAtEnd_cons (hopening : ¬ opening <+: c :: rest) (hrest : rest ≠ []) :
    bracesAtEnd (c :: rest) = bracesAtEnd rest := by
  rw [← List.singleton_append]
  by_cases hc : c = '\x7b'
  · obtain ⟨d, more, rfl⟩ := List.exists_cons_of_ne_nil hrest
    refine bracesAtEnd_append [c] ⟨d, List.mem_cons_self, ?_⟩
    rintro rfl
    exact hopening ⟨more, by rw [hc]; rfl⟩
  · have hzero : bracesAtEnd [c] = 0 := bracesAtEnd_eq_zero fun hlast => hc (Option.some.inj hlast)
    exact bracesAtEnd_append_of_zero hzero rest

/-- Two braces in front do not change whether their number is even. -/
theorem even_bracesAtEnd_opening (rest : List Char) :
    Even (bracesAtEnd (opening ++ rest)) ↔ Even (bracesAtEnd rest) := by
  rcases braces_or_other rest with hall | hother
  · have htwo : Even (bracesAtEnd opening) := ⟨1, by decide⟩
    rw [bracesAtEnd_append_braces opening hall, bracesAtEnd_braces hall, Nat.even_add,
      iff_true_left htwo]
  · rw [bracesAtEnd_append opening hother]

/-! ### Taking the beginning off a text -/

/-- The placeholder stands in the text, between the two given parts of it. -/
def Slot.StandsIn (s : Slot) (cs before after : List Char) : Prop :=
  cs = before ++ s.placeholder ++ after

namespace Slot.StandsIn

theorem prepend (h : s.StandsIn cs before after) (front : List Char) :
    s.StandsIn (front ++ cs) (front ++ before) after := by
  rw [StandsIn] at h ⊢
  rw [h, List.append_assoc, List.append_assoc, List.append_assoc]

theorem prefix_of_nil (h : s.StandsIn cs [] after) : s.placeholder <+: cs := ⟨after, h.symm⟩

theorem of_cons_cons {b : Char} (h : s.StandsIn (c :: rest) (b :: before) after) :
    b = c ∧ s.StandsIn rest before after :=
  ⟨(List.cons.inj h).1.symm, (List.cons.inj h).2⟩

theorem ne_nil (h : s.StandsIn cs before after) : cs ≠ [] := by
  rintro rfl
  have hlength := congrArg List.length h
  have hpos := s.length_placeholder_pos
  simp only [List.length_nil, List.length_append] at hlength
  omega

/-- Behind the first character, if the text does not begin with double braces. -/
theorem of_cons (hopening : ¬ opening <+: c :: rest) (h : s.StandsIn (c :: rest) before after) :
    ∃ before', before = c :: before' ∧ s.StandsIn rest before' after := by
  cases before with
  | nil => exact absurd (s.opening_prefix_placeholder.trans h.prefix_of_nil) hopening
  | cons b before =>
      obtain ⟨rfl, hrest⟩ := h.of_cons_cons
      exact ⟨before, rfl, hrest⟩

/-- The first character then makes no difference to the braces before the placeholder. -/
theorem bracesAtEnd_cons (hopening : ¬ opening <+: c :: rest) (h : s.StandsIn rest before after) :
    bracesAtEnd (c :: before) = bracesAtEnd before := by
  cases before with
  | nil =>
      -- the placeholder comes next, so another brace would make double braces
      have hc : c ≠ '\x7b' := by
        rintro rfl
        obtain ⟨more, rfl⟩ := h.prefix_of_nil
        exact hopening
          (List.cons_prefix_cons.mpr ⟨rfl, List.cons_prefix_cons.mpr ⟨rfl, List.nil_prefix⟩⟩)
      exact bracesAtEnd_eq_zero fun hlast => hc (Option.some.inj hlast)
  | cons b before =>
      have hfront : c :: b :: before <+: c :: rest := by
        rw [h, List.append_assoc]
        exact List.prefix_append (c :: b :: before) _
      exact Template.bracesAtEnd_cons (fun hbegins => hopening (hbegins.trans hfront))
        (List.cons_ne_nil _ _)

/-- Behind characters that are no opening braces. -/
theorem of_append {front : List Char} (hfront : ∀ c ∈ front, c ≠ '\x7b')
    (h : s.StandsIn (front ++ rest) before after) :
    ∃ before', before = front ++ before' ∧ s.StandsIn rest before' after := by
  induction front generalizing before with
  | nil => exact ⟨before, rfl, h⟩
  | cons c front ih =>
      obtain ⟨hc, hfront⟩ := List.forall_mem_cons.mp hfront
      obtain ⟨before, rfl, htail⟩ := of_cons (not_opening_of_ne hc _) h
      obtain ⟨before, rfl, hrest⟩ := ih hfront htail
      exact ⟨before, rfl, hrest⟩

/-- Behind a placeholder, unless it is this placeholder. -/
theorem of_placeholder (h : s.StandsIn (t.placeholder ++ rest) before after) :
    (before = [] ∧ s = t ∧ after = rest) ∨
      ∃ before', before = t.placeholder ++ before' ∧ s.StandsIn rest before' after := by
  cases before with
  | nil =>
      have hst : some t = some s := by
        rw [← slotAt?_placeholder t rest, slotAt?_eq_some_iff.mpr h.prefix_of_nil]
      obtain rfl := Option.some.inj hst
      exact .inl ⟨rfl, rfl, (List.append_cancel_left h).symm⟩
  | cons b before =>
      -- within the braces and the body no other placeholder can stand
      obtain ⟨rfl, hsecond⟩ := h.of_cons_cons
      obtain ⟨before, rfl, hbody⟩ := of_cons (t.not_opening_body rest) hsecond
      obtain ⟨before, rfl, hrest⟩ := of_append (fun c hc => Slot.ne_brace_of_mem_body hc) hbody
      exact .inr ⟨before, rfl, hrest⟩

/-- Behind double braces that begin no placeholder, unless it begins with the second of them. -/
theorem of_opening (hslot : slotAt? (opening ++ rest) = none)
    (h : s.StandsIn (opening ++ rest) before after) :
    (before = ['\x7b'] ∧ s.placeholder <+: '\x7b' :: rest) ∨
      ∃ before', before = opening ++ before' ∧ s.StandsIn rest before' after := by
  cases before with
  | nil => exact absurd h.prefix_of_nil (slotAt?_eq_none_iff.mp hslot s)
  | cons b before =>
      obtain ⟨rfl, hsecond⟩ := h.of_cons_cons
      cases before with
      | nil => exact .inl ⟨rfl, hsecond.prefix_of_nil⟩
      | cons b before =>
          obtain ⟨rfl, hrest⟩ := hsecond.of_cons_cons
          exact .inr ⟨before, rfl, hrest⟩

end Slot.StandsIn

end AgentGraph.Template
