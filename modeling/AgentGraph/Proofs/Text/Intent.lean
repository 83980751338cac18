import AgentGraph.Intent
import AgentGraph.Proofs.Text.Lower

/-!
# The intent that a reply names

`matchIntent?` looks twice: for the first intent that is the whole reply (`SaysIntent`), and if
there is none for the first that occurs in it (`MentionsIntent`). The first look strips quotes and
full stops off the reply but not off the intents, and it may find a blank intent. The second takes
the reply as it is and leaves blank intents out.

Two questions follow. Does the answer name an intent that the reply mentions? `matchIntent?_answers`
says that it does, except that a reply of marks alone is answered with a blank intent when there is
one. And is a reply that repeats an intent answered with this intent? `matchIntent?_own_label` says
that it is when no mark stands at an end of the intent; otherwise the marks are stripped off the
reply only, so that the intent does not match itself, and an earlier one that occurs in it is taken.
-/

namespace AgentGraph

open Text

/-! ### The first of its kind -/

/-- The first member of a list that has the property. -/
def FirstIn {α : Type} (p : α → Prop) (l : List α) (a : α) : Prop :=
  ∃ before after, l = before ++ a :: after ∧ p a ∧ ∀ b ∈ before, ¬ p b

theorem find?_eq_some_iff_firstIn {α : Type} {p : α → Prop} [DecidablePred p] {l : List α} {a : α} :
    l.find? (fun a => decide (p a)) = some a ↔ FirstIn p l a := by
  rw [List.find?_eq_some_iff_append]
  constructor
  · rintro ⟨ha, before, after, hl, hbefore⟩
    exact ⟨before, after, hl, of_decide_eq_true ha, by simpa using hbefore⟩
  · rintro ⟨before, after, hl, ha, hbefore⟩
    exact ⟨decide_eq_true ha, before, after, hl, by simpa using hbefore⟩

theorem find?_eq_none_iff_forall {α : Type} {p : α → Prop} [DecidablePred p] {l : List α} :
    l.find? (fun a => decide (p a)) = none ↔ ∀ a ∈ l, ¬ p a := by simp

namespace FirstIn

variable {α : Type} {p : α → Prop} {l : List α} {a b : α}

theorem mem (h : FirstIn p l a) : a ∈ l := by
  obtain ⟨before, after, rfl, _⟩ := h
  exact List.mem_append_right _ List.mem_cons_self

theorem holds (h : FirstIn p l a) : p a := by
  obtain ⟨_, _, _, ha, _⟩ := h
  exact ha

theorem unique [DecidablePred p] (ha : FirstIn p l a) (hb : FirstIn p l b) : a = b := by
  rw [← find?_eq_some_iff_firstIn] at ha hb
  exact Option.some.inj (ha.symm.trans hb)

end FirstIn

/-! ### What a reply says and mentions -/

/-- The intent is the whole reply, but for case and for what may surround either. -/
def SaysIntent (reply intent : String) : Prop := lower (trim intent) = bareReply reply

/-- The intent is not blank, and it occurs in the reply in any letter case. -/
def MentionsIntent (reply intent : String) : Prop :=
  trim intent ≠ "" ∧ contains (lower reply) (lower (trim intent)) = true

instance (reply : String) : DecidablePred (SaysIntent reply) :=
  fun _ => inferInstanceAs (Decidable (_ = _))

instance (reply : String) : DecidablePred (MentionsIntent reply) :=
  fun _ => inferInstanceAs (Decidable (_ ∧ _))

theorem matchIntent?_eq (reply : String) (intents : List String) : matchIntent? reply intents =
    ((intents.find? (SaysIntent reply ·)).or
      (intents.find? (MentionsIntent reply ·))).map trim := by
  -- the two searches of the code, over the trimmed labels
  have hsaid : (fun i => decide (lower i = bareReply reply)) ∘ trim =
      fun i => decide (SaysIntent reply i) := by
    funext i
    rw [Bool.eq_iff_iff, decide_eq_true_iff, Function.comp_apply, decide_eq_true_iff, SaysIntent]
  have hmentions : (fun i => !i.isEmpty && contains (lower reply) (lower i)) ∘ trim =
      fun i => decide (MentionsIntent reply i) := by
    funext i
    rw [Bool.eq_iff_iff, decide_eq_true_iff, MentionsIntent]
    simp
  rw [matchIntent?, Option.orElse_eq_orElse, Option.orElse_eq_or, List.find?_map,
    List.find?_map, hsaid, hmentions, Option.map_or]

variable {reply label i : String} {intents : List String}

theorem matchIntent?_eq_some_iff : matchIntent? reply intents = some label ↔
    (∃ i, FirstIn (SaysIntent reply) intents i ∧ trim i = label) ∨
      (∀ i ∈ intents, ¬ SaysIntent reply i) ∧
        ∃ i, FirstIn (MentionsIntent reply) intents i ∧ trim i = label := by
  simp only [matchIntent?_eq, Option.map_eq_some_iff, Option.or_eq_some_iff,
    find?_eq_some_iff_firstIn, find?_eq_none_iff_forall, or_and_right, exists_or, and_assoc,
    exists_and_left]

theorem matchIntent?_eq_none_iff : matchIntent? reply intents = none ↔
    (∀ i ∈ intents, ¬ SaysIntent reply i) ∧ ∀ i ∈ intents, ¬ MentionsIntent reply i := by
  simp only [matchIntent?_eq, Option.map_eq_none_iff, Option.or_eq_none_iff,
    find?_eq_none_iff_forall]

/-- An intent that a reply names is one of the intents, without the blanks around it. -/
theorem matchIntent?_mem (h : matchIntent? reply intents = some label) :
    ∃ i ∈ intents, label = trim i := by
  rcases matchIntent?_eq_some_iff.mp h with ⟨i, hfirst, rfl⟩ | ⟨_, i, hfirst, rfl⟩
  · exact ⟨i, hfirst.mem, rfl⟩
  · exact ⟨i, hfirst.mem, rfl⟩

/-! ### What surrounds a reply -/

theorem isUncased_of_isReplyMark {c : Char} (h : isReplyMark c = true) : IsUncased c := by
  have hcode : c.toNat ∈ [0x22, 0x27, 0x60, 0x2e] := by
    simp only [isReplyMark, Bool.or_eq_true, decide_eq_true_eq] at h
    rcases h with ((rfl | rfl) | rfl) | rfl <;> decide
  exact isUncased_of_mem hcode (by decide +kernel)

/-- What is stripped around a reply frames what it says. -/
theorem frames_bareReply (reply : String) : Frames reply (trim (trimBy isReplyMark (trim reply))) :=
  ((frames_trim reply).trans (.of_trimBy (fun _ => isUncased_of_isReplyMark) _)).trans
    (frames_trim _)

/-- There is nothing but blanks between the marks of the reply. -/
def SaysNothing (reply : String) : Prop := isBlank (trimBy isReplyMark (trim reply)) = true

instance (reply : String) : Decidable (SaysNothing reply) := inferInstanceAs (Decidable (_ = true))

theorem bareReply_eq_empty_iff : bareReply reply = "" ↔ SaysNothing reply := by
  rw [bareReply, lower_eq_empty_iff, trim_eq_empty_iff, SaysNothing]

theorem lower_trim_eq_empty_iff : lower (trim i) = "" ↔ isBlank i = true := by
  rw [lower_eq_empty_iff, trim_eq_empty_iff]

/-- A reply that says nothing says every blank intent. -/
theorem saysIntent_of_isBlank (hreply : SaysNothing reply) (hi : isBlank i = true) :
    SaysIntent reply i := by
  rw [SaysIntent, bareReply_eq_empty_iff.mpr hreply, lower_trim_eq_empty_iff.mpr hi]

namespace SaysIntent

/-- What a reply says occurs in it. -/
theorem contains (h : SaysIntent reply i) : contains (lower reply) (lower (trim i)) = true := by
  rw [show lower (trim i) = bareReply reply from h]
  exact (frames_bareReply reply).contains_lower

theorem saysNothing_iff (h : SaysIntent reply i) : SaysNothing reply ↔ isBlank i = true := by
  rw [← bareReply_eq_empty_iff, ← show lower (trim i) =
    bareReply reply from h, lower_trim_eq_empty_iff]

theorem mentions (h : SaysIntent reply i) (hi : isBlank i = false) : MentionsIntent reply i :=
  ⟨trim_ne_empty hi, h.contains⟩

end SaysIntent

/-- A reply of marks alone is answered with a blank intent. -/
def AnswersBlank (reply : String) (intents : List String) : Prop :=
  SaysNothing reply ∧ ∃ i ∈ intents, isBlank i = true

/-- **What the answer names**: it is an intent without the blanks around it, and it occurs in the
reply in any letter case. It is blank exactly when the reply consists of marks alone and some intent
is blank. There is no answer exactly when the reply mentions no intent and this exception does not
apply. -/
theorem matchIntent?_answers (reply : String) (intents : List String) :
    (∀ label, matchIntent? reply intents = some label →
      (∃ i ∈ intents, label = trim i) ∧ contains (lower reply) (lower label) = true ∧
        (isBlank label = true ↔ AnswersBlank reply intents)) ∧
    (matchIntent? reply intents = none ↔
      (∀ i ∈ intents, ¬ MentionsIntent reply i) ∧ ¬ AnswersBlank reply intents) := by
  refine ⟨fun label h => ⟨matchIntent?_mem h, ?_⟩, ?_⟩
  · rcases matchIntent?_eq_some_iff.mp h with ⟨i, hfirst, rfl⟩ | ⟨hnone, i, hfirst, rfl⟩
    · have hsaid := hfirst.holds
      refine ⟨hsaid.contains, ?_⟩
      -- a blank label is said by a reply that says nothing, and by no other
      rw [isBlank_trim, ← hsaid.saysNothing_iff]
      constructor
      · exact fun hreply => ⟨hreply, i, hfirst.mem, hsaid.saysNothing_iff.mp hreply⟩
      · exact fun h => h.1
    · obtain ⟨hkept, hoccurs⟩ := hfirst.holds
      refine ⟨hoccurs, iff_of_false (fun hblank => hkept ?_) ?_⟩
      -- the second search leaves blank labels out
      · rwa [isBlank_trim, ← trim_eq_empty_iff] at hblank
      · rintro ⟨hreply, j, hj, hblank⟩
        exact hnone j hj (saysIntent_of_isBlank hreply hblank)
  · rw [matchIntent?_eq_none_iff]
    constructor
    · rintro ⟨hsaid, hmentions⟩
      refine ⟨hmentions, ?_⟩
      rintro ⟨hreply, i, hi, hblank⟩
      exact hsaid i hi (saysIntent_of_isBlank hreply hblank)
    · rintro ⟨hmentions, hblank⟩
      refine ⟨fun i hi hsaid => ?_, hmentions⟩
      cases hi' : isBlank i with
      | false => exact hmentions i hi (hsaid.mentions hi')
      | true => exact hblank ⟨hsaid.saysNothing_iff.mpr hi', i, hi, hi'⟩

/-! ### A reply that repeats an intent -/

/-- No mark that is stripped around a reply stands at an end of the label. -/
def IsBare (label : String) : Prop := trimBy isReplyMark label = label

instance (label : String) : Decidable (IsBare label) := inferInstanceAs (Decidable (_ = _))

theorem mentionsIntent_self (hi : isBlank i = false) : MentionsIntent i i :=
  ⟨trim_ne_empty hi, (frames_trim i).contains_lower⟩

theorem bareReply_of_isBare (h : IsBare (trim i)) : bareReply i = lower (trim i) := by
  rw [bareReply, show trimBy isReplyMark (trim i) = trim i from h, trim_trim]

/-- Whoever repeats a label with marks at its ends does not say it. -/
theorem isBare_of_bareReply_eq (h : bareReply i = lower (trim i)) : IsBare (trim i) := by
  have hmarks : Frames (trim i) (trimBy isReplyMark (trim i)) :=
    .of_trimBy (fun _ => isUncased_of_isReplyMark) _
  have hblanks := frames_trim (trimBy isReplyMark (trim i))
  rw [bareReply] at h
  have heq : trim i = trim (trimBy isReplyMark (trim i)) := (hmarks.trans hblanks).eq_of_lower_eq h
  have hle := hblanks.length_le
  rw [← heq] at hle
  exact (hmarks.eq_of_length_le hle).symm

/-- **A reply that repeats an intent is answered**, and with this intent up to case exactly when no
mark stands at an end of it, or else when no intent is what is left of it without the marks and the
first intent that occurs in it is the same up to case. -/
theorem matchIntent?_own_label (hi : i ∈ intents) (hblank : isBlank i = false) :
    ∃ j ∈ intents, matchIntent? i intents = some (trim j) ∧
      (lower (trim j) = lower (trim i) ↔ IsBare (trim i) ∨
        (∀ k ∈ intents, ¬ SaysIntent i k) ∧
          ∀ k, FirstIn (MentionsIntent i) intents k → lower (trim k) = lower (trim i)) := by
  cases hmatch : matchIntent? i intents with
  | none => exact absurd (mentionsIntent_self hblank) ((matchIntent?_eq_none_iff.mp hmatch).2 i hi)
  | some label =>
      rcases matchIntent?_eq_some_iff.mp hmatch with ⟨j, hfirst, rfl⟩ | ⟨hnone, j, hfirst, rfl⟩
      · refine ⟨j, hfirst.mem, rfl, ?_⟩
        -- some label is said exactly, and it is this one only if nothing is stripped off
        have hsaid : lower (trim j) = bareReply i := hfirst.holds
        rw [hsaid]
        constructor
        · exact fun heq => .inl (isBare_of_bareReply_eq heq)
        · rintro (hbare | ⟨hnone, _⟩)
          · exact bareReply_of_isBare hbare
          · exact absurd hsaid (hnone j hfirst.mem)
      · refine ⟨j, hfirst.mem, rfl, ?_⟩
        constructor
        -- no label is said, so the first one mentioned is taken
        · intro heq
          refine .inr ⟨hnone, fun k hk => ?_⟩
          rw [hk.unique hfirst, heq]
        · rintro (hbare | ⟨_, hsame⟩)
          · exact absurd (bareReply_of_isBare hbare).symm (hnone i hi)
          · exact hsame j hfirst

/-- A full stop at the end is enough for a company to be taken for its sales department. -/
theorem sales_inc_not_recognised :
    "Sales Inc." ∈ ["Sales", "Sales Inc."] ∧ isBlank "Sales Inc." = false ∧
    ∃ j ∈ ["Sales", "Sales Inc."],
      matchIntent? "Sales Inc." ["Sales", "Sales Inc."] = some (trim j) ∧
      lower (trim j) ≠ lower (trim "Sales Inc.") := by
  have hmem : "Sales Inc." ∈ ["Sales", "Sales Inc."] := by decide
  have hblank : isBlank "Sales Inc." = false := by decide
  obtain ⟨j, hj, hmatch, hsame⟩ := matchIntent?_own_label hmem hblank
  refine ⟨hmem, hblank, j, hj, hmatch, fun heq => ?_⟩
  rcases hsame.mp heq with hbare | ⟨_, hmentions⟩
  · exact absurd hbare (by decide)
  · have hsales : FirstIn (MentionsIntent "Sales Inc.") ["Sales", "Sales Inc."] "Sales" :=
      ⟨[], ["Sales Inc."], rfl, by decide, by simp⟩
    exact absurd (hmentions "Sales" hsales) (by decide)

end AgentGraph
