import AgentGraph.Json.Read
import AgentGraph.Proofs.Json.Document

/-!
# What a format gives back

`Format.reread f a` is what comes back when `a` is written in the format `f` and read again: for
each kind of format what is lost there, and nothing else. A number may have no written form, a
notation may not be read, and a field that is not written comes back as its default. It is computed
from the format alone, without any text.

Here it is shown to be what a document in memory is decoded as (`Format.decode_reread`), and that a
number comes back as it was when it is finite (`rereadSingle_eq_self_iff`).
-/

namespace AgentGraph.Json

open Numeric Reader

/-! ### Results without their reasons -/

section

variable {ε ε' α β : Type} {x : Except ε α}

theorem toOption_eq_some_iff {a : α} : x.toOption = some a ↔ x = .ok a := by
  cases x <;> simp [Except.toOption]

theorem toOption_bind (f : α → Except ε β) :
    (x >>= f).toOption = x.toOption.bind fun a => (f a).toOption := by
  cases x <;> rfl

theorem toOption_map (f : α → β) : (x.map f).toOption = x.toOption.map f := by
  cases x <;> rfl

theorem toOption_mapError (f : ε → ε') : (x.mapError f).toOption = x.toOption := by
  cases x <;> rfl

theorem toOption_mapM {f : α → Except ε β} (as : List α) :
    (as.mapM f).toOption = as.mapM fun a => (f a).toOption := by
  induction as with
  | nil => rfl
  | cons a as ih =>
      rw [List.mapM_cons, List.mapM_cons, toOption_bind]
      simp only [toOption_bind, ih]
      rfl

end

/-! ### What comes back -/

/-- The 32-bit number that comes back, if there is a way to write the number. -/
def rereadSingle (x : Single) : Option Single :=
  if x.isFinite then some (Number.single x).reread.toSingle else none

/-- **A finite 32-bit number comes back as it was.** -/
theorem Number.toSingle_reread {x : Single} (hx : x.isFinite = true) :
    (Number.single x).reread.toSingle = x := by
  obtain ⟨text, htext⟩ := exists_decimal hx
  obtain ⟨y, hy, hconvert⟩ := exists_readsAs_decimal htext
  have hread := hy [] endsNumber_nil
  rw [List.append_nil] at hread
  rw [Number.reread, show (Number.single x).text? = some text from htext, Option.getD_some, hread]
  exact hconvert

theorem rereadSingle_eq_self_iff {x : Single} : rereadSingle x = some x ↔ x.isFinite = true := by
  unfold rereadSingle
  by_cases hx : x.isFinite = true
  · simp [hx, Number.toSingle_reread hx]
  · simp [hx]

/-- The names of the fields. -/
def Fields.names : {β σ : Type} → Fields β σ → List String
  | _, _, .nil => []
  | _, _, .cons name _ _ rest => name :: rest.names

mutual

/-- What comes back of a value that was written. -/
def Format.reread : {α : Type} → Format α → α → Option α
  | _, .text, s => some s
  | _, .single, x => rereadSingle x
  | _, .word32, n => some n
  | _, .word64 _, n => some n
  | _, .coded _ parse write, a => (parse (write a)).toOption
  | _, .names table name, a => table.lookup (name a)
  | _, .option _, none => some none
  | _, .option f, some a =>
    match f.encode a with
    | .null => some none
    | _ => (f.reread a).map some
  | _, .list f, as => as.mapM f.reread
  | _, .any, v => some v.reread.canonical
  | _, .record _ fields make split, a =>
    ((fields.known (split a)).bind fun known => (fields.complete known).toOption).map make
  | _, .tagged _ _ cases, a => cases.reread a
  | _, .choice _ alternatives, a => alternatives.reread a

/-- What is known of the fields after the object was read. -/
def Fields.known : {β σ : Type} → Fields β σ → β → Option σ
  | _, _, .nil, _ => some ()
  | _, _, .cons _ f absence rest, (a, b) => do
    let a? ← if absence.hidden a then some none else (f.reread a).map some
    return (a?, ← rest.known b)

/-- What comes back of the fields in a list. -/
def Fields.rereadItems : {β σ : Type} → Fields β σ → β → Option β
  | _, _, .nil, _ => some ()
  | _, _, .cons _ f _ rest, (a, b) => do
    return (← f.reread a, ← rest.rereadItems b)

def Cases.reread : {α : Type} → Cases α → α → Option α
  | _, .nil, _ => none
  | _, .bare _ value is rest, a => if is a then some value else rest.reread a
  | _, .fields _ _ fields make split rest, a =>
    match split a with
    | some b => ((fields.known b).bind fun known => (fields.complete known).toOption).map make
    | none => rest.reread a

def Alternatives.reread : {α : Type} → Alternatives α → α → Option α
  | _, .nil, _ => none
  | _, .one _ f make split rest, a =>
    match split a with
    | some b => (f.reread b).map make
    | none => rest.reread a
  | _, .several _ _ fields make split rest, a =>
    match split a with
    | some b => (fields.rereadItems b).map make
    | none => rest.reread a

end

/-- What comes back of the fields of a record. -/
def Fields.reread {β σ : Type} (fields : Fields β σ) (b : β) : Option β :=
  (fields.known b).bind fun known => (fields.complete known).toOption

@[simp]
theorem Fields.reread_nil : Fields.nil.reread () = some () := rfl

/-- A field that is not written comes back as its default, and every other one by itself. -/
@[simp]
theorem Fields.reread_cons {α β σ : Type} (name : String) (f : Format α) (absence : Absence α)
    (rest : Fields β σ) (a : α) (b : β) :
    (Fields.cons name f absence rest).reread (a, b) =
      (if absence.hidden a then absence.inObject else f.reread a).bind fun a =>
      (rest.reread b).map (a, ·) := by
  -- a field that is not known has its default, if there is one
  have hcomplete : ∀ (a? : Option α) (known : σ),
      ((Fields.cons name f absence rest).complete (a?, known)).toOption =
        (a? <|> absence.inObject).bind fun a => (rest.complete known).toOption.map (a, ·) := by
    intro a? known
    rw [Fields.complete]
    cases (a? <|> absence.inObject) with
    | none => rfl
    | some a => exact toOption_map fun b => (a, b)
  rw [Fields.reread, Fields.reread, Fields.known]
  split
  · show Option.bind ((rest.known b).bind fun known => some (none, known)) _ = _
    cases rest.known b with
    | none => cases absence.inObject <;> rfl
    | some known => exact hcomplete none known
  · show Option.bind (((f.reread a).map some).bind fun a? => (rest.known b).bind fun known =>
      some (a?, known)) _ = _
    cases f.reread a with
    | none => rfl
    | some a =>
        cases rest.known b with
        | none => rfl
        | some known => exact hcomplete (some a) known

/-! ### Formats that can be told apart -/

mutual

/-- In a lawful format no name is used twice in one place, and no document is left as it is. -/
def Format.isLawful : {α : Type} → Format α → Bool
  | _, .text | _, .single | _, .word32 | _, .word64 _ | _, .coded .. | _, .names .. => true
  | _, .option f => f.isLawful
  | _, .list f => f.isLawful
  | _, .any => false
  | _, .record _ fields _ _ => fields.isLawful
  | _, .tagged _ tag cases => cases.isLawful tag
  | _, .choice _ alternatives => alternatives.isLawful

def Fields.isLawful : {β σ : Type} → Fields β σ → Bool
  | _, _, .nil => true
  | _, _, .cons name f _ rest => name ∉ rest.names && f.isLawful && rest.isLawful

def Cases.isLawful (tag : String) : {α : Type} → Cases α → Bool
  | _, .nil => true
  | _, .bare label _ _ rest => label ∉ rest.tags && rest.isLawful tag
  | _, .fields label _ fields _ _ rest =>
    label ∉ rest.tags && tag ∉ fields.names && fields.isLawful && rest.isLawful tag

def Alternatives.isLawful : {α : Type} → Alternatives α → Bool
  | _, .nil => true
  | _, .one label f _ _ rest => label ∉ rest.labels && f.isLawful && rest.isLawful
  | _, .several label _ fields _ _ rest => label ∉ rest.labels && fields.isLawful && rest.isLawful

end

/-! ### What is written of a union -/

/-- The tag of a value and the members beside it. -/
def Cases.select : {α : Type} → Cases α → α → Option (String × List (String × Json))
  | _, .nil, _ => none
  | _, .bare label _ is rest, a => if is a then some (label, []) else rest.select a
  | _, .fields label _ members _ split rest, a =>
    match split a with
    | some b => some (label, members.encode b)
    | none => rest.select a

/-- The label of a value and its contents. -/
def Alternatives.select : {α : Type} → Alternatives α → α → Option (String × Json)
  | _, .nil, _ => none
  | _, .one label f _ split rest, a =>
    match split a with
    | some b => some (label, f.encode b)
    | none => rest.select a
  | _, .several label _ fields _ split rest, a =>
    match split a with
    | some b => some (label, .list (fields.encodeItems b))
    | none => rest.select a

theorem Cases.encode_eq (tag : String) :
    ∀ {α : Type} (cases : Cases α) (a : α), cases.encode tag a =
      match cases.select a with
    | some (label, ms) => (tag, .string label) :: ms
    | none => []
  | _, .nil, _ => rfl
  | _, .bare label value is rest, a => by
      rw [Cases.encode, Cases.select]
      split
      · rfl
      · exact rest.encode_eq tag a
  | _, .fields label name members make split rest, a => by
      rw [Cases.encode, Cases.select]
      cases split a with
      | some b => rfl
      | none => exact rest.encode_eq tag a

theorem Alternatives.encode_eq :
    ∀ {α : Type} (alternatives : Alternatives α) (a : α), alternatives.encode a =
      match alternatives.select a with
    | some m => .object [m]
    | none => .null
  | _, .nil, _ => rfl
  | _, .one label f make split rest, a => by
      rw [Alternatives.encode, Alternatives.select]
      cases split a with
      | some b => rfl
      | none => exact rest.encode_eq a
  | _, .several label name fields make split rest, a => by
      rw [Alternatives.encode, Alternatives.select]
      cases split a with
      | some b => rfl
      | none => exact rest.encode_eq a

theorem Cases.reread_of_select :
    ∀ {α : Type} {cases : Cases α} {a : α}, cases.select a = none → cases.reread a = none
  | _, .nil, _, _ => rfl
  | _, .bare _ _ is rest, a, h => by
      rw [Cases.select] at h
      rw [Cases.reread]
      split at h
      · cases h
      · next his =>
        rw [if_neg his]
        exact Cases.reread_of_select h
  | _, .fields _ _ _ _ split rest, a, h => by
      rw [Cases.select] at h
      rw [Cases.reread]
      cases hsplit : split a with
      | some b =>
          rw [hsplit] at h
          cases h
      | none =>
          rw [hsplit] at h
          exact Cases.reread_of_select h

theorem Alternatives.reread_of_select : ∀ {α : Type} {alternatives : Alternatives α} {a : α},
    alternatives.select a = none → alternatives.reread a = none
  | _, .nil, _, _ => rfl
  | _, .one _ _ _ split rest, a, h => by
      rw [Alternatives.select] at h
      rw [Alternatives.reread]
      cases hsplit : split a with
      | some b =>
          rw [hsplit] at h
          cases h
      | none =>
          rw [hsplit] at h
          exact Alternatives.reread_of_select h
  | _, .several _ _ _ _ split rest, a, h => by
      rw [Alternatives.select] at h
      rw [Alternatives.reread]
      cases hsplit : split a with
      | some b =>
          rw [hsplit] at h
          cases h
      | none =>
          rw [hsplit] at h
          exact Alternatives.reread_of_select h

/-! Either the first alternative is selected or one of the others. -/

theorem Cases.of_select_bare {α : Type} {found label : String} {value a : α} {is : α → Bool}
    {rest : Cases α} {ms : List (String × Json)}
    (h : (Cases.bare found value is rest).select a = some (label, ms)) :
    (is a = true ∧ label = found ∧ ms = []) ∨
    (is a = false ∧ rest.select a = some (label, ms)) := by
  rw [Cases.select] at h
  cases his : is a <;> rw [his] at h
  · exact .inr ⟨rfl, h⟩
  · cases h
    exact .inl ⟨rfl, rfl, rfl⟩

theorem Cases.of_select_fields {α β σ : Type} {found name label : String} {members : Fields β σ}
    {make : β → α} {split : α → Option β} {rest : Cases α} {a : α} {ms : List (String × Json)}
    (h : (Cases.fields found name members make split rest).select a = some (label, ms)) :
    (∃ b, split a = some b ∧ label = found ∧ ms = members.encode b) ∨
      (split a = none ∧ rest.select a = some (label, ms)) := by
  rw [Cases.select] at h
  cases hsplit : split a <;> rw [hsplit] at h
  · exact .inr ⟨rfl, h⟩
  · cases h
    exact .inl ⟨_, rfl, rfl, rfl⟩

theorem Alternatives.of_select_one {α β : Type} {found label : String} {f : Format β} {make : β → α}
    {split : α → Option β} {rest : Alternatives α} {a : α} {v : Json}
    (h : (Alternatives.one found f make split rest).select a = some (label, v)) :
    (∃ b, split a = some b ∧ label = found ∧ v = f.encode b) ∨
    (split a = none ∧ rest.select a = some (label, v)) := by
  rw [Alternatives.select] at h
  cases hsplit : split a <;> rw [hsplit] at h
  · exact .inr ⟨rfl, h⟩
  · cases h
    exact .inl ⟨_, rfl, rfl, rfl⟩

theorem Alternatives.of_select_several {α β σ : Type} {found name label : String}
    {members : Fields β σ} {make : β → α} {split : α → Option β} {rest : Alternatives α} {a : α}
    {v : Json}
    (h : (Alternatives.several found name members make split rest).select a = some (label, v)) :
    (∃ b, split a = some b ∧ label = found ∧ v = .list (members.encodeItems b)) ∨
      (split a = none ∧ rest.select a = some (label, v)) := by
  rw [Alternatives.select] at h
  cases hsplit : split a <;> rw [hsplit] at h
  · exact .inr ⟨rfl, h⟩
  · cases h
    exact .inl ⟨_, rfl, rfl, rfl⟩

theorem Cases.mem_tags :
    ∀ {α : Type} {cases : Cases α} {a : α} {label : String} {ms : List (String × Json)},
    cases.select a = some (label, ms) → label ∈ cases.tags
  | _, .nil, _, _, _, h => by cases h
  | _, .bare .., _, _, _, h => by
      rcases Cases.of_select_bare h with ⟨-, rfl, -⟩ | ⟨-, h⟩
      · exact List.mem_cons_self ..
      · exact List.mem_cons_of_mem _ (Cases.mem_tags h)
  | _, .fields .., _, _, _, h => by
      rcases Cases.of_select_fields h with ⟨_, -, rfl, -⟩ | ⟨-, h⟩
      · exact List.mem_cons_self ..
      · exact List.mem_cons_of_mem _ (Cases.mem_tags h)

theorem Alternatives.mem_labels :
    ∀ {α : Type} {alternatives : Alternatives α} {a : α} {label : String} {v : Json},
    alternatives.select a = some (label, v) → label ∈ alternatives.labels
  | _, .nil, _, _, _, h => by cases h
  | _, .one .., _, _, _, h => by
      rcases Alternatives.of_select_one h with ⟨_, -, rfl, -⟩ | ⟨-, h⟩
      · exact List.mem_cons_self ..
      · exact List.mem_cons_of_mem _ (Alternatives.mem_labels h)
  | _, .several .., _, _, _, h => by
      rcases Alternatives.of_select_several h with ⟨_, -, rfl, -⟩ | ⟨-, h⟩
      · exact List.mem_cons_self ..
      · exact List.mem_cons_of_mem _ (Alternatives.mem_labels h)

/-- Only fields are written as members. -/
theorem Fields.names_encode : ∀ {β σ : Type} (fields : Fields β σ) (b : β),
    ∀ m ∈ fields.encode b, m.1 ∈ fields.names
  | _, _, .nil, _, m, hm => by cases hm
  | _, _, .cons name f absence rest, (a, b), m, hm => by
      rw [Fields.encode] at hm
      split at hm
      · exact List.mem_cons_of_mem _ (rest.names_encode b m hm)
      · rcases List.mem_cons.mp hm with rfl | hm
        · exact List.mem_cons_self ..
        · exact List.mem_cons_of_mem _ (rest.names_encode b m hm)

theorem Fields.length_encodeItems : ∀ {β σ : Type} (fields : Fields β σ) (b : β),
    (fields.encodeItems b).length = fields.count
  | _, _, .nil, _ => rfl
  | _, _, .cons _ _ _ rest, (_, b) => congrArg (· + 1) (rest.length_encodeItems b)

/-- The members beside the tag of a lawful union are not called like it. -/
theorem Cases.ne_tag {tag : String} : ∀ {α : Type} {cases : Cases α}, cases.isLawful tag = true →
    ∀ {a : α} {label : String} {ms : List (String × Json)}, cases.select a = some (label, ms) →
      ∀ m ∈ ms, m.1 ≠ tag
  | _, .nil, _, _, _, _, h, m, hm => by cases h
  | _, .bare .., hlawful, _, _, _, h, m, hm => by
      rw [Cases.isLawful, Bool.and_eq_true] at hlawful
      rcases Cases.of_select_bare h with ⟨-, -, rfl⟩ | ⟨-, h⟩
      · cases hm
      · exact Cases.ne_tag hlawful.2 h m hm
  | _, .fields _ _ members .., hlawful, _, _, _, h, m, hm => by
      simp only [Cases.isLawful, Bool.and_eq_true, decide_eq_true_eq] at hlawful
      rcases Cases.of_select_fields h with ⟨b, -, -, rfl⟩ | ⟨-, h⟩
      · exact fun heq => hlawful.1.1.2 (heq ▸ members.names_encode b m hm)
      · exact Cases.ne_tag hlawful.2 h m hm

/-! ### Decoding what was written -/

theorem reread_number_whole {n : Nat} (h : n ≤ maxSignificand) :
    (Number.whole n).reread = .whole n := by
  obtain ⟨text, htext, hread⟩ := (Number.Plain.whole h).number
  have hdigits : (toString (n : Int)).toList = decimalDigits n := Nat.toList_repr
  have := number_whole h endsNumber_nil
  rw [Number.reread, Number.text?, Option.getD_some, hdigits,
    ← List.append_nil (decimalDigits n), this]

theorem toWord_whole (bound : Nat) (expected : String) {n : Nat} (h : n < bound) :
    (Number.whole n).toWord bound expected = .ok n := by
  rw [Number.toWord, if_pos ⟨by omega, by omega⟩]
  rfl

/-- A machine word comes back. -/
theorem toWord_word32 (n : UInt32) :
    ((Number.whole n.toNat).reread.toWord (Nat.pow 2 32) "u32").map UInt32.ofNat = .ok n := by
  have hn : n.toNat < Nat.pow 2 32 := n.toNat_lt
  rw [reread_number_whole (hn.le.trans (by decide)), toWord_whole _ _ hn, Except.map,
    UInt32.ofNat_toNat]

theorem toWord_word64 (name : String) (n : UInt64) :
    ((Number.whole n.toNat).reread.toWord (Nat.pow 2 64) name).map UInt64.ofNat = .ok n := by
  have hn : n.toNat < Nat.pow 2 64 := n.toNat_lt
  rw [reread_number_whole (Nat.le_sub_one_of_lt hn), toWord_whole _ _ hn, Except.map,
    UInt64.ofNat_toNat]

theorem toOption_lookUpName {α : Type} (table : List (String × α)) (name : String) :
    (lookUpName table name).toOption = table.lookup name := by
  rw [lookUpName]
  cases table.lookup name <;> rfl

/-- The tag is found in front, and the other members are left as they were. -/
theorem splitTag_object (name : String) {tag label : String} {known : List String}
    {ms : List (String × Json)} (hlabel : label ∈ known) (hne : ∀ m ∈ ms, m.1 ≠ tag) :
    splitTag name tag known (.object ((tag, .string label) :: ms)) = .ok (label, .object ms) := by
  -- once the tag is found every step sets a member aside
  have hrest : ∀ (step : Option String × List (String × Json) → String × Json →
      Except Mismatch (Option String × List (String × Json)))
      (_ : ∀ m, m.1 ≠ tag → ∀ acc, step acc m = .ok (acc.1, m :: acc.2))
        (acc : List (String × Json)),
      ms.foldlM step (some label, acc) = .ok (some label, ms.reverse ++ acc) := by
    intro step hstep
    clear hlabel
    induction ms with
    | nil => exact fun acc => rfl
    | cons m ms ih =>
        intro acc
        obtain ⟨hm, hms⟩ := List.forall_mem_cons.mp hne
        rw [List.foldlM_cons, hstep m hm]
        show List.foldlM step (some label, m :: acc) ms = _
        rw [ih hms, List.reverse_cons, List.append_assoc]
        rfl
  rw [splitTag]
  simp only [List.foldlM_cons, splitTag.tagOf, hlabel, ↓reduceIte]
  show (List.foldlM _ (some label, []) ms >>= _) = _
  rw [hrest _ (fun m hm acc => by rw [if_neg hm]; rfl)]
  show Except.ok (label, Json.object (ms.reverse ++ []).reverse) = _
  rw [List.append_nil, List.reverse_reverse]

/-- Members that are not the first field are left to the others. -/
theorem Fields.foldlM_decodeMember_cons (holding : Holding) {α β σ : Type} {name : String}
    {f : Format α} {absence : Absence α} {rest : Fields β σ} {ms : List (String × Json)}
    (hne : ∀ m ∈ ms, m.1 ≠ name) (a? : Option α) (known : σ) :
    (ms.foldlM (fun known m => (Fields.cons name f absence rest).decodeMember holding m.1 m.2 known)
        (a?, known)).toOption =
      ((ms.foldlM (fun known m => rest.decodeMember holding m.1 m.2 known) known).toOption).map
      (a?, ·) := by
  induction ms generalizing known with
  | nil => rfl
  | cons m ms ih =>
      obtain ⟨hm, hms⟩ := List.forall_mem_cons.mp hne
      rw [List.foldlM_cons, List.foldlM_cons, toOption_bind, toOption_bind,
        Fields.decodeMember, if_neg hm]
      cases rest.decodeMember holding m.1 m.2 known with
      | ok known => exact ih hms known
      | error mismatch => rfl

/-! The three laws are proved together, one case for each kind of format. -/

mutual

/-- **Decoding a document that was written and read gives back what the format gives back.** -/
theorem Format.decode_reread (holding : Holding) :
    ∀ {α : Type} (f : Format α), f.isLawful = true →
    ∀ a, (f.decode holding (f.encode a).reread).toOption = f.reread a
  | _, .text, _, s => rfl
  | _, .single, _, x => by
      -- a number that is not finite is written as null, which is no number
      rw [Format.encode, ofSingle, Format.reread, rereadSingle]
      split
      · rfl
      · rfl
  | _, .word32, _, n => congrArg Except.toOption (toWord_word32 n)
  | _, .word64 name, _, n => congrArg Except.toOption (toWord_word64 name n)
  | _, .coded expected parse write, _, a => toOption_mapError Mismatch.malformed
  | _, .names table name, _, a => by
      have hdoc : (Json.string (name a)).reread = .string (name a) := rfl
      rw [Format.encode, hdoc, Format.decode, Format.reread, ← toOption_lookUpName]
      show (lookUpName table (name a) >>= fun a => _).toOption = _
      cases lookUpName table (name a) <;> rfl
  | _, .option f, hlawful, none => rfl
  | _, .option f, hlawful, some a => by
      -- a value that is written as null is taken for none, whatever it was
      have hf := Format.decode_reread holding f hlawful a
      rw [Format.encode, Option.map_some, Option.getD_some, Format.reread]
      cases hdoc : f.encode a <;> rw [hdoc] at hf
      case null => rfl
      all_goals
        rw [← hf]
        exact toOption_map some
  | _, .list f, hlawful, as => by
      have hf : ∀ a, (f.decode holding (f.encode a).reread).toOption = f.reread a :=
        Format.decode_reread holding f hlawful
      rw [Format.encode, Json.reread, rereadItems_eq_map, List.map_map, Format.decode,
        Format.reread]
      show (List.mapM (f.decode holding) (as.map (reread ∘ f.encode))).toOption = _
      rw [toOption_mapM, List.mapM_map]
      exact congrArg (List.mapM · as) (funext hf)
  | _, .any, hlawful, _ => by cases hlawful
  | _, .record name fields make split, hlawful, a => by
      -- what is known of the fields after the last member is what they read back as
      rw [Format.encode, Json.reread, Format.decode, Format.reread, toOption_map,
        Fields.decodeRecord, toOption_bind, ← Fields.decode_reread holding fields hlawful (split a)]
  | _, .tagged name tag cases, hlawful, a => by
      rw [Format.encode, Cases.encode_eq, Format.reread]
      cases hselect : cases.select a with
      | none =>
          rw [Cases.reread_of_select hselect]
          rfl
      | some m =>
          obtain ⟨label, ms⟩ := m
          -- rereading keeps the names, so the tag is found at the front and nowhere else
          have hne : ∀ m ∈ rereadMembers ms, m.1 ≠ tag := by
            rw [rereadMembers_eq_map]
            rintro _ hm
            obtain ⟨m, hmem, rfl⟩ := List.mem_map.mp hm
            exact Cases.ne_tag hlawful hselect m hmem
          rw [← Cases.decode_reread cases hlawful name a label ms hselect]
          show (Format.decode holding (.tagged name tag cases)
            (.object ((tag, .string label) :: rereadMembers ms))).toOption = _
          rw [Format.decode, splitTag_object name (Cases.mem_tags hselect) hne]
          rfl
  | _, .choice name alternatives, hlawful, a => by
      rw [Format.encode, Alternatives.encode_eq, Format.reread]
      cases hselect : alternatives.select a with
      | none =>
          -- no alternative fits, and null names none
          rw [Alternatives.reread_of_select hselect]
          rfl
      | some m =>
          obtain ⟨label, v⟩ := m
          exact Alternatives.decode_reread holding alternatives hlawful name alternatives.labels a
            label v hselect

/-- What is known of the fields after decoding. -/
theorem Fields.decode_reread (holding : Holding) :
    ∀ {β σ : Type} (fields : Fields β σ), fields.isLawful = true →
    ∀ b, ((rereadMembers (fields.encode b)).foldlM
      (fun known m => fields.decodeMember holding m.1 m.2 known) fields.unknown).toOption =
        fields.known b
  | _, _, .nil, _, _ => rfl
  | _, _, .cons name f absence rest, hlawful, (a, b) => by
      simp only [Fields.isLawful, Bool.and_eq_true, decide_eq_true_eq] at hlawful
      obtain ⟨⟨hname, hf⟩, hrest⟩ := hlawful
      have hne : ∀ m ∈ rereadMembers (rest.encode b), m.1 ≠ name := by
        rw [rereadMembers_eq_map]
        rintro _ hm rfl
        obtain ⟨m, hmem, rfl⟩ := List.mem_map.mp hm
        exact hname (rest.names_encode b m hmem)
      -- the members behind the first field go past it, as none of them has its name
      have hothers := Fields.decode_reread holding rest hrest b
      rw [Fields.encode, Fields.known]
      split
      · rw [Fields.unknown, Fields.foldlM_decodeMember_cons holding hne, hothers]
        cases rest.known b <;> rfl
      -- the first member is the first field; when it cannot be read the others do not matter
      · rw [rereadMembers, List.foldlM_cons, toOption_bind, Fields.unknown,
          Fields.decodeMember, if_pos rfl, ← Format.decode_reread holding f hf a, ← hothers]
        cases f.decode holding (f.encode a).reread with
        | error mismatch => rfl
        | ok a' =>
            refine (Fields.foldlM_decodeMember_cons holding hne (some a') rest.unknown).trans ?_
            cases (List.foldlM (fun known m => rest.decodeMember holding m.1 m.2 known) rest.unknown
              (rereadMembers (rest.encode b))).toOption <;> rfl

theorem Fields.decodeItems_reread (holding : Holding) :
    ∀ {β σ : Type} (fields : Fields β σ), fields.isLawful = true → ∀ expected index b,
    (fields.decodeItems holding expected index (rereadItems (fields.encodeItems b))).toOption =
      fields.rereadItems b
  | _, _, .nil, _, _, _, _ => rfl
  | _, _, .cons name f absence rest, hlawful, expected, index, (a, b) => by
      simp only [Fields.isLawful, Bool.and_eq_true] at hlawful
      rw [Fields.encodeItems, rereadItems, Fields.decodeItems, toOption_bind, Fields.rereadItems,
        Format.decode_reread holding f hlawful.1.2 a]
      simp only [toOption_bind, Fields.decodeItems_reread holding rest hlawful.2 expected
        (index + 1) b]
      rfl

theorem Cases.decode_reread {tag : String} :
    ∀ {α : Type} (cases : Cases α), cases.isLawful tag = true →
      ∀ (union : String) (a : α) (label : String) (ms : List (String × Json)),
      cases.select a = some (label, ms) →
      (cases.decode union label (.object (rereadMembers ms))).toOption = cases.reread a
  | _, .nil, _, _, _, _, _, h => by cases h
  | _, .bare found value is rest, hlawful, union, a, label, ms, h => by
      simp only [Cases.isLawful, Bool.and_eq_true, decide_eq_true_eq] at hlawful
      have hdecode :
          (Cases.bare found value is rest).decode union label (.object (rereadMembers ms)) =
            if label = found then .ok value
          else rest.decode union label (.object (rereadMembers ms)) := rfl
      rw [hdecode, Cases.reread]
      rcases Cases.of_select_bare h with ⟨his, rfl, -⟩ | ⟨his, h⟩
      · rw [if_pos rfl, if_pos his]
        rfl
      -- the tag is that of a later case, and tags differ
      · rw [if_neg (ne_of_mem_of_not_mem (Cases.mem_tags h) hlawful.1), his]
        exact Cases.decode_reread rest hlawful.2 union a label ms h
  | _, .fields found name members make split rest, hlawful, union, a, label, ms, h => by
      simp only [Cases.isLawful, Bool.and_eq_true, decide_eq_true_eq] at hlawful
      rw [Cases.decode, Cases.reread]
      rcases Cases.of_select_fields h with ⟨b, hsplit, rfl, rfl⟩ | ⟨hsplit, h⟩ <;> rw [hsplit]
      · dsimp only
        rw [if_pos rfl, toOption_map, Fields.decodeRecord, toOption_bind,
          ← Fields.decode_reread .setAside members hlawful.1.2 b]
      · rw [if_neg (ne_of_mem_of_not_mem (Cases.mem_tags h) hlawful.1.1.1)]
        exact Cases.decode_reread rest hlawful.2 union a label ms h

theorem Alternatives.decode_reread (holding : Holding) :
    ∀ {α : Type} (alternatives : Alternatives α), alternatives.isLawful = true →
    ∀ (union : String) (known : List String) (a : α) (label : String) (v : Json),
      alternatives.select a = some (label, v) →
      (alternatives.decode holding union known label (some v.reread)).toOption =
        alternatives.reread a
  | _, .nil, _, _, _, _, _, _, h => by cases h
  | _, .one found f make split rest, hlawful, union, known, a, label, v, h => by
      simp only [Alternatives.isLawful, Bool.and_eq_true, decide_eq_true_eq] at hlawful
      rw [Alternatives.decode, Alternatives.reread]
      rcases Alternatives.of_select_one h with ⟨b, hsplit, rfl, rfl⟩ | ⟨hsplit, h⟩ <;> rw [hsplit]
      · rw [if_pos rfl]
        dsimp only
        rw [toOption_map, Format.decode_reread holding f hlawful.1.2 b]
      · rw [if_neg (ne_of_mem_of_not_mem (Alternatives.mem_labels h) hlawful.1.1)]
        exact Alternatives.decode_reread holding rest hlawful.2 union known a label v h
  | _, .several found name members make split rest, hlawful, union, known, a, label, v, h => by
      simp only [Alternatives.isLawful, Bool.and_eq_true, decide_eq_true_eq] at hlawful
      rw [Alternatives.reread]
      rcases Alternatives.of_select_several h with ⟨b, hsplit, rfl, rfl⟩ | ⟨hsplit, h⟩
        <;> rw [hsplit]
      -- the fields are a list here, and a list that is too long would be refused
      · have hlength : (rereadItems (members.encodeItems b)).length ≤ members.count := by
          rw [rereadItems_eq_map, List.length_map, Fields.length_encodeItems]
        rw [Json.reread, Alternatives.decode, if_pos rfl, toOption_map, Fields.decodeRecord,
          toOption_bind, Fields.decodeItems_reread holding members hlawful.1.2]
        simp only [hlength, ↓reduceIte]
        cases members.rereadItems b <;> rfl
      -- what this alternative would give does not matter, as the label is that of a later one
      · obtain ⟨r, hdecode⟩ :
          ∃ r, (Alternatives.several found name members make split rest).decode holding union
            known label (some v.reread) =
              if label = found then r
              else rest.decode holding union known label (some v.reread) := ⟨_, rfl⟩
        rw [hdecode, if_neg (ne_of_mem_of_not_mem (Alternatives.mem_labels h) hlawful.1.1)]
        exact Alternatives.decode_reread holding rest hlawful.2 union known a label v h

end

end AgentGraph.Json
