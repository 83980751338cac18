import AgentGraph.Proofs.Json.Canonical

/-!
# Decoding does not look at the order of members

**A document and its value are decoded alike** (`Format.decode_canonical`), by every format, where
no object uses a name twice. What goes wrong first may differ, so results are compared without their
reasons.

Members are noted one after another. Notes under different names can be taken in either order
(`Fields.note?_comm`), and so in any (`foldlM_perm`). The tag of a union is found wherever it stands
(`splitTag_canonical`).

No object that a lawful format writes uses a name twice (`Format.distinct_encode`), so what was
written can also be read as a value first, and decoded then (`Format.decode_restored`).
-/

namespace AgentGraph.Json

variable {ms ms' : List (String × Json)} {v : Json} {holding : Holding}

theorem toOption_foldlM {ε α σ : Type} (step : σ → α → Except ε σ) (as : List α) (s : σ) :
    (as.foldlM step s).toOption = as.foldlM (fun s a => (step s a).toOption) s := by
  induction as generalizing s with
  | nil => rfl
  | cons a as ih =>
      rw [List.foldlM_cons, List.foldlM_cons, toOption_bind]
      exact congrArg _ (funext ih)

/-! ### Taking notes in any order -/

/-- Where notes under different names can be taken in either order, all of them can be taken in any
order. -/
theorem foldlM_perm {σ : Type} {step : σ → String × Json → Option σ}
    (hcomm : ∀ m m' s, m.1 ≠ m'.1 → (step s m).bind (step · m') = (step s m').bind (step · m))
    (hnames : (ms.map (·.1)).Nodup) (hperm : ms.Perm ms') (s : σ) :
    ms.foldlM step s = ms'.foldlM step s := by
  induction hperm generalizing s with
  | nil => rfl
  | cons m _ ih =>
      rw [List.foldlM_cons, List.foldlM_cons]
      exact congrArg _ (funext fun s => ih (List.nodup_cons.mp hnames).2 s)
  -- only here do two steps change places, and their names differ
  | swap m m' ms =>
      have hne : m'.1 ≠ m.1 := by
        intro heq
        exact (List.nodup_cons.mp hnames).1 (by simp [heq])
      simp only [List.foldlM_cons, Option.bind_eq_bind]
      rw [← Option.bind_assoc, ← Option.bind_assoc, hcomm m' m s hne]
  | trans hperm _ ih ih' =>
      exact (ih hnames s).trans (ih' ((hperm.map _).nodup_iff.mp hnames) s)

namespace Fields

/-- What is known after a member was noted. -/
def note? {β σ : Type} (fields : Fields β σ) (holding : Holding) (known : σ) (m : String × Json) :
    Option σ :=
  (fields.decodeMember holding m.1 m.2 known).toOption

/-- A member under the name of the first field is noted once, and every other one is left to the
other fields. -/
theorem note?_cons {α β σ : Type} (field : String) (f : Format α) (absence : Absence α)
    (rest : Fields β σ) (a? : Option α) (others : σ) (m : String × Json) :
    (cons field f absence rest).note? holding (a?, others) m =
      if m.1 = field then
        if a?.isSome then none else (f.decode holding m.2).toOption.map (some ·, others)
      else (rest.note? holding others m).map (a?, ·) := by
  rw [note?, decodeMember]
  split
  · cases a? with
    | some a => rfl
    | none => cases f.decode holding m.2 <;> rfl
  · rw [note?]
    cases rest.decodeMember holding m.1 m.2 others <;> rfl

/-- Two members are noted in either order. -/
theorem note?_comm :
    ∀ {β σ : Type} (fields : Fields β σ) (m m' : String × Json) (known : σ), m.1 ≠ m'.1 →
    (fields.note? holding known m).bind (fields.note? holding · m') =
      (fields.note? holding known m').bind (fields.note? holding · m)
  | _, _, .nil, _, _, _, _ => rfl
  | _, _, .cons field f absence rest, m, m', (a?, others), hne => by
      -- at most one of the two is the first field, and the other one is noted among the others
      have hfirst : ∀ m m' : String × Json, m.1 = field → m'.1 ≠ field →
          ((cons field f absence rest).note? holding (a?, others) m).bind
              ((cons field f absence rest).note? holding · m') =
            ((cons field f absence rest).note? holding (a?, others) m').bind
              ((cons field f absence rest).note? holding · m) := by
        intro m m' hm hm'
        rw [note?_cons, note?_cons, if_pos hm, if_neg hm']
        cases a? <;> cases hvalue : (f.decode holding m.2).toOption <;>
          cases hothers : rest.note? holding others m'
            <;> simp [note?_cons, hm, hm', hvalue, hothers]
      by_cases hm : m.1 = field
      · exact hfirst m m' hm fun heq => hne (hm.trans heq.symm)
      by_cases hm' : m'.1 = field
      · exact (hfirst m' m hm' hm).symm
      have hothers := rest.note?_comm m m' others hne
      have hboth : ∀ m m' : String × Json, m.1 ≠ field → m'.1 ≠ field →
          ((cons field f absence rest).note? holding (a?, others) m).bind
              ((cons field f absence rest).note? holding · m') =
            ((rest.note? holding others m).bind (rest.note? holding · m')).map (a?, ·) := by
        intro m m' hm hm'
        rw [note?_cons, if_neg hm]
        cases rest.note? holding others m with
        | none => rfl
        | some others => simp [note?_cons, hm']
      rw [hboth m m' hm hm', hboth m' m hm' hm, hothers]

end Fields

/-! ### Finding the tag -/

section

variable {name tag : String} {known : List String}

/-- What is known of a union after one of its members was looked at: its tag, and the other
members. -/
def noteTag (tag : String) (known : List String) (acc : Option String × List (String × Json))
    (m : String × Json) : Except Mismatch (Option String × List (String × Json)) := do
  if m.1 = tag then
    if acc.1.isSome then throw (.duplicateField tag)
    return (some (← splitTag.tagOf known m.2), acc.2)
  else return (acc.1, m :: acc.2)

theorem splitTag_object_eq (name tag : String) (known : List String) (ms : List (String × Json)) :
    splitTag name tag known (.object ms) = (do
      let (found, rest) ← ms.foldlM (noteTag tag known) (none, [])
      match found with
      | some label => return (label, .object rest.reverse)
      | none => throw (.missingField tag)) := rfl

/-- The members that are not the tag are kept. -/
theorem foldlM_noteTag_of_forall_ne (h : ∀ m ∈ ms, m.1 ≠ tag) (found : Option String)
    (acc : List (String × Json)) :
    ms.foldlM (noteTag tag known) (found, acc) = .ok (found, ms.reverse ++ acc) := by
  induction ms generalizing acc with
  | nil => rfl
  | cons m ms ih =>
      obtain ⟨hm, hms⟩ := List.forall_mem_cons.mp h
      rw [List.foldlM_cons, noteTag, if_neg hm]
      show List.foldlM _ (found, m :: acc) ms = _
      rw [ih hms, List.reverse_cons, List.append_assoc]
      rfl

/-- The tag is found wherever it stands. -/
theorem foldlM_noteTag (h : (ms.map (·.1)).Nodup) (acc : List (String × Json)) :
    (ms.foldlM (noteTag tag known) (none, acc)).toOption =
      match ms.lookup tag with
      | none => some (none, ms.reverse ++ acc)
      | some v => (splitTag.tagOf known v).toOption.map fun label =>
        (some label, (ms.filter (·.1 ≠ tag)).reverse ++ acc) := by
  induction ms generalizing acc with
  | nil => rfl
  | cons m ms ih =>
      obtain ⟨hnew, hms⟩ := List.nodup_cons.mp h
      obtain ⟨n, w⟩ := m
      rw [List.foldlM_cons, toOption_bind, noteTag, List.lookup_cons]
      by_cases hn : n = tag
      -- This is the tag. No later member has its name, so they are all set aside.
      · subst hn
        have hne : ∀ m ∈ ms, m.1 ≠ n := fun m hm heq => hnew (List.mem_map.mpr ⟨m, hm, heq⟩)
        have hfilter : ms.filter (·.1 ≠ n) = ms := List.filter_eq_self.mpr (by simpa using hne)
        rw [if_pos rfl, BEq.rfl]
        dsimp only
        cases hlabel : splitTag.tagOf known w with
        | error mismatch => rfl
        | ok label =>
            show (ms.foldlM (noteTag n known) (some label, acc)).toOption = _
            rw [foldlM_noteTag_of_forall_ne hne, List.filter_cons_of_neg (by simp), hfilter]
            rfl
      · rw [if_neg hn, beq_false_of_ne (Ne.symm hn)]
        show (ms.foldlM (noteTag tag known) (none, (n, w) :: acc)).toOption = _
        rw [ih hms]
        cases ms.lookup tag <;> simp [hn]

/-- What is the tag of an object, and what is left of it. -/
theorem toOption_splitTag_object (h : (ms.map (·.1)).Nodup) :
    (splitTag name tag known (.object ms)).toOption = (ms.lookup tag).bind fun v =>
      (splitTag.tagOf known v).toOption.map (·, .object (ms.filter (·.1 ≠ tag))) := by
  rw [splitTag_object_eq, toOption_bind, foldlM_noteTag h]
  cases ms.lookup tag with
  | none => rfl
  | some v =>
      dsimp only
      rw [Option.bind_some]
      cases splitTag.tagOf known v with
      | error mismatch => rfl
      | ok label =>
          -- the members were set aside in reverse and are put right at the end
          have hrest (ms : List (String × Json)) : (ms.reverse ++ []).reverse = ms := by
            rw [List.append_nil, List.reverse_reverse]
          exact congrArg (fun rest => some (label, Json.object rest)) (hrest _)

theorem tagOf_canonical (known : List String) (v : Json) :
    splitTag.tagOf known v.canonical = splitTag.tagOf known v := by
  cases v <;> rfl

theorem filter_canonicalMembers (tag : String) (ms : List (String × Json)) :
    (canonicalMembers ms).filter (·.1 ≠ tag) = canonicalMembers (ms.filter (·.1 ≠ tag)) := by
  rw [canonicalMembers_eq_map, canonicalMembers_eq_map, List.filter_map]
  rfl

theorem nodup_names_filter (h : (ms.map (·.1)).Nodup) (p : String × Json → Bool) :
    ((ms.filter p).map (·.1)).Nodup :=
  h.sublist (List.filter_sublist.map _)

/-- A member is left out before or after the members are put in order. -/
theorem filter_sortMembers (tag : String) (h : (ms.map (·.1)).Nodup) :
    (sortMembers ms).filter (·.1 ≠ tag) = sortMembers (ms.filter (·.1 ≠ tag)) := by
  apply InOrder.eq_of_perm
  · exact (inOrder_sortMembers ms).filter _
  · exact inOrder_sortMembers _
  · exact ((sortMembers_perm h).filter _).trans (sortMembers_perm (nodup_names_filter h _)).symm

/-- **The tag is found in any order**, and what is left is what was left. -/
theorem splitTag_canonical (hv : v.Distinct) : (splitTag name tag known v.canonical).toOption =
    (splitTag name tag known v).toOption.map fun r => (r.1, r.2.canonical) := by
  cases hv with
  | null | bool | number | string => rfl
  | @list vs h =>
      cases vs with
      | nil => rfl
      | cons v vs =>
          show (splitTag name tag known (.list (v.canonical :: canonicalItems vs))).toOption = _
          rw [splitTag, splitTag, tagOf_canonical]
          cases splitTag.tagOf known v <;> rfl
  | @object ms hnames h =>
      have hcanonical : ((canonicalMembers ms).map (·.1)).Nodup := by rwa [names_canonicalMembers]
      -- both sides look up the tag and keep the others, and sorting commutes with either
      rw [canonical, toOption_splitTag_object (inOrder_sortMembers _).nodup,
        toOption_splitTag_object hnames, lookup_sortMembers hcanonical, lookup_canonicalMembers,
        filter_sortMembers _ hcanonical, filter_canonicalMembers]
      cases ms.lookup tag with
      | none => rfl
      | some v =>
          rw [Option.map_some, Option.bind_some, Option.bind_some, tagOf_canonical]
          cases splitTag.tagOf known v <;> rfl

/-- What is left beside the tag is distinct. -/
theorem Distinct.splitTag (hv : v.Distinct) {label : String} {rest : Json}
    (h : splitTag name tag known v = .ok (label, rest)) : rest.Distinct := by
  have hsome := toOption_eq_some_iff.mpr h
  cases hv with
  | null | bool | number | string => cases h
  -- the tag is the first item, and what is left are the others
  | @list vs hvs =>
      cases vs with
      | nil => cases h
      | cons v vs =>
          rw [Json.splitTag, toOption_bind] at hsome
          obtain ⟨found, -, hrest⟩ := Option.bind_eq_some_iff.mp hsome
          cases hrest
          exact .list fun w hw => hvs w (List.mem_cons_of_mem _ hw)
  -- what is left has the names of the object without the tag, and they still differ
  | @object ms hnames hms =>
      rw [toOption_splitTag_object hnames] at hsome
      obtain ⟨v, -, hrest⟩ := Option.bind_eq_some_iff.mp hsome
      obtain ⟨found, -, hrest⟩ := Option.map_eq_some_iff.mp hrest
      cases hrest
      exact .object (nodup_names_filter hnames _) fun m hm => hms m (List.mem_of_mem_filter hm)

end

/-! ### Alternatives by name -/

theorem alternative_canonical (hv : v.Distinct) : (Holding.alternative v.canonical).toOption =
    (Holding.alternative v).toOption.map fun r => (r.1, r.2.map canonical) := by
  cases hv with
  | null | bool | number | string | list => rfl
  | @object ms hnames h =>
      -- with one member there is nothing to put in order, and no other number of members is
      -- accepted
      match ms with
      | [] => rfl
      | [m] => rfl
      | m :: m' :: ms =>
          have hlength := (Distinct.object hnames h).length_canonical
          rw [canonical]
          match hsorted : sortMembers (canonicalMembers (m :: m' :: ms)) with
          | [] => rfl
          | [_] =>
              rw [hsorted] at hlength
              simp at hlength
          | _ :: _ :: _ => rfl

/-- The contents of an alternative are distinct. -/
theorem Distinct.alternative (hv : v.Distinct) {label : String} {contents : Json}
    (h : Holding.alternative v = .ok (label, some contents)) : contents.Distinct := by
  cases hv with
  | null | bool | number | string | list => cases h
  | @object ms hnames hms =>
      match ms with
      | [] => cases h
      | [m] =>
          cases h
          exact hms _ (List.mem_singleton_self _)
      | _ :: _ :: _ => cases h

theorem noContents_canonical (holding : Holding) {contents : Option Json}
    (h : ∀ v ∈ contents, v.Distinct) :
    holding.noContents (contents.map canonical) = holding.noContents contents := by
  cases contents with
  | none => rfl
  | some v =>
      cases h v rfl with
      | null | bool | number | string | list => rfl
      | @object ms hnames hms =>
          match ms with
          | [] => rfl
          | m :: ms =>
              -- whether an object has members at all is not changed by sorting them
              have hlength := (Distinct.object hnames hms).length_canonical
              rw [Option.map_some, canonical]
              match hsorted : sortMembers (canonicalMembers (m :: ms)) with
              | [] =>
                  rw [hsorted] at hlength
                  simp at hlength
              | _ :: _ => rfl

/-! ### Documents and their values -/

theorem mapM_option_congr {α β : Type} {as : List α} {f g : α → Option β}
    (h : ∀ a ∈ as, f a = g a) : as.mapM f = as.mapM g := by
  induction as with
  | nil => rfl
  | cons a as ih =>
      obtain ⟨ha, has⟩ := List.forall_mem_cons.mp h
      rw [List.mapM_cons, List.mapM_cons, ha, ih has]

theorem foldlM_option_congr {α σ : Type} {as : List α} {f g : σ → α → Option σ}
    (h : ∀ a ∈ as, ∀ s, f s a = g s a) (s : σ) : as.foldlM f s = as.foldlM g s := by
  induction as generalizing s with
  | nil => rfl
  | cons a as ih =>
      obtain ⟨ha, has⟩ := List.forall_mem_cons.mp h
      rw [List.foldlM_cons, List.foldlM_cons, ha]
      exact congrArg _ (funext (ih has))

/-- A record is read from an object in any order of its members. -/
theorem Fields.decodeRecord_canonical {β σ : Type} {fields : Fields β σ} {expected : String}
    {items : String → List Json → Except Mismatch β}
    (hmember : ∀ name {v : Json}, v.Distinct →
      ∀ known, (fields.decodeMember holding name v.canonical known).toOption =
        (fields.decodeMember holding name v known).toOption)
    (hitems : ∀ expected {vs : List Json}, (∀ v ∈ vs, v.Distinct) →
      (items expected (vs.map canonical)).toOption = (items expected vs).toOption)
    (hv : v.Distinct) :
    (fields.decodeRecord holding expected
        (fun n v known => fields.decodeMember holding n v known) items v.canonical).toOption =
      (fields.decodeRecord holding expected
        (fun n v known => fields.decodeMember holding n v known) items v).toOption := by
  cases hv with
  | null | bool | number | string => rfl
  | @list vs hvs =>
      rw [canonical, canonicalItems_eq_map, decodeRecord, decodeRecord, toOption_bind,
        toOption_bind, hitems _ hvs, List.length_map]
  | @object ms hnames hms =>
      -- an object is read member by member, and the canonical one has the same members in another
      -- order
      rw [canonical, decodeRecord, decodeRecord, toOption_bind, toOption_bind]
      refine congrArg (Option.bind · _) ?_
      rw [toOption_foldlM, toOption_foldlM]
      show (sortMembers (canonicalMembers ms)).foldlM (fields.note? holding) fields.unknown = _
      rw [foldlM_perm (fun m m' known => fields.note?_comm m m' known) (inOrder_sortMembers _).nodup
        (sortMembers_perm (Distinct.object hnames hms).names_canonical), canonicalMembers_eq_map,
        List.foldlM_map]
      exact foldlM_option_congr (fun m hm known => hmember m.1 (hms m hm) known) _

mutual

/-- **A document and its value are decoded alike.** -/
theorem Format.decode_canonical (holding : Holding) :
    ∀ {α : Type} (f : Format α) {v : Json}, v.Distinct →
    (f.decode holding v.canonical).toOption = (f.decode holding v).toOption
  | _, .text, v, _ => by cases v <;> rfl
  | _, .single, v, _ => by cases v <;> rfl
  | _, .word32, v, _ => by cases v <;> rfl
  | _, .word64 _, v, _ => by cases v <;> rfl
  | _, .coded .., v, _ => by cases v <;> rfl
  | _, .names table _, v, hv => by
      -- the name of the alternative is the same, and so is whether it has contents
      rw [Format.decode, Format.decode, toOption_bind, toOption_bind, alternative_canonical hv]
      cases halternative : Holding.alternative v with
      | error mismatch => rfl
      | ok r =>
          obtain ⟨name, contents⟩ := r
          have hcontents : ∀ v ∈ contents, v.Distinct := by
            rintro w rfl
            exact hv.alternative halternative
          show (lookUpName table name >>= fun a =>
            holding.noContents (contents.map canonical) >>= fun _ => pure a).toOption = _
          rw [noContents_canonical holding hcontents]
          rfl
  | _, .option f, v, hv => by
      -- Only null stands for none, and putting a document in order makes no other document null.
      -- Items keep their places.
      have hf := Format.decode_canonical holding f hv
      cases v with
      | null => rfl
      | _ =>
          show ((f.decode holding (canonical _)).map some).toOption = _
          rw [toOption_map, hf]
          exact (toOption_map some).symm
  | _, .list f, v, hv => by
      cases v with
      | list vs =>
          have hf : ∀ v ∈ vs, (f.decode holding v.canonical).toOption =
              (f.decode holding v).toOption :=
            fun v hmem => Format.decode_canonical holding f (hv.items v hmem)
          show ((canonicalItems vs).mapM (f.decode holding)).toOption =
            (vs.mapM (f.decode holding)).toOption
          rw [canonicalItems_eq_map, toOption_mapM, toOption_mapM, List.mapM_map]
          exact mapM_option_congr hf
      | _ => rfl
  | _, .any, v, _ => congrArg some (canonical_canonical v)
  | _, .record name fields make _, v, hv => by
      -- a record is one law for its members and one for its items, in case it is written as a list
      rw [Format.decode, Format.decode, toOption_map, toOption_map, Fields.decodeRecord_canonical
        (fun name _ hw known => Fields.decodeMember_canonical holding fields name hw known)
        (fun expected _ hvs => Fields.decodeItems_canonical holding fields expected 0 hvs) hv]
  | _, .tagged name tag cases, v, hv => by
      -- the tag is found, and what is left of the object is in order
      rw [Format.decode, Format.decode, toOption_bind, toOption_bind, splitTag_canonical hv]
      cases hsplit : splitTag name tag cases.tags v with
      | error mismatch => rfl
      | ok r => exact Cases.decode_canonical cases name r.1 (hv.splitTag hsplit)
  | _, .choice name alternatives, v, hv => by
      rw [Format.decode, Format.decode, toOption_bind, toOption_bind, alternative_canonical hv]
      cases halternative : Holding.alternative v with
      | error mismatch => rfl
      | ok r =>
          obtain ⟨label, contents⟩ := r
          refine Alternatives.decode_canonical holding alternatives name
            alternatives.labels label ?_
          rintro w rfl
          exact hv.alternative halternative

theorem Fields.decodeMember_canonical (holding : Holding) :
    ∀ {β σ : Type} (fields : Fields β σ) (name : String) {v : Json}, v.Distinct →
      ∀ known, (fields.decodeMember holding name v.canonical known).toOption =
        (fields.decodeMember holding name v known).toOption
  | _, _, .nil, _, _, _, _ => rfl
  | _, _, .cons field f _ rest, name, v, hv, (a?, others) => by
      have hf := Format.decode_canonical holding f hv
      have hrest : rest.note? holding others (name, v.canonical) =
          rest.note? holding others (name, v) :=
        Fields.decodeMember_canonical holding rest name hv others
      show Fields.note? _ holding (a?, others) (name, v.canonical) =
        Fields.note? _ holding (a?, others) (name, v)
      rw [Fields.note?_cons, Fields.note?_cons, hf, hrest]

theorem Fields.decodeItems_canonical (holding : Holding) :
    ∀ {β σ : Type} (fields : Fields β σ) (expected : String) (index : Nat) {vs : List Json},
      (∀ v ∈ vs, v.Distinct) →
      (fields.decodeItems holding expected index (vs.map canonical)).toOption =
        (fields.decodeItems holding expected index vs).toOption
  | _, _, .nil, _, _, _, _ => rfl
  | _, _, .cons _ f _ rest, expected, index, v :: vs, hvs => by
      obtain ⟨hv, hvs⟩ := List.forall_mem_cons.mp hvs
      rw [List.map_cons, Fields.decodeItems, Fields.decodeItems, toOption_bind, toOption_bind,
        Format.decode_canonical holding f hv]
      simp only [toOption_bind, Fields.decodeItems_canonical holding rest expected (index + 1) hvs]
  | _, _, .cons _ _ _ _, _, _, [], _ => rfl

theorem Cases.decode_canonical :
    ∀ {α : Type} (cases : Cases α) (union label : String) {v : Json}, v.Distinct →
    (cases.decode union label v.canonical).toOption = (cases.decode union label v).toOption
  | _, .nil, _, _, _, _ => rfl
  | _, .bare tag a is rest, union, label, v, hv => by
      -- a bare case looks at its object only to refuse the items of a list
      have hdecode (w : Json) : (Cases.bare tag a is rest).decode union label w =
          if label = tag then
            match w with
            | .list (w :: ws) => .error (Holding.setAside.leftOver (w :: ws).length 0)
            | _ => .ok a
          else rest.decode union label w := rfl
      rw [hdecode, hdecode]
      split
      · match v with
        | .list [] | .list (_ :: _) | .null | .bool _ | .number _ | .string _ | .object _ => rfl
      · exact Cases.decode_canonical rest union label hv
  | _, .fields tag name fields make _ rest, union, label, v, hv => by
      rw [Cases.decode, Cases.decode]
      split
      · rw [toOption_map, toOption_map, Fields.decodeRecord_canonical
          (fun name _ hw known => Fields.decodeMember_canonical .setAside fields name hw known)
          (fun expected _ hvs => Fields.decodeItems_canonical .setAside fields expected 0 hvs) hv]
      · exact Cases.decode_canonical rest union label hv

theorem Alternatives.decode_canonical (holding : Holding) :
    ∀ {α : Type} (alternatives : Alternatives α) (union : String) (known : List String)
      (label : String) {contents : Option Json}, (∀ v ∈ contents, v.Distinct) →
      (alternatives.decode holding union known label (contents.map canonical)).toOption =
        (alternatives.decode holding union known label contents).toOption
  | _, .nil, _, _, _, _, _ => rfl
  | _, .one .., _, _, _, none, _ => rfl
  | _, .one tag f make _ rest, union, known, label, some v, h => by
      rw [Option.map_some, Alternatives.decode, Alternatives.decode]
      split
      · rw [toOption_map, toOption_map, Format.decode_canonical holding f (h v rfl)]
      · exact Alternatives.decode_canonical holding rest union known label h
  | _, .several .., _, _, _, none, _ => rfl
  | _, .several tag name fields make _ rest, union, known, label, some v, h => by
      -- the fields are items of a list here; nothing but a list is accepted
      have hrest := Alternatives.decode_canonical holding rest union known label h
      cases v with
      | list vs =>
          rw [Option.map_some, canonical] at hrest ⊢
          rw [Alternatives.decode, Alternatives.decode]
          split
          · rw [toOption_map, toOption_map]
            exact congrArg (Option.map make) (Fields.decodeRecord_canonical
              (fun name _ hw known => Fields.decodeMember_canonical holding fields name hw known)
              (fun expected _ hvs => Fields.decodeItems_canonical holding fields expected 0 hvs)
              (h _ rfl))
          · exact hrest
      | _ =>
          rw [Option.map_some] at hrest ⊢
          unfold Alternatives.decode
          split
          · rfl
          · exact hrest

end

/-! ### What formats write -/

/-- The fields of a lawful record are written under different names. -/
theorem Fields.nodup_encode : ∀ {β σ : Type} (fields : Fields β σ) (b : β), fields.isLawful = true →
    ((fields.encode b).map (·.1)).Nodup
  | _, _, .nil, _, _ => List.nodup_nil
  | _, _, .cons name f absence rest, (a, b), hlawful => by
      simp only [Fields.isLawful, Bool.and_eq_true, decide_eq_true_eq] at hlawful
      have hrest := rest.nodup_encode b hlawful.2
      rw [Fields.encode]
      split
      · exact hrest
      · rw [List.map_cons, List.nodup_cons]
        refine ⟨fun hname => ?_, hrest⟩
        obtain ⟨m, hm, rfl : m.1 = name⟩ := List.mem_map.mp hname
        exact hlawful.1.1 (rest.names_encode b m hm)

mutual

/-- No object that a lawful format writes uses a name twice. -/
theorem Format.distinct_encode :
    ∀ {α : Type} (f : Format α), f.isLawful = true → ∀ a, (f.encode a).Distinct
  | _, .text, _, s => .string s
  | _, .single, _, x => by
      rw [Format.encode, ofSingle]
      split
      · exact .number _
      · exact .null
  | _, .word32, _, n => .number _
  | _, .word64 _, _, n => .number _
  | _, .coded _ _ write, _, a => .string _
  | _, .names _ name, _, a => .string _
  | _, .option f, _, none => .null
  | _, .option f, hlawful, some a => f.distinct_encode hlawful a
  | _, .list f, hlawful, as => by
      refine .list fun v hv => ?_
      obtain ⟨a, -, rfl⟩ := List.mem_map.mp hv
      exact f.distinct_encode hlawful a
  | _, .any, hlawful, _ => by cases hlawful
  | _, .record _ fields _ split, hlawful, a =>
      .object (fields.nodup_encode (split a) hlawful) (fields.distinct_encode hlawful (split a))
  | _, .tagged _ tag cases, hlawful, a => by
      rw [Format.encode, Cases.encode_eq]
      cases hselect : cases.select a with
      | none => exact .object List.nodup_nil (List.forall_mem_nil _)
      | some r =>
          obtain ⟨label, ms⟩ := r
          obtain ⟨hnames, hms⟩ := cases.distinct_select hlawful hselect
          -- the tag is in front of the members of the case, and lawful cases have no member of its
          -- name
          refine .object (List.nodup_cons.mpr ⟨fun htag => ?_, hnames⟩)
            (List.forall_mem_cons.mpr ⟨.string label, hms⟩)
          obtain ⟨m, hm, heq⟩ := List.mem_map.mp htag
          exact Cases.ne_tag hlawful hselect m hm heq
  | _, .choice _ alternatives, hlawful, a => by
      rw [Format.encode, Alternatives.encode_eq]
      cases hselect : alternatives.select a with
      | none => exact .null
      | some m =>
          have hm := alternatives.distinct_select hlawful hselect
          exact .object (List.nodup_singleton _) (List.forall_mem_singleton.mpr hm)

theorem Fields.distinct_encode : ∀ {β σ : Type} (fields : Fields β σ), fields.isLawful = true → ∀ b,
    ∀ m ∈ fields.encode b, m.2.Distinct
  | _, _, .nil, _, _, _, hm => by cases hm
  | _, _, .cons name f absence rest, hlawful, (a, b), m, hm => by
      simp only [Fields.isLawful, Bool.and_eq_true] at hlawful
      rw [Fields.encode] at hm
      split at hm
      · exact rest.distinct_encode hlawful.2 b m hm
      · rcases List.mem_cons.mp hm with rfl | hm
        · exact f.distinct_encode hlawful.1.2 a
        · exact rest.distinct_encode hlawful.2 b m hm

theorem Fields.distinct_encodeItems :
    ∀ {β σ : Type} (fields : Fields β σ), fields.isLawful = true →
    ∀ b, ∀ v ∈ fields.encodeItems b, v.Distinct
  | _, _, .nil, _, _, _, hv => by cases hv
  | _, _, .cons name f absence rest, hlawful, (a, b), v, hv => by
      simp only [Fields.isLawful, Bool.and_eq_true] at hlawful
      rcases List.mem_cons.mp hv with rfl | hv
      · exact f.distinct_encode hlawful.1.2 a
      · exact rest.distinct_encodeItems hlawful.2 b v hv

theorem Cases.distinct_select {tag : String} :
    ∀ {α : Type} (cases : Cases α), cases.isLawful tag = true →
    ∀ {a : α} {label : String} {ms : List (String × Json)}, cases.select a = some (label, ms) →
      (ms.map (·.1)).Nodup ∧ ∀ m ∈ ms, m.2.Distinct
  | _, .nil, _, _, _, _, hselect => by cases hselect
  | _, .bare _ _ _ rest, hlawful, _, _, _, hselect => by
      simp only [Cases.isLawful, Bool.and_eq_true] at hlawful
      rcases Cases.of_select_bare hselect with ⟨-, -, rfl⟩ | ⟨-, hselect⟩
      · exact ⟨List.nodup_nil, List.forall_mem_nil _⟩
      · exact rest.distinct_select hlawful.2 hselect
  | _, .fields _ _ members _ _ rest, hlawful, _, _, _, hselect => by
      simp only [Cases.isLawful, Bool.and_eq_true] at hlawful
      rcases Cases.of_select_fields hselect with ⟨b, -, -, rfl⟩ | ⟨-, hselect⟩
      · exact ⟨members.nodup_encode b hlawful.1.2, members.distinct_encode hlawful.1.2 b⟩
      · exact rest.distinct_select hlawful.2 hselect

theorem Alternatives.distinct_select :
    ∀ {α : Type} (alternatives : Alternatives α), alternatives.isLawful = true →
    ∀ {a : α} {label : String} {v : Json}, alternatives.select a = some (label, v) → v.Distinct
  | _, .nil, _, _, _, _, hselect => by cases hselect
  | _, .one _ f _ _ rest, hlawful, _, _, _, hselect => by
      simp only [Alternatives.isLawful, Bool.and_eq_true] at hlawful
      rcases Alternatives.of_select_one hselect with ⟨b, -, -, rfl⟩ | ⟨-, hselect⟩
      · exact f.distinct_encode hlawful.1.2 b
      · exact rest.distinct_select hlawful.2 hselect
  | _, .several _ _ fields _ _ rest, hlawful, _, _, _, hselect => by
      simp only [Alternatives.isLawful, Bool.and_eq_true] at hlawful
      rcases Alternatives.of_select_several hselect with ⟨b, -, -, rfl⟩ | ⟨-, hselect⟩
      · exact .list (fields.distinct_encodeItems hlawful.1.2 b)
      · exact rest.distinct_select hlawful.2 hselect

end

/-! ### What comes back as a value -/

/-- The value that is read where a document was written. -/
def restored (v : Json) : Json := v.reread.canonical

theorem restored_object (ms : List (String × Json)) :
    (Json.object ms).restored = .object (sortMembers (ms.map fun m => (m.1, m.2.restored))) := by
  rw [restored, reread, canonical, rereadMembers_eq_map, canonicalMembers_eq_map, List.map_map]
  rfl

theorem canonical_restored (v : Json) :
    v.restored.canonical = v.restored := canonical_canonical v.reread

/-- **What was written is decoded as what the format gives back, also as a value.** -/
theorem Format.decode_restored (holding : Holding) {α : Type} {f : Format α}
    (hlawful : f.isLawful = true) (a : α) :
    (f.decode holding (f.encode a).restored).toOption = f.reread a := by
  rw [restored, f.decode_canonical holding (f.distinct_encode hlawful a).reread,
    f.decode_reread holding hlawful]

end AgentGraph.Json
