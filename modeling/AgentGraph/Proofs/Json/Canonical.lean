import AgentGraph.Proofs.Json.Reread
import Mathlib.Data.List.Perm.Basic

/-!
# Documents as values

`Json.canonical` puts the members of every object in the order of their names. Where no object uses
a name twice (`Distinct`) it does nothing else: the members are the same ones (`sortMembers_perm`),
found under the same names (`lookup_sortMembers`). A value is left as it is (`canonical_canonical`),
and so are members that are in order when one of them is put where it is already
(`insertMember_of_mem`). What a member was before it is put in its place does not matter
(`insertMember_setMember`).
-/

namespace AgentGraph.Json

variable {ms ms' : List (String × Json)} {name key : String} {v w : Json}

/-! ### Members in order -/

/-- The members stand in the order of their names, each name once. -/
def InOrder (ms : List (String × Json)) : Prop := ms.Pairwise fun m m' => m.1 < m'.1

theorem mem_of_mem_insertMember {m : String × Json} (h : m ∈ insertMember name v ms) :
    m = (name, v) ∨ m ∈ ms := by
  induction ms with
  | nil => exact .inl (List.mem_singleton.mp h)
  | cons head ms ih =>
      rw [insertMember] at h
      split at h
      · exact List.mem_cons.mp h
      · split at h
        · exact (List.mem_cons.mp h).imp_right (List.mem_cons_of_mem _)
        · rcases List.mem_cons.mp h with rfl | h
          · exact .inr List.mem_cons_self
          · exact (ih h).imp_right (List.mem_cons_of_mem _)

theorem InOrder.insertMember (h : InOrder ms) (name : String) (v : Json) :
    InOrder (insertMember name v ms) := by
  induction ms with
  | nil => exact List.pairwise_singleton _ _
  | cons head ms ih =>
      obtain ⟨hhead, hms⟩ := List.pairwise_cons.mp h
      rw [Json.insertMember]
      split
      -- the new member comes first, and so before all the others
      next hlt =>
        refine List.pairwise_cons.mpr ⟨fun m hm => ?_, h⟩
        rcases List.mem_cons.mp hm with rfl | hm
        · exact hlt
        · exact String.lt_trans hlt (hhead m hm)
      next hnlt =>
        split
        next heq => exact List.pairwise_cons.mpr ⟨fun m hm => heq ▸ hhead m hm, hms⟩
        -- it goes somewhere into the rest, which stays behind the head
        next hne =>
          have hlt : head.1 < name := by grind
          refine List.pairwise_cons.mpr ⟨fun m hm => ?_, ih hms⟩
          rcases mem_of_mem_insertMember hm with rfl | hm
          · exact hlt
          · exact hhead m hm

/-- A member under a new name is added. -/
theorem insertMember_perm (h : name ∉ ms.map (·.1)) :
    (insertMember name v ms).Perm ((name, v) :: ms) := by
  induction ms with
  | nil => exact .refl _
  | cons head ms ih =>
      rw [List.map_cons, List.mem_cons, not_or] at h
      rw [insertMember, if_neg h.1]
      split
      · exact .refl _
      · exact ((ih h.2).cons head).trans (.swap (name, v) head ms)

/-- A member that is there already is put where it is. -/
theorem insertMember_of_mem (h : InOrder ms) (hmem : (name, v) ∈ ms) :
    insertMember name v ms = ms := by
  induction ms with
  | nil => cases hmem
  | cons head ms ih =>
      obtain ⟨hhead, hms⟩ := List.pairwise_cons.mp h
      rcases List.mem_cons.mp hmem with rfl | hmem
      · rw [insertMember, if_neg (String.lt_irrefl name), if_pos rfl]
      · have hlt : head.1 < name := hhead _ hmem
        rw [insertMember, if_neg (String.lt_asymm hlt), if_neg (by grind), ih hms hmem]

/-- Members in order that are the same members are the same list. -/
theorem InOrder.eq_of_perm (h : InOrder ms) (h' : InOrder ms') (hperm : ms.Perm ms') : ms = ms' :=
  hperm.eq_of_pairwise (fun _ _ _ _ hlt hgt => absurd hgt (String.lt_asymm hlt)) h h'

theorem inOrder_sortMembers (ms : List (String × Json)) : InOrder (sortMembers ms) := by
  have hfold : ∀ acc, InOrder acc →
      InOrder (ms.foldl (fun acc (m : String × Json) => insertMember m.1 m.2 acc) acc) := by
    induction ms with
    | nil => exact fun acc h => h
    | cons m ms ih => exact fun acc h => ih _ (h.insertMember m.1 m.2)
  exact hfold [] List.Pairwise.nil

theorem mem_of_mem_sortMembers {m : String × Json} (h : m ∈ sortMembers ms) : m ∈ ms := by
  have hfold : ∀ acc, m ∈ ms.foldl (fun acc (m : String × Json) => insertMember m.1 m.2 acc) acc →
      m ∈ acc ∨ m ∈ ms := by
    clear h
    induction ms with
    | nil => exact fun acc h => .inl h
    | cons head ms ih =>
        intro acc h
        rcases ih _ h with h | h
        · rcases mem_of_mem_insertMember h with rfl | h
          · exact .inr List.mem_cons_self
          · exact .inl h
        · exact .inr (List.mem_cons_of_mem _ h)
  exact (hfold [] h).resolve_left List.not_mem_nil

/-- Where no name is used twice the members are put in order, and nothing else is done to them. -/
theorem sortMembers_perm (h : (ms.map (·.1)).Nodup) : (sortMembers ms).Perm ms := by
  -- what has been sorted so far is generalised: no name is in both parts
  have hfold : ∀ acc, (acc.map (·.1) ++ ms.map (·.1)).Nodup →
      (ms.foldl (fun acc (m : String × Json) => insertMember m.1 m.2 acc) acc).Perm
      (acc ++ ms) := by
    clear h
    induction ms with
    | nil => exact fun acc _ => .of_eq (List.append_nil acc).symm
    | cons m ms ih =>
        intro acc hnodup
        rw [List.map_cons, List.nodup_middle] at hnodup
        obtain ⟨hnew, hrest⟩ := List.nodup_cons.mp hnodup
        have hinsert : (insertMember m.1 m.2 acc).Perm (m :: acc) :=
          insertMember_perm fun hmem => hnew (List.mem_append_left _ hmem)
        have hnames : ((insertMember m.1 m.2 acc).map (·.1) ++ ms.map (·.1)).Nodup := by
          rw [((hinsert.map (·.1)).append_right _).nodup_iff]
          exact hnodup
        exact (ih _ hnames).trans ((hinsert.append_right ms).trans List.perm_middle.symm)
  exact hfold [] h

theorem InOrder.nodup (h : InOrder ms) : (ms.map (·.1)).Nodup := by
  rw [List.Nodup, List.pairwise_map]
  refine h.imp ?_
  intro m m' hlt heq
  exact String.lt_irrefl m'.1 (heq ▸ hlt)

theorem InOrder.sortMembers_eq (h : InOrder ms) : sortMembers ms = ms :=
  (inOrder_sortMembers ms).eq_of_perm h (sortMembers_perm h.nodup)

theorem inOrder_iff : InOrder ms ↔ (ms.map (·.1)).Pairwise (· < ·) := List.pairwise_map.symm

theorem InOrder.of_names (h : InOrder ms) (hnames : ms'.map (·.1) = ms.map (·.1)) :
    InOrder ms' := by
  rw [inOrder_iff, hnames, ← inOrder_iff]
  exact h

theorem InOrder.filter (h : InOrder ms) (p : String × Json → Bool) :
    InOrder (ms.filter p) := List.Pairwise.filter p h

/-! ### Looking up -/

/-- Where no name is used twice a member is found under its name. -/
theorem lookup_eq_some_iff_mem (h : (ms.map (·.1)).Nodup) :
    ms.lookup name = some v ↔ (name, v) ∈ ms := by
  induction ms with
  | nil => simp
  | cons m ms ih =>
      obtain ⟨hnew, hms⟩ := List.nodup_cons.mp h
      obtain ⟨n, w⟩ := m
      rw [List.lookup_cons, List.mem_cons]
      by_cases hname : name = n
      · subst hname
        have hnone : (name, v) ∉ ms := fun hmem => hnew (List.mem_map.mpr ⟨_, hmem, rfl⟩)
        simp [hnone, eq_comm]
      · rw [beq_false_of_ne hname]
        simp [hname, ih hms]

theorem lookup_perm (h : (ms.map (·.1)).Nodup) (hperm : ms.Perm ms') (name : String) :
    ms.lookup name = ms'.lookup name := by
  have h' : (ms'.map (·.1)).Nodup := (hperm.map (·.1)).nodup_iff.mp h
  apply Option.ext
  intro v
  rw [lookup_eq_some_iff_mem h, lookup_eq_some_iff_mem h', hperm.mem_iff]

/-- When some pairs are left out by their names, the other names are found as before. -/
theorem lookup_filter {α β : Type} [BEq α] [LawfulBEq α] (p : α → Bool) (key : α)
    (pairs : List (α × β)) :
    (pairs.filter fun m => p m.1).lookup key = if p key then pairs.lookup key else none := by
  induction pairs with
  | nil => simp
  | cons m pairs ih =>
      rw [List.filter_cons, List.lookup_cons]
      by_cases hkey : key = m.1
      -- The first pair has the key. Whether it is kept decides whether there is a value at all.
      · subst hkey
        rw [beq_self_eq_true]
        split
        next hm => rw [List.lookup_cons_self]
        next hm => rw [ih, if_neg hm]
      · rw [beq_false_of_ne hkey]
        split
        next => rw [List.lookup_cons, beq_false_of_ne hkey, ih]
        next => rw [ih]

theorem lookup_sortMembers (h : (ms.map (·.1)).Nodup) (name : String) :
    (sortMembers ms).lookup name = ms.lookup name :=
  lookup_perm (inOrder_sortMembers ms).nodup (sortMembers_perm h) name

/-! ### Members with another value -/

/-- The members with another value for the member of the name, if there is one. -/
def setMember (name : String) (v : Json) (ms : List (String × Json)) : List (String × Json) :=
  ms.map fun m => if m.1 = name then (name, v) else m

@[simp]
theorem names_setMember (name : String) (v : Json) (ms : List (String × Json)) :
    (setMember name v ms).map (·.1) = ms.map (·.1) := by
  rw [setMember, List.map_map]
  refine List.map_congr_left fun m _ => ?_
  rw [Function.comp_apply]
  split
  next h => exact h.symm
  next => rfl

theorem lookup_setMember (h : ms.lookup name = some w) :
    (setMember name v ms).lookup name = some v := by
  induction ms with
  | nil => cases h
  | cons m ms ih =>
      rw [setMember, List.map_cons, ← setMember]
      by_cases hname : m.1 = name
      · rw [if_pos hname, List.lookup_cons_self]
      · rw [List.lookup_cons, beq_false_of_ne (Ne.symm hname)] at h
        rw [if_neg hname, List.lookup_cons, beq_false_of_ne (Ne.symm hname), ih h]

theorem lookup_setMember_of_ne (h : key ≠ name) :
    (setMember name v ms).lookup key = ms.lookup key := by
  induction ms with
  | nil => rfl
  | cons m ms ih =>
      rw [setMember, List.map_cons, ← setMember]
      by_cases hname : m.1 = name
      · rw [if_pos hname, List.lookup_cons, List.lookup_cons, hname, beq_false_of_ne h, ih]
      · rw [if_neg hname, List.lookup_cons, List.lookup_cons, ih]

/-- To choose members by their names does not depend on their values. -/
theorem filter_setMember (p : String → Bool) (name : String) (v : Json)
    (ms : List (String × Json)) :
    (setMember name v ms).filter (fun m => p m.1) =
      setMember name v (ms.filter fun m => p m.1) := by
  rw [setMember, List.filter_map, setMember]
  congr 1
  refine List.filter_congr fun m _ => ?_
  rw [Function.comp_apply]
  split
  next h => rw [h]
  next => rfl

/-- A member that is put in its place takes no account of what was there. -/
theorem insertMember_setMember (h : InOrder ms) :
    insertMember name v (setMember name w ms) = insertMember name v ms := by
  induction ms with
  | nil => rfl
  | cons m ms ih =>
      obtain ⟨hm, hms⟩ := List.pairwise_cons.mp h
      -- setting a member changes nothing once the names are past it
      have hlater : m.1 = name ∨ name < m.1 → setMember name w ms = ms := by
        intro hle
        refine (List.map_congr_left fun m' hm' => if_neg ?_).trans (List.map_id _)
        have hlt := hm m' hm'
        grind
      rw [setMember, List.map_cons, ← setMember]
      by_cases hname : m.1 = name
      · rw [if_pos hname, insertMember, insertMember, hlater (.inl hname)]
        simp [hname]
      · rw [if_neg hname, insertMember, insertMember, ih hms]
        split
        next hlt => rw [hlater (.inr hlt)]
        next => rw [if_neg (Ne.symm hname), if_neg (Ne.symm hname)]

/-! ### Values -/

theorem canonicalItems_eq_map (vs : List Json) : canonicalItems vs = vs.map canonical := by
  induction vs with
  | nil => rfl
  | cons v vs ih => rw [canonicalItems, ih, List.map_cons]

theorem canonicalMembers_eq_map (ms : List (String × Json)) :
    canonicalMembers ms = ms.map fun m => (m.1, m.2.canonical) := by
  induction ms with
  | nil => rfl
  | cons m ms ih => rw [canonicalMembers, ih, List.map_cons]

@[simp]
theorem names_canonicalMembers (ms : List (String × Json)) :
    (canonicalMembers ms).map (·.1) = ms.map (·.1) := by
  rw [canonicalMembers_eq_map, List.map_map]
  rfl

theorem lookup_canonicalMembers (name : String) (ms : List (String × Json)) :
    (canonicalMembers ms).lookup name = (ms.lookup name).map canonical := by
  induction ms with
  | nil => rfl
  | cons m ms ih =>
      rw [canonicalMembers, List.lookup_cons, List.lookup_cons, ih]
      split <;> rfl

/-- A document in which no object uses a name twice. -/
inductive Distinct : Json → Prop
  | null : Distinct .null
  | bool (b : Bool) : Distinct (.bool b)
  | number (n : Number) : Distinct (.number n)
  | string (s : String) : Distinct (.string s)
  | list {vs : List Json} (h : ∀ v ∈ vs, Distinct v) : Distinct (.list vs)
  | object {ms : List (String × Json)} (hnames : (ms.map (·.1)).Nodup)
      (h : ∀ m ∈ ms, Distinct m.2) : Distinct (.object ms)

namespace Distinct

theorem items {vs : List Json} (h : (Json.list vs).Distinct) : ∀ v ∈ vs, v.Distinct := by
  cases h
  assumption

theorem names (h : (Json.object ms).Distinct) : (ms.map (·.1)).Nodup := by
  cases h
  assumption

theorem members (h : (Json.object ms).Distinct) : ∀ m ∈ ms, m.2.Distinct := by
  cases h
  assumption

theorem object_iff : (Json.object ms).Distinct ↔ (ms.map (·.1)).Nodup ∧ ∀ m ∈ ms, m.2.Distinct :=
  ⟨fun h => ⟨h.names, h.members⟩, fun h => .object h.1 h.2⟩

theorem names_canonical (h : (Json.object ms).Distinct) :
    ((canonicalMembers ms).map (·.1)).Nodup := by
  rw [names_canonicalMembers]
  exact h.names

/-- No member is lost. -/
theorem length_canonical (h : (Json.object ms).Distinct) :
    (sortMembers (canonicalMembers ms)).length = ms.length := by
  rw [(sortMembers_perm h.names_canonical).length_eq, canonicalMembers_eq_map, List.length_map]

/-- Numbers are no names. -/
theorem reread (h : v.Distinct) : v.reread.Distinct := by
  induction h with
  | null => exact .null
  | bool b => exact .bool b
  | number n => exact .number _
  | string s => exact .string s
  | list _ ih =>
      rw [Json.reread, rereadItems_eq_map]
      exact .list (List.forall_mem_map.mpr ih)
  | object hnames _ ih =>
      rw [Json.reread, rereadMembers_eq_map]
      refine .object ?_ (List.forall_mem_map.mpr ih)
      rw [List.map_map]
      exact hnames

end Distinct

mutual

/-- A value is left as it is. -/
theorem canonical_canonical : ∀ v : Json, v.canonical.canonical = v.canonical
  | .null | .bool _ | .number _ | .string _ => rfl
  | .list vs => by
      rw [canonical, canonical, canonicalItems_canonicalItems vs]
  | .object ms => by
      have hmembers : canonicalMembers (sortMembers (canonicalMembers ms)) =
          sortMembers (canonicalMembers ms) := by
        rw [canonicalMembers_eq_map]
        refine (List.map_congr_left fun m hm => ?_).trans (List.map_id _)
        exact canonical_of_mem_canonicalMembers ms m (mem_of_mem_sortMembers hm)
      rw [canonical, canonical, hmembers, (inOrder_sortMembers _).sortMembers_eq]

theorem canonicalItems_canonicalItems :
    ∀ vs : List Json, canonicalItems (canonicalItems vs) = canonicalItems vs
  | [] => rfl
  | v :: vs => by
      rw [canonicalItems, canonicalItems, canonical_canonical v, canonicalItems_canonicalItems vs]

theorem canonical_of_mem_canonicalMembers :
    ∀ (ms : List (String × Json)), ∀ m ∈ canonicalMembers ms, (m.1, m.2.canonical) = m
  | [], _, hm => by cases hm
  | (name, v) :: ms, m, hm => by
      rcases List.mem_cons.mp hm with rfl | hm
      · rw [canonical_canonical v]
      · exact canonical_of_mem_canonicalMembers ms m hm

end

/-! ### Objects that are values -/

theorem inOrder_of_canonical (h : (Json.object ms).canonical = .object ms) : InOrder ms := by
  rw [canonical] at h
  rw [← Json.object.inj h]
  exact inOrder_sortMembers _

theorem canonical_of_mem {m : String × Json} (h : (Json.object ms).canonical = .object ms)
    (hm : m ∈ ms) : m.2.canonical = m.2 := by
  rw [canonical] at h
  rw [← Json.object.inj h] at hm
  exact congrArg Prod.snd (canonical_of_mem_canonicalMembers ms m (mem_of_mem_sortMembers hm))

end AgentGraph.Json
