import AgentGraph.Proofs.Json.Canonical
import AgentGraph.Proofs.Json.Inversion

/-!
# The limit of nesting

A value can be read when its lists and objects are nested no deeper than the limit allows, and then
the limit makes no difference: what is read with one limit is read with every other one that leaves
enough levels (`Yields.of_nesting`).

How deep a document is nested (`Json.nesting`) does not depend on the order of the members, so a
document in which no object uses a name twice is nested as deep as the value that it is
(`Distinct.nesting_canonical`).
-/

namespace AgentGraph.Json

variable {v : Json} {vs : List Json} {ms : List (String × Json)} {k : Nat}

/-! ### How deep documents are nested -/

mutual

/-- How many lists and objects stand inside one another. -/
def nesting : Json → Nat
  | list vs => nestingItems vs + 1
  | object ms => nestingMembers ms + 1
  | _ => 0

def nestingItems : List Json → Nat
  | [] => 0
  | v :: vs => max v.nesting (nestingItems vs)

def nestingMembers : List (String × Json) → Nat
  | [] => 0
  | (_, v) :: ms => max v.nesting (nestingMembers ms)

end

theorem nestingItems_le_iff : nestingItems vs ≤ k ↔ ∀ v ∈ vs, v.nesting ≤ k := by
  induction vs with
  | nil => simp [nestingItems]
  | cons v vs ih => rw [nestingItems, max_le_iff, ih, List.forall_mem_cons]

theorem nestingMembers_le_iff : nestingMembers ms ≤ k ↔ ∀ m ∈ ms, m.2.nesting ≤ k := by
  induction ms with
  | nil => simp [nestingMembers]
  | cons m ms ih => rw [nestingMembers, max_le_iff, ih, List.forall_mem_cons]

theorem nesting_le_of_mem (h : v ∈ vs) :
    v.nesting ≤ nestingItems vs := nestingItems_le_iff.mp (le_refl _) v h

theorem nesting_le_of_mem_members {m : String × Json} (h : m ∈ ms) :
    m.2.nesting ≤ nestingMembers ms :=
  nestingMembers_le_iff.mp (le_refl _) m h

theorem nesting_le_of_lookup {name : String} (h : ms.lookup name = some v) :
    v.nesting ≤ nestingMembers ms := by
  obtain ⟨front, back, rfl, -⟩ := List.lookup_eq_some_iff.mp h
  have hmem : (name, v) ∈ front ++ (name, v) :: back :=
    List.mem_append_right front List.mem_cons_self
  exact nesting_le_of_mem_members hmem

/-- Another value for a member does not make an object deeper than the two of them are. -/
theorem nestingMembers_setMember_le {name : String} (hv : v.nesting ≤ nestingMembers ms) :
    nestingMembers (setMember name v ms) ≤ nestingMembers ms := by
  rw [setMember, nestingMembers_le_iff, List.forall_mem_map]
  intro m hm
  split
  · exact hv
  · exact nesting_le_of_mem_members hm

theorem nestingMembers_perm {ms' : List (String × Json)} (h : ms.Perm ms') :
    nestingMembers ms = nestingMembers ms' := by
  apply le_antisymm <;> rw [nestingMembers_le_iff] <;> intro m hm
  · exact nesting_le_of_mem_members (h.mem_iff.mp hm)
  · exact nesting_le_of_mem_members (h.mem_iff.mpr hm)

/-- As a value a document is nested as deep. -/
theorem Distinct.nesting_canonical (h : v.Distinct) : v.canonical.nesting = v.nesting := by
  induction h with
  | null | bool | number | string => rfl
  | @list vs _ ih =>
      have hitems : nestingItems (vs.map canonical) = nestingItems vs := by
        clear * - ih
        induction vs with
        | nil => rfl
        | cons v vs ihvs =>
            obtain ⟨hv, hvs⟩ := List.forall_mem_cons.mp ih
            rw [List.map_cons, nestingItems, nestingItems, hv, ihvs hvs]
      rw [canonical, canonicalItems_eq_map, nesting, nesting, hitems]
  | @object ms hnames _ ih =>
      have hmembers : nestingMembers (canonicalMembers ms) = nestingMembers ms := by
        clear * - ih
        induction ms with
        | nil => rfl
        | cons m ms ihms =>
            obtain ⟨hm, hms⟩ := List.forall_mem_cons.mp ih
            rw [canonicalMembers, nestingMembers, nestingMembers, hm, ihms hms]
      have hnames' : ((canonicalMembers ms).map (·.1)).Nodup := by rwa [names_canonicalMembers]
      have hperm := sortMembers_perm hnames'
      rw [canonical, nesting, nesting, nestingMembers_perm hperm, hmembers]

namespace Reader

variable {σ : Type} {cs rest : List Char}

/-! ### Members that are kept, and members that are taken note of -/

/-- What is kept is put in front of what was kept before. -/
theorem ReadsMembers.suffix {item : Reader Json} {first : Bool} {ms ms' : List (String × Json)}
    (h : ReadsMembers (keepMember item) first cs ms ms' rest) : ms <:+ ms' := by
  induction h with
  | done => exact List.suffix_rfl
  | next _ _ hmember _ _ ih =>
      obtain ⟨_, _, -, -, rfl⟩ := of_keepMember hmember
      exact (List.suffix_cons _ _).trans ih

/-- Where members can be kept they can be taken note of, if that is so of each one that is kept.
What is known after some members is `note` of these members. -/
theorem ReadsMembers.noted {item : Reader Json} {step : String → σ → Reader σ} {first : Bool}
    {ms ms' : List (String × Json)} (note : List (String × Json) → σ)
    (h : ReadsMembers (keepMember item) first cs ms ms' rest)
    (hstep : ∀ name v read text after, (name, v) :: read <:+ ms' →
      Yields (do
        colon
        item) text (some v) after →
      Yields (step name (note read)) text (some (note ((name, v) :: read))) after) :
    ReadsMembers step first cs (note ms) (note ms') rest := by
  induction h with
  | done hmore => exact .done hmore
  | @next _ _ _ _ _ _ name read _ _ hmore hname hmember hle hrest ih =>
      obtain ⟨v, inside, hcolon, hv, rfl⟩ := of_keepMember hmember
      have hnote := hstep name v read _ _ hrest.suffix (hcolon.andThen hv)
      exact .next hmore hname hnote hle (ih hstep)

/-! ### The limit makes no difference -/

/-- The limit makes no difference to what stands where a value is read, if it makes none to the
values in it. -/
theorem ReadsValue.yields_value {inner : Option (Reader Json)} {depth : Nat}
    (h : ReadsValue inner (cs.dropWhile isBlank) v rest) (hv : v.nesting < depth)
    (hinner : ∀ item, inner = some item → Consumes item ∧ ∀ {k cs w rest}, w.nesting < k →
      Yields item cs (some w) rest → Yields (value k) cs (some w) rest) :
    Yields (value depth) cs (some v) rest := by
  obtain ⟨depth, rfl⟩ := Nat.exists_eq_succ_of_ne_zero (Nat.ne_of_gt (Nat.zero_lt_of_lt hv))
  -- there is a reader for what is inside as long as there is a level left for it
  obtain ⟨inner', hvalue, hinner'⟩ : ∃ inner', value (depth + 1) = valueWithin inner' ∧
      ∀ k, depth = k + 1 → inner' = some (value (k + 1)) := by
    cases depth with
    | zero => exact ⟨none, rfl, nofun⟩
    | succ k => exact ⟨some (value (k + 1)), rfl, by rintro _ ⟨⟩; rfl⟩
  rw [hvalue]
  refine yields_valueWithin_iff.mpr ?_
  generalize cs.dropWhile isBlank = text at h
  cases h with
  | null hword => exact .null hword
  | yes hword => exact .yes hword
  | no hword => exact .no hword
  | string hs => exact .string hs
  | number hbegins hn => exact .number hbegins hn
  | @list cs mid rest item vs hitem hitems hend =>
      rw [nesting] at hv
      obtain ⟨k, rfl⟩ := Nat.exists_eq_succ_of_ne_zero (show depth ≠ 0 by omega)
      obtain ⟨hconsumes, hagain⟩ := hinner item hitem
      -- the same items are read one by one with the other reader, as none is nested deeper
      have hwalk := readsItems_of_items hconsumes hitems (ne_nil_of_endList hend)
      have hwalk' : ReadsItems (value (k + 1)) true cs (vs.map id) mid :=
        hwalk.map fun w hw _ _ hread =>
        hagain ((nesting_le_of_mem hw).trans_lt (by omega)) hread
      rw [List.map_id] at hwalk'
      exact .list (hinner' k rfl) hwalk'.yields_items hend
  | @object cs mid rest item ms hitem hmembers hend =>
      rw [nesting] at hv
      obtain ⟨k, rfl⟩ := Nat.exists_eq_succ_of_ne_zero (show depth ≠ 0 by omega)
      obtain ⟨hconsumes, hagain⟩ := hinner item hitem
      have hwalk :=
        readsMembers_of_foldMembers (fun name read => .keepMember hconsumes name read) hmembers
          (ne_nil_of_endObject hend)
      have hwalk' :
          ReadsMembers (keepMember (value (k + 1))) true cs (id []) (id ms.reverse) mid := by
        -- what is kept of the members is in the object, so it is not nested deeper either
        refine hwalk.noted id fun name w read text after hsuffix hread => ?_
        obtain ⟨_, inside, hcolon, hw⟩ := hread.of_bind
        have hmem : (name, w) ∈ ms := List.mem_reverse.mp (hsuffix.subset List.mem_cons_self)
        have hnesting :=
          (nesting_le_of_mem_members hmem).trans_lt (show nestingMembers ms < k + 1 by omega)
        exact hcolon.andThen ((hagain hnesting hw).andThen (.pure _ _))
      exact .object (hinner' k rfl) hwalk'.yields_foldMembers hend

/-- **What is read with one limit of nesting is read with every other one that leaves enough
levels.** -/
theorem Yields.of_nesting {depth depth' : Nat} (h : Yields (value depth) cs (some v) rest)
    (hv : v.nesting < depth') : Yields (value depth') cs (some v) rest := by
  induction depth using value.induct generalizing depth' cs v rest with
  | case1 | case2 =>
      refine (yields_valueWithin_iff.mp h).yields_value hv ?_
      rintro _ ⟨⟩
  | case3 depth ih =>
      refine (yields_valueWithin_iff.mp h).yields_value hv ?_
      rintro _ ⟨⟩
      exact ⟨.value _, fun hw hread => ih hread hw⟩

end Reader

end AgentGraph.Json
