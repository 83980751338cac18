import AgentGraph.Proofs.Json.Returns
import AgentGraph.Proofs.Synthesis.Faithful
import AgentGraph.Proofs.Synthesis.Offered
import AgentGraph.Proofs.Text.Case
import Mathlib.Data.List.Forall2

/-!
# Ways to present a graph

A model need not present a graph in the persisted form. It may write around the object, put the
parameters of a node beside its identifier, and spell its type in any letter case and with blanks
around it. None of this makes a difference: what surrounds the object is not looked at
(`outerObject?_surrounded`), and an entry that presents a node in another way (`Presents`) is read
alike and, if it cannot be read, named alike (`Presents.alike`). That holds of entries as they are
found in a text, in which no name is used twice (`Finds.canonical`). `readDraft_presentation` says
so of whole replies.
-/

namespace AgentGraph.Synthesis

open Json

variable {members members' data data' flat : List (String × Json)} {entry entry' : Json}
    {kind : NodeKind} {s s' : String}

/-! ### The object in a reply -/

/-- **What surrounds the object is not looked at**, as long as no brace there could belong to it. -/
theorem outerObject?_surrounded {front t back : String} (hfirst : t.toList.head? = some '\x7b')
    (hlast : t.toList.getLast? = some '\x7d') (hfront : '\x7b' ∉ front.toList)
    (hback : '\x7d' ∉ back.toList) :
    outerObject? (front ++ t ++ back) = some t := by
  obtain ⟨cs, hcs⟩ := List.head?_eq_some_iff.mp hfirst
  obtain ⟨ds, hds⟩ := List.getLast?_eq_some_iff.mp hlast
  -- the first brace is the one that `t` begins with
  have hopen : (front ++ t ++ back).toList.dropWhile (· ≠ '\x7b') = t.toList ++ back.toList := by
    rw [String.toList_append, String.toList_append, List.append_assoc, List.dropWhile_append_of_pos
      fun c hc => decide_eq_true (ne_of_mem_of_not_mem hc hfront), hcs, List.cons_append,
      List.dropWhile_cons_of_neg (by simp)]
  -- and the last one is the one that it ends with
  have hclose : (t.toList ++ back.toList).reverse.dropWhile (· ≠ '\x7d') = t.toList.reverse := by
    rw [List.reverse_append, List.dropWhile_append_of_pos
      fun c hc => decide_eq_true (ne_of_mem_of_not_mem (List.mem_reverse.mp hc) hback), hds,
      List.reverse_append, List.reverse_singleton, List.singleton_append,
      List.dropWhile_cons_of_neg (by simp)]
  rw [outerObject?, hopen, hclose, if_neg (by rw [hcs]; simp), List.reverse_reverse,
    String.ofList_toList]

/-! ### Spellings of a type -/

/-- The text is the tag of the kind, each letter in either case, with blanks around it. -/
def Spells (kind : NodeKind) (s : String) : Prop :=
  ∃ front word back : String, s = front ++ word ++ back ∧ Text.isBlank front = true ∧
    Text.isBlank back = true ∧ Text.equalIgnoringAsciiCase word kind.tag = true

theorem not_isBlankChar_of_mem_tag (kind : NodeKind) {c : Char} (hc : c ∈ kind.tag.toList) :
    Text.isBlankChar c = false := by
  have hall : kind.tag.toList.all (fun c => !Text.isBlankChar c) = true := by cases kind <;> rfl
  simpa using List.all_eq_true.mp hall c hc

/-- **Any spelling of a type stands for the kind.** -/
theorem kindOf?_of_spells (h : Spells kind s) : kindOf? s = some kind := by
  obtain ⟨front, word, back, rfl, hfront, hback, hword⟩ := h
  have htrim : Text.trim (front ++ word ++ back) = word := by
    rw [Text.trim, Text.trimBy_surrounded (List.all_eq_true.mp hfront) (List.all_eq_true.mp hback)]
    exact Text.trimBy_eq_self fun c hc =>
      Text.not_isBlankChar_of_equal hword (fun d hd => not_isBlankChar_of_mem_tag kind hd) hc
  have htrimTag : Text.trim kind.tag = kind.tag :=
    Text.trimBy_eq_self fun c hc => not_isBlankChar_of_mem_tag kind hc
  have hlower : Text.lower word = Text.lower kind.tag :=
    (Text.equalIgnoringAsciiCase_iff.mp hword).1
  have htag := kindOf?_tag kind
  rw [kindOf?, htrimTag] at htag
  rw [kindOf?, htrim, hlower, htag]

/-- The type in the data may be spelled in another way. -/
inductive Respelled : List (String × Json) → List (String × Json) → Prop
  | same (data : List (String × Json)) : Respelled data data
  | type {data : List (String × Json)} {kind : NodeKind} {s s' : String} :
      data.lookup "type" = some (.string s) → Spells kind s → Spells kind s' →
      Respelled data (setMember "type" (.string s') data)

theorem spellType_of_spells (htype : data.lookup "type" = some (.string s)) (hs : Spells kind s) :
    spellType data = insertMember "type" (.string kind.tag) data := by
  have hkind : ((data.lookup "type").bind Json.string?).bind kindOf? = some kind := by
    rw [htype, Option.bind_some, Json.string?, Option.bind_some, kindOf?_of_spells hs]
  rw [spellType, hkind]

namespace Respelled

/-- **Data are put in their persisted shape however the type is spelled.** -/
theorem spellType_eq (h : Respelled data data') (hdata : InOrder data) :
    spellType data' = spellType data := by
  cases h with
  | same => rfl
  | type htype hs hs' =>
      rw [spellType_of_spells htype hs, spellType_of_spells (lookup_setMember htype) hs',
        insertMember_setMember hdata]

theorem names_eq (h : Respelled data data') : data'.map (·.1) = data.map (·.1) := by
  cases h with
  | same => rfl
  | type => exact names_setMember _ _ _

theorem lookup_eq (h : Respelled data data') {key : String} (hkey : key ≠ "type") :
    data'.lookup key = data.lookup key := by
  cases h with
  | same => rfl
  | type => exact lookup_setMember_of_ne hkey

theorem filter (h : Respelled data data') {p : String → Bool} (hp : p "type" = true) :
    Respelled (data.filter fun m => p m.1) (data'.filter fun m => p m.1) := by
  cases h with
  | same => exact .same _
  | type htype hs hs' =>
      rw [filter_setMember]
      exact .type (by rw [lookup_filter p, if_pos hp, htype]) hs hs'

end Respelled

/-! ### Presentations of a node -/

/-- A node has its data in an object of their own, and none of them has a name that means something
else beside the members of a node. -/
structure Nested (members data : List (String × Json)) : Prop where
  object : members.lookup "data" = some (.object data)
  names : ∀ m ∈ members, m.1 = "data" ∨ m.1 ∈ nodeMembers
  free : ∀ name ∈ data.map (·.1), name ∉ nodeMembers ++ ["data", "source", "target"]

/-- The second entry presents what the first one does: the data of a node may stand beside its
identifier, and wherever they stand the type may be spelled in another way. -/
inductive Presents : Json → Json → Prop
  | same (entry : Json) : Presents entry entry
  /-- The data stay in their object. -/
  | nested {members data data' : List (String × Json)} :
      members.lookup "data" = some (.object data) → Respelled data data' →
      Presents (.object members) (.object (setMember "data" (.object data') members))
  /-- The data are taken out of their object. -/
  | flat {members data data' flat : List (String × Json)} : Nested members data →
      Respelled data data' → flat.Perm (members.filter (·.1 ≠ "data") ++ data') →
      Presents (.object members) (.object flat)
  /-- The data have stood beside the identifier before. -/
  | beside {members members' : List (String × Json)} :
      (∀ data, members.lookup "data" ≠ some (.object data)) → Respelled members members' →
      Presents (.object members) (.object members')

/-- The entries have one persisted shape and one name. -/
structure Alike (entry entry' : Json) : Prop where
  canonicalNode : canonicalNode entry' = canonicalNode entry
  entryName : ∀ index, entryName .node index entry' = entryName .node index entry

theorem alike_of_lookup (hown : ∀ key ∈ nodeMembers ++ ["source", "target"], members'.lookup key =
    members.lookup key)
    (hdata : spellType (dataMembers members') = spellType (dataMembers members)) :
    Alike (.object members) (.object members') where
  -- a node is read from its own members and its data
  canonicalNode := by
    have hnode : nodeMembers.filterMap (fun name => (members'.lookup name).map ((name, ·))) =
        nodeMembers.filterMap fun name => (members.lookup name).map ((name, ·)) :=
      List.filterMap_congr fun key hkey => by rw [hown key (List.mem_append_left _ hkey)]
    simp only [Synthesis.canonicalNode, hnode, hdata]
  entryName index := by
    have hid := hown "id" (by decide)
    have hsource := hown "source" (by decide)
    have htarget := hown "target" (by decide)
    simp only [Synthesis.entryName, member?, Json.members, hid, hsource, htarget]

theorem dataMembers_of_object (h : members.lookup "data" = some (.object data)) :
    dataMembers members = data := by
  rw [dataMembers, h]

theorem dataMembers_of_flat (h : ∀ data, members.lookup "data" ≠ some (.object data)) :
    dataMembers members = members.filter fun m => decide (m.1 ∉ nodeMembers) := by
  rw [dataMembers]
  split
  next data hdata => exact absurd hdata (h data)
  next => rfl

theorem inOrder_data (hmembers : (Json.object members).canonical = .object members)
    (h : members.lookup "data" = some (.object data)) : InOrder data :=
  inOrder_of_canonical <|
    canonical_of_mem hmembers ((lookup_eq_some_iff_mem (inOrder_of_canonical hmembers).nodup).mp h)

section Flat

variable (h : Nested members data) (hrespelled : Respelled data data')
  (hperm : flat.Perm (members.filter (·.1 ≠ "data") ++ data'))

include h hrespelled

theorem Nested.free_respelled : ∀ m ∈ data', m.1 ∉ nodeMembers ++ ["data", "source", "target"] := by
  intro m hm
  exact h.free m.1 (hrespelled.names_eq ▸ List.mem_map_of_mem hm)

include hperm

/-- Under the names of a node, and under those that would name an entry, the data have nothing. -/
theorem Nested.lookup_flat (hflat : InOrder flat) {key : String}
    (hkey : key ∈ nodeMembers ++ ["data", "source", "target"]) :
    flat.lookup key = if key ≠ "data" then members.lookup key else none := by
  have hnone : data'.lookup key = none := List.lookup_eq_none_iff.mpr fun m hm =>
    bne_iff_ne.mpr fun heq => h.free_respelled hrespelled m hm (heq ▸ hkey)
  rw [lookup_perm hflat.nodup hperm, List.lookup_append, hnone, Option.or_none,
    lookup_filter (· ≠ "data")]
  simp only [decide_eq_true_eq]

/-- What is no member of the node itself are the data. -/
theorem Nested.filter_flat (hflat : InOrder flat) (hdata' : InOrder data') :
    (flat.filter fun m => decide (m.1 ∉ nodeMembers)) = data' := by
  -- both are in order, so it does not matter in which order the data were taken out
  refine (hflat.filter _).eq_of_perm hdata' ((hperm.filter _).trans (.of_eq ?_))
  have hnode :
      (members.filter (·.1 ≠ "data")).filter (fun m => decide (m.1 ∉ nodeMembers)) = [] := by
    rw [List.filter_eq_nil_iff]
    intro m hm
    obtain ⟨hmem, hne⟩ := List.mem_filter.mp hm
    simpa using (h.names m hmem).resolve_left (of_decide_eq_true hne)
  rw [List.filter_append, hnode, List.nil_append, List.filter_eq_self]
  exact fun m hm => decide_eq_true fun hmem => h.free_respelled hrespelled m hm
    (List.mem_append_left _ hmem)

/-- **Data may stand beside the members of a node.** -/
theorem Nested.alike (hmembers : (Json.object members).canonical = .object members)
    (hflat : InOrder flat) : Alike (.object members) (.object flat) := by
  have hdata : InOrder data := inOrder_data hmembers h.object
  refine alike_of_lookup (fun key hkey => ?_) ?_
  · have hne : key ≠ "data" := ne_of_mem_of_not_mem hkey (by decide)
    have hkey' : key ∈ nodeMembers ++ ["data", "source", "target"] :=
      List.mem_append.mpr ((List.mem_append.mp hkey).imp_right (List.mem_cons_of_mem _))
    rw [h.lookup_flat hrespelled hperm hflat hkey', if_pos hne]
  · have hnoData : flat.lookup "data" = none := by
      rw [h.lookup_flat hrespelled hperm hflat (by decide), if_neg (by decide)]
    rw [dataMembers_of_object h.object, dataMembers_of_flat (by simp [hnoData]),
      h.filter_flat hrespelled hperm hflat (hdata.of_names hrespelled.names_eq),
      hrespelled.spellType_eq hdata]

end Flat

/-- **However an entry presents a node, it is read and named alike.** -/
theorem Presents.alike (h : Presents entry entry') (hentry : entry.canonical = entry)
    (hentry' : entry'.canonical = entry') : Alike entry entry' := by
  cases h with
  | same => exact ⟨rfl, fun _ => rfl⟩
  -- the data stay in their object, so all other members are untouched
  | @nested members data data' hdata hrespelled =>
      refine alike_of_lookup (fun key hkey => ?_) ?_
      · exact lookup_setMember_of_ne (ne_of_mem_of_not_mem hkey (by decide))
      · rw [dataMembers_of_object hdata, dataMembers_of_object (lookup_setMember hdata)]
        exact hrespelled.spellType_eq (inOrder_data hentry hdata)
  | flat hnested hrespelled hperm =>
      exact hnested.alike hrespelled hperm hentry (inOrder_of_canonical hentry')
  -- there is no such object, and the data are what stands beside the node's members
  | @beside members members' hbeside hrespelled =>
      have hbeside' : ∀ data, members'.lookup "data" ≠ some (.object data) := by
        rw [hrespelled.lookup_eq (by decide)]
        exact hbeside
      refine alike_of_lookup (fun key hkey => ?_) ?_
      · exact hrespelled.lookup_eq (ne_of_mem_of_not_mem hkey (by decide))
      · rw [dataMembers_of_flat hbeside, dataMembers_of_flat hbeside']
        exact (hrespelled.filter (p := (· ∉ nodeMembers)) (by decide)).spellType_eq
          ((inOrder_of_canonical hentry).filter _)

/-! ### How deeply presentations are nested -/

theorem Respelled.nestingMembers_le (h : Respelled data data') :
    nestingMembers data' ≤ nestingMembers data := by
  cases h with
  | same => exact le_refl _
  | type => exact nestingMembers_setMember_le (Nat.zero_le _)

/-- **No presentation of an entry is nested more deeply than the persisted one.** -/
theorem Presents.nesting_le (h : Presents entry entry') : entry'.nesting ≤ entry.nesting := by
  cases h with
  | same => exact le_refl _
  | nested hdata hrespelled =>
      refine Nat.succ_le_succ (nestingMembers_setMember_le ?_)
      exact (Nat.succ_le_succ hrespelled.nestingMembers_le).trans (nesting_le_of_lookup hdata)
  | @flat members data data' flat hnested hrespelled hperm =>
      refine Nat.succ_le_succ (nestingMembers_le_iff.mpr fun m hm => ?_)
      rcases List.mem_append.mp (hperm.mem_iff.mp hm) with hm | hm
      · exact nesting_le_of_mem_members (List.mem_of_mem_filter hm)
      · -- the data are out of their object, so they have come up by a level
        have hdata := nesting_le_of_lookup hnested.object
        rw [nesting] at hdata
        have hle := (nesting_le_of_mem_members hm).trans hrespelled.nestingMembers_le
        omega
  | beside _ hrespelled => exact Nat.succ_le_succ hrespelled.nestingMembers_le

theorem Entries.Shallow.of_presents {entries entries' : Entries} (h : entries.Shallow)
    (hedges : entries'.edges = entries.edges)
    (hnodes : List.Forall₂ Presents entries.nodes entries'.nodes) :
    entries'.Shallow := by
  obtain ⟨hshallow, hshallow'⟩ := List.forall_mem_append.mp h
  refine List.forall_mem_append.mpr ⟨fun v hv => ?_, hedges ▸ hshallow'⟩
  obtain ⟨i, hi, rfl⟩ := List.getElem_of_mem hv
  have hi' : i < entries.nodes.length := hnodes.length_eq ▸ hi
  exact (hnodes.get hi' hi).nesting_le.trans (hshallow _ (List.getElem_mem hi'))

/-! ### Whole replies -/

/-- The entries that are found are values. -/
theorem Finds.canonical {reply : String} {entries : Entries} (h : Finds reply entries) :
    ∀ entry ∈ entries.nodes, entry.canonical = entry := by
  obtain ⟨graph, -, hentries⟩ := h
  -- a list that is left out is empty
  have hdefault : ∀ vs, (Absence.default ([] : List Json)).inObject = some vs →
      ∀ v ∈ vs, v.canonical = v := by
    rintro _ ⟨⟩
    exact nofun
  have hfields := (Fields.sound_nil.cons (returns_list returns_any) hdefault hdefault "edges").cons
    (returns_list returns_any) hdefault hdefault "nodes"
  obtain ⟨⟨nodes, edges, _⟩, hwhole, rfl⟩ := (returns_record hfields _).of_runOn hentries
  exact hwhole.1

/-- What is told of a reply: the nodes, the edges and the warnings, or all that is wrong and the
messages about the entries that could not be read. -/
def seen :
    Except Rejection Draft →
    Except (List Problem × List String) (List Node × List Edge × List String)
  | .ok draft => .ok (draft.nodes, draft.edges, draft.warnings.map Warning.message)
  | .error rejection => .error (rejection.problems, rejection.skipped.map Skipped.message)

theorem Alike.readNode (h : Alike entry entry') : readNode entry' = readNode entry := by
  rw [Synthesis.readNode, Synthesis.readNode, h.canonicalNode]

theorem filterMap_readNode {entries entries' : List Json}
    (h : List.Forall₂ Alike entries entries') :
    entries'.filterMap (fun entry => (readNode entry).toOption) =
      entries.filterMap fun entry => (readNode entry).toOption := by
  induction h with
  | nil => rfl
  | cons halike _ ih => rw [List.filterMap_cons, List.filterMap_cons, halike.readNode, ih]

/-- Entries that cannot be read are told alike. -/
theorem message_unreadable {entries entries' : List Json} (h : List.Forall₂ Alike entries entries')
    (index : Nat) :
    (unreadable .node readNode index entries').map Skipped.message =
      (unreadable .node readNode index entries).map Skipped.message := by
  induction h generalizing index with
  | nil => rfl
  | @cons entry entry' _ _ halike _ ih =>
      have hread := halike.readNode
      cases hentry : readNode entry with
      | ok n => rw [unreadable_of_ok hentry, unreadable_of_ok (hread.trans hentry), ih]
      | error mismatch =>
          rw [unreadable_of_error hentry, unreadable_of_error (hread.trans hentry), List.map_cons,
            List.map_cons, ih]
          simp only [Skipped.message, halike.entryName]

/-- Entries that are alike one by one settle into the same draft, with the same warnings. -/
theorem seen_settle (mint : Nat → Uuid) {entries entries' : Entries}
    (hedges : entries'.edges = entries.edges)
    (hnodes : List.Forall₂ Alike entries.nodes entries'.nodes) :
    seen (settle mint entries') = seen (settle mint entries) := by
  have hcleaned : cleanedNodes mint entries' = cleanedNodes mint entries := by
    rw [cleanedNodes, cleanedNodes, filterMap_readNode hnodes]
  have hharvest : harvest mint entries' = harvest mint entries := by
    rw [harvest, harvest, hcleaned, hedges]
  have hskipped : entries'.unreadable.map Skipped.message =
      entries.unreadable.map Skipped.message := by
    rw [Entries.unreadable, Entries.unreadable, List.map_append, List.map_append,
      message_unreadable hnodes, hedges]
  have hwarnings : (entries'.unreadable.map Warning.unreadable).map Warning.message =
      (entries.unreadable.map Warning.unreadable).map Warning.message := by
    have hmessage : Warning.message ∘ Warning.unreadable = ("Skipped " ++ ·) ∘ Skipped.message :=
      rfl
    rw [List.map_map, List.map_map, hmessage, ← List.map_map, ← List.map_map, hskipped]
  rw [settle_eq, settle_eq, hcleaned, cleanedEdges, cleanedEdges, hharvest]
  -- the checks fail or pass alike, with the same messages
  split
  next => simp only [seen, message_unreadable hnodes]
  next =>
    split
    next => simp only [seen, List.map_append, hwarnings]
    next => simp only [seen, hskipped]

/-- Two replies in which the entries are found, presented one way and the other, are read alike. -/
theorem seen_of_finds (mint : Nat → Uuid) {reply reply' : String} {entries entries' : Entries}
    (hfinds : Finds reply entries) (hfinds' : Finds reply' entries')
    (hedges : entries'.edges = entries.edges)
    (hnodes : List.Forall₂ Presents entries.nodes entries'.nodes) :
    seen (readDraft mint reply') = seen (readDraft mint reply) := by
  -- what is found in a text are values, and of those `Presents.alike` speaks
  have halike : List.Forall₂ Alike entries.nodes entries'.nodes := by
    rw [List.forall₂_iff_get] at hnodes ⊢
    refine ⟨hnodes.1, fun i hi hi' => ?_⟩
    exact (hnodes.2 i hi hi').alike (hfinds.canonical _ (List.get_mem _ _))
      (hfinds'.canonical _ (List.get_mem _ _))
  rw [readDraft_of_finds hfinds, readDraft_of_finds hfinds', seen_settle mint hedges halike]

/-- **Every presentation of a graph is read alike.** What surrounds the object in a reply makes no
difference. Nor does it make a difference how each of the nodes is presented, as long as the entries
are not nested more than 125 levels deep: the nodes, the edges and the warnings are the same, with
the same identifiers where new ones are minted, and of a rejected graph the problems and the
messages about what could not be read. Both replies are found to be graphs then. The last part says
the same of all texts in which graphs are found, also of those that use a name twice. -/
theorem readDraft_presentation (mint : Nat → Uuid) :
    (∀ front t back : String, t.toList.head? = some '\x7b' → t.toList.getLast? = some '\x7d' →
      '\x7b' ∉ front.toList → '\x7d' ∉ back.toList →
      readDraft mint (front ++ t ++ back) = readDraft mint t) ∧
    (∀ (reply reply' : String) (entries entries' : Entries), Offers reply entries →
      Offers reply' entries' → entries.Shallow → entries'.edges = entries.edges →
      List.Forall₂ Presents entries.nodes entries'.nodes →
      seen (readDraft mint reply') = seen (readDraft mint reply)) ∧
    ∀ (reply reply' : String) (entries entries' : Entries), Finds reply entries →
      Finds reply' entries' → entries'.edges = entries.edges →
      List.Forall₂ Presents entries.nodes entries'.nodes →
      seen (readDraft mint reply') = seen (readDraft mint reply) := by
  refine ⟨?_, ?_, fun _ _ _ _ hfinds hfinds' hedges hnodes =>
    seen_of_finds mint hfinds hfinds' hedges hnodes⟩
  · intro front t back hfirst hlast hfront hback
    have halone : outerObject? ("" ++ t ++ "") = some t :=
      outerObject?_surrounded hfirst hlast (by simp) (by simp)
    rw [String.empty_append, String.append_empty] at halone
    rw [readDraft, readDraft, outerObject?_surrounded hfirst hlast hfront hback, halone]
  · intro reply reply' entries entries' hoffers hoffers' hshallow hedges hnodes
    -- the presentation is nested no more deeply, so it is found when the persisted form is
    have hfinds := hoffers.finds hshallow
    have hfinds' := hoffers'.finds (hshallow.of_presents hedges hnodes)
    exact seen_of_finds mint hfinds hfinds' hedges hnodes

/-- A start node, an end node and a node of no known kind, in the persisted form. -/
def nestedEntries : Entries where
  nodes := [.object [("data", .object [("type", .string "Start")]), ("id", .string "a")],
    .object [("data", .object [("type", .string "End")]), ("id", .string "b")],
    .object [("data", .object [("type", .string "Loop")]), ("id", .string "c")]]
  edges := [.object [("source", .string "a"), ("target", .string "b")]]

/-- The same nodes, presented in three other ways. -/
def presentedEntries : Entries where
  nodes := [.object [("id", .string "a"), ("type", .string " sTART\n")],
    .object [("data", .object [("type", .string "end")]), ("id", .string "b")],
    .object [("id", .string "c"), ("type", .string "Loop")]]
  edges := nestedEntries.edges

theorem presentedEntries_presents :
    List.Forall₂ Presents nestedEntries.nodes presentedEntries.nodes := by
  have hself (kind : NodeKind) : Spells kind kind.tag := by
    refine ⟨"", kind.tag, "", ?_, rfl, rfl, decide_eq_true rfl⟩
    rw [String.empty_append, String.append_empty]
  have hstart : Respelled [("type", .string "Start")] [("type", .string " sTART\n")] :=
    .type rfl (hself .start) ⟨" ", "sTART", "\n", rfl, rfl, rfl, rfl⟩
  have hend : Respelled [("type", .string "End")] [("type", .string "end")] :=
    .type rfl (hself .finish) ⟨"", "end", "", rfl, rfl, rfl, rfl⟩
  have hnested (id type : String) :
      Nested [("data", .object [("type", .string type)]), ("id", .string id)]
        [("type", .string type)] :=
    ⟨rfl, by simp [nodeMembers], by simp [nodeMembers]⟩
  refine .cons (.flat (hnested _ _) hstart (.refl _)) (.cons (.nested rfl hend) (.cons ?_ .nil))
  exact .flat (hnested _ _) (.same _) (.refl _)

/-- Entries whose members are in order already are offered as they are. -/
theorem offers_compact {e : Entries} (depth : Nat)
    (hreadable : ∀ v ∈ e.nodes ++ e.edges, Readable (depth + 1) v)
    (hdistinct : ∀ v ∈ e.nodes ++ e.edges, v.Distinct)
    (hnodes : e.nodes.map restored = e.nodes) (hedges : e.edges.map restored = e.edges) :
    Offers (Entries.format.compact e) e := by
  have hoffers := offers_render .compact depth hreadable hdistinct
  rwa [hnodes, hedges] at hoffers

theorem offers_nestedEntries : Offers (Entries.format.compact nestedEntries) nestedEntries :=
  offers_compact 2 (by simp [nestedEntries, Readable.object, Readable.string])
    (by simp [nestedEntries, Distinct.object_iff, Distinct.string]) rfl rfl

theorem offers_presentedEntries :
    Offers (Entries.format.compact presentedEntries) presentedEntries :=
  offers_compact 2
    (by simp [presentedEntries, nestedEntries, Readable.object, Readable.string])
    (by simp [presentedEntries, nestedEntries, Distinct.object_iff, Distinct.string]) rfl rfl

theorem seen_presentedEntries :
    seen (readDraft (fun _ => .nil)
        ("```json\n" ++ Entries.format.compact presentedEntries ++ "\n```")) =
      seen (readDraft (fun _ => .nil) (Entries.format.compact nestedEntries)) ∧
    (readDraft (fun _ => .nil) (Entries.format.compact nestedEntries)).toOption.map
      (fun draft => (draft.nodes.map (·.id), draft.edges.length, draft.warnings.length)) =
        some (["a", "b"], 1, 1) := by
  have hshallow : nestedEntries.Shallow := by decide
  obtain ⟨hsurrounded, hpresented, -⟩ := readDraft_presentation fun _ => .nil
  constructor
  -- the fence around the text is dropped first
  · rw [hsurrounded _ _ _ (by decide +kernel) (by decide +kernel) (by decide) (by decide)]
    exact hpresented _ _ _ _ offers_nestedEntries offers_presentedEntries hshallow rfl
      presentedEntries_presents
  · rw [readDraft_of_finds (offers_nestedEntries.finds hshallow)]
    decide +kernel

/-! ### Presentations that are nested too deeply -/

/-- Lists inside one another. -/
def nestedLists : Nat → Json
  | 0 => .list []
  | depth + 1 => .list [nestedLists depth]

theorem readable_nestedLists (depth : Nat) : Readable (depth + 2) (nestedLists depth) := by
  induction depth with
  | zero => exact .list nofun
  | succ depth ih => exact .list (List.forall_mem_singleton.mpr ih)

theorem distinct_nestedLists (depth : Nat) : (nestedLists depth).Distinct := by
  induction depth with
  | zero => exact .list nofun
  | succ depth ih => exact .list (List.forall_mem_singleton.mpr ih)

theorem restored_nestedLists (depth : Nat) : (nestedLists depth).restored = nestedLists depth := by
  induction depth with
  | zero => rfl
  | succ depth ih =>
      show Json.list [(nestedLists depth).restored] = _
      rw [ih, nestedLists]

theorem nesting_nestedLists (depth : Nat) : (nestedLists depth).nesting = depth + 1 := by
  induction depth with
  | zero => rfl
  | succ depth ih =>
      rw [nestedLists, nesting, nestingItems, nestingItems, ih, Nat.max_eq_left (Nat.zero_le _)]

/-- A start node with lists of lists in its data, and an end node. -/
def deepEntries (depth : Nat) : Entries where
  nodes :=
    [.object [("data", .object [("type", .string "Start"), ("x", nestedLists depth)]),
      ("id", .string "a")],
      .object [("data", .object [("type", .string "End")]), ("id", .string "b")]]
  edges := nestedEntries.edges

/-- The same nodes, the first one with its data beside its identifier. -/
def flatEntries (depth : Nat) : Entries where
  nodes := [.object [("id", .string "a"), ("type", .string "Start"), ("x", nestedLists depth)],
    .object [("data", .object [("type", .string "End")]), ("id", .string "b")]]
  edges := nestedEntries.edges

theorem flatEntries_presents (depth : Nat) :
    List.Forall₂ Presents (deepEntries depth).nodes (flatEntries depth).nodes := by
  have hnested :
      Nested
        [("data", .object [("type", .string "Start"), ("x", nestedLists depth)]),
          ("id", .string "a")]
        [("type", .string "Start"), ("x", nestedLists depth)] :=
    ⟨rfl, by simp [nodeMembers], by simp [nodeMembers]⟩
  exact .cons (.flat hnested (.same _) (.refl _)) (.cons (.same _) .nil)

theorem offers_deepEntries (depth : Nat) :
    Offers (Entries.format.compact (deepEntries depth)) (deepEntries depth) := by
  have hlists := readable_nestedLists depth
  apply offers_compact (depth + 3)
  · simp [deepEntries, nestedEntries, Readable.object, Readable.string, hlists]
  · simp [deepEntries, nestedEntries, Distinct.object_iff, Distinct.string, distinct_nestedLists]
  · show object
      [("data", .object [("type", .string "Start"), ("x", (nestedLists depth).restored)]),
        ("id", .string "a")] :: _ = _
    rw [restored_nestedLists]
    rfl
  · rfl

theorem offers_flatEntries (depth : Nat) :
    Offers (Entries.format.compact (flatEntries depth)) (flatEntries depth) := by
  have hlists := readable_nestedLists depth
  apply offers_compact (depth + 2)
  · simp [flatEntries, nestedEntries, Readable.object, Readable.string, hlists]
  · simp [flatEntries, nestedEntries, Distinct.object_iff, Distinct.string, distinct_nestedLists]
  · show object
      [("id", .string "a"), ("type", .string "Start"), ("x", (nestedLists depth).restored)] :: _ = _
    rw [restored_nestedLists]
    rfl
  · rfl

/-- Text of entries that cannot be read is rejected for that alone. -/
theorem readDraft_of_not_graph (mint : Nat → Uuid) {entries : Entries} {e : ReadError}
    (h : Entries.format.ofText? (Entries.format.compact entries) = .error e) :
    readDraft mint (Entries.format.compact entries) = .error ⟨[.notGraph e], []⟩ := by
  have hobject : outerObject? (Entries.format.compact entries) =
      some (Entries.format.compact entries) := by
    rw [Format.compact, Entries.encode_format]
    exact outerObject?_render .compact _
  rw [readDraft, hobject]
  dsimp only
  rw [h]

/-- With the object, the list, the node and its data they are 128 levels, one more than the reader
goes. -/
theorem ofText?_deepEntries : ∃ e : ReadError, e.cause = .notJson .tooDeep ∧
    Entries.format.ofText? (Entries.format.compact (deepEntries 123)) = .error e := by
  set written := print .compact 0 (Entries.format.encode (deepEntries 123)) []
  have htext : (Entries.format.compact (deepEntries 123)).toList = written := String.toList_ofList
  -- the reader is run, and its cause is looked at before its place in the text
  have hcause :
      ((Reader.wholeText (Entries.format.read Reader.maxDepth) written).1.mapError
        Fault.cause).map (fun _ => ()) = .error (.notJson .tooDeep) := by
    decide +kernel
  cases hread : Reader.wholeText (Entries.format.read Reader.maxDepth) written with
  | mk result rest =>
      rw [hread] at hcause
      cases result with
      | ok entries => cases hcause
      | error fault =>
          have hfault : fault.cause = .notJson .tooDeep := Except.error.inj hcause
          refine ⟨fault.inText (Entries.format.compact (deepEntries 123)), hfault, ?_⟩
          have hrun : (Reader.wholeText (Entries.format.read Reader.maxDepth)).run written = _ :=
            hread
          rw [Format.ofText?, Reader.runOn, htext, hrun]

theorem shallow_flatEntries {depth : Nat} (h : depth + 2 ≤ 125) : (flatEntries depth).Shallow := by
  simp only [Entries.Shallow, flatEntries, nestedEntries, nesting, nestingMembers,
    nesting_nestedLists, List.cons_append, List.nil_append, List.forall_mem_cons]
  exact ⟨by omega, by decide, by decide, List.forall_mem_nil _⟩

/-- What else is in the data does not matter. -/
theorem settle_flatEntries (depth : Nat) : (settle (fun _ => .nil) (flatEntries depth)).toOption.map
    (fun draft => (draft.nodes.map (·.id), draft.edges.length, draft.warnings.length)) =
      some (["a", "b"], 1, 0) := by
  rfl

/-- **A presentation may be found where the persisted form is not**: without the object of the data
there is one level less. -/
theorem readDraft_deepEntries :
    (Offers (Entries.format.compact (deepEntries 123)) (deepEntries 123) ∧
      Offers (Entries.format.compact (flatEntries 123)) (flatEntries 123) ∧
      (flatEntries 123).edges = (deepEntries 123).edges ∧
      List.Forall₂ Presents (deepEntries 123).nodes (flatEntries 123).nodes) ∧
    (∃ e : ReadError, e.cause = .notJson .tooDeep ∧
      readDraft (fun _ => .nil) (Entries.format.compact (deepEntries 123)) =
        .error ⟨[.notGraph e], []⟩) ∧
    (readDraft (fun _ => .nil) (Entries.format.compact (flatEntries 123))).toOption.map
      (fun draft => (draft.nodes.map (·.id), draft.edges.length, draft.warnings.length)) =
        some (["a", "b"], 1, 0) := by
  refine ⟨⟨offers_deepEntries 123, offers_flatEntries 123, rfl, flatEntries_presents 123⟩, ?_, ?_⟩
  · obtain ⟨e, he, hread⟩ := ofText?_deepEntries
    exact ⟨e, he, readDraft_of_not_graph _ hread⟩
  · rw [readDraft_of_finds ((offers_flatEntries 123).finds (shallow_flatEntries (by decide)))]
    exact settle_flatEntries 123

end AgentGraph.Synthesis
