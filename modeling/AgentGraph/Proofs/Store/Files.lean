import AgentGraph.Store.Basic
import AgentGraph.Proofs.Json.Canonical
import AgentGraph.Proofs.Text.Split
import Mathlib.Data.List.Basic

/-!
# Files that were written and removed

A file that was written can be read again (`Files.text?_write`), and its name is among the names in
its directory (`Files.exists_names_write`). A file that was removed is gone
(`Files.text?_without_self`). A text that spells a path and is continued by an ordinary name spells
the path continued by that name (`Path.ofText_joinPath`), so what is joined to a directory is in it.
-/

namespace AgentGraph

open Text

/-! ### Paths -/

/-- A name that leads to something in a directory. -/
structure IsPlainName (name : String) : Prop where
  ne_empty : name ≠ ""
  ne_here : name ≠ "."
  ne_up : name ≠ ".."
  no_slash : '/' ∉ name.toList

namespace IsPlainName

variable {name : String}

theorem step (h : IsPlainName name) (path : Path) : path.step name = path ++ [name] := by
  rw [Path.step, if_neg (not_or.mpr ⟨h.ne_empty, h.ne_here⟩), if_neg h.ne_up]

theorem splitBy (h : IsPlainName name) : Text.splitBy (· = '/') [] name.toList = [name.toList] := by
  refine splitBy_none (fun c hc => decide_eq_false ?_) []
  rintro rfl
  exact h.no_slash hc

end IsPlainName

theorem endsWith_iff {s ending : String} :
    s.endsWith ending = true ↔ ending.toList <:+ s.toList := by
  rw [String.endsWith_eq_endsWith_toSlice, String.Slice.endsWith_string_iff, String.copy_toSlice]

/-- Text that begins the same way begins at the top or not. -/
theorem startsWith_append {s : String} (hs : s ≠ "") (t : String) :
    (s ++ t).startsWith "/" = s.startsWith "/" := by
  obtain ⟨c, cs, hcs⟩ := List.exists_cons_of_ne_nil (show s.toList ≠ [] by simpa using hs)
  rw [Bool.eq_iff_iff, String.startsWith_string_iff, String.startsWith_string_iff,
    String.toList_append, hcs]
  simp

/-- The empty name leads nowhere. -/
theorem Path.step_empty (path : Path) : path.step "" = path := by
  rw [Path.step, if_pos (Or.inl rfl)]

/-- The names in the text of a path, followed from where it begins. -/
theorem Path.ofText_eq (text : String) : Path.ofText text =
    ((splitBy (· = '/') [] text.toList).map String.ofList).foldl Path.step
      (if text.startsWith "/" then ["/"] else []) :=
  rfl

/-- An ordinary name spells a path of its own. -/
theorem Path.ofText_name {name : String} (hname : IsPlainName name) :
    Path.ofText name = [name] := by
  have htop : name.startsWith "/" = false := by
    rw [Bool.eq_false_iff, Ne, String.startsWith_string_iff]
    rintro ⟨rest, hrest⟩
    exact hname.no_slash (hrest ▸ List.mem_cons_self ..)
  rw [ofText_eq, htop, hname.splitBy]
  simpa using hname.step []

/-- **What is joined to the text of a path is in the directory with that path.** -/
theorem Path.ofText_joinPath {name : String} (hname : IsPlainName name) (path : String) :
    Path.ofText (joinPath path name) = Path.ofText path ++ [name] := by
  have hmark : (fun c => decide (c = '/')) '/' = true := rfl
  rcases eq_or_ne path "" with rfl | hne
  · show Path.ofText ("" ++ name) = [name]
    rw [String.empty_append, ofText_name hname]
  -- a separator is put between the two unless the path ends with one
  rw [joinPath]
  split
  · next hends =>
    -- the last separator is followed by an empty name, which is no step
    obtain ⟨front, hfront⟩ : ['/'] <:+ path.toList := by
      rcases Bool.or_eq_true_iff.mp hends with hempty | hends
      · exact absurd (by simpa using hempty) hne
      · exact endsWith_iff.mp hends
    rw [ofText_eq, ofText_eq, startsWith_append hne, String.toList_append, ← hfront,
      List.append_assoc, List.cons_append, List.nil_append, splitBy_append hmark,
      splitBy_append hmark, hname.splitBy, splitBy]
    simp only [List.map_append, List.foldl_append, List.map_cons, List.map_nil, List.foldl_cons,
      List.foldl_nil, String.ofList_toList, List.reverse_nil, String.ofList_nil,
      Path.step_empty, hname.step]
  · rw [ofText_eq, ofText_eq, String.append_assoc, startsWith_append hne, String.toList_append,
      show ("/" ++ name).toList = '/' :: name.toList from String.toList_append,
      splitBy_append hmark, hname.splitBy]
    simp only [List.map_append, List.foldl_append, List.map_cons, List.map_nil, List.foldl_cons,
      List.foldl_nil, String.ofList_toList, hname.step]

/-! ### Trees of directories -/

namespace Files

variable {fs fs' : Files} {path : Path} {text : String}

/-! ### What is there -/

theorem isFile_iff : fs.isFile path = true ↔ ∃ file ∈ fs.files, path = file.1 := by
  rw [isFile, text?, List.lookup_isSome_iff]
  simp only [beq_iff_eq]

theorem toOption_find (fs : Files) (path : Path) : (fs.find path).toOption = fs.text? path := by
  rw [find]
  cases fs.text? path with
  | some text => rfl
  | none =>
      cases fs.isDirectory path <;> cases fs.isBlocked path <;> rfl

theorem isDirectory_iff : fs.isDirectory path = true ↔
    path = [] ∨ (∃ more, path ++ more ∈ fs.made) ∨
      ∃ more, more ≠ [] ∧ fs.isFile (path ++ more) = true := by
  simp only [isDirectory, Bool.or_eq_true, List.isEmpty_iff, List.any_eq_true,
    List.isPrefixOf_iff_prefix, Bool.and_eq_true, decide_eq_true_eq, isFile_iff, or_assoc]
  refine or_congr_right (or_congr ⟨?_, ?_⟩ ⟨?_, ?_⟩)
  · rintro ⟨_, hmade, more, rfl⟩
    exact ⟨more, hmade⟩
  · rintro ⟨more, hmade⟩
    exact ⟨_, hmade, more, rfl⟩
  · rintro ⟨⟨_, text⟩, hfile, ⟨more, rfl⟩, hne⟩
    exact ⟨more, fun hnil => hne (by simp [hnil]), _, hfile, rfl⟩
  · rintro ⟨more, hne, ⟨file, text⟩, hfile, rfl⟩
    exact ⟨_, hfile, ⟨more, rfl⟩, by simpa using hne⟩

theorem isBlocked_eq_false_iff :
    fs.isBlocked path = false ↔ ∀ n < path.length, fs.isFile (path.take n) = false := by
  simp only [isBlocked, ancestors, List.any_map, List.any_eq_false, List.mem_range,
    Function.comp_apply, Bool.not_eq_true]

theorem nodup_eraseDups : ∀ names : List String, names.eraseDups.Nodup
  | [] => by simp
  | name :: names => by
      rw [List.eraseDups_cons, List.nodup_cons]
      exact ⟨by simp, nodup_eraseDups _⟩
termination_by names => names.length
decreasing_by exact Nat.lt_succ_of_le (List.length_filter_le ..)

/-- The names in a directory begin the paths of what is in it. -/
theorem exists_names (hfile : fs.isFile path = false) (hblocked : fs.isBlocked path = false)
    (hdirectory : fs.isDirectory path = true) :
    ∃ names, fs.names path = .ok names ∧ names.Nodup ∧ ∀ name, name ∈ names ↔
      ∃ more, fs.isFile (path ++ name :: more) = true ∨ path ++ name :: more ∈ fs.made := by
  rw [Files.names, hfile, hblocked, hdirectory]
  refine ⟨_, rfl, (List.mergeSort_perm ..).nodup_iff.mpr (nodup_eraseDups _), fun name => ?_⟩
  -- a name is listed when some path goes on from the directory with it
  have hstarts : ∀ p : Path,
      (if path.isPrefixOf p then (p.drop path.length).head? else none) = some name ↔
        ∃ more, p = path ++ name :: more := by
    intro p
    rw [Option.ite_none_right_eq_some, List.isPrefixOf_iff_prefix, List.head?_eq_some_iff]
    constructor
    · rintro ⟨⟨rest, rfl⟩, more, hmore⟩
      rw [List.drop_left] at hmore
      exact ⟨more, by rw [hmore]⟩
    · rintro ⟨more, rfl⟩
      exact ⟨List.prefix_append .., more, List.drop_left⟩
  simp only [List.mem_mergeSort, List.mem_eraseDups, List.mem_filterMap, hstarts, List.mem_append,
    List.mem_map, isFile_iff]
  constructor
  · rintro ⟨_, ⟨file, hfile, rfl⟩ | hmade, more, heq⟩
    · exact ⟨more, .inl ⟨file, hfile, heq.symm⟩⟩
    · exact ⟨more, .inr (heq ▸ hmade)⟩
  · rintro ⟨more, ⟨file, hfile, heq⟩ | hmade⟩
    · exact ⟨_, .inl ⟨file, hfile, rfl⟩, more, heq.symm⟩
    · exact ⟨_, .inr hmade, more, rfl⟩

/-- What is there when a directory was made. -/
def withDirectory (fs : Files) (path : Path) : Files := { fs with made := path :: fs.made }

theorem isDirectory_withDirectory (fs : Files) (path : Path) :
    (fs.withDirectory path).isDirectory path = true :=
  isDirectory_iff.mpr (.inr (.inl ⟨[], by simp [withDirectory]⟩))

/-! ### Writing -/

theorem write_eq_ok (h : fs.write path text = .ok fs') :
    fs.isBlocked path = false ∧ fs' = fs.put path text := by
  rw [write] at h
  split at h
  · cases h
  split at h
  · cases h
  · next hblocked =>
    split at h
    · exact ⟨Bool.eq_false_iff.mpr hblocked, (Except.ok.inj h).symm⟩
    · cases h

theorem text?_put_self (fs : Files) (path : Path) (text : String) :
    (fs.put path text).text? path = some text :=
  List.lookup_cons_self

theorem lookup_filter_of_ne (files : List (Path × String)) {path other : Path}
    (hne : other ≠ path) : (files.filter (·.1 ≠ path)).lookup other = files.lookup other :=
  (Json.lookup_filter (· ≠ path) other files).trans (if_pos (decide_eq_true hne))

/-- No other file is touched. -/
theorem text?_put_of_ne (fs : Files) {path other : Path} (hne : other ≠ path) (text : String) :
    (fs.put path text).text? other = fs.text? other := by
  show List.lookup other ((path, text) :: fs.files.filter (·.1 ≠ path)) = _
  rw [List.lookup_cons, beq_false_of_ne hne]
  exact lookup_filter_of_ne fs.files hne

theorem isFile_put (fs : Files) (path other : Path) (text : String) :
    (fs.put path text).isFile other = true ↔ other = path ∨ fs.isFile other = true := by
  rcases eq_or_ne other path with rfl | hne
  · simp [isFile, text?_put_self]
  · simp [isFile, text?_put_of_ne _ hne, hne]

/-- **A file that was written can be read again.** -/
theorem text?_write (h : fs.write path text = .ok fs') : fs'.text? path = some text := by
  obtain ⟨-, rfl⟩ := write_eq_ok h
  exact text?_put_self ..

/-- A directory is there when a file is in it. -/
theorem isDirectory_put (fs : Files) (dir : Path) (name text : String) :
    (fs.put (dir ++ [name]) text).isDirectory dir = true :=
  isDirectory_iff.mpr (.inr (.inr ⟨[name], by simp, (isFile_put ..).mpr (.inl rfl)⟩))

/-- No file is in the way to a path that is not blocked, and none is put there. -/
theorem isFile_put_above {dir above : Path} {name : String}
    (hblocked : fs.isBlocked (dir ++ [name]) = false) (habove : above <+: dir) :
    (fs.put (dir ++ [name]) text).isFile above = false := by
  have hlength : above.length < (dir ++ [name]).length := by
    rw [List.length_append, List.length_singleton]
    exact Nat.lt_succ_of_le habove.length_le
  have hfile := isBlocked_eq_false_iff.mp hblocked above.length hlength
  rw [List.take_append_of_le_length habove.length_le, ← List.prefix_iff_eq_take.mp habove] at hfile
  refine Bool.eq_false_iff.mpr fun hput => ?_
  rcases (isFile_put ..).mp hput with rfl | hthere
  · exact Nat.lt_irrefl _ hlength
  · exact Bool.eq_false_iff.mp hfile hthere

/-- **A file that was written is listed in its directory.** -/
theorem exists_names_write {dir : Path} {name : String}
    (h : fs.write (dir ++ [name]) text = .ok fs') :
    fs'.isThere dir = true ∧ ∃ names, fs'.names dir = .ok names ∧ name ∈ names := by
  obtain ⟨hblocked, rfl⟩ := write_eq_ok h
  have hclear : (fs.put (dir ++ [name]) text).isBlocked dir = false :=
    isBlocked_eq_false_iff.mpr fun _ _ => isFile_put_above hblocked (List.take_prefix ..)
  obtain ⟨names, hnames, -, hmem⟩ :=
    exists_names (isFile_put_above hblocked List.prefix_rfl) hclear (isDirectory_put ..)
  refine ⟨by rw [isThere, isDirectory_put, Bool.or_true], names, hnames,
    (hmem name).mpr ⟨[], .inl ?_⟩⟩
  exact (isFile_put ..).mpr (.inl rfl)

/-! ### Removing -/

/-- What is left when a file is removed; the directory that it was in stays. -/
def without (fs : Files) (path : Path) : Files :=
  { fs with files := fs.files.filter (·.1 ≠ path), made := path.dropLast :: fs.made }

theorem remove_of_isFile (h : fs.isFile path = true) : fs.remove path = .ok (fs.without path) := by
  obtain ⟨text, htext⟩ := Option.isSome_iff_exists.mp h
  rw [remove, find, htext]
  rfl

theorem text?_without_self (fs : Files) (path : Path) : (fs.without path).text? path = none := by
  rw [text?, without, List.lookup_eq_none_iff]
  intro file hfile
  exact bne_iff_ne.mpr (Ne.symm (of_decide_eq_true (List.mem_filter.mp hfile).2))

/-- No other file is touched. -/
theorem text?_without_of_ne (fs : Files) {path other : Path} (hne : other ≠ path) :
    (fs.without path).text? other = fs.text? other :=
  lookup_filter_of_ne fs.files hne

end Files

end AgentGraph
