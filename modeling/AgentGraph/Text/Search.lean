/-!
# Finding text in text
-/

namespace AgentGraph.Text

/-- The text after `p`, when the text starts with `p`. -/
def afterStart? (p : List Char) (cs : List Char) : Option (List Char) :=
  if p.isPrefixOf cs then some (cs.drop p.length) else none

/-- Does the needle occur somewhere in the text? -/
def occursIn (needle : List Char) : List Char → Bool
  | [] => needle.isEmpty
  | c :: rest => needle.isPrefixOf (c :: rest) || occursIn needle rest

/-- Does `needle` occur somewhere in `text`? -/
def contains (text needle : String) : Bool := occursIn needle.toList text.toList

/-- The text before the first occurrence of a needle, and the text from there on. -/
def splitBefore? (needle : List Char) : List Char → Option (List Char × List Char)
  | [] => if needle.isEmpty then some ([], []) else none
  | c :: rest =>
    if needle.isPrefixOf (c :: rest) then some ([], c :: rest)
    else (splitBefore? needle rest).map fun (before, tail) => (c :: before, tail)

theorem splitBefore?_eq_some {needle cs before tail : List Char}
    (h : splitBefore? needle cs = some (before, tail)) : cs = before ++ tail ∧ needle <+: tail := by
  induction cs generalizing before with
  | nil =>
      rw [splitBefore?] at h
      split at h
      next hempty =>
        cases h
        rw [List.isEmpty_iff.mp hempty]
        exact ⟨rfl, List.prefix_rfl⟩
      next => cases h
  | cons c rest ih =>
      rw [splitBefore?] at h
      split at h
      next hprefix =>
        cases h
        exact ⟨rfl, List.isPrefixOf_iff_prefix.mp hprefix⟩
      next =>
        obtain ⟨⟨before, tail⟩, hsplit, heq⟩ := Option.map_eq_some_iff.mp h
        cases heq
        obtain ⟨rfl, hprefix⟩ := ih hsplit
        exact ⟨rfl, hprefix⟩

/-- The text before and after the first occurrence of a character. -/
def splitAtFirst? (c : Char) (s : String) : Option (String × String) :=
  match s.toList.span (· ≠ c) with
  | (_, []) => none
  | (before, _ :: after) => some (String.ofList before, String.ofList after)

/-- A copy of the text without the given characters at its end. -/
def dropEndWhile (p : Char → Bool) (s : String) : String :=
  String.ofList ((s.toList.reverse.dropWhile p).reverse)

end AgentGraph.Text
