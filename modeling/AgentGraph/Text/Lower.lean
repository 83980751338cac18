import AgentGraph.Text.CaseTable

/-!
# Lower case

`lower` is the full Unicode lower-case mapping of a text. Two characters are special: the dotted
capital I becomes two characters, and a capital sigma becomes the final form at the end of a word.

`equalIgnoringAsciiCase` is a coarser comparison of another kind: it identifies the ASCII letters
only.
-/

namespace AgentGraph.Text

/-- Membership in a table of closed ranges. -/
def inRanges (table : Array (Nat × Nat)) (c : Char) : Bool :=
  table.any fun (first, last) => first ≤ c.toNat && c.toNat ≤ last

/-- The lower-case form of a code point that has a single one of its own. -/
def lowerCodePoint (n : Nat) : Nat :=
  let run := CaseTable.lowerRuns.find? fun (first, last, step, _) =>
    first ≤ n && n ≤ last && (n - first) % step = 0
  match run with
  | some (first, _, _, target) => target + (n - first)
  | none => n

def capitalSigma : Char := 'Σ'

/-- Past the characters that are looked through, does a letter with case come first? -/
def meetsCased (cs : List Char) : Bool :=
  match cs.dropWhile (inRanges CaseTable.caseIgnorable) with
  | c :: _ => inRanges CaseTable.cased c
  | [] => false

/-- The lower-case form of a sigma between `before` (nearest character first) and `after`: final at
the end of a word, that is, after a letter and not before one. -/
def lowerSigma (before after : List Char) : Char :=
  if meetsCased before && !meetsCased after then 'ς' else 'σ'

/-- The lower-case form of one character in its place. -/
def lowerAt (before : List Char) (c : Char) (after : List Char) : List Char :=
  if c.toNat < 0x80 then [c.toLower]
  else if c = capitalSigma then [lowerSigma before after]
  else if c = 'İ' then ['i', '\u0307']
  else [Char.ofNat (lowerCodePoint c.toNat)]

/-- Lower the characters of a text, `before` being those already passed, in reverse. -/
def lowerFrom : (before : List Char) → List Char → List Char
  | _, [] => []
  | before, c :: rest => lowerAt before c rest ++ lowerFrom (c :: before) rest

/-- The lower-case form of a text. -/
def lower (s : String) : String := String.ofList (lowerFrom [] s.toList)

/-- Equality up to the case of the letters A to Z. -/
def equalIgnoringAsciiCase (s t : String) : Bool :=
  s.toList.map Char.toLower = t.toList.map Char.toLower

end AgentGraph.Text
