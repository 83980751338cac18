/-!
# Blanks

Blank characters are the Unicode white space characters, not only the ASCII ones. Labels, intents,
replies and variable names are compared after `trim`, and text counts as missing when it `isBlank`.
-/

namespace AgentGraph.Text

/-- The Unicode `White_Space` property. -/
def isBlankChar (c : Char) : Bool :=
  let n := c.toNat
  (0x9 ≤ n && n ≤ 0xd) || n = 0x20 || n = 0x85 || n = 0xa0 || n = 0x1680 ||
    (0x2000 ≤ n && n ≤ 0x200a) || n = 0x2028 || n = 0x2029 || n = 0x202f || n = 0x205f || n = 0x3000

/-- Drop the characters satisfying `p` from both ends. -/
def trimBy (p : Char → Bool) (s : String) : String :=
  String.ofList (((s.toList.dropWhile p).reverse.dropWhile p).reverse)

/-- Drop the blanks at both ends. -/
def trim (s : String) : String := trimBy isBlankChar s

/-- Nothing but blanks. -/
def isBlank (s : String) : Bool := s.toList.all isBlankChar

/-- Split at every character satisfying `p`, keeping empty pieces; `piece` holds the characters of
the current one in reverse. -/
def splitBy (p : Char → Bool) : (piece : List Char) → List Char → List (List Char)
  | piece, [] => [piece.reverse]
  | piece, c :: rest =>
    if p c then piece.reverse :: splitBy p [] rest else splitBy p (c :: piece) rest

/-- The maximal runs of characters that are not blank. -/
def words (s : String) : List String :=
  ((splitBy isBlankChar [] s.toList).filter (!·.isEmpty)).map String.ofList

/-- The lines of a text, without their line feeds. -/
def lines (s : String) : List String :=
  (splitBy (· = '\n') [] s.toList).map String.ofList

end AgentGraph.Text
