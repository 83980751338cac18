import AgentGraph.Json.Basic
import AgentGraph.Text.Quoted

/-!
# Writing JSON

`Json.compact` writes a document on one line without blanks, `Json.pretty` with one member or item a
line, indented by two spaces a level; empty lists and objects stay on one line in both. Inside
strings only quotes, backslashes and control characters are escaped.

The printers put the text of a value in front of whatever follows it, so that "the text of `v`, then
`rest`" is `v.print style depth rest` and a reader's law can be stated for every `rest`.
-/

namespace AgentGraph.Json

open Text (hexDigits)

/-- The two layouts of a document. -/
inductive Style where
  | compact
  | pretty
deriving DecidableEq, Repr

namespace Style

/-- What stands before an item at the given depth. -/
def lineBreak (style : Style) (depth : Nat) : List Char :=
  match style with
  | compact => []
  | pretty => '\n' :: List.replicate (2 * depth) ' '

/-- What stands between a name and its value. -/
def colon : Style → List Char
  | compact => [':']
  | pretty => [':', ' ']

end Style

/-- How one character stands inside a string. -/
def escapeChar (c : Char) : List Char :=
  match c with
  | '"' => ['\\', '"']
  | '\\' => ['\\', '\\']
  | '\n' => ['\\', 'n']
  | '\r' => ['\\', 'r']
  | '\t' => ['\\', 't']
  | '\x08' => ['\\', 'b']
  | '\x0c' => ['\\', 'f']
  | c =>
    if c < ' ' then
      let digits := hexDigits c.toNat
      '\\' :: 'u' :: (List.replicate (4 - digits.length) '0' ++ digits)
    else [c]

/-- The characters of a string, escaped, before `rest`. -/
def printChars : List Char → List Char → List Char
  | [], rest => rest
  | c :: cs, rest => escapeChar c ++ printChars cs rest

/-- A string in quotes, before `rest`. -/
def printString (s : String) (rest : List Char) : List Char :=
  '"' :: printChars s.toList ('"' :: rest)

mutual

/-- The text of a document at a nesting depth, before `rest`. -/
def print (style : Style) (depth : Nat) : Json → List Char → List Char
  | null, rest => 'n' :: 'u' :: 'l' :: 'l' :: rest
  | bool true, rest => 't' :: 'r' :: 'u' :: 'e' :: rest
  | bool false, rest => 'f' :: 'a' :: 'l' :: 's' :: 'e' :: rest
  | number n, rest => (n.text?.getD "null").toList ++ rest
  | string s, rest => printString s rest
  | list [], rest => '[' :: ']' :: rest
  | list (v :: vs), rest =>
    '[' :: (style.lineBreak (depth + 1) ++
      print style (depth + 1) v (printItems style depth vs rest))
  | object [], rest => '\x7b' :: '\x7d' :: rest
  | object ((name, v) :: ms), rest =>
    '\x7b' :: (style.lineBreak (depth + 1) ++
      printString name (style.colon ++
        print style (depth + 1) v (printMembers style depth ms rest)))

/-- The items after the first one, and the closing bracket. -/
def printItems (style : Style) (depth : Nat) : List Json → List Char → List Char
  | [], rest => style.lineBreak depth ++ ']' :: rest
  | v :: vs, rest =>
    ',' :: (style.lineBreak (depth + 1) ++
      print style (depth + 1) v (printItems style depth vs rest))

/-- The members after the first one, and the closing brace. -/
def printMembers (style : Style) (depth : Nat) : List (String × Json) → List Char → List Char
  | [], rest => style.lineBreak depth ++ '\x7d' :: rest
  | (name, v) :: ms, rest =>
    ',' :: (style.lineBreak (depth + 1) ++
      printString name (style.colon ++
        print style (depth + 1) v (printMembers style depth ms rest)))

end

/-- The text of a document in one of the two layouts. -/
def render (style : Style) (v : Json) : String := String.ofList (v.print style 0 [])

/-- The text of a document on one line, without blanks. -/
def compact (v : Json) : String := v.render .compact

/-- The text of a document over several lines. -/
def pretty (v : Json) : String := v.render .pretty

end AgentGraph.Json
