import AgentGraph.Text.GraphicTable
import AgentGraph.Text.Lower

/-!
# Text in quotes, for messages

Messages show a piece of foreign text in double quotes, with a backslash before quotes and
backslashes, short escapes for the usual control characters, and the code point in hexadecimal for
everything that has no glyph of its own.
-/

namespace AgentGraph.Text

/-- The hexadecimal digits of a number, in small letters. -/
def hexDigits (n : Nat) : List Char := Nat.toDigits 16 n

/-- How one character stands inside quotes. -/
def quotedChar (c : Char) : List Char :=
  match c with
  | '"' => ['\\', '"']
  | '\\' => ['\\', '\\']
  | '\n' => ['\\', 'n']
  | '\r' => ['\\', 'r']
  | '\t' => ['\\', 't']
  | '\x00' => ['\\', '0']
  | c =>
    if inRanges GraphicTable.nonGraphic c then
      ['\\', 'u', '\x7b'] ++ hexDigits c.toNat ++ ['\x7d']
    else [c]

/-- A text in double quotes. -/
def quoted (s : String) : String :=
  String.ofList ('"' :: (s.toList.flatMap quotedChar ++ ['"']))

end AgentGraph.Text
