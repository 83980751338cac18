import AgentGraph.Numeric.Shortest
import AgentGraph.Text.Quoted

/-!
# What can be wrong with a JSON text

A text may not be JSON at all (`SyntaxFault`), or be JSON of the wrong shape (`Mismatch`). Faults
carry the place where reading stopped, counted in bytes still unread; `Position` is that place in
lines and columns. A mismatch found in a value that was read earlier has no place.
-/

namespace AgentGraph.Json

open Numeric Text

/-- Ways in which a text is not JSON. -/
inductive SyntaxFault where
  | endInValue
  | endInList
  | endInObject
  | endInString
  | missingColon
  | missingListComma
  | missingObjectComma
  | badWord
  | missingValue
  | badEscape
  | badNumber
  | numberTooLarge
  | controlCharacter
  | keyNotString
  | loneSurrogate
  | endInSurrogatePair
  | trailingComma
  | trailingCharacters
  | tooDeep
deriving DecidableEq, Repr

namespace SyntaxFault

def message : SyntaxFault → String
  | endInValue => "EOF while parsing a value"
  | endInList => "EOF while parsing a list"
  | endInObject => "EOF while parsing an object"
  | endInString => "EOF while parsing a string"
  | missingColon => "expected `:`"
  | missingListComma => "expected `,` or `]`"
  | missingObjectComma => "expected `,` or `\x7d`"
  | badWord => "expected ident"
  | missingValue => "expected value"
  | badEscape => "invalid escape"
  | badNumber => "invalid number"
  | numberTooLarge => "number out of range"
  | controlCharacter => "control character (\\u0000-\\u001F) found while parsing a string"
  | keyNotString => "key must be a string"
  | loneSurrogate => "lone leading surrogate in hex escape"
  | endInSurrogatePair => "unexpected end of hex escape"
  | trailingComma => "trailing comma"
  | trailingCharacters => "trailing characters"
  | tooDeep => "recursion limit exceeded"

/-- Did the text merely end too early? -/
def isEarlyEnd : SyntaxFault → Bool
  | endInValue | endInList | endInObject | endInString => true
  | _ => false

end SyntaxFault

/-- What was found where something else was expected. -/
inductive Found where
  | null
  | bool (value : Bool)
  | whole (value : Int)
  | double (value : Double)
  | string (value : String)
  | list
  | object
  | bareName
deriving DecidableEq, Repr

def Found.describe : Found → String
  | null => "null"
  | bool value => s!"boolean `{value}`"
  | whole value => s!"integer `{value}`"
  | double value =>
    let text := value.decimal?.getD "NaN"
    s!"floating point `{text}`"
  | string value => s!"string {quoted value}"
  | list => "sequence"
  | object => "map"
  | bareName => "unit variant"

/-- Ways in which a JSON document has the wrong shape. -/
inductive Mismatch where
  | wrongType (found : Found) (expected : String)
  | wrongValue (found : Found) (expected : String)
  | wrongLength (length : Nat) (expected : String)
  | missingField (name : String)
  | duplicateField (name : String)
  | unknownVariant (name : String) (known : List String)
  | malformed (reason : String)
deriving DecidableEq, Repr

/-- The list of names a message offers: none, one, two, or more. -/
def oneOf (names : List String) : String :=
  match names with
  | [] => "there are no variants"
  | [a] => s!"expected `{a}`"
  | [a, b] => s!"expected `{a}` or `{b}`"
  | names => "expected one of " ++ ", ".intercalate (names.map fun n => s!"`{n}`")

def Mismatch.message : Mismatch → String
  | wrongType found expected => s!"invalid type: {found.describe}, expected {expected}"
  | wrongValue found expected => s!"invalid value: {found.describe}, expected {expected}"
  | wrongLength length expected => s!"invalid length {length}, expected {expected}"
  | missingField name => s!"missing field `{name}`"
  | duplicateField name => s!"duplicate field `{name}`"
  | unknownVariant name known => s!"unknown variant `{name}`, {oneOf known}"
  | malformed reason => reason

/-- Why a text cannot be read. -/
inductive Cause where
  | notJson (fault : SyntaxFault)
  | wrongShape (mismatch : Mismatch)
deriving DecidableEq, Repr

def Cause.message : Cause → String
  | notJson fault => fault.message
  | wrongShape mismatch => mismatch.message

/-- A fault while reading, at the place where the given number of bytes was still unread. -/
structure Fault where
  cause : Cause
  unread : Option Nat
deriving DecidableEq, Repr

/-- A place in a text: lines count from 1, columns count the bytes since the last line feed. -/
structure Position where
  line : Nat
  column : Nat
deriving DecidableEq, Repr

/-- The number of bytes of a list of characters. -/
def byteLength (cs : List Char) : Nat := cs.foldl (fun n c => n + c.utf8Size) 0

/-- The place reached after the given number of bytes. -/
def Position.afterBytes (text : String) (count : Nat) : Position :=
  text.toUTF8.toList.take count |>.foldl
    (fun p b => if b = 10 then ⟨p.line + 1, 0⟩ else ⟨p.line, p.column + 1⟩) ⟨1, 0⟩

/-- Why a whole text cannot be read, and where. -/
structure ReadError where
  cause : Cause
  position : Option Position
deriving DecidableEq, Repr

/-- A fault, placed in the text it was found in. -/
def Fault.inText (fault : Fault) (text : String) : ReadError :=
  ⟨fault.cause, fault.unread.map fun n => .afterBytes text (text.utf8ByteSize - n)⟩

/-- The message with the place, when there is one. -/
def ReadError.message (e : ReadError) : String :=
  match e.position with
  | some p => s!"{e.cause.message} at line {p.line} column {p.column}"
  | none => e.cause.message

end AgentGraph.Json
