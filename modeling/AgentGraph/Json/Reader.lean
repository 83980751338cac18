import AgentGraph.Json.Fault

/-!
# Reading JSON, character by character

A `Reader` consumes characters from the front of a text. Its state is the text still unread and
nothing else: a place in the text is how much is left. The state survives a fault, because a reader
that stops inside a list or an object still looks for the closing bracket before it reports, and
reports the place after that.

This module holds the leaves: blanks, punctuation, words, strings, and the walk over the items of a
list and the members of an object.
-/

namespace AgentGraph.Json

/-- A reader of `α` from the front of a text. -/
abbrev Reader (α : Type) := ExceptT Fault (StateM (List Char)) α

namespace Reader

/-- The text still unread. -/
def unread : Reader (List Char) := get

/-- The next character, not consumed. -/
def peek? : Reader (Option Char) := do return (← unread).head?

/-- Consume one character. -/
def skip : Reader Unit := modify List.tail

/-- The next character, consumed. -/
def next? : Reader (Option Char) := do
  let c ← peek?
  skip
  return c

/-- Stop here. -/
def failHere {α : Type} (fault : SyntaxFault) : Reader α := do
  throw ⟨.notJson fault, some (byteLength (← unread))⟩

/-- Stop, blaming the next character: the place is one byte further. -/
def failAtNext {α : Type} (fault : SyntaxFault) : Reader α := do
  throw ⟨.notJson fault, some (byteLength (← unread) - 1)⟩

/-- Stop because of the shape; the place is added by whoever knows it. -/
def mismatch {α : Type} (m : Mismatch) : Reader α := throw ⟨.wrongShape m, none⟩

/-- Give a fault without a place the place where it left the reader. -/
def located {α : Type} (r : Reader α) : Reader α := do
  try r
  catch fault =>
    match fault.unread with
    | some _ => throw fault
    | none => throw ⟨fault.cause, some (byteLength (← unread))⟩

/-- Run `body` and then `close` even if `body` faulted; the first fault counts. -/
def closedBy {α : Type} (body : Reader α) (close : Reader Unit) : Reader α := fun s =>
  match body s with
  | (.ok a, s) =>
    match close s with
    | (.ok (), s) => (.ok a, s)
    | (.error fault, s) => (.error fault, s)
  | (.error fault, s) => (.error fault, (close s).2)

/-- The blanks of JSON. -/
def isBlank (c : Char) : Bool := c = ' ' || c = '\n' || c = '\t' || c = '\r'

def skipBlanks : Reader Unit := modify (·.dropWhile isBlank)

/-- The next character after blanks, not consumed. -/
def peekToken? : Reader (Option Char) := do
  skipBlanks
  peek?

/-- The next character after blanks, not consumed, where a value has to begin. -/
def peekValue : Reader Char := do
  match ← peekToken? with
  | some c => return c
  | none => failAtNext .endInValue

/-- Consume the rest of a fixed word. -/
def word : List Char → Reader Unit
  | [] => return ()
  | c :: rest => do
    match ← next? with
    | none => failHere .endInValue
    | some d => if d = c then word rest else failHere .badWord

/-- Enter one level of nesting, of which `depth` are left, past its opening bracket. -/
def nested {α : Type} (depth : Nat) (body : Nat → Reader α) : Reader α :=
  match depth with
  | 0 | 1 => failAtNext .tooDeep
  | depth + 1 => do
    skip
    body depth

/-! ### Strings -/

/-- The value of a hexadecimal digit. -/
def hexValue? (c : Char) : Option Nat :=
  if '0' ≤ c ∧ c ≤ '9' then some (c.toNat - '0'.toNat)
  else if 'a' ≤ c ∧ c ≤ 'f' then some (c.toNat - 'a'.toNat + 10)
  else if 'A' ≤ c ∧ c ≤ 'F' then some (c.toNat - 'A'.toNat + 10)
  else none

/-- The value of four hexadecimal digits. -/
def hexValue4? (a b c d : Char) : Option Nat := do
  let a ← hexValue? a
  let b ← hexValue? b
  let c ← hexValue? c
  let d ← hexValue? d
  return ((a * 16 + b) * 16 + c) * 16 + d

/-- Read four hexadecimal digits. With fewer than four bytes left the text ended too early;
otherwise a bad digit is blamed on the place after the four bytes. -/
def hexEscape : Reader Nat := do
  let cs ← unread
  match cs with
  | a :: b :: c :: d :: rest =>
    match hexValue4? a b c d with
    | some n =>
      set rest
      return n
    | none => throw ⟨.notJson .badEscape, some (byteLength cs - 4)⟩
  | cs =>
    if byteLength cs < 4 then throw ⟨.notJson .endInString, some 0⟩
    else throw ⟨.notJson .badEscape, some (byteLength cs - 4)⟩

/-- Read one given character of a surrogate pair's second half. -/
def pairMark (c : Char) : Reader Unit := do
  match ← peek? with
  | none => failHere .endInString
  | some d => if d = c then skip else failAtNext .endInSurrogatePair

/-- Read the rest of a `\u` escape. A high surrogate must be followed by the escape of a low one. -/
def unicodeEscape : Reader Char := do
  let n ← hexEscape
  if 0xdc00 ≤ n ∧ n ≤ 0xdfff then failHere .loneSurrogate
  else if n < 0xd800 ∨ 0xdbff < n then return Char.ofNat n
  else
    pairMark '\\'
    pairMark 'u'
    let low ← hexEscape
    if low < 0xdc00 ∨ 0xdfff < low then failHere .loneSurrogate
    else return Char.ofNat (0x10000 + (n - 0xd800) * 0x400 + (low - 0xdc00))

/-- The character that a one-letter escape stands for. -/
def simpleEscape? (c : Char) : Option Char :=
  match c with
  | '"' => some '"'
  | '\\' => some '\\'
  | '/' => some '/'
  | 'b' => some '\x08'
  | 'f' => some '\x0c'
  | 'n' => some '\n'
  | 'r' => some '\r'
  | 't' => some '\t'
  | _ => none

/-- Read an escape after its backslash. -/
def escape : Reader Char := do
  match ← next? with
  | none => failHere .endInString
  | some 'u' => unicodeEscape
  | some c =>
    match simpleEscape? c with
    | some d => return d
    | none => failHere .badEscape

/-- Read the characters of a string up to and with the closing quote; `read` holds those already
read, in reverse, and `fuel` bounds their number. -/
def stringRest : (fuel : Nat) → (read : List Char) → Reader String
  | 0, _ => failHere .endInString
  | fuel + 1, read => do
    match ← next? with
    | none => failHere .endInString
    | some '"' => return String.ofList read.reverse
    | some '\\' => do
      let c ← escape
      stringRest fuel (c :: read)
    | some c => if c < ' ' then failHere .controlCharacter else stringRest fuel (c :: read)

/-- Read a string after its opening quote. -/
def stringBody : Reader String := do
  stringRest ((← unread).length + 1) []

/-! ### Walking lists and objects -/

/-- Is there another item? `first` says that none was read yet. -/
def hasItem (first : Bool) : Reader Bool := do
  match ← peekToken? with
  | none => failAtNext .endInList
  | some ']' => return false
  | some ',' =>
    if first then return true
    else
      skip
      match ← peekToken? with
      | none => failAtNext .endInValue
      | some ']' => failAtNext .trailingComma
      | some _ => return true
  | some _ => if first then return true else failAtNext .missingListComma

/-- The end of a list. Anything but the bracket means that items are left over. -/
def endList : Reader Unit := do
  match ← peekToken? with
  | none => failAtNext .endInList
  | some ']' => skip
  | some ',' =>
    skip
    match ← peekToken? with
    | some ']' => failAtNext .trailingComma
    | _ => failAtNext .trailingCharacters
  | some _ => failAtNext .trailingCharacters

/-- Read the items of a list up to its closing bracket; `fuel` bounds their number. -/
def itemsRest {α : Type} (item : Reader α) :
    (fuel : Nat) → (first : Bool) → (read : List α) → Reader (List α)
  | 0, _, read => return read.reverse
  | fuel + 1, first, read => do
    if ← hasItem first then
      let a ← item
      itemsRest item fuel false (a :: read)
    else return read.reverse

/-- Read the items of a list, past its opening bracket. -/
def items {α : Type} (item : Reader α) : Reader (List α) := do
  itemsRest item ((← unread).length + 1) true []

/-- Is there another member? If so the quote before its name is next. -/
def hasMember (first : Bool) : Reader Bool := do
  match ← peekToken? with
  | none => failAtNext .endInObject
  | some '\x7d' => return false
  | some c =>
    if first then
      if c = '"' then return true else failAtNext .keyNotString
    else if c = ',' then
      skip
      match ← peekToken? with
      | none => failAtNext .endInValue
      | some '"' => return true
      | some '\x7d' => failAtNext .trailingComma
      | some _ => failAtNext .keyNotString
    else failAtNext .missingObjectComma

/-- The end of an object. -/
def endObject : Reader Unit := do
  match ← peekToken? with
  | none => failAtNext .endInObject
  | some '\x7d' => skip
  | some ',' => failAtNext .trailingComma
  | some _ => failAtNext .trailingCharacters

/-- The colon after a name. -/
def colon : Reader Unit := do
  match ← peekToken? with
  | none => failAtNext .endInObject
  | some ':' => skip
  | some _ => failAtNext .missingColon

/-- Fold over the members of an object, past its opening brace: `member` reads one member after its
name and updates the value folded. -/
def membersRest {σ : Type} (member : String → σ → Reader σ) :
    (fuel : Nat) → (first : Bool) → σ → Reader σ
  | 0, _, folded => return folded
  | fuel + 1, first, folded => do
    if ← hasMember first then
      skip
      let name ← stringBody
      membersRest member fuel false (← member name folded)
    else return folded

/-- Fold over the members of an object, past its opening brace. -/
def foldMembers {σ : Type} (member : String → σ → Reader σ) (start : σ) : Reader σ := do
  membersRest member ((← unread).length + 1) true start

/-- Read a whole text: blanks may follow the value, nothing else. -/
def wholeText {α : Type} (r : Reader α) : Reader α := do
  let a ← r
  match ← peekToken? with
  | none => return a
  | some _ => failAtNext .trailingCharacters

/-- Run a reader on a text. -/
def runOn {α : Type} (r : Reader α) (text : String) : Except ReadError α :=
  match (wholeText r).run text.toList with
  | (.ok a, _) => .ok a
  | (.error fault, _) => .error (fault.inText text)

end Reader

end AgentGraph.Json
