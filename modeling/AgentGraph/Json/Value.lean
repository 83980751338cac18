import AgentGraph.Json.Number

/-!
# Reading any value, and passing over one

`Reader.value` reads one value of any shape, nested at most 127 levels deep. `Reader.skipValue`
passes over a value nobody asked for: it keeps no tree, only the open brackets, so it has no limit
of nesting, and it looks less closely (numbers are not computed, surrogates are not paired).
`Reader.wrongType` says what stands where something else was expected.
-/

namespace AgentGraph.Json.Reader

/-- How many levels of nesting a text may have, plus one. -/
def maxDepth : Nat := 128

/-! ### Any value -/

/-- Read a value whose items, if it is a list or object, are read by `inner`; without `inner` it is
nested too deeply. -/
def valueWithin (inner : Option (Reader Json)) : Reader Json := do
  let c ← peekValue
  located <|
    match c with
    | 'n' => do
      skip
      word ['u', 'l', 'l']
      return .null
    | 't' => do
      skip
      word ['r', 'u', 'e']
      return .bool true
    | 'f' => do
      skip
      word ['a', 'l', 's', 'e']
      return .bool false
    | '"' => do
      skip
      return .string (← stringBody)
    | '[' =>
      match inner with
      | none => failAtNext .tooDeep
      | some inner => do
        skip
        return .list (← closedBy (items inner) endList)
    | '\x7b' =>
      match inner with
      | none => failAtNext .tooDeep
      | some inner => do
        skip
        let member (name : String) (read : List (String × Json)) :
            Reader (List (String × Json)) := do
          colon
          return (name, ← inner) :: read
        let members ← closedBy (foldMembers member []) endObject
        return .object members.reverse
    | c =>
      if beginsNumber c then do return .number (← number)
      else failAtNext .missingValue

/-- Read a value with the given number of levels left. -/
def value : (depth : Nat) → Reader Json
  | 0 | 1 => valueWithin none
  | depth + 2 => valueWithin (some (value (depth + 1)))

/-! ### Passing over a value -/

/-- Pass over a string after its opening quote; `fuel` bounds its length. -/
def skipStringRest : (fuel : Nat) → Reader Unit
  | 0 => failHere .endInString
  | fuel + 1 => do
    match ← peek? with
    | none => failHere .endInString
    | some '"' => skip
    | some '\\' => do
      skip
      match ← next? with
      | none => failHere .endInString
      | some 'u' => do
        let _ ← hexEscape
        skipStringRest fuel
      | some c =>
        if (simpleEscape? c).isSome then skipStringRest fuel else failHere .badEscape
    | some c =>
      if c < ' ' then failHere .controlCharacter
      else do
        skip
        skipStringRest fuel

/-- Pass over a string after its opening quote. -/
def skipString : Reader Unit := do
  skipStringRest ((← unread).length + 1)

/-- Pass over the digits of an exponent. -/
def skipExponentDigits : Reader Unit := do
  match ← next? with
  | some c =>
    if c.isDigit then
      let _ ← countDigits
    else failHere .badNumber
  | none => failHere .badNumber

/-- Pass over an exponent, its letter being next. -/
def skipExponent : Reader Unit := do
  skip
  match ← peek? with
  | some '+' | some '-' => skip
  | _ => pure ()
  skipExponentDigits

/-- Pass over an exponent, if there is one. -/
def skipAfterDigits : Reader Unit := do
  match ← peek? with
  | some 'e' | some 'E' => skipExponent
  | _ => return ()

/-- Pass over a fraction, its point being next, and what may follow it. -/
def skipFraction : Reader Unit := do
  skip
  if (← countDigits) = 0 then failAtNext .badNumber
  else skipAfterDigits

/-- Pass over what may follow the digits of a whole number. -/
def skipAfterWhole : Reader Unit := do
  match ← peek? with
  | some '.' => skipFraction
  | _ => skipAfterDigits

/-- Pass over a number after its sign. -/
def skipUnsigned : Reader Unit := do
  match ← next? with
  | some '0' =>
    match ← peekDigit? with
    | some _ => failAtNext .badNumber
    | none => skipAfterWhole
  | some c =>
    if c.isDigit then do
      let _ ← countDigits
      skipAfterWhole
    else failHere .badNumber
  | none => failHere .badNumber

/-- The kinds of nesting. -/
inductive Bracket where
  | list
  | object
deriving DecidableEq, Repr

namespace Bracket

def closing : Bracket → Char
  | list => ']'
  | object => '\x7d'

def earlyEnd : Bracket → SyntaxFault
  | list => .endInList
  | object => .endInObject

def missingComma : Bracket → SyntaxFault
  | list => .missingListComma
  | object => .missingObjectComma

end Bracket

/-- Pass over a member's name and colon; items of a list have none. -/
def skipName : Bracket → Reader Unit
  | .list => return ()
  | .object => do
    match ← peekToken? with
    | none => failAtNext .endInObject
    | some '"' => skip
    | some _ => failAtNext .keyNotString
    skipString
    match ← peekToken? with
    | none => failAtNext .endInObject
    | some ':' => skip
    | some _ => failAtNext .missingColon

/-- What is passed over next: a value, or what follows an opening bracket or a value. -/
inductive SkipPoint where
  | value
  | opened
  | afterItem
deriving DecidableEq, Repr

/-- Pass over the rest of a value inside the given open brackets, the innermost first. Each bracket,
scalar and comma takes at most two steps. -/
def skipLoop : (fuel : Nat) → SkipPoint → List Bracket → Reader Unit
  | 0, _, _ => failHere .endInValue
  | fuel + 1, .value, brackets => do
    let c ← peekValue
    match c with
    | 'n' => do
      skip
      word ['u', 'l', 'l']
      skipLoop fuel .afterItem brackets
    | 't' => do
      skip
      word ['r', 'u', 'e']
      skipLoop fuel .afterItem brackets
    | 'f' => do
      skip
      word ['a', 'l', 's', 'e']
      skipLoop fuel .afterItem brackets
    | '"' => do
      skip
      skipString
      skipLoop fuel .afterItem brackets
    | '-' => do
      skip
      skipUnsigned
      skipLoop fuel .afterItem brackets
    | '[' => do
      skip
      skipLoop fuel .opened (.list :: brackets)
    | '\x7b' => do
      skip
      skipLoop fuel .opened (.object :: brackets)
    | c =>
      if c.isDigit then do
        skipUnsigned
        skipLoop fuel .afterItem brackets
      else failAtNext .missingValue
  | _ + 1, _, [] => return ()
  | fuel + 1, point, bracket :: outer => do
    match ← peekToken? with
    | none => failAtNext bracket.earlyEnd
    | some c =>
      if c = ',' ∧ point = .afterItem then do
        skip
        skipName bracket
        skipLoop fuel .value (bracket :: outer)
      else if c = bracket.closing then do
        skip
        skipLoop fuel .afterItem outer
      else if point = .afterItem then failAtNext bracket.missingComma
      else do
        skipName bracket
        skipLoop fuel .value (bracket :: outer)

/-- Pass over one value. -/
def skipValue : Reader Unit := do
  skipLoop (2 * (← unread).length + 2) .value []

/-! ### The wrong type -/

/-- Stop at the value that is next, which is not `expected`. A scalar is read first, and may turn
out not to be JSON. -/
def wrongType {α : Type} (expected : String) : Reader α := located do
  match ← peek? with
  | some 'n' => do
    skip
    word ['u', 'l', 'l']
    mismatch (.wrongType .null expected)
  | some 't' => do
    skip
    word ['r', 'u', 'e']
    mismatch (.wrongType (.bool true) expected)
  | some 'f' => do
    skip
    word ['a', 'l', 's', 'e']
    mismatch (.wrongType (.bool false) expected)
  | some '"' => do
    skip
    mismatch (.wrongType (.string (← stringBody)) expected)
  | some '[' => mismatch (.wrongType .list expected)
  | some '\x7b' => mismatch (.wrongType .object expected)
  | some c =>
    if beginsNumber c then
      match ← number with
      | .whole n => mismatch (.wrongType (.whole n) expected)
      | .single x => mismatch (.wrongType (.double x.convert) expected)
      | .double x => mismatch (.wrongType (.double x) expected)
    else failAtNext .missingValue
  | none => failAtNext .missingValue

end AgentGraph.Json.Reader

namespace AgentGraph.Json

/-- Read a whole text as a JSON document. -/
def ofText? (text : String) : Except ReadError Json := (Reader.value Reader.maxDepth).runOn text

end AgentGraph.Json
