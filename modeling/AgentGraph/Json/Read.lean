import AgentGraph.Json.Decode

/-!
# Reading a format from a text

`Format.read` reads a value while it consumes the text, so the first fault in the text counts, be it
a fault of syntax or of shape. Inside a list or object that faulted the reader still looks for the
closing bracket, and a fault of shape is placed where it then stands.

The contents of a tagged union may precede its tag, so they are set aside as a document and decoded
when the tag is known; what is wrong with them has no place until an enclosing list or object gives
it one.
-/

namespace AgentGraph.Json

open Numeric Reader

namespace Reader

/-- Go on with a result computed from what was read. -/
def check {α : Type} (result : Except Mismatch α) : Reader α :=
  match result with
  | .ok a => return a
  | .error m => mismatch m

/-- Read a string and go on with what it stands for. -/
def stringAs {α : Type} (expected : String) (meaning : String → Except Mismatch α) : Reader α := do
  if (← peekValue) = '"' then
    located do
      skip
      check (meaning (← stringBody))
  else wrongType expected

/-- Read a number and go on with what it stands for. -/
def numberAs {α : Type} (expected : String) (meaning : Number → Except Mismatch α) : Reader α := do
  if beginsNumber (← peekValue) then
    located do
      check (meaning (← number))
  else wrongType expected

/-- Read null. -/
def nullWord : Reader Unit := do
  if (← peekValue) = 'n' then
    located do
      skip
      word ['u', 'l', 'l']
  else wrongType "unit"

/-- Read an alternative: its bare name, or an object with its contents under its name. -/
def alternative {α : Type} (depth : Nat) (bare : Reader α) (full : (depth : Nat) → Reader α) :
    Reader α := do
  match ← peekValue with
  | '"' => bare
  | '\x7b' => do
    let a ← nested depth full
    match ← peekToken? with
    | some '\x7d' => do
      skip
      return a
    | some _ => failHere .missingValue
    | none => failHere .endInObject
  | _ => failAtNext .missingValue

/-- Read the name of an alternative among those known. -/
def label (known : List String) : Reader String :=
  stringAs "variant identifier" fun s =>
    if s ∈ known then .ok s else .error (.unknownVariant s known)

/-- Read a list of items. -/
def listOf {α : Type} (depth : Nat) (expected : String) (body : (depth : Nat) → Reader α) :
    Reader α := do
  if (← peekValue) = '[' then located (closedBy (nested depth body) endList)
  else wrongType expected

/-- Read a record given as a list of its fields or as an object. -/
def recordOf {α : Type} (depth : Nat) (expected : String)
    (fromList fromObject : (depth : Nat) → Reader α) : Reader α := do
  match ← peekValue with
  | '[' => located (closedBy (nested depth fromList) endList)
  | '\x7b' => located (closedBy (nested depth fromObject) endObject)
  | _ => wrongType expected

/-- Read a union up to its contents: the tag, wherever it stands, and the rest as a document. -/
def tagAndRest (depth : Nat) (name tag : String) (known : List String) :
    Reader (String × Json) := do
  let fromList (depth : Nat) : Reader (String × Json) := do
    if ← hasItem true then
      let found ← label known
      let rest ← itemsRest (value depth) ((← unread).length + 1) false []
      return (found, .list rest)
    else mismatch (.missingField tag)
  let member (depth : Nat) (key : String) (acc : Option String × List (String × Json)) :
      Reader (Option String × List (String × Json)) := do
    if key = tag then
      if acc.1.isSome then mismatch (.duplicateField tag)
      else
        colon
        return (some (← label known), acc.2)
    else
      colon
      return (acc.1, (key, ← value depth) :: acc.2)
  let fromObject (depth : Nat) : Reader (String × Json) := do
    let (found, rest) ← foldMembers (member depth) (none, [])
    match found with
    | some found => return (found, .object rest.reverse)
    | none => mismatch (.missingField tag)
  recordOf depth s!"internally tagged enum {name}" fromList fromObject

end Reader

/-- Read a record from an object: `member` reads one member of a given name, or is none for a name
that is no field. -/
def Fields.readObject {β σ : Type} (fields : Fields β σ)
    (member : String → σ → Option (Reader σ)) : Reader β := do
  let step (name : String) (known : σ) : Reader σ := do
    match member name known with
    | some read => read
    | none => do
      colon
      skipValue
      return known
  let known ← foldMembers step fields.unknown
  check (fields.complete known)

mutual

/-- Read a value, with `depth` levels of nesting left. -/
def Format.read : {α : Type} → Format α → (depth : Nat) → Reader α
  | _, .text, _ => stringAs "a string" .ok
  | _, .single, _ => numberAs "f32" fun n => .ok n.toSingle
  | _, .word32, _ => numberAs "u32" fun n => (n.toWord (Nat.pow 2 32) "u32").map UInt32.ofNat
  | _, .word64 name, _ => numberAs name fun n => (n.toWord (Nat.pow 2 64) name).map UInt64.ofNat
  | _, .coded expected parse _, _ => stringAs expected fun s => (parse s).mapError .malformed
  | _, .names table _, depth =>
    let named := stringAs "variant identifier" (lookUpName table)
    alternative depth named fun _ => do
      let a ← named
      colon
      nullWord
      return a
  | _, .option f, depth => do
    match ← peekToken? with
    | some 'n' => do
      skip
      word ['u', 'l', 'l']
      return none
    | _ => return some (← f.read depth)
  | _, .list f, depth => listOf depth "a sequence" fun depth => Reader.items (f.read depth)
  | _, .any, depth => return (← value depth).canonical
  | _, .record name fields make _, depth => do
    let expected := s!"struct {name}"
    let b ← recordOf depth expected
      (fun depth => fields.readItems depth s!"{expected} with {elements fields.count}" 0)
      (fun depth => fields.readObject (fields.readMember depth))
    return make b
  | _, .tagged name tag cases, depth => do
    let (label, rest) ← tagAndRest depth name tag cases.tags
    check (cases.decode name label rest)
  | _, .choice _ alternatives, depth =>
    alternative depth
      (do
        let found ← label alternatives.labels
        alternatives.readBare found)
      (fun depth => do
        let found ← label alternatives.labels
        colon
        alternatives.readContents depth found)

/-- Read the fields from a list; `index` of them were read. -/
def Fields.readItems : {β σ : Type} → Fields β σ → (depth : Nat) → (expected : String) →
    (index : Nat) → Reader β
  | _, _, .nil, _, _, _ => return ()
  | _, _, .cons _ f absence rest, depth, expected, index => do
    let a ←
      if ← hasItem (index = 0) then f.read depth
      else
        match absence.inList with
        | some a => pure a
        | none => mismatch (.wrongLength index expected)
    return (a, ← rest.readItems depth expected (index + 1))

/-- Read one member, past its name, when it is a field. -/
def Fields.readMember : {β σ : Type} → Fields β σ → (depth : Nat) → (name : String) → σ →
    Option (Reader σ)
  | _, _, .nil, _, _, _ => none
  | _, _, .cons field f _ rest, depth, name, (a?, others) =>
    if name = field then
      some do
        if a?.isSome then mismatch (.duplicateField field)
        else
          colon
          return (some (← f.read depth), others)
    else (rest.readMember depth name others).map fun read => return (a?, ← read)

/-- An alternative given by its bare name, which has none of its contents. -/
def Alternatives.readBare : {α : Type} → Alternatives α → (label : String) → Reader α
  | _, .nil, label => mismatch (.unknownVariant label [])
  | _, .one found _ _ _ rest, label =>
    if label = found then mismatch (.wrongType .bareName "newtype variant")
    else rest.readBare label
  | _, .several found _ _ _ _ rest, label =>
    if label = found then mismatch (.wrongType .bareName "tuple variant")
    else rest.readBare label

/-- Read the contents of an alternative. -/
def Alternatives.readContents : {α : Type} → Alternatives α → (depth : Nat) → (label : String) →
    Reader α
  | _, .nil, _, label => mismatch (.unknownVariant label [])
  | _, .one found f make _ rest, depth, label =>
    if label = found then return make (← f.read depth)
    else rest.readContents depth label
  | _, .several found name fields make _ rest, depth, label =>
    if label = found then do
      let b ← listOf depth name fun depth =>
        fields.readItems depth s!"{name} with {elements fields.count}" 0
      return make b
    else rest.readContents depth label

end

/-- Read a whole text as a value. -/
def Format.ofText? {α : Type} (f : Format α) (text : String) : Except ReadError α :=
  (f.read Reader.maxDepth).runOn text

end AgentGraph.Json
