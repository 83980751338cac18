import AgentGraph.Json.Format
import AgentGraph.Json.Value

/-!
# Decoding a document in memory

`Format.decode` gives the value that a document represents, or the first mismatch in the order of
the document's members and items.
-/

namespace AgentGraph.Json

open Numeric

/-- The 32-bit number nearest to a number. -/
def Number.toSingle : Number → Single
  | whole n => .ofInt n
  | single x => x
  | double x => x.convert

/-- What a number is called in a message. -/
def Number.found : Number → Found
  | whole n => .whole n
  | single x => .double x.convert
  | double x => .double x

/-- A whole number below `bound`. -/
def Number.toWord (bound : Nat) (expected : String) : Number → Except Mismatch Nat
  | whole n =>
    if 0 ≤ n ∧ n < bound then .ok n.toNat else .error (.wrongValue (.whole n) expected)
  | n => .error (.wrongType n.found expected)

/-- What a document is called in a message. -/
def found : Json → Found
  | .null => .null
  | .bool b => .bool b
  | .number n => n.found
  | .string s => .string s
  | .list _ => .list
  | .object _ => .object

/-- The value that a name stands for. -/
def lookUpName {α : Type} (table : List (String × α)) (name : String) : Except Mismatch α :=
  match table.lookup name with
  | some a => .ok a
  | none => .error (.unknownVariant name (table.map (·.1)))

/-! ### Documents in memory

There are two ways to hold a document in memory, and they differ in a few messages: as a value of
its own, or set aside while a tagged union looks for its tag. -/

/-- How a document in memory is held. -/
inductive Holding where
  | value
  | setAside
deriving DecidableEq, Repr

/-- A list of `length` items of which only the first `used` were asked for. -/
def Holding.leftOver (holding : Holding) (length used : Nat) : Mismatch :=
  match holding with
  | value => .wrongLength length "fewer elements in array"
  | setAside => .wrongLength length s!"{elements used} in sequence"

/-- What stands for an alternative: its name, and the contents given with it, if any. -/
def Holding.alternative : Json → Except Mismatch (String × Option Json)
  | .string name => .ok (name, none)
  | .object [(name, contents)] => .ok (name, some contents)
  | .object _ => .error (.wrongValue .object "map with a single key")
  | v => .error (.wrongType v.found "string or map")

/-- An alternative without contents may be given null, and an empty object where it was set
aside. -/
def Holding.noContents (holding : Holding) : Option Json → Except Mismatch Unit
  | none | some .null => .ok ()
  | some (.object []) =>
    if holding = .setAside then .ok () else .error (.wrongType .object "unit")
  | some v => .error (.wrongType v.found "unit")

/-- The tag of a union and the rest of it: of an object the other members, of a list the other
items. -/
def splitTag (name tag : String) (known : List String) : Json → Except Mismatch (String × Json)
  | .object ms => do
    let step (acc : Option String × List (String × Json)) (m : String × Json) := do
      if m.1 = tag then
        if acc.1.isSome then throw (.duplicateField tag)
        return (some (← tagOf m.2), acc.2)
      else return (acc.1, m :: acc.2)
    let (found, rest) ← ms.foldlM step (none, [])
    match found with
    | some label => return (label, .object rest.reverse)
    | none => throw (.missingField tag)
  | .list (v :: vs) => do return (← tagOf v, .list vs)
  | .list [] => .error (.missingField tag)
  | v => .error (.wrongType v.found s!"internally tagged enum {name}")
where
  /-- A tag must be one of the known names. -/
  tagOf : Json → Except Mismatch String
    | .string s => if s ∈ known then .ok s else .error (.unknownVariant s known)
    | v => .error (.wrongType v.found "variant identifier")

/-- The values of the fields after an object was read: what was not given has its default. -/
def Fields.complete : {β σ : Type} → Fields β σ → σ → Except Mismatch β
  | _, _, .nil, _ => .ok ()
  | _, _, .cons name _ absence rest, (known, others) => do
    match known <|> absence.inObject with
    | some a => return (a, ← rest.complete others)
    | none => throw (.missingField name)

/-- The fields of a record, from an object or a list: `member` takes note of one member, `items`
reads the values in order. -/
def Fields.decodeRecord {β σ : Type} (fields : Fields β σ) (holding : Holding) (expected : String)
    (member : String → Json → σ → Except Mismatch σ)
    (items : (expected : String) → List Json → Except Mismatch β) : Json → Except Mismatch β
  | .object ms => do
    let known ← ms.foldlM (fun known (name, v) => member name v known) fields.unknown
    fields.complete known
  | .list vs => do
    let b ← items s!"{expected} with {elements fields.count}" vs
    if vs.length ≤ fields.count then return b
    else throw (holding.leftOver vs.length fields.count)
  | v => .error (.wrongType v.found expected)

mutual

/-- The value that a document represents. -/
def Format.decode (holding : Holding) : {α : Type} → Format α → Json → Except Mismatch α
  | _, .text, v =>
    match v with
    | .string s => .ok s
    | v => .error (.wrongType v.found "a string")
  | _, .single, v =>
    match v with
    | .number n => .ok n.toSingle
    | v => .error (.wrongType v.found "f32")
  | _, .word32, v =>
    match v with
    | .number n => (n.toWord (Nat.pow 2 32) "u32").map UInt32.ofNat
    | v => .error (.wrongType v.found "u32")
  | _, .word64 name, v =>
    match v with
    | .number n => (n.toWord (Nat.pow 2 64) name).map UInt64.ofNat
    | v => .error (.wrongType v.found name)
  | _, .coded expected parse _, v =>
    match v with
    | .string s => (parse s).mapError .malformed
    | v => .error (.wrongType v.found expected)
  | _, .names table _, v => do
    let (name, contents) ← Holding.alternative v
    let a ← lookUpName table name
    holding.noContents contents
    return a
  | _, .option f, v =>
    match v with
    | .null => .ok none
    | v => (f.decode holding v).map some
  | _, .list f, v =>
    match v with
    | .list vs => vs.mapM (f.decode holding)
    | v => .error (.wrongType v.found "a sequence")
  | _, .any, v => .ok v.canonical
  | _, .record name fields make _, v =>
    (fields.decodeRecord holding s!"struct {name}"
      (fun n v known => fields.decodeMember holding n v known)
      (fun expected vs => fields.decodeItems holding expected 0 vs) v).map make
  | _, .tagged name tag cases, v => do
    let (label, rest) ← splitTag name tag cases.tags v
    cases.decode name label rest
  | _, .choice name alternatives, v => do
    let (label, contents) ← Holding.alternative v
    alternatives.decode holding name alternatives.labels label contents

/-- Take note of one member; members that are no fields are ignored. -/
def Fields.decodeMember (holding : Holding) : {β σ : Type} → Fields β σ → (name : String) → Json →
    σ → Except Mismatch σ
  | _, _, .nil, _, _, known => .ok known
  | _, _, .cons field f _ rest, name, v, (a?, others) => do
    if name = field then
      if a?.isSome then throw (.duplicateField field)
      return (some (← f.decode holding v), others)
    else return (a?, ← rest.decodeMember holding name v others)

/-- The fields from a list; `index` of them were read. -/
def Fields.decodeItems (holding : Holding) : {β σ : Type} → Fields β σ → (expected : String) →
    (index : Nat) → List Json → Except Mismatch β
  | _, _, .nil, _, _, _ => .ok ()
  | _, _, .cons _ f _ rest, expected, index, v :: vs => do
    let a ← f.decode holding v
    return (a, ← rest.decodeItems holding expected (index + 1) vs)
  | _, _, .cons _ _ absence rest, expected, index, [] => do
    match absence.inList with
    | some a => return (a, ← rest.decodeItems holding expected (index + 1) [])
    | none => throw (.wrongLength index expected)

/-- The alternative of a tagged union, from what stands beside the tag. -/
def Cases.decode : {α : Type} → Cases α → (union label : String) → Json → Except Mismatch α
  | _, .nil, _, label, _ => .error (.unknownVariant label [])
  | _, .bare tag a _ rest, union, label, v =>
    if label = tag then
      match v with
      | .list (w :: ws) => .error (Holding.setAside.leftOver (w :: ws).length 0)
      | _ => .ok a
    else rest.decode union label v
  | _, .fields tag name fields make _ rest, union, label, v =>
    if label = tag then
      (fields.decodeRecord .setAside name (fun n v known => fields.decodeMember .setAside n v known)
        (fun expected vs => fields.decodeItems .setAside expected 0 vs) v).map make
    else rest.decode union label v

/-- The alternative of a union, from its contents. -/
def Alternatives.decode (holding : Holding) : {α : Type} → Alternatives α → (union : String) →
    (known : List String) → (label : String) → Option Json → Except Mismatch α
  | _, .nil, _, known, label, _ => .error (.unknownVariant label known)
  | _, .one tag f make _ rest, union, known, label, contents =>
    if label = tag then
      match contents with
      | some v => (f.decode holding v).map make
      | none => .error (.wrongType .bareName "newtype variant")
    else rest.decode holding union known label contents
  | _, .several tag name fields make _ rest, union, known, label, contents =>
    if label = tag then
      match contents with
      | some (.list vs) =>
        (fields.decodeRecord holding name (fun n v known => fields.decodeMember holding n v known)
          (fun expected vs => fields.decodeItems holding expected 0 vs) (.list vs)).map make
      | some v => .error (.wrongType v.found "tuple variant")
      | none => .error (.wrongType .bareName "tuple variant")
    else rest.decode holding union known label contents

end

end AgentGraph.Json
