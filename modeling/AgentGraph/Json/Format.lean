import AgentGraph.Json.Printer

/-!
# Formats: how a type stands in JSON

A `Format α` describes how values of `α` are represented, as data: which scalars, which records with
which fields, which tagged unions. One description gives three functions, each defined once for all
formats: `Format.encode` writes a value, `Format.read` reads one from a text, and `Format.decode`
reads one from a document already in memory. The types of the library have one format each, so what
is written and what is read cannot drift apart.

A record may be written as an object, or as the list of its fields in order; an object may hold
further members, which are ignored.
-/

namespace AgentGraph.Json

open Numeric

/-- What a field does when it is left out: the value taken for it in an object, the value taken in a
list that ends early, and the values that are not written at all. -/
structure Absence (α : Type) where
  inObject : Option α
  inList : Option α
  hidden : α → Bool

namespace Absence

variable {α : Type}

/-- The field must be given. -/
def required : Absence α := ⟨none, none, fun _ => false⟩

/-- The field has a default wherever it is left out. -/
def default (a : α) : Absence α := ⟨some a, some a, fun _ => false⟩

/-- An optional field may be missing from an object, not from a list. -/
def optional : Absence (Option α) := ⟨some none, none, fun _ => false⟩

/-- An optional field that is not written when there is nothing to write. -/
def hiddenNone : Absence (Option α) := ⟨some none, some none, Option.isNone⟩

end Absence

mutual

/-- A representation of `α` in JSON. -/
inductive Format : Type → Type 1 where
  /-- Any text, as a string. -/
  | text : Format String
  /-- A 32-bit floating-point number. -/
  | single : Format Single
  /-- A whole number below `2 ^ 32`. -/
  | word32 : Format UInt32
  /-- A whole number below `2 ^ 64`; messages call it `name`. -/
  | word64 (name : String) : Format UInt64
  /-- A value with a notation of its own, as a string. -/
  | coded {α : Type} (expected : String) (parse : String → Except String α) (write : α → String) :
      Format α
  /-- One of finitely many names, as a string. -/
  | names {α : Type} (table : List (String × α)) (name : α → String) : Format α
  /-- A value or null. -/
  | option {α : Type} (f : Format α) : Format (Option α)
  /-- A list. -/
  | list {α : Type} (f : Format α) : Format (List α)
  /-- Any JSON value. -/
  | any : Format Json
  /-- A record, read and written through the tuple of its fields. -/
  | record {α β σ : Type} (name : String) (fields : Fields β σ) (make : β → α) (split : α → β) :
      Format α
  /-- A union whose alternative is named by the member `tag`, beside the fields of the
  alternative. -/
  | tagged {α : Type} (name tag : String) (cases : Cases α) : Format α
  /-- A union written as an object with one member, named for the alternative. -/
  | choice {α : Type} (name : String) (alternatives : Alternatives α) : Format α

/-- The fields of a record in order. `β` is the tuple of their values, `σ` the tuple of what is
known of them while an object is read. -/
inductive Fields : Type → Type → Type 1 where
  | nil : Fields Unit Unit
  | cons {α β σ : Type} (name : String) (f : Format α) (absence : Absence α) (rest : Fields β σ) :
      Fields (α × β) (Option α × σ)

/-- The alternatives of a tagged union: each has a tag and either fields or nothing. -/
inductive Cases : Type → Type 1 where
  | nil {α : Type} : Cases α
  /-- An alternative without contents. -/
  | bare {α : Type} (tag : String) (value : α) (is : α → Bool) (rest : Cases α) : Cases α
  /-- An alternative whose fields stand beside the tag; messages call it `name`. -/
  | fields {α β σ : Type} (tag name : String) (fields : Fields β σ) (make : β → α)
      (split : α → Option β) (rest : Cases α) : Cases α

/-- The alternatives of a union whose alternative is the name of the only member. -/
inductive Alternatives : Type → Type 1 where
  | nil {α : Type} : Alternatives α
  /-- An alternative with one value. -/
  | one {α β : Type} (label : String) (f : Format β) (make : β → α) (split : α → Option β)
      (rest : Alternatives α) : Alternatives α
  /-- An alternative with several values, written as a list; messages call it `name`. -/
  | several {α β σ : Type} (label name : String) (fields : Fields β σ) (make : β → α)
      (split : α → Option β) (rest : Alternatives α) : Alternatives α

end

/-! ### Names -/

namespace Fields

/-- How many fields there are. -/
def count : {β σ : Type} → Fields β σ → Nat
  | _, _, .nil => 0
  | _, _, .cons _ _ _ rest => rest.count + 1

/-- Nothing is known of any field. -/
def unknown : {β σ : Type} → Fields β σ → σ
  | _, _, .nil => ()
  | _, _, .cons _ _ _ rest => (none, rest.unknown)

end Fields

/-- The tags of a union in order. -/
def Cases.tags : {α : Type} → Cases α → List String
  | _, .nil => []
  | _, .bare tag _ _ rest => tag :: rest.tags
  | _, .fields tag _ _ _ _ rest => tag :: rest.tags

/-- The labels of a union in order. -/
def Alternatives.labels : {α : Type} → Alternatives α → List String
  | _, .nil => []
  | _, .one label _ _ _ rest => label :: rest.labels
  | _, .several label _ _ _ _ rest => label :: rest.labels

/-- How messages count: "1 element", "2 elements". -/
def elements (n : Nat) : String := if n = 1 then "1 element" else s!"{n} elements"

/-! ### Writing -/

mutual

/-- The document that represents a value. -/
def Format.encode : {α : Type} → Format α → α → Json
  | _, .text, s => .string s
  | _, .single, x => .ofSingle x
  | _, .word32, n => .number (.whole n.toNat)
  | _, .word64 _, n => .number (.whole n.toNat)
  | _, .coded _ _ write, a => .string (write a)
  | _, .names _ name, a => .string (name a)
  | _, .option f, a => (a.map f.encode).getD .null
  | _, .list f, as => .list (as.map f.encode)
  | _, .any, v => v
  | _, .record _ fields _ split, a => .object (fields.encode (split a))
  | _, .tagged _ tag cases, a => .object (cases.encode tag a)
  | _, .choice _ alternatives, a => alternatives.encode a

/-- The members that represent the fields, hidden ones left out. -/
def Fields.encode : {β σ : Type} → Fields β σ → β → List (String × Json)
  | _, _, .nil, _ => []
  | _, _, .cons name f absence rest, (a, b) =>
    if absence.hidden a then rest.encode b else (name, f.encode a) :: rest.encode b

/-- The values of the fields in order. -/
def Fields.encodeItems : {β σ : Type} → Fields β σ → β → List Json
  | _, _, .nil, _ => []
  | _, _, .cons _ f _ rest, (a, b) => f.encode a :: rest.encodeItems b

/-- The members of a tagged union, the tag first. -/
def Cases.encode : {α : Type} → Cases α → (tag : String) → α → List (String × Json)
  | _, .nil, _, _ => []
  | _, .bare label _ is rest, tag, a =>
    if is a then [(tag, .string label)] else rest.encode tag a
  | _, .fields label _ fields _ split rest, tag, a =>
    match split a with
    | some b => (tag, .string label) :: fields.encode b
    | none => rest.encode tag a

/-- The object with one member that represents a union. -/
def Alternatives.encode : {α : Type} → Alternatives α → α → Json
  | _, .nil, _ => .null
  | _, .one label f _ split rest, a =>
    match split a with
    | some b => .object [(label, f.encode b)]
    | none => rest.encode a
  | _, .several label _ fields _ split rest, a =>
    match split a with
    | some b => .object [(label, .list (fields.encodeItems b))]
    | none => rest.encode a

end

/-- The text of a value on one line. -/
def Format.compact {α : Type} (f : Format α) (a : α) : String := (f.encode a).compact

/-- The text of a value over several lines. -/
def Format.pretty {α : Type} (f : Format α) (a : α) : String := (f.encode a).pretty

end AgentGraph.Json
