import AgentGraph.Numeric.Shortest

/-!
# JSON values

A number keeps the kind it was written with: a whole number in the 64-bit range, signed or unsigned,
stays a whole number, everything else is a 64-bit floating-point number. Numbers that come from
32-bit fields keep their width, because the width decides how many digits are written.

An object keeps its members in the order written, repeated names included; `Json.canonical` is the
view of a document as a value, where the last member of a name counts and the order is that of the
names.
-/

namespace AgentGraph

open Numeric

namespace Json

/-- A number as a JSON document holds it. -/
inductive Number where
  | whole (value : Int)
  | single (value : Single)
  | double (value : Double)
deriving DecidableEq, Repr

/-- The text of a number; infinities and not-a-number have none. -/
def Number.text? : Number → Option String
  | whole value => some (toString value)
  | single value => value.decimal?
  | double value => value.decimal?

end Json

/-- A JSON document. -/
inductive Json where
  | null
  | bool (value : Bool)
  | number (value : Json.Number)
  | string (value : String)
  | list (items : List Json)
  | object (members : List (String × Json))
deriving Repr, Inhabited

namespace Json

/-- A floating-point number, or null when it is not finite: JSON has no other way to write those. -/
def ofSingle (x : Single) : Json := if x.isFinite then .number (.single x) else .null

/-- The members of an object; other values have none. -/
def members : Json → List (String × Json)
  | object ms => ms
  | _ => []

/-- The items of a list; other values have none. -/
def items : Json → List Json
  | list vs => vs
  | _ => []

def string? : Json → Option String
  | string s => some s
  | _ => none

def list? : Json → Option (List Json)
  | list vs => some vs
  | _ => none

/-- The first member of the given name. -/
def member? (v : Json) (name : String) : Option Json := v.members.lookup name

/-- Insert a member in the order of names, replacing one of the same name. -/
def insertMember (name : String) (v : Json) : List (String × Json) → List (String × Json)
  | [] => [(name, v)]
  | (n, w) :: rest =>
    if name < n then (name, v) :: (n, w) :: rest
    else if name = n then (name, v) :: rest
    else (n, w) :: insertMember name v rest

/-- The members by name, where the last member of a name counts. -/
def sortMembers (ms : List (String × Json)) : List (String × Json) :=
  ms.foldl (fun acc (name, v) => insertMember name v acc) []

mutual

/-- The document as a value: in every object the members by name, the last of a name counting. -/
def canonical : Json → Json
  | list vs => list (canonicalItems vs)
  | object ms => object (sortMembers (canonicalMembers ms))
  | v => v

def canonicalItems : List Json → List Json
  | [] => []
  | v :: vs => v.canonical :: canonicalItems vs

def canonicalMembers : List (String × Json) → List (String × Json)
  | [] => []
  | (name, v) :: ms => (name, v.canonical) :: canonicalMembers ms

end

end Json

end AgentGraph
