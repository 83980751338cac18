import AgentGraph.Json.Read
import AgentGraph.Text.Blank
import AgentGraph.Text.Search

/-!
# Identifiers of workflows and runs

A `Uuid` is a 128-bit number. It is written as five groups of small hexadecimal digits joined by
hyphens; it is read from that form in letters of either case, also in braces or after `urn:uuid:`,
and from 32 digits without hyphens.
-/

namespace AgentGraph

open Json Text

/-- A universally unique identifier. -/
structure Uuid where
  value : BitVec 128
deriving DecidableEq, Repr

namespace Uuid

/-- The identifier with all bits zero. -/
def nil : Uuid := ⟨0⟩

/-- The identifier made of random bits, of which six are replaced to say that the others are
random. -/
def ofRandom (bits : BitVec 128) : Uuid :=
  let version : BitVec 128 := 0x4#128 <<< 76
  let variant : BitVec 128 := 0x2#128 <<< 62
  let kept : BitVec 128 := ~~~((0xf#128 <<< 76) ||| (0x3#128 <<< 62))
  ⟨(bits &&& kept) ||| version ||| variant⟩

/-- The lengths of the five groups of digits. -/
def groupLengths : List Nat := [8, 4, 4, 4, 12]

/-- The 32 digits of an identifier. -/
def digits (u : Uuid) : List Char :=
  let ds := hexDigits u.value.toNat
  List.replicate (32 - ds.length) '0' ++ ds

/-- Cut a list into groups of the given lengths, joined by hyphens. -/
def joinGroups : List Nat → List Char → List Char
  | [], _ => []
  | [n], cs => cs.take n
  | n :: ns, cs => cs.take n ++ '-' :: joinGroups ns (cs.drop n)

def toString (u : Uuid) : String := String.ofList (joinGroups groupLengths u.digits)

instance : ToString Uuid := ⟨toString⟩

/-- Why a text is no identifier. -/
inductive Malformed where
  | character (c : Char) (index : Nat)
  | length (count : Nat)
  | groupCount (count : Nat)
  | groupLength (group expected found : Nat)
deriving DecidableEq, Repr

def Malformed.message : Malformed → String
  | character c index => s!"invalid character: found `{c}` at {index}"
  | length count => s!"invalid length: found {count}"
  | groupCount count => s!"invalid group count: expected 5, found {count}"
  | groupLength group expected found =>
    s!"invalid group length in group {group}: expected {expected}, found {found}"

/-- The value of hexadecimal digits, if they are all such. -/
def hexValue? (cs : List Char) : Option Nat :=
  cs.foldlM (fun n c => (Reader.hexValue? c).map (16 * n + ·)) 0

/-- Read five groups of digits joined by hyphens. -/
def ofGroups? (cs : List Char) : Option Uuid :=
  let groups := splitBy (· = '-') [] cs
  if groups.map List.length = groupLengths then
    (hexValue? groups.flatten).map fun n => ⟨BitVec.ofNat 128 n⟩
  else none

/-- The text inside braces or after the prefix `urn:uuid:`, with the number of characters before
it. -/
def unwrap (cs : List Char) : Option (List Char × Nat) :=
  match afterStart? "urn:uuid:".toList cs with
  | some rest => some (rest, "urn:uuid:".length)
  | none =>
    match cs, cs.getLast? with
    | '\x7b' :: rest, some '\x7d' => some (rest.dropLast, 1)
    | _, _ => none

/-- The first character that is neither a digit nor a hyphen. -/
def strayCharacter? : (index : Nat) → List Char → Option (Char × Nat)
  | _, [] => none
  | index, c :: rest =>
    if c = '-' ∨ (Reader.hexValue? c).isSome then strayCharacter? (index + 1) rest
    else some (c, index)

/-- The first of the leading groups whose length is wrong, or else the last group, which is measured
from where it should start to the end of the whole text. -/
def wrongGroup (whole : Nat) : (group : Nat) → List Nat → List Nat → Malformed
  | group, expected :: e :: es, found :: fs =>
    if found = expected then wrongGroup whole (group + 1) (e :: es) fs
    else .groupLength group expected found
  | group, expected :: _, _ => .groupLength group expected (whole - 24)
  | group, [], _ => .groupLength group 0 0

/-- Why a text that is no identifier is none. -/
def diagnose (cs : List Char) : Malformed :=
  let (body, offset) := (unwrap cs).getD (cs, 0)
  match strayCharacter? 0 body with
  | some (c, index) => .character c (index + offset)
  | none =>
    let groups := splitBy (· = '-') [] body
    if groups.length = 1 ∧ (unwrap cs).isNone then .length cs.length
    else if groups.length ≠ 5 then .groupCount groups.length
    else wrongGroup cs.length 0 groupLengths (groups.map List.length)

/-- Read an identifier in one of its forms. -/
def ofText (s : String) : Except Malformed Uuid :=
  let cs := s.toList
  let plain? : Option Uuid :=
    if cs.length = 32 then (hexValue? cs).map fun n => ⟨BitVec.ofNat 128 n⟩
    else none
  match plain? <|> ofGroups? cs <|> (unwrap cs).bind fun (body, _) => ofGroups? body with
  | some u => .ok u
  | none => .error (diagnose cs)

def ofText? (s : String) : Option Uuid := (ofText s).toOption

/-- Identifiers stand in JSON as their text. -/
def format : Format Uuid :=
  .coded "a formatted UUID string"
    (fun s => (ofText s).mapError fun m => s!"UUID parsing failed: {m.message}") toString

end Uuid

end AgentGraph
