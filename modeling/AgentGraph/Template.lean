import AgentGraph.Context
import AgentGraph.Text.Search

/-!
# Instructions with placeholders

An instruction may hold the placeholders `input`, `context` and `user_profile` in double braces.
They are replaced by their values in one pass over the instruction, which stops at double braces
only. What has been put out is not looked at again, so a placeholder inside a value is left alone.

Double braces that begin no placeholder are copied together, and the text after them is looked at
next.
-/

namespace AgentGraph.Template

/-- What a placeholder stands for. -/
inductive Slot where
  | input
  | context
  | userProfile
deriving DecidableEq, Repr

namespace Slot

def name : Slot → String
  | input => "input"
  | context => "context"
  | userProfile => "user_profile"

/-- The placeholder as it stands in a template. -/
def placeholder (s : Slot) : List Char :=
  '\x7b' :: '\x7b' :: (s.name.toList ++ ['\x7d', '\x7d'])

theorem length_placeholder_pos (s : Slot) : 0 < s.placeholder.length := Nat.succ_pos _

def all : List Slot := [input, context, userProfile]

/-- The text put in the place of a placeholder. -/
def value (ctx : Context) : Slot → String
  | input => ctx.input
  | context => ctx.lastOutput.getD ""
  | userProfile => ctx.profile.text

end Slot

/-- The placeholder that a text begins with. -/
def slotAt? (cs : List Char) : Option Slot := Slot.all.find? (·.placeholder.isPrefixOf cs)

/-- The double braces that every placeholder begins with. -/
def opening : List Char := ['\x7b', '\x7b']

theorem length_drop_lt {cs before tail : List Char} {n : Nat} (hn : 0 < n)
    (h : Text.splitBefore? opening cs = some (before, tail)) :
    (tail.drop n).length < cs.length := by
  obtain ⟨rfl, hprefix⟩ := Text.splitBefore?_eq_some h
  have hlength : 2 ≤ tail.length := hprefix.length_le
  rw [List.length_drop, List.length_append]
  omega

/-- Replace the placeholders of a text: copy it up to the next double braces; put out the value of
the placeholder that begins there, or the braces themselves when there is none; and go on with what
follows. -/
def substitute (value : Slot → List Char) (cs : List Char) : List Char :=
  match _h : Text.splitBefore? opening cs with
  | none => cs
  | some (before, tail) =>
    match slotAt? tail with
    | some s => before ++ value s ++ substitute value (tail.drop s.placeholder.length)
    | none => before ++ opening ++ substitute value (tail.drop opening.length)
termination_by cs.length
decreasing_by
  · exact length_drop_lt s.length_placeholder_pos _h
  · exact length_drop_lt (Nat.succ_pos _) _h

/-- Replace the placeholders of a template by their values. -/
def render (template : String) (ctx : Context) : String :=
  String.ofList (substitute (fun s => (s.value ctx).toList) template.toList)

end AgentGraph.Template
