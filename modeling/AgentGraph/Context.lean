import AgentGraph.Json.Printer
import AgentGraph.Text.Blank
import AgentGraph.Text.Search

/-!
# What a run knows

A `Context` holds the input of a run, the profile of its user, the text generated last, and the
variables written so far. The input and the profile never change; a step asks for changes of the
rest by a `Patch`, which is applied once the step is accepted.

A variable name stands for a value by `Context.resolve`: some names are built in, `user_profile.k`
is the entry `k` of the profile, and every other name is a variable.
-/

namespace AgentGraph

/-- Answers of a user, by name. -/
abbrev Profile := List (String × String)

namespace Profile

/-- Set an entry, keeping the entries in the order of their names. -/
def insert (key value : String) : Profile → Profile
  | [] => [(key, value)]
  | (k, v) :: rest =>
    if key < k then (key, value) :: (k, v) :: rest
    else if key = k then (key, value) :: rest
    else (k, v) :: insert key value rest

/-- The profile with the given entries; of two entries with one name the later counts. -/
def ofList (entries : List (String × String)) : Profile :=
  entries.foldl (fun p (key, value) => insert key value p) []

/-- One line for each entry. -/
def text (p : Profile) : String := "\n".intercalate (p.map fun (key, value) => s!"{key}: {value}")

end Profile

/-- The state of a run that its steps can read. -/
structure Context where
  input : String
  profile : Profile
  lastOutput : Option String
  /-- The variables, the one written last first. -/
  values : List (String × Json)

/-- Changes that a step asks for. -/
structure Patch where
  lastOutput : Option String
  values : List (String × Json)

namespace Patch

/-- No changes. -/
def none : Patch := ⟨.none, []⟩

def isEmpty (p : Patch) : Bool := p.lastOutput.isNone && p.values.isEmpty

end Patch

namespace Context

/-- The context at the start of a run. -/
def start (input : String) (profile : Profile) : Context := ⟨input, profile, none, []⟩

/-- Set a variable. -/
def write (ctx : Context) (name : String) (value : Json) : Context :=
  { ctx with values := (name, value) :: ctx.values.filter (·.1 ≠ name) }

def apply (ctx : Context) (patch : Patch) : Context :=
  let ctx := { ctx with lastOutput := patch.lastOutput <|> ctx.lastOutput }
  patch.values.foldl (fun ctx (name, value) => ctx.write name value) ctx

/-- The text generated last, or the input when there is none. -/
def finalOutput (ctx : Context) : String := ctx.lastOutput.getD ctx.input

/-- Optional text as a value. -/
def textOrNull (s : Option String) : Json := (s.map Json.string).getD .null

/-- The start of the names of profile entries. -/
def profileStart : String := "user_profile."

/-- The value that a name stands for; blanks around the name do not count, and no name stands for
the input. -/
def resolve (ctx : Context) (name : String) : Json :=
  let name := Text.trim name
  if name = "" ∨ name = "input" then .string ctx.input
  else if name = "last_output" ∨ name = "lastOutput" ∨ name = "context" then
    textOrNull ctx.lastOutput
  else
    match Text.afterStart? profileStart.toList name.toList with
    | some key => textOrNull (ctx.profile.lookup (String.ofList key))
    | none => (ctx.values.lookup name).getD .null

end Context

end AgentGraph
