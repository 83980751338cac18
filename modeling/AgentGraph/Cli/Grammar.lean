import AgentGraph.Text.Blank
import AgentGraph.Text.Search

/-!
# Command lines as data

A program has commands, and each command takes arguments: options, which have names, and values that
go by their place. This module describes them; `Cli.Reading` reads a command line by such a
description, and `Cli.Page` explains it to people.
-/

namespace AgentGraph.Cli

/-! ### Values -/

/-- What values an argument takes. -/
inductive ValueKind where
  /-- Any text. -/
  | text
  /-- The path of a file, which cannot be empty. -/
  | path
  /-- A whole number below `2 ^ 64`. -/
  | number
  /-- A key and a value with an equals sign between them. -/
  | entry
deriving DecidableEq, Repr

/-- Continue a number by decimal digits, of which the first mistake is reported. -/
def numberFrom : (soFar : Nat) → List Char → Except String Nat
  | n, [] => .ok n
  | n, c :: rest =>
    if ¬ c.isDigit then .error "invalid digit found in string"
    else
      let n := n * 10 + (c.toNat - '0'.toNat)
      if Nat.pow 2 64 ≤ n then .error "number too large to fit in target type"
      else numberFrom n rest

/-- The number that a text spells, with a plus sign or without. -/
def number (s : String) : Except String Nat :=
  match s.toList with
  | [] => .error "cannot parse integer from empty string"
  | '+' :: c :: rest => numberFrom 0 (c :: rest)
  | cs => numberFrom 0 cs

/-- The key and the value that a text spells; blanks around the key do not count. -/
def entry (s : String) : Except String (String × String) :=
  match Text.splitAtFirst? '=' s with
  | some (key, value) => .ok (Text.trim key, value)
  | none => .error s!"expected KEY=VALUE, got '{s}'"

/-! ### Arguments and commands -/

/-- A variable of the surroundings that gives an option its value; secret values are not shown. -/
structure Variable where
  name : String
  secret : Bool
deriving DecidableEq, Repr

/-- An argument: an option when it has a long name. -/
structure Argument where
  long : Option String
  short : Option Char
  valueName : String
  about : String
  kind : ValueKind
  required : Bool
  /-- Can it be given more than once? -/
  repeatable : Bool
  surroundings : Option Variable
  byDefault : Option String
deriving DecidableEq, Repr

namespace Argument

/-- What the argument is known by. -/
def key (a : Argument) : String := a.long.getD a.valueName

def isOption (a : Argument) : Bool := a.long.isSome

/-- The value as it stands in messages. -/
def placeholder (a : Argument) : String := "<" ++ a.valueName ++ ">"

/-- The argument as it stands in messages. -/
def display (a : Argument) : String :=
  match a.long with
  | some long => "--" ++ long ++ " " ++ a.placeholder
  | none => a.placeholder

/-- An argument that goes by its place. -/
def positional (valueName about : String) (kind : ValueKind) : Argument :=
  ⟨none, none, valueName, about, kind, true, false, none, none⟩

/-- An option that may be left out. -/
def option (long valueName about : String) (kind : ValueKind) : Argument :=
  ⟨some long, none, valueName, about, kind, false, false, none, none⟩

end Argument

/-- A command: its name, what it does, and its arguments. -/
structure CommandSpec where
  name : String
  about : String
  arguments : List Argument
deriving DecidableEq, Repr

namespace CommandSpec

def positionals (c : CommandSpec) : List Argument := c.arguments.filter (!·.isOption)

def options (c : CommandSpec) : List Argument := c.arguments.filter (·.isOption)

def optionNamed? (c : CommandSpec) (long : String) : Option Argument :=
  c.arguments.find? (·.long = some long)

def optionWithLetter? (c : CommandSpec) (letter : Char) : Option Argument :=
  c.arguments.find? (·.short = some letter)

end CommandSpec

/-- A program: its name and version, what it does, the options that every command takes, and its
commands. -/
structure ProgramSpec where
  name : String
  version : String
  about : String
  shared : List Argument
  commands : List CommandSpec
deriving DecidableEq, Repr

namespace ProgramSpec

/-- The name of the command that explains the others. -/
def helpName : String := "help"

/-- A command of the program, which takes the shared options too. -/
def command? (p : ProgramSpec) (name : String) : Option CommandSpec :=
  (p.commands.find? (·.name = name)).map fun c => { c with arguments := c.arguments ++ p.shared }

def hasCommand (p : ProgramSpec) (name : String) : Bool :=
  name = helpName || (p.command? name).isSome

/-- What stands before the name of a command, seen as a command of its own. -/
def lead (p : ProgramSpec) : CommandSpec := ⟨p.name, p.about, p.shared⟩

end ProgramSpec

end AgentGraph.Cli
