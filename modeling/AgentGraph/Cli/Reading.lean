import AgentGraph.Cli.Grammar

/-!
# Reading a command line

The words of a command line are read from left to right. A word with two dashes names an option, one
with a single dash holds the letters of options, and every other word is the value of the option
before it or else goes by its place. After two dashes alone every word goes by its place.

A value is looked at only when the next argument begins or the line ends; so a word that means
nothing is reported before a bad value just in front of it. Help is given as soon as it is asked
for.
-/

namespace AgentGraph.Cli

/-- Why a command line is refused. -/
inductive ArgumentError where
  | unknownArgument (word : String)
  | unknownCommand (word : String)
  /-- The name of a command stands after two dashes. -/
  | maskedCommand (name : String)
  | noCommand (program : String)
  | missingArguments
  | missingValue (argument : Argument)
  | repeated (argument : Argument)
  | badValue (argument : Argument) (value reason : String)
  /-- A value is given to a switch that takes none. -/
  | needlessValue (value name : String)
deriving DecidableEq, Repr

def ArgumentError.message : ArgumentError → String
  | unknownArgument word => s!"unexpected argument '{word}' found"
  | unknownCommand word => s!"unrecognized subcommand '{word}'"
  | maskedCommand name => s!"subcommand '{name}' exists; to use it, remove the '--' before it"
  | noCommand program => s!"'{program}' requires a subcommand but one was not provided"
  | missingArguments => "the following required arguments were not provided:"
  | missingValue a => s!"a value is required for '{a.display}' but none was supplied"
  | repeated a => s!"the argument '{a.display}' cannot be used multiple times"
  | badValue a value reason => s!"invalid value '{value}' for '{a.display}': {reason}"
  | needlessValue value name =>
      s!"unexpected value '{value}' for '--{name}' found; no more were accepted"

/-- Why reading stops before a command is known. -/
inductive Halt where
  /-- Help with a command is asked for, or with the whole program. -/
  | help (command : Option String)
  | version
  /-- Nothing is asked for at all. -/
  | nothing
  | error (e : ArgumentError)
deriving DecidableEq, Repr

/-- The values given so far, each with the key of its argument. -/
abbrev Given := List (String × String)

namespace Given

/-- All the values of an argument, in order. -/
def all (g : Given) (key : String) : List String := (g.filter (·.1 = key)).map (·.2)

def last? (g : Given) (key : String) : Option String := (all g key).getLast?

end Given

/-- How far a command line has been read. -/
structure Progress where
  given : Given
  /-- The argument that is open, and its value once there is one. -/
  pending : Option (Argument × Option String)
  /-- The arguments that go by their place and are still to come. -/
  places : List Argument
  /-- Do all words go by their place from now on? -/
  trailing : Bool
deriving Repr

namespace Progress

/-- Is the last option still without its value? -/
def isAwaiting (p : Progress) : Bool := p.pending.any (·.2.isNone)

/-- Look at the value of an argument. -/
def check (a : Argument) (value : String) : Except Halt Unit :=
  let judged {α : Type} (r : Except String α) : Except Halt Unit :=
    match r with
    | .ok _ => .ok ()
    | .error reason => .error (.error (.badValue a value reason))
  match a.kind with
  | .text => .ok ()
  | .path => if value.isEmpty then .error (.error (.missingValue a)) else .ok ()
  | .number => judged (number value)
  | .entry => judged (entry value)

/-- Take the value of an argument. -/
def accept (p : Progress) (a : Argument) (value : String) : Except Halt Progress := do
  if !a.repeatable && (Given.last? p.given a.key).isSome then throw (.error (.repeated a))
  check a value
  return { p with given := p.given ++ [(a.key, value)] }

/-- Close the argument that is open. -/
def close (p : Progress) : Except Halt Progress :=
  match p.pending with
  | none => .ok p
  | some (a, none) => .error (.error (.missingValue a))
  | some (a, some value) => { p with pending := none }.accept a value

/-- Begin an option, whose value may be attached to its name. -/
def openOption (p : Progress) (a : Argument) (attached : Option String) : Except Halt Progress := do
  let p ← p.close
  match attached with
  | some value => p.accept a value
  | none => return { p with pending := some (a, none) }

/-- Take a word that goes by its place. -/
def place (p : Progress) (word : String) (unknown : ArgumentError) : Except Halt Progress :=
  match p.places with
  | [] => .error (.error unknown)
  | a :: places => do
    let p ← p.close
    return { p with pending := some (a, some word), places }

end Progress

/-- What a command reads its words by. -/
structure Reader where
  spec : CommandSpec
  /-- The command that help is given with. -/
  helped : Option String
  /-- Can the version be asked for? -/
  versioned : Bool

namespace Reader

/-- Give help or the version. -/
def halt (p : Progress) (h : Halt) : Except Halt Progress := do
  discard p.close
  throw h

/-- Read a word that names an option. -/
def longWord (r : Reader) (p : Progress) (name : String) (attached : Option String) :
    Except Halt Progress :=
  let switch (h : Halt) : Except Halt Progress :=
    match attached with
    | some value => .error (.error (.needlessValue value name))
    | none => halt p h
  match r.spec.optionNamed? name with
  | some a => p.openOption a attached
  | none =>
    if name = "help" then switch (.help r.helped)
    else if name = "version" ∧ r.versioned then switch .version
    else .error (.error (.unknownArgument ("--" ++ name)))

/-- Read the letters of options. What follows the letter of an option is its value, with an equals
sign before it or without. -/
def letters (r : Reader) (p : Progress) : List Char → Except Halt Progress
  | [] => .ok p
  | c :: rest =>
    match r.spec.optionWithLetter? c with
    | some a =>
      let attached := match rest with
        | [] => none
        | '=' :: value => some (String.ofList value)
        | value => some (String.ofList value)
      p.openOption a attached
    | none =>
      if c = 'h' then halt p (.help r.helped)
      else if c = 'V' ∧ r.versioned then halt p .version
      else .error (.error (.unknownArgument (String.ofList ['-', c])))

/-- Read one word; a word for which there is no place is reported as `unknown` says. -/
def word (r : Reader) (p : Progress) (unknown : String → ArgumentError) (w : String) :
    Except Halt Progress :=
  if p.trailing then p.place w (unknown w)
  else
    match w.toList with
    | ['-', '-'] => .ok { p with trailing := true }
    | '-' :: '-' :: name =>
      match Text.splitAtFirst? '=' (String.ofList name) with
      | some (name, value) => r.longWord p name (some value)
      | none => r.longWord p (String.ofList name) none
    | '-' :: c :: cs => r.letters p (c :: cs)
    | _ =>
      match p.pending with
      | some (a, none) => .ok { p with pending := some (a, some w) }
      | _ => p.place w (unknown w)

end Reader

/-- The values of a command, once all its words are read. -/
def finish (spec : CommandSpec) (p : Progress) : Except Halt Given := do
  let p ← p.close
  if spec.arguments.any fun a => a.required && (Given.last? p.given a.key).isNone then
    throw (.error .missingArguments)
  return p.given

/-- Read the words of a command. -/
def readCommand (spec : CommandSpec) (words : List String) : Except Halt Given := do
  let r : Reader := ⟨spec, some spec.name, false⟩
  let p ← words.foldlM (fun p w => r.word p .unknownArgument w) ⟨[], none, spec.positionals, false⟩
  finish spec p

/-- Find what help is asked for. Nothing can be said about the parts of a command. -/
def readHelp (program : ProgramSpec) : List String → Halt
  | [] => .help none
  | [name] => if program.hasCommand name then .help (some name) else .error (.unknownCommand name)
  | name :: other :: _ => .error (.unknownCommand (if program.hasCommand name then other else name))

/-- Read the words up to the name of a command, and then those of the command. -/
def readWords (program : ProgramSpec) : Progress → List String → Except Halt (String × Given)
  | p, [] => do
    let p ← p.close
    throw (if p.given.isEmpty then .nothing else .error (.noCommand program.name))
  | p, w :: words => do
    let r : Reader := ⟨program.lead, none, true⟩
    let unknown (w : String) : ArgumentError :=
      if p.trailing && program.hasCommand w then .maskedCommand w else .unknownCommand w
    if p.trailing || p.isAwaiting then readWords program (← r.word p unknown w) words
    else if w = ProgramSpec.helpName then throw (readHelp program words)
    else
      match program.command? w with
      | some spec =>
        let given ← readCommand spec words
        return (w, (← p.close).given ++ given)
      | none => readWords program (← r.word p unknown w) words

/-- Read a command line: the name of the command, and the values given to it. -/
def read (program : ProgramSpec) (words : List String) : Except Halt (String × Given) :=
  readWords program ⟨[], none, [], false⟩ words

/-- The value of an argument: what is given, or what the surroundings say, or the default. -/
def valueOf (surroundings : List (String × String)) (given : Given) (a : Argument) :
    Option String :=
  Given.last? given a.key <|> a.surroundings.bind (fun v => surroundings.lookup v.name) <|>
    a.byDefault

end AgentGraph.Cli
