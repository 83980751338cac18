import AgentGraph.Cli.Grammar

/-!
# Help pages

A page says what a command does and how it is used, and lists its arguments in two columns. When a
description would not fit beside a wide first column, all descriptions of the list stand below their
arguments.
-/

namespace AgentGraph.Cli

/-- The width of a page. -/
def pageWidth : Nat := 100

/-- An entry of a list: what it explains, and the explanation. -/
structure Item where
  /-- The letter of an option with what follows it, or the blanks in its place. -/
  letter : String
  name : String
  about : String
  /-- What is known of the value. -/
  remarks : String

namespace Item

/-- The explanation with the remarks. -/
def description (i : Item) : String :=
  if i.remarks.isEmpty then i.about
  else if i.about.isEmpty then i.remarks
  else i.about ++ " " ++ i.remarks

end Item

def blanks (n : Nat) : String := String.ofList (List.replicate n ' ')

/-- Does the description not fit beside a first column of the given width? Only columns that take
more than two fifths of the page are looked at. -/
def Item.overflows (column : Nat) (i : Item) : Bool :=
  column ≤ pageWidth && pageWidth * 2 < column * 5 &&
    pageWidth - column < i.about.length + i.remarks.length

/-- A list of entries under a heading. -/
def section_ (heading : String) (items : List Item) : String :=
  let longest := items.foldl (fun n i => max n i.name.length) 2
  let column := longest + 4 + ((items.head?.map (·.letter.length)).getD 0)
  let below := items.any (·.overflows column)
  let line (i : Item) : String :=
    if below then "  " ++ i.letter ++ i.name ++ "\n" ++ blanks 10 ++ i.description
    else "  " ++ i.letter ++ i.name ++ blanks (longest + 2 - i.name.length) ++ i.description
  heading ++ ":\n" ++ "\n".intercalate (items.map line)

/-! ### Arguments -/

/-- What is known of the value of an argument. -/
def remarks (surroundings : List (String × String)) (a : Argument) : String :=
  let variable_ := a.surroundings.map fun v =>
    if v.secret then "[env: " ++ v.name ++ "]"
    else "[env: " ++ v.name ++ "=" ++ (surroundings.lookup v.name).getD "" ++ "]"
  let byDefault := a.byDefault.map fun d => "[default: " ++ d ++ "]"
  " ".intercalate (variable_.toList ++ byDefault.toList)

def optionItem (surroundings : List (String × String)) (a : Argument) : Item :=
  let letter := match a.short with
    | some c => String.ofList ['-', c, ',', ' ']
    | none => blanks 4
  ⟨letter, a.display, a.about, remarks surroundings a⟩

def positionalItem (a : Argument) : Item := ⟨"", a.placeholder, a.about, ""⟩

def helpItem : Item := ⟨"-h, ", "--help", "Print help", ""⟩

def versionItem : Item := ⟨"-V, ", "--version", "Print version", ""⟩

/-- The key that options declared at the same place are ordered by. -/
def Argument.orderKey (a : Argument) : String :=
  match a.short with
  | some c => String.ofList [c, '0']
  | none => a.key

/-- The options of a command in the order of the page: each as it was declared, where the shared
ones are counted from the start again. -/
def orderedOptions (own shared : List Argument) : List Argument :=
  let placed := own.zipIdx ++ shared.zipIdx
  let before (a b : Argument × Nat) : Bool :=
    a.2 < b.2 || (a.2 = b.2 && a.1.orderKey ≤ b.1.orderKey)
  (placed.mergeSort before).map (·.1)

/-! ### Pages -/

/-- The page of the parts that are not empty. -/
def page (about usage : String) (sections : List String) : String :=
  about ++ "\n\nUsage: " ++ usage ++ "\n\n" ++ "\n\n".intercalate sections ++ "\n"

/-- The page of a command. -/
def CommandSpec.page (program : ProgramSpec) (surroundings : List (String × String))
    (c : CommandSpec) : String :=
  let required := (c.options.filter (·.required)).map (·.display)
  let usage := " ".intercalate
    ([program.name, c.name, "[OPTIONS]"] ++ required ++ c.positionals.map (·.placeholder))
  let places := if c.positionals.isEmpty then [] else
    [section_ "Arguments" (c.positionals.map positionalItem)]
  let options := (orderedOptions c.options program.shared).map (optionItem surroundings)
  Cli.page c.about usage (places ++ [section_ "Options" (options ++ [helpItem])])

/-- What the command that explains the others says of itself. -/
def helpAbout : String := "Print this message or the help of the given subcommand(s)"

/-- The page of the command that explains the others. -/
def helpPage (program : ProgramSpec) : String :=
  Cli.page helpAbout (program.name ++ " help [COMMAND]...")
    [section_ "Arguments" [⟨"", "[COMMAND]...", "Print help for the subcommand(s)", ""⟩]]

/-- The page of the whole program. -/
def ProgramSpec.page (program : ProgramSpec) (surroundings : List (String × String)) : String :=
  let commands := program.commands.map fun c => ⟨"", c.name, c.about, ""⟩
  let options := program.shared.map (optionItem surroundings)
  Cli.page program.about (program.name ++ " [OPTIONS] <COMMAND>")
    [section_ "Commands" (commands ++ [⟨"", ProgramSpec.helpName, helpAbout, ""⟩]),
      section_ "Options" (options ++ [helpItem, versionItem])]

/-- The page that is asked for. -/
def pageFor (program : ProgramSpec) (surroundings : List (String × String)) : Option String → String
  | none => program.page surroundings
  | some name =>
    match program.commands.find? (·.name = name) with
    | some c => c.page program surroundings
    | none => helpPage program

end AgentGraph.Cli
