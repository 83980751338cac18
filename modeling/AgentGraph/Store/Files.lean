import AgentGraph.Text.Blank

/-!
# Files in directories

A `Files` is a tree of directories with text files in it. A directory is there when it was made or
when something is in it. Reading gives the text last written under a path, and the operations fail
with the errors of an ordinary file system: a name that leads nowhere, a path that leads through a
file, a directory where a file was expected, and a file where a directory was expected.
-/

namespace AgentGraph

/-- The names on the way to a file, from the top. -/
abbrev Path := List String

/-- Go on from a path by a name. The empty name and the name of the directory itself lead nowhere,
and two full stops lead back, out of the directory if need be. -/
def Path.step (path : Path) (name : String) : Path :=
  if name = "" ∨ name = "." then path
  else if name = ".." then
    match path.getLast? with
    | none | some ".." => path ++ [".."]
    | some "/" => path
    | some _ => path.dropLast
  else path ++ [name]

/-- The path that a text spells. A path from the top of the machine begins with a slash of its
own. -/
def Path.ofText (text : String) : Path :=
  let names := (Text.splitBy (· = '/') [] text.toList).map String.ofList
  names.foldl Path.step (if text.startsWith "/" then ["/"] else [])

/-- A text that spells the path. -/
def Path.toText : Path → String
  | "/" :: names => "/" ++ "/".intercalate names
  | names => "/".intercalate names

/-- Why an operation on a file fails. -/
inductive FileError where
  | notFound
  | exists
  | notDirectory
  | isDirectory
deriving DecidableEq, Repr

def FileError.message : FileError → String
  | notFound => "No such file or directory (os error 2)"
  | .exists => "File exists (os error 17)"
  | notDirectory => "Not a directory (os error 20)"
  | isDirectory => "Is a directory (os error 21)"

/-- A tree of directories: the files with their texts, and the directories that were made. -/
structure Files where
  files : List (Path × String)
  made : List Path
deriving DecidableEq, Repr

namespace Files

def empty : Files := ⟨[], []⟩

/-- The text of a file. -/
def text? (fs : Files) (path : Path) : Option String := fs.files.lookup path

def isFile (fs : Files) (path : Path) : Bool := (fs.text? path).isSome

def isDirectory (fs : Files) (path : Path) : Bool :=
  path.isEmpty || fs.made.any (path.isPrefixOf ·) ||
    fs.files.any fun (file, _) => path.isPrefixOf file && path ≠ file

def isThere (fs : Files) (path : Path) : Bool := fs.isFile path || fs.isDirectory path

/-- The directories that a path leads through. -/
def ancestors (path : Path) : List Path := (List.range path.length).map path.take

/-- Does the path lead through a file? -/
def isBlocked (fs : Files) (path : Path) : Bool := (ancestors path).any fs.isFile

/-- Where a path leads: to a file with a text, or nowhere. -/
def find (fs : Files) (path : Path) : Except FileError String :=
  match fs.text? path with
  | some text => .ok text
  | none =>
    if fs.isDirectory path then .error .isDirectory
    else if fs.isBlocked path then .error .notDirectory
    else .error .notFound

/-- Put a text under a path, whatever was there. -/
def put (fs : Files) (path : Path) (text : String) : Files :=
  { fs with files := (path, text) :: fs.files.filter (·.1 ≠ path) }

/-- Write a file, in place of the old one. -/
def write (fs : Files) (path : Path) (text : String) : Except FileError Files :=
  if fs.isDirectory path then .error .isDirectory
  else if fs.isBlocked path then .error .notDirectory
  else if fs.isDirectory path.dropLast then .ok (fs.put path text)
  else .error .notFound

/-- Add a text at the end of a file, which is made if need be. -/
def append (fs : Files) (path : Path) (text : String) : Except FileError Files :=
  fs.write path ((fs.text? path).getD "" ++ text)

/-- Remove a file. -/
def remove (fs : Files) (path : Path) : Except FileError Files := do
  discard (fs.find path)
  return { fs with
    files := fs.files.filter (·.1 ≠ path)
    made := path.dropLast :: fs.made }

/-- Make a directory and those it is in, unless they are there. -/
def makeDirectories (fs : Files) (path : Path) : Except FileError Files :=
  if fs.isFile path then .error .exists
  else if fs.isBlocked path then .error .notDirectory
  else .ok { fs with made := path :: fs.made }

/-- The names of what is in a directory. -/
def names (fs : Files) (path : Path) : Except FileError (List String) :=
  if fs.isFile path || fs.isBlocked path then .error .notDirectory
  else if fs.isDirectory path then
    let below := (fs.files.map (·.1) ++ fs.made).filterMap fun p =>
      if path.isPrefixOf p then (p.drop path.length).head? else none
    .ok below.eraseDups.mergeSort
  else .error .notFound

end Files

end AgentGraph
