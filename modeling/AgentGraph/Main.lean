import AgentGraph.Cli.Program
import Std.Time.DateTime

/-!
# The program

The outer layer: it looks up what `Cli.run` wants to know of its surroundings, and afterwards prints
and writes what came of it. No network is reached from here; a request fails as it does on a machine
without one.
-/

namespace AgentGraph.Cli

/-- The variables of the environment that the command line looks at. -/
def readVariables : IO (List (String × String)) := do
  let names :=
    (programSpec.commands.flatMap (·.arguments)).filterMap fun a => a.surroundings.map (·.name)
  names.filterMapM fun name => do
    return (← IO.getEnv name).map ((name, ·))

/-- Add what stands under a path to a picture of the files; what cannot be read is left out. A
directory is looked into where `deep`. -/
partial def picture (deep : Bool) (fs : Files) (path : Path) : IO Files := do
  try
    let found ← IO.FS.realPath (if path.isEmpty then "." else path.toText)
    if ← found.isDir then
      let fs := { fs with made := path :: fs.made }
      if !deep then return fs
      (← found.readDir).foldlM (fun fs entry => picture deep fs (path ++ [entry.fileName])) fs
    else return fs.put path (← IO.FS.readFile found)
  catch _ => return fs

/-- A picture of the files that a command line is about. -/
def pictureFor (invocation : Invocation) : IO Files := do
  let (files, stores) := invocation.command.places
  let named := (files ++ stores ++ invocation.logDir.toList).map Path.ofText
  let fs ← (named.flatMap Files.ancestors ++ named).foldlM (picture false) .empty
  (stores.map Path.ofText).foldlM (picture true) fs

/-- Write the files that differ from an earlier picture. -/
def writeBack (before after : Files) : IO Unit := do
  for path in after.made do
    unless before.isDirectory path do IO.FS.createDirAll path.toText
  for (path, text) in after.files do
    unless before.text? path = some text do IO.FS.writeFile path.toText text

/-- Identifiers from a random start on. -/
def randomIds : IO (Nat → Uuid) := do
  let bytes ← IO.getRandomBytes 16
  let start := bytes.foldl (fun n b => n * 256 + b.toNat) 0
  return fun k => .ofRandom (BitVec.ofNat 128 start + BitVec.ofNat 128 k)

/-- There is no network. -/
def withoutNetwork (r : Http.Request) : Http.Exchange :=
  .failed ["error sending request for url (" ++ r.url ++ ")", "client error (Connect)",
    "tcp connect error", "Network is unreachable (os error 101)"]

/-- Run the program and give its exit code. -/
def runProgram (words : List String) : IO UInt32 := do
  let environment ← readVariables
  let files ← match Invocation.read environment words with
    | .ok invocation => pictureFor invocation
    | .error _ => pure .empty
  let time := (← Std.Time.Timestamp.now).toNanosecondsSinceUnixEpoch.val
  let now : Instant := ⟨time.fdiv 1000000000, (time.fmod 1000000000).toNat⟩
  let clock (_ : Nat) : UInt64 := .ofNat (time.toNat / 1000000)
  let exit :=
    run { environment, files, now, clock, mint := ← randomIds, post := withoutNetwork } words
  IO.print exit.out
  IO.eprint exit.err
  writeBack files exit.files
  return exit.code

end AgentGraph.Cli

/-- The program. -/
def main (words : List String) : IO UInt32 := AgentGraph.Cli.runProgram words
