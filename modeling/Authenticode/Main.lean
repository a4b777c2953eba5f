import Authenticode.CommandLine.Run
import Std.Time.DateTime.Timestamp

/-!
# The program

Takes from disk what the arguments name, performs the command line on it, and writes
back the files that are new or changed.
-/
namespace Authenticode.CommandLine

def absolutePath (loc : Location) : String := "/" ++ "/".intercalate loc

/-- Adds what is on disk under a name in a directory, without what is below it. Where the name is a
link, the link and what it leads to are added. The location is the one that the name leads to. -/
def takeName (fs : FileSystem) (here : Location) (name : String) :
    IO (FileSystem × Option Location) := do
  let path := absolutePath (here ++ [name])
  try
    let real ← IO.FS.realPath path
    let there := (Path.spelling real.toString).2
    let node ← match (← real.metadata).type with
      | .dir => pure Node.directory
      | _ => (Node.file ·.toList 0o644) <$> IO.FS.readBinFile real
    let isLink := there ≠ here ++ [name] ∧ name ≠ "" ∧ name ≠ "." ∧ name ≠ ".."
    let fs := if isLink then fs.place (here ++ [name]) (.link real.toString) else fs
    return (fs.place there node, some there)
  catch _ => return (fs, none)

def takeNames (fs : FileSystem) (here : Location) :
    List String → IO (FileSystem × Option Location)
  | [] => return (fs, some here)
  | name :: rest => do
    match ← takeName fs here name with
    | (fs, some there) => takeNames fs there rest
    | (fs, none) => return (fs, none)

/-- Adds what is on disk along a path and, where it leads to a directory, what is right below. -/
def takePath (fs : FileSystem) (path : String) : IO FileSystem := do
  let start := if Path.isAbsolute path then [] else fs.workingDirectory
  match ← takeNames fs start (FileSystem.steps path) with
  | (fs, none) => return fs
  | (fs, some loc) =>
    if fs.node? loc ≠ some .directory then return fs
    let entries ← (← IO.FS.realPath (absolutePath loc)).readDir
    entries.foldlM (fun fs e => (·.1) <$> takeName fs loc e.fileName) fs

/-- The rights that permission bits give to their last three. -/
def accessRight (bits : Nat) : IO.AccessRight where
  read := bits &&& 4 ≠ 0
  write := bits &&& 2 ≠ 0
  execution := bits &&& 1 ≠ 0

def putBack (before after : FileSystem) : IO Unit :=
  for (loc, bytes, mode) in FileSystem.changes before after do
    let path := absolutePath loc
    IO.FS.writeBinFile path ⟨bytes.toArray⟩
    if (before.node? loc).isNone then
      IO.setAccessRights path
        ⟨accessRight (mode / 64), accessRight (mode / 8), accessRight mode⟩

/-- Random numbers from the system, far more and far longer than a key needs. -/
def drawNumbers : IO (List Nat) :=
  (List.replicate 32 1024).mapM fun width => do
    return Bytes.beNat (← IO.getRandomBytes width).toList

end Authenticode.CommandLine

open Authenticode Authenticode.CommandLine in
def main (arguments : List String) : IO UInt32 := do
  let directory := configurationDirectory (← IO.getEnv "XDG_CONFIG_HOME") (← IO.getEnv "HOME")
  let now := (← Std.Time.Timestamp.now).toSecondsSinceUnixEpoch.val
  let here := (Path.spelling (← IO.currentDir).toString).2
  let start := FileSystem.place ⟨[], here⟩ here .directory
  let configured ← (paths directory start arguments).foldlM takePath start
  let files ← (paths directory configured arguments).foldlM takePath configured
  let outcome := run directory now files arguments (← drawNumbers)
  putBack files outcome.files
  IO.print outcome.standardOutput
  for w in outcome.warnings do IO.eprintln w.text
  IO.eprint outcome.standardError
  return outcome.exitStatus.toUInt32
