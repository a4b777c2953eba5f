import Authenticode.Error
import Authenticode.FileSystem.Path

/-!
# File systems

A file system gives a node to some locations: a regular file with its permission
bits, a directory, or a symbolic link. A path is followed name by name from the
working directory or the root, through links, as the system does it, with the
system's failures. Every file has one name: there are no hard links. Whatever leads
somewhere may be read and written, and there is room for everything that is written.
-/
namespace Authenticode

abbrev Location := List String

inductive Node
  | file (bytes : Bytes) (mode : Nat)
  | directory
  | link (target : String)
  deriving DecidableEq, Repr

/-- The files a run can see, each at one location. -/
structure FileSystem where
  /-- The nodes below the root. -/
  nodes : List (Location × Node)
  /-- The working directory. -/
  workingDirectory : Location
  deriving DecidableEq, Repr

namespace FileSystem

def maxLinks : Nat := 40

def maxName : Nat := 255

/-- Octets in the longest path. -/
def maxPath : Nat := 4095

/-- The permission bits that new files do not get. -/
def creationMask : Nat := 0o022

def defaultMode : Nat := 0o666

/-- What stands at a location; the root is always a directory. -/
def node? (fs : FileSystem) (loc : Location) : Option Node :=
  if loc = [] then some .directory else fs.nodes.lookup loc

def set (fs : FileSystem) (loc : Location) (node : Node) : FileSystem :=
  { fs with nodes := (loc, node) :: fs.nodes.filter fun p => p.1 != loc }

/-- Puts a node at a location, with the directories above it that are missing. -/
def place (fs : FileSystem) (loc : Location) (node : Node) : FileSystem :=
  let parents := (List.range loc.length).map fun n => loc.take n
  let make (fs : FileSystem) (parent : Location) : FileSystem :=
    if (fs.node? parent).isSome then fs else fs.set parent .directory
  (parents.foldl make fs).set loc node

def names (fs : FileSystem) (directory : Location) : List String :=
  fs.nodes.filterMap fun p =>
    if p.1.dropLast = directory then p.1.getLast? else none

inductive Place
  /-- To a node. -/
  | existing (loc : Location)
  /-- To a free name in a directory. -/
  | free (loc : Location)
  deriving DecidableEq, Repr

structure Purpose where
  /-- Whether the last name may be free; it then must not be closed by a slash. -/
  creating : Bool
  /-- Whether a link in the last place is followed. -/
  following : Bool
  deriving DecidableEq, Repr

def Purpose.use : Purpose := ⟨false, true⟩

/-- The location that a path without dots and links means from the working directory. -/
def locationOf (fs : FileSystem) (path : String) : Location :=
  let names := (Path.spelling path).2
  if Path.isAbsolute path then names else fs.workingDirectory ++ names

/-- The names of a path in order; an empty last one stands for a closing slash. -/
def steps (path : String) : List String :=
  let pieces := Path.pieces path
  let inner := pieces.filter (· ≠ "")
  if inner ≠ [] ∧ pieces.getLast? = some "" then inner ++ [""] else inner

/-- Follows names from a location. A link is left to `follow`, with the location its target counts
from and all names that are still ahead. -/
def walkNames (fs : FileSystem) (p : Purpose)
    (follow : Location → List String → Except IoFailure Place) :
    Location → List String → Except IoFailure Place
  | here, [] => .ok (.existing here)
  | here, name :: rest =>
    if fs.node? here ≠ some .directory then .error .notDirectory
    else if name = "" ∨ name = "." then walkNames fs p follow here rest
    else if name = ".." then walkNames fs p follow here.dropLast rest
    else if maxName < name.utf8ByteSize then .error .nameTooLong
    else
      let next := here ++ [name]
      match fs.node? next with
      | none =>
        if p.creating ∧ rest = [] then .ok (.free next)
        else if p.creating ∧ rest = [""] then .error .isDirectory
        else .error .notFound
      | some (.link target) =>
        if rest = [] ∧ !p.following then .ok (.existing next)
        else if p.creating ∧ rest = [""] then .error .isDirectory
        else follow (if Path.isAbsolute target then [] else here) (steps target ++ rest)
      | some _ =>
        if p.creating ∧ rest = [""] then .error .isDirectory
        else walkNames fs p follow next rest

/-- Follows names from a location, through at most `links` links. -/
def walk (fs : FileSystem) (p : Purpose) :
    (links : Nat) → Location → List String → Except IoFailure Place
  | 0 => walkNames fs p fun _ _ => .error .tooManyLinks
  | n + 1 => walkNames fs p (walk fs p n)

def locate (fs : FileSystem) (p : Purpose) (path : String) : Except IoFailure Place :=
  if path.toList.contains '\x00' then .error .nulInPath
  else if path = "" then .error .notFound
  else if maxPath < path.utf8ByteSize then .error .nameTooLong
  else
    fs.walk p maxLinks (if Path.isAbsolute path then [] else fs.workingDirectory) (steps path)

def find (fs : FileSystem) (path : String) : Except IoFailure (Location × Node) := do
  match ← fs.locate .use path with
  | .existing l =>
    match fs.node? l with
    | some n => return (l, n)
    | none => throw .notFound
  | .free _ => throw .notFound

def contains (fs : FileSystem) (path : String) : Bool := (fs.find path).isOk

def isFile (fs : FileSystem) (path : String) : Bool :=
  match fs.find path with
  | .ok (_, .file _ _) => true
  | _ => false

/-- Whether two paths mean the same file: they are spelled alike or lead to one location. -/
def isSameFile (fs : FileSystem) (a b : String) : Bool :=
  Path.isSame a b ||
    match fs.find a, fs.find b with
    | .ok (l, _), .ok (m, _) => l == m
    | _, _ => false

inductive Opened
  | file (bytes : Bytes) (mode : Nat)
  | directory
  deriving DecidableEq, Repr

/-- Opens a path for reading. Directories can be opened, but not read. -/
def openForReading (fs : FileSystem) (path : String) : Except IoFailure Opened := do
  match (← fs.find path).2 with
  | .file b m => return .file b m
  | _ => return .directory

def Opened.mode? : Opened → Option Nat
  | .file _ m => some m
  | .directory => none

def Opened.read : Opened → Except IoFailure Bytes
  | .file b _ => .ok b
  | .directory => .error .isDirectory

def readFile (fs : FileSystem) (path : String) : Except IoFailure Bytes := do
  (← fs.openForReading path).read

/-- Opens a path for writing and empties the file. An existing file keeps its permission bits and
is refused if `fresh` is asked for; a new one gets those of `mode` that files may have. -/
def create (fs : FileSystem) (path : String) (fresh : Bool) (mode : Nat) :
    Except IoFailure (Location × FileSystem) := do
  match ← fs.locate ⟨true, !fresh⟩ path with
  | .free l => return (l, fs.set l (.file [] (mode &&& (0o7777 ^^^ creationMask))))
  | .existing l =>
    if fresh then throw .alreadyExists
    match fs.node? l with
    | some (.file _ m) => return (l, fs.set l (.file [] m))
    | _ => throw .isDirectory

/-- The permission bits a file keeps when it is written to. A program that runs as its owner must
not run changed contents with that owner's rights, so the set-user bit goes; the set-group bit goes
if the group may run the file, since it means something else otherwise. -/
def bitsAfterWriting (mode : Nat) : Nat :=
  let mode := mode &&& (0o7777 ^^^ 0o4000)
  if mode &&& 0o10 = 0 then mode else mode &&& (0o7777 ^^^ 0o2000)

/-- Replaces the contents of an opened file. Writing nothing is no write. -/
def write (fs : FileSystem) (loc : Location) (bytes : Bytes) : FileSystem :=
  match fs.node? loc with
  | some (.file _ m) => fs.set loc (.file bytes (if bytes.isEmpty then m else bitsAfterWriting m))
  | _ => fs

/-- The files that are new or changed since an earlier state, with contents and permission bits. -/
def changes (before after : FileSystem) : List (Location × Bytes × Nat) :=
  after.nodes.filterMap fun (loc, node) =>
    match node with
    | .file bytes mode => if before.node? loc = some node then none else some (loc, bytes, mode)
    | _ => none

def list (fs : FileSystem) (path : String) : Except IoFailure (List String) := do
  match ← fs.find path with
  | (l, .directory) => return fs.names l
  | _ => throw .notDirectory

end FileSystem

end Authenticode
