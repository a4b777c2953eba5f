import Authenticode.Toml.Number
import Authenticode.Toml.Text

/-!
# Values and keys in settings

Of the values only texts and truth values are kept; a setting has no other type.
Arrays and inline tables are checked and dropped.
-/
namespace Authenticode.Toml

open Reader

inductive Value
  | text (s : String)
  | boolean (b : Bool)
  /-- A value of any other type. -/
  | other
  deriving DecidableEq, Repr

/-- The parts of a key that are joined by dots. -/
abbrev Key := List String

/-- Arrays, inline tables and keys go less deep than this. -/
def maxDepth : Nat := 80

def isBareKeyChar (c : Char) : Bool := c.isAlphanum || c = '_' || c = '-'

def keyPart : Reader String := do
  gap
  let part ← shortText <|> (String.ofList <$> run isBareKeyChar)
  gap
  return part

def keyParts : (fuel : Nat) → Reader (List String)
  | 0 => pure []
  | n + 1 => do
    match ← perhaps (do exactly "."; keyPart) with
    | some part => return part :: (← keyParts n)
    | none => return []

def key : Reader Key := do
  let key := (← keyPart) :: (← keyParts maxDepth)
  guard (key.length < maxDepth)
  return key

/-- A step from a table to what is in it: a key, or the number of a table in an array. -/
inductive Step
  | key (name : String)
  | index (i : Nat)
  deriving DecidableEq, Repr

/-- What stands at a path. -/
inductive Entry
  | value (v : Value)
  /-- A table. It is implicit if only its content was given yet, and dotted if a key with dots made
  it. -/
  | table (implicit dotted : Bool)
  /-- An array of tables. -/
  | tables (count : Nat)
  deriving DecidableEq, Repr

structure Table where
  entries : List (List Step × Entry)
  deriving DecidableEq, Repr

namespace Table

def empty : Table := ⟨[([], .table false false)]⟩

def entry? (t : Table) (path : List Step) : Option Entry := t.entries.lookup path

def set (t : Table) (path : List Step) (e : Entry) : Table :=
  ⟨(path, e) :: t.entries.filter fun p => p.1 != path⟩

/-- Goes down by keys from a table, making tables that are missing; gives the path reached. A key
with dots does not lead into a table that was defined before. -/
def descend (dotted : Bool) (t : Table) (here : List Step) : Key → Option (List Step × Table)
  | [] => some (here, t)
  | k :: ks =>
    let next := here ++ [.key k]
    match t.entry? next with
    | none => (t.set next (.table true dotted)).descend dotted next ks
    | some (.value _) => none
    | some (.tables n) => t.descend dotted (next ++ [.index (n - 1)]) ks
    | some (.table implicit _) => if dotted && !implicit then none else t.descend dotted next ks

/-- Whether the table at a path was made by a key with dots. -/
def isDotted (t : Table) (path : List Step) : Bool :=
  match t.entry? path with
  | some (.table _ dotted) => dotted
  | _ => false

/-- Puts a value under a key in the table at a path, which must not have one. -/
def insert? (t : Table) (here : List Step) (k : Key) (v : Value) : Option Table := do
  let (path, t) ← t.descend true here k.dropLast
  guard (t.isDotted path == !k.dropLast.isEmpty)
  let slot := path ++ [.key (← k.getLast?)]
  guard (t.entry? slot).isNone
  return t.set slot (.value v)

/-- Opens the table of a header, and gives its path. -/
def openTable? (t : Table) (k : Key) : Option (List Step × Table) := do
  let (path, t) ← t.descend false [] k.dropLast
  let slot := path ++ [.key (← k.getLast?)]
  match t.entry? slot with
  | none | some (.table true false) => some (slot, t.set slot (.table false false))
  | _ => none

/-- Opens a new table in the array of a header, and gives its path. -/
def openElement? (t : Table) (k : Key) : Option (List Step × Table) := do
  let (path, t) ← t.descend false [] k.dropLast
  let slot := path ++ [.key (← k.getLast?)]
  let count ← match t.entry? slot with
    | none => some 0
    | some (.tables n) => some n
    | _ => none
  let element := slot ++ [.index count]
  some (element, (t.set slot (.tables (count + 1))).set element (.table false false))

end Table

def boolean : Reader Bool :=
  (do exactly "true"; return true) <|> (do exactly "false"; return false)

def pair (value : Reader Value) : Reader (Key × Value) := do
  let k ← key
  exactly "="
  gap
  let v ← value
  gap
  return (k, v)

def arrayBody (value : Reader Value) : Reader Unit := do
  let values ← items do
    filler
    let v ← value
    filler
    return v
  if !values.isEmpty then discard (perhaps (exactly ","))
  filler
  exactly "]"

/-- Takes the rest of an inline table, in which no key may be given twice. -/
def inlineBody (value : Reader Value) : Reader Unit := do
  let pairs ← items (pair value)
  gap
  exactly "\x7d"
  guard (pairs.foldlM (fun (t : Table) p => t.insert? [] p.1 p.2) Table.empty).isSome

/-- Takes a value; `inner` takes the values inside arrays and inline tables, where there may be
such. -/
def valueWith (inner : Option (Reader Value)) : Reader Value := do
  match ← next?, inner with
  | some '"', _ | some '\'', _ => Value.text <$> text
  | some 't', _ | some 'f', _ => Value.boolean <$> boolean
  | some '[', some v =>
    exactly "["
    arrayBody v
    return .other
  | some '{', some v =>
    exactly "\x7b"
    inlineBody v
    return .other
  | _, _ =>
    number
    return .other

/-- Takes a value in which arrays and inline tables go down to the given depth. -/
def value : (depth : Nat) → Reader Value
  | 0 => valueWith none
  | d + 1 => valueWith (some (value d))

end Authenticode.Toml
