import Authenticode.Toml.Value

/-!
# Settings files

A settings file is a list of keys with their values, under headers that open tables.
`Document.parse?` refuses a text that breaks the grammar or defines something twice.
-/
namespace Authenticode.Toml

open Reader

/-- The content of a file while it is read, and the path of the table that is open. -/
structure Document where
  content : Table
  current : List Step
  deriving DecidableEq, Repr

namespace Document

/-- Before the first line: the top table is open. -/
def empty : Document := ⟨.empty, []⟩

def header (d : Document) : Reader Document := do
  let double ← sees "[["
  exactly (if double then "[[" else "[")
  let k ← key
  exactly (if double then "]]" else "]")
  lineEnd
  let opened := if double then d.content.openElement? k else d.content.openTable? k
  match opened with
  | some (path, content) => return ⟨content, path⟩
  | none => failure

def setting (d : Document) : Reader Document := do
  let (k, v) ← pair (value (maxDepth - 1))
  lineEnd
  match d.content.insert? d.current k v with
  | some content => return { d with content }
  | none => failure

def line (d : Document) : Reader Document := do
  gap
  match ← next? with
  | none => return d
  | some '#' =>
    lineEnd
    return d
  | some '\n' | some '\r' =>
    newline
    return d
  | some '[' => d.header
  | some _ => d.setting

def lines : (fuel : Nat) → Document → List Char → Option Document
  | _, d, [] => some d
  | 0, _, _ => none
  | n + 1, d, s => do
    let (d, rest) ← d.line s
    lines n d rest

/-- The content of a settings file. A byte order mark may stand before it. -/
def parse? (s : List Char) : Option Table :=
  let s := match s with
    | '\ufeff' :: r => r
    | _ => s
  (lines s.length empty s).map content

end Document

def Table.value? (t : Table) (name : String) : Option Value :=
  match t.entry? [.key name] with
  | some (.value v) => some v
  | some _ => some .other
  | none => none

end Authenticode.Toml
