import Authenticode.Bytes

/-!
# Paths

A path is a text of names between slashes. The questions asked here are about the
text alone: whether two paths are spelled alike, and what the last name's stem and
extension are.
-/
namespace Authenticode.Path

def pieces (path : String) : List String := (path.toList.splitOn '/').map String.ofList

def isAbsolute (path : String) : Bool := path.toList.head? == some '/'

/-- What a path spells: whether it starts at the root, and its names. Repeated and closing slashes
do not count, and a dot counts only at the start of a relative path. -/
def spelling (path : String) : Bool × List String :=
  let names := pieces path
  let kept := names.filter fun n => n != "" && n != "."
  (isAbsolute path, if !isAbsolute path && names.head? == some "." then "." :: kept else kept)

/-- Whether two paths are the same text up to spelling. -/
def isSame (a b : String) : Bool := spelling a == spelling b

def join (directory name : String) : String :=
  if isAbsolute name || directory == "" || directory.toList.getLast? == some '/' then
    (if isAbsolute name then name else directory ++ name)
  else directory ++ "/" ++ name

/-- The stem and the extension of a file name: what stands before and behind its last dot. A name
without a dot, or with one only at its start, has no extension. -/
def splitName (name : String) : String × Option String :=
  let behind := name.toList.reverse.takeWhile (· ≠ '.')
  let before := name.toList.take (name.toList.length - behind.length - 1)
  if behind.length < name.toList.length ∧ before ≠ [] then
    (String.ofList before, some (String.ofList behind.reverse))
  else (name, none)

end Authenticode.Path
