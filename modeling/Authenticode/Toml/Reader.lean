/-!
# Reading settings text

A reader takes what it understands from the start of a text, or refuses. This module
holds the readers of what stands between the tokens of a settings file: blanks,
comments and line ends.
-/
namespace Authenticode.Toml

abbrev Reader := StateT (List Char) Option

namespace Reader

def one (p : Char → Bool) : Reader Char := fun
  | c :: s => if p c then some (c, s) else none
  | [] => none

/-- Takes the longest run of characters of a class. -/
def many (p : Char → Bool) : Reader (List Char) := fun s => some (s.span p)

/-- Takes a run of characters that is not empty. -/
def run (p : Char → Bool) : Reader (List Char) := fun s =>
  match s.span p with
  | ([], _) => none
  | r => some r

def exactly (text : String) : Reader Unit := fun s =>
  if text.toList.isPrefixOf s then some ((), s.drop text.toList.length) else none

def next? : Reader (Option Char) := fun s => some (s.head?, s)

/-- Whether the text starts like this; nothing is taken. -/
def sees (text : String) : Reader Bool := fun s => some (text.toList.isPrefixOf s, s)

def perhaps {α : Type} (r : Reader α) : Reader (Option α) := some <$> r <|> pure none

/-- Takes an item, and as long as a comma follows it and another item, that too. -/
def separated {α : Type} (item : Reader α) : (fuel : Nat) → Reader (List α)
  | 0 => failure
  | n + 1 => do
    let first ← item
    let rest ← perhaps (do exactly ","; separated item n)
    return first :: rest.getD []

def items {α : Type} (item : Reader α) : Reader (List α) := fun s =>
  (return (← perhaps (separated item (s.length + 1))).getD [] : Reader (List α)) s

end Reader

open Reader

def isGap (c : Char) : Bool := c = ' ' || c = '\t'

def isText (c : Char) : Bool := c = '\t' || ('\x20' ≤ c && c ≠ '\x7f')

def gap : Reader Unit := discard (many isGap)

def newline : Reader Unit := exactly "\n" <|> exactly "\r\n"

def comment : Reader Unit := do exactly "#"; discard (many isText)

def atEnd : Reader Unit := fun s => if s = [] then some ((), []) else none

/-- Takes the rest of a line in which only blanks and a comment may follow. -/
def lineEnd : Reader Unit := do
  gap
  discard (perhaps comment)
  newline <|> atEnd

def behindFiller : List Char → List Char
  | [] => []
  | c :: s =>
    if isGap c || c = '\n' then behindFiller s
    else if c = '#' then behindFiller (s.dropWhile isText)
    else match c, s with
      | '\r', '\n' :: r => behindFiller r
      | _, _ => c :: s
termination_by s => s.length
decreasing_by
  · simp
  · have := List.dropWhile_sublist isText (l := s)
    have := this.length_le
    simp only [List.length_cons]
    omega
  · simp only [List.length_cons]
    omega

def filler : Reader Unit := fun s => some ((), behindFiller s)

end Authenticode.Toml
