import Authenticode.Toml.Reader

/-!
# Quoted texts in settings

Texts stand in double quotes, with escapes, or in single quotes, as they are. Three
quotes open a text of several lines; a line end right behind them does not count,
and up to two quotes may stand right before the closing three.
-/
namespace Authenticode.Toml

open Reader

def simpleEscape? : Char → Option Char
  | 'b' => some '\x08'
  | 't' => some '\t'
  | 'n' => some '\n'
  | 'f' => some '\x0c'
  | 'r' => some '\r'
  | '"' => some '"'
  | '\\' => some '\\'
  | _ => none

/-- The number of hexadecimal digits of an escape by code point. -/
def escapeWidth? : Char → Option Nat
  | 'u' => some 4
  | 'U' => some 8
  | _ => none

def hexDigit? (c : Char) : Option Nat :=
  if '0' ≤ c ∧ c ≤ '9' then some (c.toNat - '0'.toNat)
  else if 'a' ≤ c ∧ c ≤ 'f' then some (c.toNat - 'a'.toNat + 10)
  else if 'A' ≤ c ∧ c ≤ 'F' then some (c.toNat - 'A'.toNat + 10)
  else none

/-- The character whose code point these digits are. -/
def scalar? (width : Nat) (digits : List Char) : Option Char := do
  guard (digits.length = width)
  let n ← digits.foldlM (fun n c => (hexDigit? c).map (16 * n + ·)) 0
  if h : n.isValidChar then some (Char.ofNatAux n h) else none

def escape : Reader Char := fun
  | [] => none
  | c :: s =>
    match simpleEscape? c with
    | some e => some (e, s)
    | none => do
      let width ← escapeWidth? c
      let e ← scalar? width (s.take width)
      some (e, s.drop width)

theorem length_lt_of_escape {s r : List Char} {c : Char} (h : escape s = some (c, r)) :
    r.length < s.length := by
  cases s with
  | nil => cases h
  | cons d ds =>
    simp only [escape] at h
    split at h
    · cases h
      simp
    · simp only [Option.bind_eq_bind, Option.bind_eq_some_iff, Option.some.injEq,
        Prod.mk.injEq] at h
      obtain ⟨width, _, _, _, _, rfl⟩ := h
      simp only [List.length_drop, List.length_cons]
      omega

def behindBlanks : List Char → List Char
  | ' ' :: s | '\t' :: s | '\n' :: s => behindBlanks s
  | '\r' :: '\n' :: s => behindBlanks s
  | s => s

/-- The text behind a backslash that hides the end of its line and the blanks after it. -/
def hiddenLineEnd? (s : List Char) : Option (List Char) :=
  ((gap *> newline) s).map fun r => behindBlanks r.2

def basicBody : Reader String := fun s => go [] s
where
  /-- Takes the rest of a text of which the reversed start is known. -/
  go (acc : List Char) : List Char → Option (String × List Char)
    | [] => none
    | '"' :: s => some (String.ofList acc.reverse, s)
    | '\\' :: s =>
      match _h : escape s with
      | some (c, r) => go (c :: acc) r
      | none => none
    | c :: s => if isText c then go (c :: acc) s else none
  termination_by s => s.length
  decreasing_by
    · have := length_lt_of_escape _h
      simp only [List.length_cons]
      omega
    · simp

def literalBody : Reader String := do
  let body ← many fun c => isText c && c != '\''
  exactly "'"
  return String.ofList body

/-- The quotes of a run that still belong to the text, if the run closes it. -/
def closingQuotes? (run : Nat) : Option Nat := if run < 3 then none else some (min (run - 3) 2)

/-- Takes a text of several lines up to its closing quotes; `escapes` tells whether a backslash
has its meaning. -/
def longBody (quote : Char) (escapes : Bool) : Reader String := fun s => go s.length [] s
where
  /-- Takes the rest of a text of which the reversed start is known. -/
  go (fuel : Nat) (acc : List Char) (s : List Char) : Option (String × List Char) :=
    match fuel, s with
    | 0, _ | _, [] => none
    | n + 1, c :: r =>
      if c = quote then
        let run := ((c :: r).takeWhile (· = quote)).length
        match closingQuotes? run with
        | some kept =>
          some (String.ofList (List.replicate kept quote ++ acc).reverse, (c :: r).drop (kept + 3))
        | none => go n (c :: acc) r
      else if escapes && c = '\\' then
        match hiddenLineEnd? r, escape r with
        | some r', _ => go n acc r'
        | none, some (d, r') => go n (d :: acc) r'
        | none, none => none
      else if c = '\n' then go n ('\n' :: acc) r
      else if c = '\r' then
        match r with
        | '\n' :: r' => go n ('\n' :: acc) r'
        | _ => none
      else if isText c then go n (c :: acc) r
      else none

def shortText : Reader String :=
  (do exactly "\""; basicBody) <|> (do exactly "'"; literalBody)

def text : Reader String := do
  if ← sees "\"\"\"" then
    exactly "\"\"\""
    discard (perhaps newline)
    longBody '"' true
  else if ← sees "'''" then
    exactly "'''"
    discard (perhaps newline)
    longBody '\'' false
  else shortText

end Authenticode.Toml
