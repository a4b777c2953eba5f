import Authenticode.Armor.Base64
import Authenticode.Error
import Authenticode.Text

/-!
# PEM armor

Armor wraps octets as text: an opening line with a label, base64 in lines of 64
symbols, and a closing line with the same label. `Armor.encode` writes it;
`Armor.decode` takes it off, and tells input that is not armored apart from
input that is armored badly.
-/
namespace Authenticode.Armor

def signatureLabel : String := "PKCS7"

def lineLength : Nat := 64

/-- Cuts a text into lines of `n + 1` characters, each closed by a line feed. -/
def wrap (n : Nat) : List Char → List Char
  | [] => []
  | c :: cs => c :: cs.take n ++ '\n' :: wrap n (cs.drop n)
termination_by cs => cs.length
decreasing_by simp only [List.length_drop, List.length_cons]; omega

def encode (label : String) (data : Bytes) : String :=
  "-----BEGIN " ++ label ++ "-----\n"
    ++ String.ofList (wrap (lineLength - 1) (Base64.encode data))
    ++ "-----END " ++ label ++ "-----\n"

/-- Looks for `marker` in a text whose last characters matched the start of `marker`, of which
`left` is still to come; gives the text behind it. A character that breaks a match is passed
over: the search does not try it as the start of the next match. -/
def skipPast (marker : List Char) : (left : List Char) → List Char → Option (List Char)
  | [], s => some s
  | _ :: _, [] => none
  | m :: left, c :: s =>
    if c = m then skipPast marker left s else skipPast marker marker s

/-- The text before and the text behind the first place where `marker` is found. -/
def splitAt? (marker s : List Char) : Option (List Char × List Char) :=
  (skipPast marker marker s).map fun rest =>
    (s.take (s.length - rest.length - marker.length), rest)

structure Block where
  opening : List Char
  payload : List Char
  closing : List Char
  deriving DecidableEq, Repr

def isGap (c : Char) : Bool := c = ' ' || c = '\t' || c = '\n' || c = '\r'

/-- The payload behind its header lines, which an empty line ends. -/
def behindHeaders (payload : List Char) : List Char :=
  match splitAt? ['\n', '\n'] payload with
  | some (_, data) => data
  | none =>
    match splitAt? ['\r', '\n', '\r', '\n'] payload with
    | some (_, data) => data
    | none => payload

/-- The first block of a text. -/
def block? (s : List Char) : Option Block := do
  let (_, s) ← splitAt? "-----BEGIN ".toList s
  let (opening, s) ← splitAt? "-----".toList s
  let (payload, s) ← splitAt? "-----END ".toList (s.dropWhile isGap)
  let (closing, _) ← splitAt? "-----".toList s
  some ⟨opening, behindHeaders payload, closing⟩

def lines (s : List Char) : List (List Char) := s.splitOn '\n'

def Block.data (b : Block) : Except ArmorFault Bytes :=
  if b.opening = [] then .error .missingBegin
  else if b.closing = [] then .error .missingEnd
  else if b.opening ≠ b.closing then
    .error (.mismatch (String.ofList b.opening) (String.ofList b.closing))
  else
    match Base64.decode ((lines b.payload).flatMap Text.trimEnd) with
    | some data => .ok data
    | none => .error .invalidData

def isArmored (s : List Char) : Bool := "-----BEGIN ".toList.isPrefixOf (Text.trimStart s)

def parse (s : List Char) : Except ArmorFault Bytes :=
  match block? s with
  | some b => b.data
  | none => .error .framing

/-- The octets inside the armor, or nothing when the input is not armored. -/
def decode (input : Bytes) : Except Error (Option Bytes) :=
  match input.toText? with
  | none => .ok none
  | some text =>
    if isArmored text.toList then
      match parse text.toList with
      | .ok data => .ok (some data)
      | .error f => .error (.signature (.armor f))
    else .ok none

/-- The octets of a file without its armor, if it has one. -/
def strip (file : Bytes) : Except Error Bytes := do
  return (← decode file).getD file

end Authenticode.Armor
