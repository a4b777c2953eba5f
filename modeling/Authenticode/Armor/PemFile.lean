import Authenticode.Armor.Base64

/-!
# Files of PEM blocks

Certificates and keys come in files that may hold several blocks with text between
them. Such a file is read line by line: a block opens with a line that is nothing
but its opening marker, may have header lines up to an empty line, and closes with
a line that repeats its label. `entries` lists the blocks in order, with a failure
where a block is broken.
-/
namespace Authenticode.Armor.PemFile

/-- A block that was read whole. -/
structure Entry where
  label : Bytes
  /-- The header lines, each closed by a line feed. -/
  headers : Bytes
  data : Bytes
  deriving DecidableEq, Repr

abbrev lineFeed : UInt8 := 0x0a
abbrev colon : UInt8 := 0x3a
abbrev dash : UInt8 := 0x2d
abbrev equalSign : UInt8 := 0x3d

/-- The longest piece that is read as one line. -/
def maxPiece : Nat := 254

/-- Symbols in a line of data behind headers; only the last line may have fewer. -/
def dataLineLength : Nat := 64

/-- Cuts octets into lines with their line feeds; a long line is cut after `left` more octets. -/
def pieces (left : Nat) (acc : Bytes) : Bytes → List Bytes
  | [] => if acc = [] then [] else [acc.reverse]
  | d :: ds =>
    match left with
    | n + 2 =>
      if d = lineFeed then (d :: acc).reverse :: pieces maxPiece [] ds
      else pieces (n + 1) (d :: acc) ds
    | _ => (d :: acc).reverse :: pieces maxPiece [] ds

/-- Whether a piece breaks off in the middle of a line. -/
def isPartial (piece : Bytes) : Bool := piece.length == maxPiece && piece.getLast? != some lineFeed

/-- A line without the blanks, control and non-ASCII octets at its end. -/
def clean (piece : Bytes) : Bytes :=
  (piece.reverse.dropWhile fun d => d ≤ 0x20 || 0x80 ≤ d).reverse

def withoutMark : Bytes → Bytes
  | 0xef :: 0xbb :: 0xbf :: d :: ds => d :: ds
  | b => b

def opening : Bytes := Bytes.ofText "-----BEGIN "
def closing : Bytes := Bytes.ofText "-----END "
def tail : Bytes := Bytes.ofText "-----"

def label? (line : Bytes) : Option Bytes :=
  if opening.isPrefixOf line && tail.isSuffixOf line then
    some ((line.drop opening.length).take (line.length - opening.length - tail.length))
  else none

def isGap (d : UInt8) : Bool := d = 0x20 || d = 0x09 || d = 0x0a || d = 0x0d

def decodeGroups : List Char → Option Bytes
  | [] => some []
  | a :: b :: c :: d :: rest => do
    let group ← Base64.decodeFour a b c d
    let others ← decodeGroups rest
    some (group ++ others)
  | _ => none

/-- The octets of padded base64. A dash ends the data, and unused bits are not looked at. -/
def decode (text : Bytes) : Option Bytes := do
  let symbols := (text.takeWhile (· != dash)).filter fun d => !isGap d
  let (digits, padding) := symbols.span (· != equalSign)
  guard (padding.all (· == equalSign) && padding.length ≤ 2)
  let filled := digits.map (fun d => Char.ofNat d.toNat) ++ List.replicate padding.length 'A'
  let octets ← decodeGroups filled
  some (octets.take (octets.length - padding.length))

/-- What the lines of a block are, as far as it is known. -/
inductive Phase
  /-- Data, unless an empty line shows that they were headers. -/
  | undecided
  /-- Headers: a colon was seen. -/
  | headers
  /-- Data, behind an empty line. -/
  | data
  deriving DecidableEq, Repr

/-- A block of which the lines before and behind its empty line are known. -/
def finish (label : Bytes) (phase : Phase) (front back : Bytes) : Option Entry := do
  let (headers, text) := match phase with
    | .undecided => ([], front)
    | .headers | .data => (front, back)
  let data ← decode text
  guard (data != [])
  some ⟨label, headers, data⟩

/-- Reads the lines of a block up to its closing line, and gives the lines behind. `wasPartial`
tells whether the last piece broke off in the middle of a line, and `sawShort` whether a line of
data behind headers had less than the full length. -/
def readBody (label : Bytes) (phase : Phase) (wasPartial sawShort : Bool) (front back : Bytes) :
    List Bytes → Option Entry × List Bytes
  | [] => (none, [])
  | piece :: rest =>
    let line := clean piece
    let phase := if phase = .undecided && piece.contains colon then .headers else phase
    if line = [] then
      if wasPartial then readBody label phase (isPartial piece) sawShort front back rest
      else if phase = .data then (none, rest)
      else readBody label .data (isPartial piece) sawShort front back rest
    else if closing.isPrefixOf line then
      (if line = closing ++ label ++ tail then finish label phase front back else none, rest)
    else if sawShort then (none, rest)
    else if phase = .data then
      if dataLineLength < line.length then (none, rest)
      else
        readBody label phase (isPartial piece) (line.length < dataLineLength) front
          (back ++ line ++ [lineFeed]) rest
    else readBody label phase (isPartial piece) sawShort (front ++ line ++ [lineFeed]) back rest

theorem length_readBody_le (label : Bytes) (phase : Phase) (wasPartial sawShort : Bool)
    (front back : Bytes) (lines : List Bytes) :
    (readBody label phase wasPartial sawShort front back lines).2.length ≤ lines.length := by
  fun_induction readBody label phase wasPartial sawShort front back lines <;>
    simp_all only [List.length_cons, List.length_nil] <;> omega

/-- The label of the next block and the lines behind its opening line. -/
def nextBlock? : List Bytes → Option (Bytes × List Bytes)
  | [] => none
  | piece :: rest =>
    match label? (clean piece) with
    | some l => some (l, rest)
    | none => nextBlock? rest

theorem length_lt_of_nextBlock? {lines rest : List Bytes} {l : Bytes}
    (h : nextBlock? lines = some (l, rest)) : rest.length < lines.length := by
  fun_induction nextBlock? lines with
  | case1 => cases h
  | case2 piece tail l' _ => cases h; simp
  | case3 piece tail _ ih => exact Nat.lt_succ_of_lt (ih h)

/-- The lines with a byte order mark taken from the first one. -/
def unmarked : List Bytes → List Bytes
  | [] => []
  | line :: rest => withoutMark line :: rest

theorem length_unmarked (lines : List Bytes) : (unmarked lines).length = lines.length := by
  cases lines <;> rfl

/-- The blocks among lines; a broken one is a failure. -/
def entriesOf (lines : List Bytes) : List (Option Entry) :=
  match _h : nextBlock? (unmarked lines) with
  | none => []
  | some (l, rest) =>
    let body := readBody l .undecided false false [] [] rest
    body.1 :: entriesOf body.2
termination_by lines.length
decreasing_by
  have h₁ := length_lt_of_nextBlock? _h
  have h₂ := length_readBody_le l .undecided false false [] [] rest
  rw [length_unmarked] at h₁
  omega

def entries (file : Bytes) : List (Option Entry) := entriesOf (pieces maxPiece [] file)

/-- The data of the first block with one of the labels, if neither it nor a block before it is
broken and it has no headers. -/
def first? (labels : List Bytes) (file : Bytes) : Option Bytes :=
  go (entries file)
where
  /-- Looks through the blocks in order. -/
  go : List (Option Entry) → Option Bytes
    | [] | none :: _ => none
    | some e :: rest =>
      if labels.contains e.label then if e.headers = [] then some e.data else none else go rest

end Authenticode.Armor.PemFile
