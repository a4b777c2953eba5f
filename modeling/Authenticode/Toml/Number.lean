import Authenticode.Toml.Reader

/-!
# Numbers and times in settings

No setting is a number or a time, but a settings file may hold them, and has to be
refused where they are malformed. So these readers only recognise.
-/
namespace Authenticode.Toml

open Reader

/-- Takes a number of exactly `width` digits in a range. -/
def fixed (width low high : Nat) : Reader Nat := fun s => do
  let digits := s.take width
  guard (digits.length = width && digits.all Char.isDigit)
  let n := digits.foldl (fun n c => 10 * n + (c.toNat - '0'.toNat)) 0
  guard (low ≤ n && n ≤ high)
  some (n, s.drop width)

def isLeapYear (year : Nat) : Bool := year % 4 = 0 && (year % 100 ≠ 0 || year % 400 = 0)

def daysInMonth (year month : Nat) : Nat :=
  if month = 2 then if isLeapYear year then 29 else 28
  else if month = 4 ∨ month = 6 ∨ month = 9 ∨ month = 11 then 30
  else 31

def date : Reader Unit := do
  let year ← fixed 4 0 9999
  exactly "-"
  let month ← fixed 2 1 12
  exactly "-"
  discard (fixed 2 1 (daysInMonth year month))

/-- Takes a time of day; a leap second is allowed. -/
def timeOfDay : Reader Unit := do
  discard (fixed 2 0 23)
  exactly ":"
  discard (fixed 2 0 59)
  exactly ":"
  discard (fixed 2 0 60)
  discard (perhaps (do exactly "."; run Char.isDigit))

/-- Takes the distance of a clock from universal time. -/
def offset : Reader Unit :=
  discard (one fun c => c = 'Z' || c = 'z') <|> do
    discard (one fun c => c = '+' || c = '-')
    discard (fixed 2 0 23)
    exactly ":"
    discard (fixed 2 0 59)

def time : Reader Unit :=
  (do
    date
    discard <| perhaps do
      discard (one fun c => c = 'T' || c = 't' || c = ' ')
      timeOfDay
      discard (perhaps offset))
    <|> timeOfDay

/-- The longest run of digits of a class in which single underscores may stand between digits. -/
def spanDigits (p : Char → Bool) : List Char → List Char × List Char
  | '_' :: c :: s =>
    if p c then
      let (digits, rest) := spanDigits p s
      (c :: digits, rest)
    else ([], '_' :: c :: s)
  | c :: s =>
    if p c then
      let (digits, rest) := spanDigits p s
      (c :: digits, rest)
    else ([], c :: s)
  | [] => ([], [])

def digits (p : Char → Bool) : Reader (List Char) := do
  let first ← one p
  let rest ← (fun s => some (spanDigits p s) : Reader (List Char))
  return first :: rest

def sign : Reader (Option Char) := perhaps (one fun c => c = '+' || c = '-')

def wholeDigits : Reader (List Char) := do
  if (← next?) = some '0' then
    exactly "0"
    return ['0']
  else digits Char.isDigit

def decimalValue (digits : List Char) : Nat :=
  digits.foldl (fun n c => 10 * n + (c.toNat - '0'.toNat)) 0

def isHexDigit (c : Char) : Bool :=
  c.isDigit || ('a' ≤ c && c ≤ 'f') || ('A' ≤ c && c ≤ 'F')

/-- The value of digits in a base up to 16. -/
def baseValue (base : Nat) (digits : List Char) : Nat :=
  digits.foldl (fun n c =>
    base * n + (if c.isDigit then c.toNat - '0'.toNat else (c.toNat ||| 0x20) - 'a'.toNat + 10)) 0

/-- The least number that a signed integer of 64 bits cannot hold. -/
def integerBound : Nat := 0x8000000000000000

/-- Takes a number behind the mark of its base. -/
def based (mark : String) (base : Nat) (p : Char → Bool) : Reader Unit := do
  exactly mark
  let n := baseValue base (← digits p)
  guard (n < integerBound)

def integer : Reader Unit := do
  if ← sees "0x" then based "0x" 16 isHexDigit
  else if ← sees "0o" then based "0o" 8 fun c => '0' ≤ c && c ≤ '7'
  else if ← sees "0b" then based "0b" 2 fun c => c = '0' || c = '1'
  else
    let s ← sign
    let n := decimalValue (← wholeDigits)
    guard (n < integerBound || (s = some '-' && n = integerBound))

/-- The least number that is rounded to infinity as a double: it lies half a step above the largest
double. -/
def doubleBound : Nat := 1 <<< 1024 - 1 <<< 970

/-- Whether `n` times the power of ten is too large for a double. -/
def isTooLarge (n : Nat) (e : Int) : Bool :=
  let size := (Nat.toDigits 10 n).length + e
  if n = 0 ∨ size < 300 then false
  else if 400 < size then true
  else if 0 ≤ e then doubleBound ≤ n * Nat.pow 10 e.toNat
  else doubleBound * Nat.pow 10 (-e).toNat ≤ n

def exponent : Reader Int := do
  discard (one fun c => c = 'e' || c = 'E')
  let s ← sign
  let n := decimalValue (← digits Char.isDigit)
  return if s = some '-' then -n else n

def finiteFloat : Reader Unit := do
  let s ← sign
  let whole ← wholeDigits
  let fraction ← perhaps (do exactly "."; digits Char.isDigit)
  let power ← perhaps exponent
  guard (fraction.isSome || power.isSome)
  let n := decimalValue (whole ++ fraction.getD [])
  guard (s = some '-' || !isTooLarge n (power.getD 0 - (fraction.getD []).length))

def float : Reader Unit :=
  finiteFloat <|> do
    discard sign
    exactly "inf" <|> exactly "nan"

def number : Reader Unit := time <|> float <|> integer

end Authenticode.Toml
