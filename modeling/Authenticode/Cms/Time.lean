import Authenticode.Der

/-!
# Signing times

A signing time is written with two digits for the year, which leaves the years
from 1970 to 2049.
-/
namespace Authenticode.Cms.Time

abbrev tagUtcTime : UInt8 := 0x17

/-- The first second that has no two-digit year, 2050-01-01. -/
def limit : Int := 2524608000

def monthLengths (leap : Bool) : List Nat :=
  [31, if leap then 29 else 28, 31, 30, 31, 30, 31, 31, 30, 31, 30, 31]

/-- The month and the day of it, both from one, of the day of the year counted from zero. -/
def monthAndDay (month day : Nat) : List Nat → Nat × Nat
  | [] => (month, day + 1)
  | n :: ns => if day < n then (month, day + 1) else monthAndDay (month + 1) (day - n) ns

/-- The year, month and day of a day counted from 1970-01-01. Every fourth year up to 2050 is a
leap year, and so the days are counted in spans of four years from 1968 on. -/
def civil (day : Nat) : Nat × Nat × Nat :=
  let n := day + 731
  let span := n / 1461
  let inSpan := n % 1461
  if inSpan < 366 then (1968 + 4 * span, monthAndDay 1 inSpan (monthLengths true))
  else
    let n := inSpan - 366
    (1969 + 4 * span + n / 365, monthAndDay 1 (n % 365) (monthLengths false))

def twoDigits (n : Nat) : String :=
  String.ofList [Nat.digitChar (n / 10 % 10), Nat.digitChar (n % 10)]

def text (second : Nat) : String :=
  let (year, month, day) := civil (second / 86400)
  let fields := [year % 100, month, day, second / 3600 % 24, second / 60 % 60, second % 60]
  String.join (fields.map twoDigits) ++ "Z"

def encode (now : Int) : Except Error Bytes :=
  if 0 ≤ now ∧ now < limit then .ok (Der.encode tagUtcTime (Bytes.ofText (text now.toNat)))
  else .error (.signature .unencodable)

end Authenticode.Cms.Time
