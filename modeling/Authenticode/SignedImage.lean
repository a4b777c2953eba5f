import Authenticode.Armor
import Authenticode.CertificateTable
import Authenticode.Cms.SignedData
import Authenticode.Pe.Image

/-!
# Images with their signatures

An image is edited together with the list of its signatures. The list is read from
the certificate table once; after that it leads, and the table follows it. An edit
that fails keeps what it had done before the failure. The table is extended before the
signature that goes into it exists; how much is missing is found from a draft of it.
-/
namespace Authenticode

namespace Cms.Signature

def ofFile (file : Bytes) : Except Error Signature := do ofDer (← Armor.strip file)

def toFile (armored : Bool) (s : Signature) : Bytes :=
  if armored then Bytes.ofText (Armor.encode Armor.signatureLabel s.der) else s.der

end Cms.Signature

open Cms (Signature)

def Pe.Image.signatures (i : Pe.Image) : Except Error (List Signature) := do
  match ← i.table with
  | some t => CertificateTable.decode t
  | none => return []

structure SignedImage where
  image : Pe.Image
  signatures : List Signature
  deriving DecidableEq, Repr

namespace SignedImage

/-- An operation on an image and its list that may fail half-way. -/
abbrev Edit := EStateM Error SignedImage

def onImage {α : Type} (edit : Pe.Image.Edit α) : Edit α := fun s =>
  match edit s.image with
  | .ok a i => .ok a { s with image := i }
  | .error f i => .error f { s with image := i }

/-- The position that an index means in a list, where it has to be below `bound`. -/
def position? (index : Int) (bound : Nat) : Option Nat :=
  if 0 ≤ index ∧ index < bound then some index.toNat else none

/-- Puts a signature at an index of the list, which may be the end, and writes the list into the
octets that the table has. The list changes only when it fits. -/
def insert (index : Int) (s : Signature) : Edit Unit := do
  let list := (← get).signatures
  let some i := position? index (list.length + 1) | throw (.signatureIndex index list.length)
  let updated := list.insertIdx i s
  onImage (Pe.Image.writeTable (← ofExcept (CertificateTable.encode updated)))
  modify fun t => { t with signatures := updated }

/-- Takes the signature at an index out of the list, and gives the image a table without it. -/
def remove (index : Int) : Edit (Signature × Option Warning) := do
  let list := (← get).signatures
  let some i := position? index list.length | throw (.signatureIndex index (list.length - 1))
  let some removed := list[i]? | throw (.signatureIndex index (list.length - 1))
  let rest := list.eraseIdx i
  modify fun t => { t with signatures := rest }
  let warning ← onImage (Pe.Image.replaceTable (← ofExcept (CertificateTable.encode rest)))
  return (removed, warning)

/-- The file with the signature at an index; a negative index means the first one. -/
def exported (list : List Signature) (index : Int) (armored : Bool) : Except Error Bytes :=
  match list[index.toNat]? with
  | some s => .ok (s.toFile armored)
  | none => .error (.noSuchSignature index)

/-- Gives the image a table of exactly the listed signatures, and its checksum. -/
def finish : Edit (Option Warning) := do
  let table ← ofExcept (CertificateTable.encode (← get).signatures)
  let warning ← onImage (Pe.Image.replaceTable table)
  onImage Pe.Image.updateChecksum
  return warning

/-- Octets by which the table has to grow to hold one more signature. -/
def missingSpace (t : SignedImage) (extra : Signature) : Except Error Nat := do
  return CertificateTable.sizeWith t.signatures extra - (← t.image.reserved)

/-- Octets by which the table has to grow to hold the signature that a signer will make. -/
def spaceNeeded (t : SignedImage) (s : Cms.Signer) (raw : Option Cms.RawSignature) :
    Except Error Nat := do
  t.missingSpace (← s.draft raw)

/-- Refuses a signature for which the table has no room. -/
def checkSpace (t : SignedImage) (extra : Signature) : Except Error Unit := do
  let required := CertificateTable.sizeWith t.signatures extra
  let reserved ← t.image.reserved
  if reserved < required then throw (.inconsistent (.spaceTooSmall reserved required))

end SignedImage

end Authenticode
