import Authenticode.Proofs.Armor
import Authenticode.Proofs.CertificateTable
import Authenticode.Proofs.Pe.Reading
import Authenticode.SignedImage

/-!
# Signature files

A signature is written to a file as it is encoded, or armored as text. Reading tells the
two apart by the first octet: an encoded signature begins with a digit, armor with a
dash. So what is written in either form is read back, and no image is taken for a
signature.
-/
namespace Authenticode.Cms.Signature

variable {data : Bytes} {s : Signature}

theorem exists_cons_of_ofDer (h : ofDer data = .ok s) :
    ∃ rest, data = Der.tagSequence :: rest := by
  obtain ⟨outer, kind, hread, htag, -⟩ := ofDer_eq_ok_iff.1 h
  cases data with
  | nil => cases hread
  | cons tag rest =>
    obtain ⟨-, length, octets, -, -, rfl⟩ := Der.read_cons_eq_ok_iff.1 hread
    exact ⟨rest, congrArg (· :: rest) htag⟩

/-- The encoding of a signature is never taken for armor. -/
theorem decode_toFile_false (h : ofDer s.der = .ok s) :
    Armor.decode (s.toFile false) = .ok none := by
  obtain ⟨rest, hder⟩ := exists_cons_of_ofDer h
  have hfile : s.toFile false = Der.tagSequence :: rest := hder
  rw [hfile]
  exact Armor.decode_of_head (by decide)

theorem decode_toFile_true (s : Signature) : Armor.decode (s.toFile true) = .ok (some s.der) :=
  Armor.decode_ofText_encode (by decide) (by decide) s.der

theorem ofFile_toFile (h : ofDer s.der = .ok s) (armored : Bool) :
    ofFile (s.toFile armored) = .ok s := by
  unfold ofFile Armor.strip
  cases armored with
  | true =>
    rw [decode_toFile_true]
    exact h
  | false =>
    rw [decode_toFile_false h]
    exact h

/-- The octets of an image are no signature file. -/
theorem ofFile_ne_ok_of_parse {i : Pe.Image} (h : Pe.Image.parse data = .ok i)
    (extra : Signature) : ofFile data ≠ .ok extra := by
  obtain ⟨rest, rfl⟩ := Pe.Image.exists_mark_of_parse h
  intro hfile
  unfold ofFile at hfile
  rw [Armor.strip_of_head (by decide)] at hfile
  obtain ⟨rest', hcons⟩ := exists_cons_of_ofDer hfile
  have hdiffer : (0x4d : UInt8) ≠ Der.tagSequence := by decide
  exact hdiffer (List.cons.inj hcons).1

/-- Exported signatures are imported unchanged. Armor stands between an opening and a closing line
with the label of signatures, in lines of 64 symbols but for the last, which together are the
base64 form; it is recognized and taken off again. The encoding itself is not taken for armor. -/
theorem export_import (h : ofDer data = .ok s) :
    (∀ armored, ofFile (s.toFile armored) = .ok s) ∧
    Armor.decode (s.toFile true) = .ok (some s.der) ∧
    (∃ lines : List (List Char), lines.flatten = Base64.encode s.der ∧
      (∀ line ∈ lines.dropLast, line.length = 64) ∧
      (∀ line ∈ lines, line ≠ [] ∧ line.length ≤ 64) ∧
      s.toFile true = Bytes.ofText ("-----BEGIN PKCS7-----\n"
        ++ String.ofList (lines.flatMap (· ++ ['\n'])) ++ "-----END PKCS7-----\n")) ∧
    s.toFile false = s.der ∧ Armor.decode (s.toFile false) = .ok none := by
  have hagain : ofDer s.der = .ok s := by
    simpa using ofDer_der_append h []
  obtain ⟨lines, hwrap, hflatten, hfull, hline⟩ :=
    Armor.exists_lines_of_wrap (Armor.lineLength - 1) (Base64.encode s.der)
  refine ⟨ofFile_toFile hagain, decode_toFile_true s, ⟨lines, hflatten, hfull, hline, ?_⟩, rfl,
    decode_toFile_false hagain⟩
  have hopening : "-----BEGIN " ++ Armor.signatureLabel ++ "-----\n"
      = "-----BEGIN PKCS7-----\n" := by decide
  have hclosing : "-----END " ++ (Armor.signatureLabel ++ "-----\n")
      = "-----END PKCS7-----\n" := by decide
  rw [← hwrap, toFile, if_pos rfl, Armor.encode, hopening, String.append_assoc, String.append_assoc,
    hclosing]

/-- A signature with zeros behind it, as it is read from a certificate table. -/
theorem export_import_filled :
    ofDer (least.der ++ Bytes.zeros 3) = .ok least ∧ ofFile (least.toFile true) = .ok least ∧
      ofFile (least.toFile false) = .ok least := by
  have hread : ofDer (least.der ++ Bytes.zeros 3) = .ok least := by decide +kernel
  have hfile := (export_import hread).1
  exact ⟨hread, hfile true, hfile false⟩

end Authenticode.Cms.Signature
