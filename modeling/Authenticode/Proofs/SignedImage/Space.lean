import Authenticode.Proofs.Pe.Growth
import Authenticode.Proofs.SignedImage

/-!
# Space for one more signature

The table is extended by what a signature needs beside those that are there. Once that
has succeeded, that signature and every one that is no longer has room at each index: an
entry grows with its signature, and the octets of a table do not depend on the order of
its entries.
-/
namespace Authenticode

namespace CertificateTable

open Cms (Signature)

variable {list : List Signature} {s extra : Signature}

theorem entrySize_mono {m n : Nat} (h : m ≤ n) : entrySize m ≤ entrySize n := by
  unfold entrySize align8
  omega

theorem sizeWith_mono (list : List Signature) (h : s.length ≤ extra.length) :
    sizeWith list s ≤ sizeWith list extra :=
  Nat.add_le_add_left (entrySize_mono h) _

end CertificateTable

namespace SignedImage

open Cms (Signature)
open Pe (Image)

variable {data : Bytes} {x y z : Image} {list : List Signature} {s extra : Signature}
  {d : Pe.CertificateDirectory} {amount k : Nat}

theorem checkSpace_eq_ok_iff (hd : y.directory = .ok d) :
    checkSpace ⟨y, list⟩ extra = .ok () ↔ CertificateTable.sizeWith list extra ≤ d.reserved := by
  have hreserved : y.reserved = .ok d.reserved := Except.map_eq_ok_iff.2 ⟨d, hd, rfl⟩
  simp only [checkSpace, hreserved]
  change (if _ then _ else _) = _ ↔ _
  split
  · next h => exact iff_of_false nofun (Nat.not_le.2 h)
  · next h => exact iff_of_true rfl (Nat.not_lt.1 h)

theorem exists_insert_of_space (hd : y.directory = .ok d)
    (hin : d.isEmpty = false → d.stop ≤ y.length)
    (hspace : CertificateTable.sizeWith list extra ≤ d.reserved) (hk : k ≤ list.length) :
    ∃ t, insert k extra ⟨y, list⟩ = .ok () t := by
  have hreserved : d.reserved < 2 ^ 32 := by
    have hfits := (Image.fits_of_directory hd).2
    unfold Pe.CertificateDirectory.reserved
    split <;> omega
  cases hinsert : insert k extra ⟨y, list⟩ with
  | ok _ t => exact ⟨t, rfl⟩
  | error f t =>
    obtain ⟨-, hnegative | hbehind | ⟨j, hj, herror⟩⟩ := insert_eq_error hinsert
    · omega
    · dsimp only at hbehind
      omega
    · -- The list can be written at any position, so writing it is not what failed.
      dsimp only at hj herror
      have hsize := CertificateTable.size_insertIdx hj extra
      have hlt : CertificateTable.size (list.insertIdx j extra) < 2 ^ 32 := by omega
      obtain ⟨table, htable⟩ := CertificateTable.exists_encode_of_size hlt
      have hlength := CertificateTable.length_of_encode htable
      have hle : table.length ≤ d.reserved := by omega
      have hwrite := Image.writeTable_of_le hd hle hin
      cases hwrite.symm.trans (herror table htable)

/-- An image that was parsed, or one that was cleared after that: its table lies within it. -/
theorem stop_le_of_parse (hx : Image.parse data = .ok x)
    (hy : y = x ∨ ∃ w, Image.clearTable x = .ok w y) (hd : y.directory = .ok d) :
    d.isEmpty = false → d.stop ≤ y.length := by
  obtain ⟨hlayout, -, d', hd', hin⟩ := Image.parse_eq_ok_iff.1 hx
  rcases hy with rfl | ⟨w, hclear⟩
  · cases hd.symm.trans hd'
    exact hin
  · have hover := Image.over_of_clearTable (Pe.Layout.ordered_of_parse hlayout) hclear hd
    obtain ⟨e, he, hempty⟩ := hover.entry
    cases hd.symm.trans he
    exact fun hne => absurd ((hempty.1 rfl).symm.trans hne) Bool.noConfusion

/-- Space that was made for a signature is enough for one that is no longer, at every index. -/
theorem checkSpace_of_growTable
    (hin : ∀ d, y.directory = .ok d → d.isEmpty = false → d.stop ≤ y.length)
    (hspace : missingSpace ⟨y, list⟩ extra = .ok amount)
    (hgrow : Image.growTable amount y = .ok () z) (hle : s.length ≤ extra.length) :
    checkSpace ⟨z, list⟩ s = .ok () ∧
      ∀ k : Nat, k ≤ list.length → ∃ t, insert k s ⟨z, list⟩ = .ok () t := by
  obtain ⟨d, hd⟩ := exists_directory_of_missingSpace hspace
  have hamount : amount = CertificateTable.sizeWith list extra - d.reserved := by
    obtain ⟨reserved, hreserved, h⟩ := Except.bind_eq_ok_iff.1 hspace
    obtain ⟨d', hd', rfl⟩ := Except.map_eq_ok_iff.1 hreserved
    cases hd.symm.trans hd'
    exact (Except.ok.inj h).symm
  obtain ⟨e, he, hreserved, hend⟩ := Image.exists_reserved_of_growTable hd (hin d hd) hgrow
  have hfits : CertificateTable.sizeWith list s ≤ e.reserved := by
    have hmono := CertificateTable.sizeWith_mono list hle
    omega
  exact ⟨(checkSpace_eq_ok_iff he).2 hfits, fun k hk => exists_insert_of_space he hend hfits hk⟩

end SignedImage

end Authenticode
