import Authenticode.Proofs.Pe.TableCoverage
import Authenticode.Proofs.Session.Chains

/-!
# Digests across runs

A signature is about the digest of the image without its table, so a run that
rewrites the table must not change that digest. It does not for a regular image
whose table ends the file. A table in the middle of a file stays there when its
entry is cleared, and from then on its octets are covered like any others.
-/
namespace Authenticode.Session

open Cms (Signature)
open Pe (Image)

variable {data data' : Bytes} {signatures : List Signature} {x y : Image}

/-- What a run writes has the digest of the base of what it read. That is the digest of the input
itself where its table ends the file or there is none. -/
theorem digest_of_rewrites (hx : Image.parse data = .ok x) (hregular : x.Regular)
    (hrun : Rewrites data data' signatures) (hy : Image.parse data' = .ok y) (a : HashAlgorithm) :
    y.digest a .signing
      = .ok (Digest.compute a (x.layout.stream (fun _ => false) x.base)) ∧
    (x.TableAtEnd → x.digest a .signing = y.digest a .signing) := by
  obtain ⟨z, u, table, hz, rfl, -, hover⟩ := hrun.over
  cases hx.symm.trans hz
  have hdigest := hover.digest_of_parse (a := a) hx hy hregular
  exact ⟨hdigest, fun hend => (hregular.digest hx hend).trans hdigest.symm⟩

/-- An image with one section behind its headers, and a run that imports a signature into it. -/
theorem digest_of_rewrites_imported :
    ∃ y : Image, Rewrites (Image.least .none [(264, 8)] (Bytes.zeros 8)).bytes
        (imported (Image.least .none [(264, 8)] (Bytes.zeros 8)).bytes) [.least] ∧
      Image.parse (imported (Image.least .none [(264, 8)] (Bytes.zeros 8)).bytes) = .ok y ∧
      (Image.least .none [(264, 8)] (Bytes.zeros 8)).digest .sha256 .signing
        = y.digest .sha256 .signing := by
  set x := Image.least .none [(264, 8)] (Bytes.zeros 8)
  have hx : Image.parse x.bytes = .ok x := by decide +kernel
  have hheader : Pe.Header.read? x.bytes = some ⟨64, 1, 0, 0, 136, some ⟨false, 264, 5⟩⟩ := by
    decide +kernel
  have hregular : x.Regular := by
    refine ⟨by decide +kernel, ?_, by decide +kernel, by decide +kernel⟩
    intro h hread
    cases hheader.symm.trans hread
    decide +kernel
  have hrun : Rewrites x.bytes (imported x.bytes) [.least] := by
    refine ⟨importing x.bytes, _, .ofList [.importSignature], .importSignature, "in", "out", ?_,
      rfl, Step.eq_ok_of_isOk ?_, rfl, ?_, rfl, ?_, ?_⟩
    all_goals decide +kernel
  have hy : Image.parse (imported x.bytes) = .ok ⟨imported x.bytes, x.layout⟩ := by decide +kernel
  have hend : x.TableAtEnd := by
    intro d hd he
    have hnone : x.directory = .ok .none := by decide +kernel
    cases hnone.symm.trans hd
    cases he
  exact ⟨_, hrun, hy, (digest_of_rewrites hx hregular hrun hy .sha256).2 hend⟩

/-- An image with an octet behind its certificate table. -/
def clipped : Image :=
  .least ⟨224, 24⟩ [] ((CertificateTable.encode [.least]).toOption.getD [] ++ [1])

def removed (data : Bytes) : Bytes :=
  ((Step.stateOf (perform (.ofList [.removeSignature]) (removing data))).files.readFile
    "out").toOption.getD []

/-- A table that does not end the file stays in it as data, and then the digest changes. -/
theorem digest_ne_of_clipped :
    Image.parse clipped.bytes = .ok clipped ∧ Rewrites clipped.bytes (removed clipped.bytes) [] ∧
      ∃ (y : Image) (d d' : Digest), Image.parse (removed clipped.bytes) = .ok y ∧
        clipped.digest .sha256 .signing = .ok d ∧ y.digest .sha256 .signing = .ok d' ∧ d ≠ d' := by
  have hrun : Rewrites clipped.bytes (removed clipped.bytes) [] := by
    refine ⟨removing clipped.bytes, _, .ofList [.removeSignature], .removeSignature, "in", "out",
      ?_, rfl, Step.eq_ok_of_isOk ?_, rfl, ?_, rfl, ?_, ?_⟩
    all_goals decide +kernel
  have hx : Image.parse clipped.bytes = .ok clipped := by decide +kernel
  have hy : Image.parse (removed clipped.bytes) = .ok ⟨removed clipped.bytes, clipped.layout⟩ := by
    decide +kernel
  have hdigest : ∀ i : Image, (i.coverage .signing).isOk = true →
      i.digest .sha256 .signing
        = .ok (Digest.compute .sha256 ((i.coverage .signing).toOption.getD [])) := by
    intro i hi
    unfold Image.digest
    cases hcoverage : i.coverage .signing with
    | error f =>
      rw [hcoverage] at hi
      cases hi
    | ok c => rfl
  refine ⟨hx, hrun, ⟨removed clipped.bytes, clipped.layout⟩, _, _, hy, hdigest _ ?_, hdigest _ ?_,
    ?_⟩
  all_goals decide +kernel

end Authenticode.Session
