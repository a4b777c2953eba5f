import Authenticode.Proofs.Key.Signing
import Authenticode.Proofs.Pe.TableCoverage
import Authenticode.Proofs.Session.Rewriting

/-!
# Signatures and the images they are written into

A run that signs takes the digest before the signature exists. Afterwards it still
writes the table, the directory entry and the checksum. None of these is covered, so
the new signature is about the image it stands in — except where a section has a
rewritten field in its raw data: such a section is covered as it was before the run
finished.
-/
namespace Authenticode.Session

open Cms (Signature)
open Pe (Image)

variable {s s' : Session} {o : Options} {actions : ActionSet} {path : String} {data : Bytes}
  {x cleared : Image} {before : List Signature} {t : SignedImage} {d : Digest} {extra : Signature}

/-- The cleared image was covered, so it is over a base that holds the headers and all raw data. -/
theorem Embeds.cleared_over (h : Embeds o cleared before d extra t) (hx : Image.parse data = .ok x)
    {w : Option Warning} (hclear : Image.clearTable x = .ok w cleared) :
    cleared.Over x.layout x.base [] ∧ x.layout.sizeOfHeaders ≤ x.base.length ∧
      x.layout.SectionsWithin x.base.length := by
  obtain ⟨_, hentry⟩ := h.entry
  have hordered := Pe.Layout.ordered_of_parse (Image.parse_eq_ok_iff.1 hx).1
  obtain ⟨hlength, hlayout, -⟩ := Image.holds_of_clearTable hordered hclear
  obtain ⟨covered, hcovered, -⟩ := Except.map_eq_ok_iff.1 h.digest
  have hwithin := Image.within_of_coverage (hlayout ▸ hordered) hcovered
  rw [hlayout, hlength] at hwithin
  exact ⟨Image.over_of_clearTable hordered hclear hentry, hwithin⟩

/-- The new signature stands at its index and carries the digest it was made of. -/
theorem Embeds.inserted (h : Embeds o cleared before d extra t) :
    ∃ k : Nat, o.signatureNumber.getD before.length = k ∧
      t.signatures = before.insertIdx k extra ∧ t.signatures[k]? = some extra ∧
      extra.digestOctets = .ok (some d.bytes) := by
  obtain ⟨who, draws, -, hgenerate⟩ := h.generate
  obtain ⟨_, _, -, hinsert⟩ := h.insert
  obtain ⟨k, _, hindex, hk, hlist, -, -⟩ := SignedImage.insert_eq_ok hinsert
  refine ⟨k, hindex, hlist, ?_, Cms.Signer.digestOctets_of_generate hgenerate⟩
  rw [hlist]
  exact (List.getElem?_insertIdx_self).trans (if_pos hk)

theorem Embeds.readable (h : Embeds o cleared before d extra t)
    (hbefore : x.signatures = .ok before) :
    ∀ sig ∈ t.signatures, ∀ tail, Signature.ofDer (sig.der ++ tail) = .ok sig := by
  obtain ⟨who, draws, -, hgenerate⟩ := h.generate
  obtain ⟨k, -, hlist, -, -⟩ := h.inserted
  intro sig hsig
  rw [hlist] at hsig
  rcases List.eq_or_mem_of_mem_insertIdx hsig with rfl | hsig
  · exact Cms.Signer.ofDer_der_append_of_generate hgenerate
  · exact SignedImage.readable_of_signatures hbefore sig hsig

/-- A run that signs embeds a signature with the digest of the cleared image, and wherever its
output opens, the list that is read there has the new signature at its index. The output has that
digest when the input is regular. If its layout is that of the input, which is so when the input's
headers are settled, the octets under its digest are those that were signed exactly when finishing
left the raw data of each section alone. -/
theorem digestOctets_of_embedded (hselect : selectWorkflow actions = .ok .generateAndEmbedSignature)
    (h : perform actions s = .ok () s') (hpath : s.options.input = some path)
    (hread : s.files.readFile path = .ok data) (hx : Image.parse data = .ok x) :
    ∃ (cleared u : Image) (w : Option Warning) (out : String) (before list : List Signature)
      (k : Nat) (extra : Signature) (d : Digest),
      Image.clearTable x = .ok w cleared ∧ cleared.digest s.options.digest .signing = .ok d ∧
      s.options.output = some out ∧ s'.files.readFile out = .ok u.bytes ∧
      x.signatures = .ok before ∧ s.options.signatureNumber.getD before.length = k ∧
      list = before.insertIdx k extra ∧ list[k]? = some extra ∧
      extra.digestOctets = .ok (some d.bytes) ∧
      (∀ y, Image.parse u.bytes = .ok y →
        y.signatures = .ok list ∧
        (x.Regular → y.digest s.options.digest .signing = .ok d) ∧
        (y.layout = x.layout →
          (y.coverage .signing = cleared.coverage .signing ↔
            ∀ part ∈ x.layout.sections, 0 < part.size →
              part.octets y.bytes = part.octets cleared.bytes))) ∧
      (x.layout.Settled x.base.length data → Image.parse u.bytes = .ok ⟨u.bytes, x.layout⟩) := by
  obtain ⟨data', x', cleared, before, t, hrewrote, d, extra, hembeds⟩ :=
    rewrote_of_generateAndEmbedSignature (run_of_perform hselect h)
  obtain ⟨path', hpath', hread'⟩ := hrewrote.input
  cases hpath.symm.trans hpath'
  cases hread.symm.trans hread'
  cases hx.symm.trans hrewrote.parse
  obtain ⟨w, hclear⟩ := hrewrote.clear
  obtain ⟨-, -, -, -, -, -, hsame⟩ := hrewrote.finish
  obtain ⟨u, out, table, hout, hwritten, htable, hover⟩ := hrewrote.over hembeds.change
  obtain ⟨hcleared, hheaders, hsections⟩ := hembeds.cleared_over hx hclear
  obtain ⟨k, hindex, hlist, hfound, hoctets⟩ := hembeds.inserted
  have hreadable := hembeds.readable hrewrote.signatures
  obtain ⟨_, hholds⟩ := hover.exists_holds
  rw [hsame] at htable
  refine ⟨cleared, u, w, out, before, t.signatures, k, extra, d, hclear, hembeds.digest, hout,
    hwritten, hrewrote.signatures, hindex, hlist, hfound, hoctets, ?_, ?_⟩
  · intro y hy
    obtain ⟨hfields, -⟩ := hover.reopened hx hy
    have hyover := hfields.over hover
    refine ⟨SignedImage.signatures_of_over hyover htable hreadable, ?_, ?_⟩
    · intro hregular
      rw [hover.digest_of_parse hx hy hregular,
        ← hcleared.digest hheaders hsections hregular.sectionsApart]
      exact hembeds.digest
    · intro hlayout
      rw [hlayout] at hyover
      exact hyover.coverage_eq_iff hcleared hheaders hsections
  · intro hsettled
    have hle := (hover.agree x.base_prefix).right_le
    rw [hover.parse hx (hheaders.trans hle) hsettled, ← hholds.layout_eq]

/-- A session that signs an image with the least key. -/
def signing (data : Bytes) : Session :=
  onFiles
    { input := some "in", output := some "out", certificateName := some "a",
      certificateDirectory := "." }
    [("in", data), ("a.der", X509.Certificate.leastFile [1]),
      ("a.key", Key.RsaKey.least.encode)]

/-- An image with one section behind its headers, and the signature it is given. -/
theorem digestOctets_of_embedded_least :
    ∃ (s' : Session) (y : Image) (extra : Signature) (d : Digest),
      perform (.ofList [.generateSignature, .importSignature])
        (signing (Image.least .none [(264, 8)] (Bytes.zeros 8)).bytes) = .ok () s' ∧
      s'.files.readFile "out" = .ok y.bytes ∧ Image.parse y.bytes = .ok y ∧
      y.signatures = .ok [extra] ∧ extra.digestOctets = .ok (some d.bytes) ∧
      y.digest .sha256 .signing = .ok d := by
  set x := Image.least .none [(264, 8)] (Bytes.zeros 8)
  have hx : Image.parse x.bytes = .ok x := by decide +kernel
  have hheader : Pe.Header.read? x.bytes = some ⟨64, 1, 0, 0, 136, some ⟨false, 264, 5⟩⟩ := by
    decide +kernel
  have hsettled : x.layout.Settled x.base.length x.bytes := by
    refine ⟨?_, ?_,
      ?_⟩
    · intro header optional hread hoptional
      cases hheader.symm.trans hread
      cases hoptional
      decide +kernel
    · intro header hread
      cases hheader.symm.trans hread
      decide +kernel
    · intro header hread
      cases hheader.symm.trans hread
      decide +kernel
  have hrun : perform (.ofList [.generateSignature, .importSignature]) (signing x.bytes)
      = .ok () (Step.stateOf (perform (.ofList [.generateSignature, .importSignature])
        (signing x.bytes))) :=
    Step.eq_ok_of_isOk (by decide +kernel)
  have hregular : x.Regular := by
    refine ⟨by decide +kernel, ?_, by decide +kernel, by decide +kernel⟩
    intro header hread
    exact hsettled.sections header hread
  obtain ⟨_, u, _, out, before, list, k, extra, d, -, -, hout, hwritten, hbefore, hk, rfl, -,
    hoctets, hopened, hopens⟩ :=
    digestOctets_of_embedded (by decide +kernel) hrun rfl (by decide +kernel) hx
  cases hout
  have hy := hopens hsettled
  obtain ⟨hlist, hdigest, -⟩ := hopened _ hy
  have hnone : x.signatures = .ok [] := by decide +kernel
  cases hnone.symm.trans hbefore
  obtain rfl : k = 0 := Int.natCast_eq_zero.1 hk.symm
  exact ⟨_, ⟨u.bytes, x.layout⟩, extra, d, hrun, hwritten, hy, hlist, hoctets, hdigest hregular⟩

end Authenticode.Session
