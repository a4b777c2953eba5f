import Authenticode.Proofs.Session.Digests
import Authenticode.Proofs.Session.ListEdits

/-!
# Opening a written image again

A run checks the headers of its input once and then shortens or lengthens the file
behind them. What it writes is opened again by reading everything anew: the directory
entry always names the table that was written, and the list in it can be read, so the
only question is whether the headers are still all there. They need not be. A table may
start in front of where the headers end, and a long section name may run into it.
-/
namespace Authenticode.Session

open Cms (Signature)
open Pe (Header Image Layout OptionalHeader)

variable {data data' : Bytes} {signatures : List Signature}

/-- What a run writes is an image over the base of its input, and each signature in its table can
be read. -/
theorem Rewrites.over_readable (h : Rewrites data data' signatures) :
    ∃ (x u : Image) (table : Bytes), Image.parse data = .ok x ∧ u.bytes = data' ∧
      CertificateTable.encode signatures = .ok table ∧ u.Over x.layout x.base table ∧
      ∀ s ∈ signatures, ∀ tail, Signature.ofDer (s.der ++ tail) = .ok s := by
  obtain ⟨s, s', actions, w, path, out, hselect, hwrites, hperform, hpath, hread, hout, hwritten,
    rfl⟩ := h
  obtain ⟨data₁, x, cleared, before, t, edit, hedited⟩ :=
    edited_of_run hwrites (run_of_perform hselect hperform)
  obtain rfl := hedited.data_eq hpath hread
  obtain ⟨-, -, -, -, -, -, hsame⟩ := hedited.finish
  obtain ⟨u, out', table, hout', hwritten', htable, hover⟩ :=
    hedited.toRewrote.over hedited.change
  cases hout.symm.trans hout'
  cases hwritten.symm.trans hwritten'
  exact ⟨x, u, table, hedited.parse, rfl, htable, hover, hsame ▸ hedited.readable⟩

/-- A written file opens exactly when its headers are still within it and the section headers can
be read in it, and then it has the list that the run ended with. All of that is so when what the
layout is read from stands in the input without its table and holds none of the rewritten fields. -/
theorem exists_parse_iff_of_rewrites (h : Rewrites data data' signatures) :
    ∃ (x : Image) (header : Header) (optional : OptionalHeader),
      Image.parse data = .ok x ∧ Header.read? data = some header ∧
      header.optional = some optional ∧
      ((∃ y, Image.parse data' = .ok y ∧ y.signatures = .ok signatures) ↔
        header.directoriesEnd optional ≤ data'.length ∧ x.layout.sizeOfHeaders ≤ data'.length ∧
          (header.sections? data').isSome) ∧
      (∀ y, Image.parse data' = .ok y → y.signatures = .ok signatures) ∧
      (x.layout.sizeOfHeaders ≤ x.base.length → x.layout.Settled x.base.length data →
        Image.parse data' = .ok ⟨data', x.layout⟩) := by
  obtain ⟨x, u, table, hx, rfl, htable, hover, hreadable⟩ := h.over_readable
  obtain ⟨hlayout, hbytes, -⟩ := Image.parse_eq_ok_iff.1 hx
  obtain ⟨header, optional, -, hheader, hoptional, -⟩ := Layout.parse_eq_ok_iff.1 hlayout
  have hagree := hover.agree x.base_prefix
  have hreopened : ∀ y, Image.parse u.bytes = .ok y → y.signatures = .ok signatures := by
    intro y hy
    obtain ⟨hfields, -⟩ := hover.reopened hx hy
    exact SignedImage.signatures_of_over (hfields.over hover) htable hreadable
  rw [hbytes] at hagree
  refine ⟨x, header, optional, hx, hheader, hoptional, ?_, hreopened, ?_⟩
  · rw [← Layout.exists_parse_iff_of_agree hlayout hheader hoptional hover.1 hagree]
    constructor
    · rintro ⟨y, hy, -⟩
      exact ⟨y.layout, (Image.parse_eq_ok_iff.1 hy).1⟩
    · rintro ⟨m, hm⟩
      have hy := hover.parse_of_layout hx hm
      exact ⟨_, hy, hreopened _ hy⟩
  · intro hheaders hsettled
    rw [hover.parse hx (hheaders.trans hagree.right_le) hsettled, ← hover.layout_eq]

/-- An image whose certificate table stands where its section header is. -/
def shared : Bytes :=
  (Image.least ⟨224, 40⟩ [(0, 0)] []).bytes.take 224
    ++ (CertificateTable.encode [.least]).toOption.getD [] ++ Bytes.zeros 16

/-- Without its signature that image no longer opens: the headers were cut off with the table. -/
theorem exists_parse_iff_of_rewrites_shared :
    Rewrites shared (removed shared) [] ∧ ¬∃ y, Image.parse (removed shared) = .ok y := by
  have hrun : Rewrites shared (removed shared) [] := by
    refine ⟨removing shared, _, .ofList [.removeSignature], .removeSignature, "in", "out", ?_, rfl,
      Step.eq_ok_of_isOk ?_, rfl, ?_, rfl, ?_, ?_⟩
    all_goals decide +kernel
  obtain ⟨x, header, optional, hx, -, -, hiff, hreopened, -⟩ := exists_parse_iff_of_rewrites hrun
  have hheaders : (Image.parse shared).toOption.map (·.layout.sizeOfHeaders) = some 264 := by
    decide +kernel
  rw [hx] at hheaders
  have hsize : x.layout.sizeOfHeaders = 264 := Option.some.inj hheaders
  have hlength : ¬264 ≤ (removed shared).length := by decide +kernel
  refine ⟨hrun, ?_⟩
  rintro ⟨y, hy⟩
  obtain ⟨-, hle, -⟩ := hiff.1 ⟨y, hy, hreopened y hy⟩
  exact hlength (hsize ▸ hle)

end Authenticode.Session
