import Authenticode.Proofs.Session.Files
import Authenticode.Proofs.Session.ListEdits

/-!
# What a run has done

A workflow that ends well has done the one thing it is for: it wrote a file with the part it
exports, printed a line or a listing, or wrote the image with its list edited. For each
workflow this is said about the sessions before and after, and about nothing in between.
-/
namespace Authenticode.Session

open Cms (Signature SignedAttributes Signer)
open Pe (Image)

variable {s s' : Session} {w : Workflow} {cleared : Image} {edit : ListEdit} {role : Artifact}
  {b : Bytes}

/-- The input as a run reads it: where it is, its image and the signatures of that. -/
structure Shows (s : Session) (path : String) (x : Image) (list : List Signature) : Prop where
  input : s.options.input = some path
  parse : ∃ data, s.files.readFile path = .ok data ∧ Image.parse data = .ok x
  signatures : x.signatures = .ok list

/-- The path was opened for writing, and leads to these octets now. No other file has changed. -/
def Writes (s s' : Session) (path : String) (b : Bytes) : Prop :=
  ∃ l, s.files.Wrote path (!s.options.force) l s'.files b

/-- The output was written with the list of the input after one edit. That list is read from what
was written by the layout of the input, and by any layout by which it opens. -/
def Relists (s s' : Session) (cleared : Image) (edit : ListEdit) : Prop :=
  ∃ input x before warning after out b,
    Shows s input x before ∧ Image.clearTable x = .ok warning cleared ∧
    edit.apply before = some after ∧
    s.options.output = some out ∧ Writes s s' out b ∧
    (⟨b, x.layout⟩ : Image).signatures = .ok after ∧
    ∀ y, Image.parse b = .ok y → y.signatures = .ok after

theorem shows_of_openInput (h : openInput s = .ok () s') :
    ∃ path x list outputMode, Shows s path x list ∧
      s' = { s with signatures := list, outputMode, input := some ⟨path, x⟩ } := by
  obtain ⟨path, l, data, mode, x, list, hpath, hfind, hx, hlist, rfl⟩ := openInput_eq_ok_iff.1 h
  exact ⟨path, x, list, some mode,
    ⟨hpath, ⟨data, FileSystem.readFile_of_find hfind, hx⟩, hlist⟩, rfl⟩

theorem writes_of_writeArtifact (h : writeArtifact role b s = .ok () s') :
    ∃ path, s.options.outputPath? role = some path ∧ Writes s s' path b := by
  simp only [writeArtifact] at h
  rw [Step.get_bind] at h
  obtain ⟨path, hpath, h⟩ := required_bind_eq_ok_iff.1 h
  obtain ⟨l, t, hopen, h⟩ := Step.bind_eq_ok_iff.1 h
  obtain ⟨-, files, hcreate, rfl⟩ := create_eq_ok_iff.1 hopen
  cases h
  exact ⟨path, hpath, l, FileSystem.wrote_of_create hcreate b⟩

theorem writes_of_exportSignedAttributes (h : exportSignedAttributes s = .ok () s') :
    ∃ input x list d attributes path, Shows s input x list ∧
      x.digest s.options.digest .signing = .ok d ∧
      SignedAttributes.ofDigest d s.now = .ok attributes ∧
      s.options.attributesOutput = some path ∧ Writes s s' path attributes.setDer := by
  simp only [exportSignedAttributes] at h
  obtain ⟨_, s₁, hinput, h⟩ := Step.bind_eq_ok_iff.1 h
  obtain ⟨input, x, list, mode, hshows, rfl⟩ := shows_of_openInput hinput
  obtain ⟨_, hopen, h⟩ := inputImage_bind_eq_ok_iff.1 h
  cases hopen
  obtain ⟨d, s₂, hcompute, h⟩ := Step.bind_eq_ok_iff.1 h
  obtain ⟨hdigest, rfl⟩ := computeDigest_eq_ok_iff.1 hcompute
  rw [Step.get_bind] at h
  obtain ⟨attributes, hattributes, h⟩ := Step.ofExcept_bind_eq_ok_iff.1 h
  obtain ⟨_, s₃, hwrite, hclose⟩ := Step.bind_eq_ok_iff.1 h
  obtain ⟨path, hpath, hwrote⟩ := writes_of_writeArtifact hwrite
  obtain rfl := closeInput_eq_ok_iff.1 hclose
  exact ⟨input, x, list, d, attributes, path, hshows, hdigest, hattributes, hpath, hwrote⟩

theorem selects_of_findCertificate {withKey : Bool} (h : findCertificate withKey s = .ok () s') :
    ∃ warnings identity, Selects s withKey ⟨s.options.digest, identity, s.now⟩ ∧
      s' = { s with warnings, identity := some identity } := by
  obtain ⟨name, database, warnings, identity, hname, hload, hfind, rfl⟩ :=
    findCertificate_eq_ok_iff.1 h
  exact ⟨_, identity, ⟨rfl, rfl, name, database, warnings, hname, hload, hfind⟩, rfl⟩

theorem writes_of_exportPublicKey (h : exportPublicKey s = .ok () s') :
    ∃ who key path, Selects s true who ∧ who.identity.publicKey = .ok key ∧
      s.options.publicKeyOutput = some path ∧
      Writes s s' path (exportedFile s.options.armored "PUBLIC KEY" key.encode) := by
  simp only [exportPublicKey] at h
  obtain ⟨_, s₁, hcertificate, h⟩ := Step.bind_eq_ok_iff.1 h
  obtain ⟨warnings, identity, hselects, rfl⟩ := selects_of_findCertificate hcertificate
  obtain ⟨_, hidentity, h⟩ := signer_bind_eq_ok_iff.1 h
  cases hidentity
  obtain ⟨key, hkey, h⟩ := Step.ofExcept_bind_eq_ok_iff.1 h
  rw [Step.get_bind] at h
  obtain ⟨path, hpath, hwrote⟩ := writes_of_writeArtifact h
  exact ⟨_, key, path, hselects, hkey, hpath, hwrote⟩

theorem writes_of_exportCertificate (h : exportCertificate s = .ok () s') :
    ∃ who path, Selects s false who ∧ s.options.certificateOutput = some path ∧
      Writes s s' path
        (exportedFile s.options.armored "CERTIFICATE" who.identity.certificate.der) := by
  simp only [exportCertificate] at h
  obtain ⟨_, s₁, hcertificate, h⟩ := Step.bind_eq_ok_iff.1 h
  obtain ⟨warnings, identity, hselects, rfl⟩ := selects_of_findCertificate hcertificate
  obtain ⟨_, hidentity, h⟩ := signer_bind_eq_ok_iff.1 h
  cases hidentity
  rw [Step.get_bind] at h
  obtain ⟨path, hpath, hwrote⟩ := writes_of_writeArtifact h
  exact ⟨_, path, hselects, hpath, hwrote⟩

theorem exported_eq_ok_iff {list : List Signature} {index : Int} {armored : Bool} :
    SignedImage.exported list index armored = .ok b ↔
      ∃ sig, list[index.toNat]? = some sig ∧ b = sig.toFile armored := by
  unfold SignedImage.exported
  cases list[index.toNat]? with
  | none => simp
  | some sig => simp [eq_comm]

theorem writes_of_exportSignature (h : exportSignature s = .ok () s') :
    ∃ input x list sig path, Shows s input x list ∧
      list[(s.options.signatureNumber.getD 0).toNat]? = some sig ∧
      s.options.signatureOutput = some path ∧ Writes s s' path (sig.toFile s.options.armored) := by
  simp only [exportSignature] at h
  obtain ⟨_, s₁, hinput, h⟩ := Step.bind_eq_ok_iff.1 h
  obtain ⟨input, x, list, mode, hshows, rfl⟩ := shows_of_openInput hinput
  rw [Step.get_bind] at h
  dsimp only at h
  split at h
  · cases h
  · obtain ⟨file, hfile, h⟩ := Step.ofExcept_bind_eq_ok_iff.1 h
    obtain ⟨sig, hsig, rfl⟩ := exported_eq_ok_iff.1 hfile
    obtain ⟨_, s₂, hwrite, hclose⟩ := Step.bind_eq_ok_iff.1 h
    obtain ⟨path, hpath, hwrote⟩ := writes_of_writeArtifact hwrite
    obtain rfl := closeInput_eq_ok_iff.1 hclose
    exact ⟨input, x, list, sig, path, hshows, hsig, hpath, hwrote⟩

theorem writes_of_generateAndExportSignature (h : generateAndExportSignature s = .ok () s') :
    ∃ input x list who d extra path, Shows s input x list ∧ Selects s true who ∧
      x.digest s.options.digest .signing = .ok d ∧ who.generate d s.draws = .ok extra ∧
      s.options.signatureOutput = some path ∧
      Writes s s' path (extra.toFile s.options.armored) := by
  simp only [generateAndExportSignature] at h
  obtain ⟨_, s₁, hcertificate, h⟩ := Step.bind_eq_ok_iff.1 h
  obtain ⟨warnings, identity, hselects, rfl⟩ := selects_of_findCertificate hcertificate
  obtain ⟨_, s₂, hinput, h⟩ := Step.bind_eq_ok_iff.1 h
  obtain ⟨input, x, list, mode, ⟨hpath, hparse, hlist⟩, rfl⟩ := shows_of_openInput hinput
  obtain ⟨_, hopen, h⟩ := inputImage_bind_eq_ok_iff.1 h
  cases hopen
  obtain ⟨d, s₃, hcompute, h⟩ := Step.bind_eq_ok_iff.1 h
  obtain ⟨hdigest, rfl⟩ := computeDigest_eq_ok_iff.1 hcompute
  obtain ⟨_, hidentity, h⟩ := signer_bind_eq_ok_iff.1 h
  cases hidentity
  obtain ⟨extra, hgenerate, h⟩ := generate_bind_eq_ok_iff.1 h
  rw [Step.get_bind] at h
  obtain ⟨_, s₄, hwrite, hclose⟩ := Step.bind_eq_ok_iff.1 h
  obtain ⟨path, hout, hwrote⟩ := writes_of_writeArtifact hwrite
  obtain rfl := closeInput_eq_ok_iff.1 hclose
  exact ⟨input, x, list, _, d, extra, path, ⟨hpath, hparse, hlist⟩, hselects, hdigest, hgenerate,
    hout, hwrote⟩

theorem prints_of_listSignatures (h : listSignatures s = .ok () s') :
    ∃ input x list, Shows s input x list ∧ s'.printed = s.printed ++ Listing.text list := by
  simp only [listSignatures] at h
  obtain ⟨_, s₁, hinput, h⟩ := Step.bind_eq_ok_iff.1 h
  obtain ⟨input, x, list, mode, hshows, rfl⟩ := shows_of_openInput hinput
  rw [Step.get_bind] at h
  obtain ⟨_, s₂, hprint, hclose⟩ := Step.bind_eq_ok_iff.1 h
  cases hprint
  obtain rfl := closeInput_eq_ok_iff.1 hclose
  exact ⟨input, x, list, hshows, rfl⟩

theorem prints_of_printDigest {omitted : Bool} (h : printDigest omitted s = .ok () s') :
    ∃ input x list d, Shows s input x list ∧
      x.digest s.options.digest ⟨s.options.padding, omitted⟩ = .ok d ∧
      s'.printed = s.printed ++ (input ++ " " ++ d.toHex ++ "\n") := by
  simp only [printDigest] at h
  obtain ⟨_, s₁, hinput, h⟩ := Step.bind_eq_ok_iff.1 h
  obtain ⟨input, x, list, mode, hshows, rfl⟩ := shows_of_openInput hinput
  obtain ⟨_, hopen, h⟩ := inputImage_bind_eq_ok_iff.1 h
  cases hopen
  rw [Step.get_bind] at h
  obtain ⟨d, s₂, hcompute, h⟩ := Step.bind_eq_ok_iff.1 h
  obtain ⟨hdigest, rfl⟩ := computeDigest_eq_ok_iff.1 hcompute
  obtain ⟨_, s₃, hprint, hclose⟩ := Step.bind_eq_ok_iff.1 h
  cases hprint
  obtain rfl := closeInput_eq_ok_iff.1 hclose
  exact ⟨input, x, list, d, hshows, hdigest, rfl⟩

theorem relists_of_run (hwrites : w.writesImage = true) (h : run w s = .ok () s') :
    ∃ cleared edit, Asks s cleared w edit ∧ Relists s s' cleared edit := by
  obtain ⟨data, x, cleared, before, t, edit, hedited⟩ := edited_of_run hwrites h
  obtain ⟨input, hinput, hread⟩ := hedited.input
  obtain ⟨warning, hclear⟩ := hedited.clear
  obtain ⟨-, -, -, -, -, -, hsame⟩ := hedited.finish
  obtain ⟨u, out, table, hout, hwritten, htable, hover⟩ := hedited.toRewrote.over hedited.change
  rw [hsame] at htable
  have hexported : ∃ l, s.files.Wrote out (!s.options.force) l s'.files u.bytes := by
    have hcompleted := triple_run_completed w s ⟨rfl, rfl⟩
    rw [h] at hcompleted
    rcases hcompleted with ⟨hnone, -⟩ | ⟨target, htarget, l, b, hwrote⟩
    · rw [Workflow.target?_of_writesImage hwrites, hout] at hnone
      cases hnone
    · rw [Workflow.target?_of_writesImage hwrites, hout] at htarget
      cases htarget
      cases hwritten.symm.trans hwrote.readFile
      exact ⟨l, hwrote⟩
  refine ⟨cleared, edit, hedited.asks, input, x, before, warning, t.signatures, out, u.bytes,
    ⟨hinput, ⟨data, hread, hedited.parse⟩, hedited.signatures⟩, hclear, hedited.apply_eq, hout,
    hexported, ?_, ?_⟩
  · rw [← hover.layout_eq]
    exact SignedImage.signatures_of_over hover htable hedited.readable
  · intro y hy
    obtain ⟨hfields, -⟩ := hover.reopened hedited.parse hy
    exact SignedImage.signatures_of_over (hfields.over hover) htable hedited.readable

end Authenticode.Session
