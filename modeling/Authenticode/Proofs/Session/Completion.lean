import Authenticode.Proofs.Draft
import Authenticode.Proofs.Session.Rewriting

/-!
# When runs go through

A step goes through when what it needs is there. So a run that writes an image can be
repeated in another session, from another signature or another source of it, where the
files it needs are in their places: its output is then the same, because the image is
edited in the same way.
-/
namespace Authenticode

namespace SignedImage

open Cms (Signature)

variable {s t : SignedImage} {extra other : Signature} {index : Int}

theorem missingSpace_congr (h : extra.length = other.length) :
    s.missingSpace extra = s.missingSpace other := by
  unfold missingSpace CertificateTable.sizeWith
  rw [h]

theorem checkSpace_of_insert (h : insert index extra s = .ok () t) :
    s.checkSpace extra = .ok () := by
  obtain ⟨k, table, -, hk, hlist, htable, hwrite⟩ := insert_eq_ok h
  have hlength := CertificateTable.length_of_encode htable
  rw [hlist, CertificateTable.size_insertIdx hk] at hlength
  obtain ⟨d, hd, hfits⟩ := Pe.Image.le_reserved_of_writeTable hwrite
  have hreserved : s.image.reserved = .ok d.reserved := Except.map_eq_ok_iff.2 ⟨d, hd, rfl⟩
  simp only [checkSpace]
  refine Except.bind_eq_ok_iff.2 ⟨_, hreserved, ?_⟩
  rw [if_neg (by omega)]
  rfl

end SignedImage

namespace Session

open Cms (RawSignature Signature Signer SigningIdentity)
open FileSystem (Filled Wrote)
open Pe (Image)

variable {s s' : Session} {o : Options} {actions : ActionSet} {w : Workflow}
  {x cleared grown : Image} {before : List Signature} {t u : SignedImage} {extra : Signature}
  {data b : Bytes} {path out : String} {i k l : Location} {who : Signer} {d : Digest}
  {warning : Option Warning}

/-- The input of a session is there, and its output may be opened beside it. -/
structure Arranged (s : Session) (data : Bytes) (path out : String) (i k : Location) : Prop where
  input : s.options.input = some path
  found : ∃ mode, s.files.find path = .ok (i, .file data mode)
  output : s.options.output = some out
  accepts : s.files.Accepts s.options.force out k
  ne : i ≠ k
  spelling : Path.isSame path out = false

theorem Arranged.of_filled (h : Arranged s data path out i k) (hfilled : Filled l s.files s'.files)
    (hoptions : s'.options.input = s.options.input ∧ s'.options.output = s.options.output ∧
      s'.options.force = s.options.force) (hi : i ≠ l) (hk : k ≠ l) :
    Arranged s' data path out i k := by
  obtain ⟨hinput, ⟨mode, hfound⟩, houtput, haccepts, hne, hspelling⟩ := h
  obtain ⟨hsameInput, hsameOutput, hsameForce⟩ := hoptions
  refine ⟨hsameInput.trans hinput, ⟨mode, hfilled.find_of_ne hfound hi⟩, hsameOutput.trans houtput,
    ?_, hne, hspelling⟩
  rw [hsameForce]
  exact haccepts.of_filled hfilled hk

theorem Arranged.perform_eq (h : Arranged s data path out i k)
    (hselect : selectWorkflow actions = .ok w) : perform actions s = run w s := by
  obtain ⟨hinput, ⟨mode, hfound⟩, houtput, haccepts, hne, hspelling⟩ := h
  have hpaths : checkPaths s = .ok () s :=
    checkPaths_eq_ok_iff.2 ⟨rfl, path, out, hinput, houtput,
      haccepts.isSameFile_eq_false hspelling hfound hne⟩
  simp only [perform]
  rw [hselect, Step.bind_of_ok Step.ofExcept_ok]
  by_cases hwrites : w.writesImage = true
  · rw [if_pos hwrites, Step.bind_of_ok hpaths]
  · rw [if_neg hwrites]

theorem arranged_of_perform
    (hselect : selectWorkflow actions = .ok .generateAndEmbedSignature)
    (h : perform actions s = .ok () s') : ∃ data path out i k, Arranged s data path out i k := by
  have hwrites : Workflow.generateAndEmbedSignature.writesImage = true := rfl
  simp only [perform] at h
  rw [hselect, Step.bind_of_ok Step.ofExcept_ok, if_pos hwrites] at h
  obtain ⟨_, s₀, hpaths, h⟩ := Step.bind_eq_ok_iff.1 h
  obtain ⟨rfl, path, out, hinput, hout, hdiffer⟩ := checkPaths_eq_ok_iff.1 hpaths
  simp only [run, generateAndEmbedSignature] at h
  obtain ⟨_, s₁, hcertificate, h⟩ := Step.bind_eq_ok_iff.1 h
  obtain ⟨_, _, _, _, -, -, -, rfl⟩ := findCertificate_eq_ok_iff.1 hcertificate
  obtain ⟨_, s₂, hopen, h⟩ := Step.bind_eq_ok_iff.1 h
  obtain ⟨path', i, data, mode, image, signatures, hinput', hfound, -, -, rfl⟩ :=
    openInput_eq_ok_iff.1 hopen
  replace h := (insertionIndex_bind_eq_ok_iff.1 h).2
  obtain ⟨_, s₃, houtput, -⟩ := Step.bind_eq_ok_iff.1 h
  obtain ⟨_, out', k, files, _, _, _, -, hout', -, hcreate, -, -, -⟩ :=
    openOutput_eq_ok_iff.1 houtput
  cases hinput.symm.trans hinput'
  cases hout.symm.trans hout'
  have haccepts : s.files.Accepts s.options.force out k := ⟨_, files, hcreate⟩
  exact ⟨data, path, out, i, k, hinput, ⟨mode, hfound⟩, hout, haccepts,
    haccepts.ne_of_isSameFile hfound hdiffer, (Bool.or_eq_false_iff.1 hdiffer).1⟩

theorem Arranged.exists_opened (h : Arranged s data path out i k) (hx : Image.parse data = .ok x)
    (hbefore : x.signatures = .ok before) (hclear : Image.clearTable x = .ok warning cleared) :
    ∃ s₁ s₂ s₃, openInput s = .ok () s₁ ∧ openOutput s₁ = .ok () s₂ ∧ closeInput s₂ = .ok () s₃ ∧
      s₁.options = s.options ∧ s₁.signatures = before ∧ Opened s s₃ data x cleared before := by
  obtain ⟨hinput, ⟨mode, hfound⟩, hout, haccepts, -, -⟩ := h
  obtain ⟨-, hbytes, -⟩ := Image.parse_eq_ok_iff.1 hx
  have hopen : openInput s = .ok () { s with
      signatures := before, outputMode := some mode, input := some ⟨path, x⟩ } :=
    openInput_eq_ok_iff.2 ⟨path, i, data, mode, x, before, hinput, hfound, hx, hbefore, rfl⟩
  obtain ⟨files, hcreate⟩ := haccepts.create mode
  obtain ⟨s₂, houtput⟩ : ∃ s₂, openOutput { s with
      signatures := before, outputMode := some mode, input := some ⟨path, x⟩ } = .ok () s₂ :=
    ⟨_, openOutput_eq_ok_iff.2 ⟨⟨path, x⟩, out, k, files, x, warning, cleared, rfl, hout,
      haccepts.force_or_not_contains, hcreate, hbytes.symm ▸ hx, hclear, rfl⟩⟩
  have hclose : closeInput s₂ = .ok () { s₂ with input := none } := closeInput_eq_ok_iff.2 rfl
  obtain ⟨data', x', cleared', before', hopened, hoptions, hsame⟩ :=
    opened_of_open hopen houtput hclose
  obtain rfl := hopened.data_eq hinput (FileSystem.readFile_of_find hfound)
  cases hx.symm.trans hopened.parse
  cases hbefore.symm.trans hopened.signatures
  obtain ⟨_, hclear'⟩ := hopened.clear
  cases hclear.symm.trans hclear'
  exact ⟨_, _, _, hopen, houtput, hclose, rfl, rfl, hopened⟩

theorem Underway.exists_edit {α : Type} {edit : SignedImage.Edit α} {a : α}
    (h : Underway o s t) (hedit : edit t = .ok a u) :
    ∃ s', editOutput edit s = .ok a s' ∧ Underway o s' u := by
  obtain ⟨-, hsignatures, -, file, -, houtput, -⟩ := id h
  have hrun : ∃ s', editOutput edit s = .ok a s' :=
    ⟨_, editOutput_eq_ok_iff.2 ⟨_, u, houtput, hsignatures.symm ▸ hedit, rfl⟩⟩
  obtain ⟨s', hrun⟩ := hrun
  obtain ⟨u', hu, hunder⟩ := h.edit hrun
  cases hedit.symm.trans hu
  exact ⟨s', hrun, hunder⟩

theorem Underway.exists_grow {amount : Nat} (h : Underway o s t)
    (hgrow : Image.growTable amount t.image = .ok () grown) :
    ∃ s', Session.growOutput amount s = .ok () s' ∧ Underway o s' ⟨grown, t.signatures⟩ :=
  h.exists_edit (SignedImage.onImage_eq_ok_iff.2 ⟨hgrow, rfl⟩)

theorem Underway.exists_close (h : Underway o s t)
    (hfinish : SignedImage.finish t = .ok warning u) :
    ∃ s' out, closeOutput s = .ok () s' ∧ o.output = some out ∧
      s'.files.readFile out = .ok u.image.bytes := by
  obtain ⟨-, hsignatures, -, file, -, houtput, -⟩ := id h
  have hrun : ∃ s', closeOutput s = .ok () s' :=
    ⟨_, closeOutput_eq_ok_iff.2 ⟨_, warning, u, houtput, hsignatures.symm ▸ hfinish, rfl⟩⟩
  obtain ⟨s', hrun⟩ := hrun
  obtain ⟨_, u', out, hu, hout, hread, -⟩ := h.close hrun
  cases hfinish.symm.trans hu
  exact ⟨s', out, hrun, hout, hread⟩

/-- What the cleared image becomes when a signature is put in at the index of the options. -/
def Completes (o : Options) (cleared : Image) (before : List Signature) (extra : Signature)
    (b : Bytes) : Prop :=
  ∃ amount grown t warning u,
    SignedImage.missingSpace ⟨cleared, before⟩ extra = .ok amount ∧
    Image.growTable amount cleared = .ok () grown ∧
    SignedImage.insert (o.signatureNumber.getD before.length) extra ⟨grown, before⟩ = .ok () t ∧
    SignedImage.finish t = .ok warning u ∧ u.image.bytes = b

theorem Completes.index_le (h : Completes o cleared before extra b) :
    o.signatureNumber.getD before.length ≤ before.length + 1 := by
  obtain ⟨_, _, _, _, _, -, -, hinsert, -⟩ := h
  obtain ⟨n, _, hindex, hn, -⟩ := SignedImage.insert_eq_ok hinsert
  have hle : n ≤ before.length := hn
  omega

theorem Underway.exists_completed (h : Underway o s ⟨cleared, before⟩)
    (hcompletes : Completes o cleared before extra b) (hout : o.output = some out) :
    ∃ amount grown t s₁ s₂ s',
      SignedImage.missingSpace ⟨cleared, before⟩ extra = .ok amount ∧
      SignedImage.insert (o.signatureNumber.getD before.length) extra ⟨grown, before⟩
        = .ok () t ∧
      Session.growOutput amount s = .ok () s₁ ∧ Underway o s₁ ⟨grown, before⟩ ∧
      editOutput (SignedImage.insert (o.signatureNumber.getD before.length) extra) s₁
        = .ok () s₂ ∧
      closeOutput s₂ = .ok () s' ∧ s'.files.readFile out = .ok b := by
  obtain ⟨amount, grown, t, _, u, hspace, hgrow, hinsert, hfinish, rfl⟩ := hcompletes
  obtain ⟨s₁, hgrew, hgrown⟩ := h.exists_grow hgrow
  obtain ⟨s₂, hput, hdone⟩ := hgrown.exists_edit hinsert
  obtain ⟨s', out', hclosed, hout', hread⟩ := hdone.exists_close hfinish
  cases hout.symm.trans hout'
  exact ⟨amount, grown, t, s₁, s₂, s', hspace, hinsert, hgrew, hgrown, hput, hclosed, hread⟩

theorem Arranged.congr (h : Arranged s data path out i k) (hoptions : s'.options = s.options)
    (hfiles : s'.files = s.files) : Arranged s' data path out i k := by
  obtain ⟨hinput, hfound, houtput, haccepts, hne, hspelling⟩ := h
  rw [← hoptions] at hinput houtput haccepts
  rw [← hfiles] at hfound haccepts
  exact ⟨hinput, hfound, houtput, haccepts, hne, hspelling⟩

/-- A signature file beside the output is read when the output is there already, and then what it
holds is put in. -/
theorem Arranged.exists_importSignature (h : Arranged s data path out i k)
    (hx : Image.parse data = .ok x) (hbefore : x.signatures = .ok before)
    (hclear : Image.clearTable x = .ok warning cleared) {source : String} {file : Bytes} {n : Nat}
    (hsource : s.options.signatureInput = some source)
    (hfile : s.files.find source = .ok (l, .file file n)) (hl : l ≠ k)
    (hextra : Signature.ofFile file = .ok extra)
    (hcompletes : Completes s.options cleared before extra b) :
    ∃ s', importSignature s = .ok () s' ∧ s'.files.readFile out = .ok b := by
  obtain ⟨s₁, s₂, s₃, hopen, houtput, hclose, hoptions, hsame, hopened⟩ :=
    h.exists_opened hx hbefore hclear
  have hgiven : Provides s₃ .signature file := by
    obtain ⟨out', k', hout', hwrote⟩ := hopened.wrote
    cases h.output.symm.trans hout'
    obtain ⟨⟨mode, created, hcreate, -⟩, -⟩ := id hwrote
    cases h.accepts.unique ⟨mode, created, hcreate⟩
    have hfound := hwrote.filled.find_of_ne hfile hl
    refine ⟨source, ?_, FileSystem.readFile_of_find hfound⟩
    rw [hopened.underway.1]
    exact hsource
  obtain ⟨amount, grown, t, s₄, s₅, s', hspace, hinsert, hgrew, hgrown, hput, hclosed, hread⟩ :=
    hopened.underway.exists_completed hcompletes h.output
  refine ⟨s', ?_, hread⟩
  simp only [importSignature]
  refine Step.bind_eq_ok_iff.2 ⟨_, s₁, hopen, insertionIndex_bind_eq_ok_iff.2 ?_⟩
  rw [hoptions, hsame]
  refine ⟨hcompletes.index_le, Step.bind_eq_ok_iff.2 ⟨_, s₂, houtput, Step.bind_eq_ok_iff.2
    ⟨_, s₃, hclose, readArtifact_bind_eq_ok_iff.2 ⟨file, hgiven, ?_⟩⟩⟩⟩
  refine Step.ofExcept_bind_eq_ok_iff.2 ⟨extra, hextra, ?_⟩
  refine hopened.underway.signedOutput_bind_eq_ok_iff.2 ?_
  refine Step.ofExcept_bind_eq_ok_iff.2 ⟨amount, hspace, Step.bind_eq_ok_iff.2 ⟨_, s₄, hgrew, ?_⟩⟩
  refine hgrown.signedOutput_bind_eq_ok_iff.2 (Step.ofExcept_bind_eq_ok_iff.2
    ⟨(), SignedImage.checkSpace_of_insert hinsert, ?_⟩)
  exact Step.bind_eq_ok_iff.2 ⟨_, s₅, hput, hclosed⟩

theorem Arranged.exists_importRawSignature (h : Arranged s data path out i k)
    (hx : Image.parse data = .ok x) (hbefore : x.signatures = .ok before)
    (hclear : Image.clearTable x = .ok warning cleared) (hselects : Selects s false who)
    {value attributes : Bytes} {raw : RawSignature} (hvalue : Provides s .rawSignature value)
    (hattributes : Provides s .signedAttributes attributes)
    (hraw : RawSignature.ofFiles value attributes = .ok raw)
    (hdigest : cleared.digest s.options.digest .signing = .ok d)
    (hwrap : who.wrap d raw = .ok extra)
    (hcompletes : Completes s.options cleared before extra b) :
    ∃ s', importRawSignature s = .ok () s' ∧ s'.files.readFile out = .ok b := by
  obtain ⟨halgorithm, hnow, name, database, warnings, hname, hload, hfind⟩ := hselects
  obtain ⟨s₀, hcertificate, hs₀⟩ : ∃ s₀, findCertificate false s = .ok () s₀ ∧
      s₀ = { s with warnings := s.warnings ++ warnings, identity := some who.identity } :=
    ⟨_, findCertificate_eq_ok_iff.2 ⟨name, database, warnings, _, hname, hload, hfind, rfl⟩, rfl⟩
  have hoptions₀ : s₀.options = s.options := by rw [hs₀]
  have hfiles₀ : s₀.files = s.files := by rw [hs₀]
  obtain ⟨s₁, s₂, s₃, hopen, houtput, hclose, hoptions, hsame, hopened⟩ :=
    (h.congr hoptions₀ hfiles₀).exists_opened hx hbefore hclear
  have hunder := hopened.underway
  rw [hoptions₀] at hoptions hunder
  obtain ⟨draft, hdraft, hlength⟩ := Signer.exists_draft_of_wrap hwrap
  have hready : Underway s.options { s₃ with digest := some d } ⟨cleared, before⟩ :=
    hunder.beside ⟨rfl, rfl, rfl, rfl⟩
  have hidentity : s₃.identity = some who.identity := by rw [hopened.identity_eq, hs₀]
  have hwho : (⟨s₃.options.digest, who.identity, s₃.now⟩ : Signer) = who := by
    rw [hunder.1, hopened.now_eq, hs₀, ← halgorithm, ← hnow]
  obtain ⟨amount, grown, t, s₄, s₅, s', hspace, -, hgrew, -, hput, hclosed, hread⟩ :=
    hready.exists_completed hcompletes h.output
  have hneeded : SignedImage.spaceNeeded ⟨cleared, before⟩ who (some raw) = .ok amount := by
    refine Except.bind_eq_ok_iff.2 ⟨draft, hdraft, ?_⟩
    rw [SignedImage.missingSpace_congr hlength]
    exact hspace
  refine ⟨s', ?_, hread⟩
  simp only [importRawSignature]
  refine Step.bind_eq_ok_iff.2 ⟨_, s₀, hcertificate, ?_⟩
  refine readArtifact_bind_eq_ok_iff.2 ⟨value, hvalue.congr hoptions₀ hfiles₀, ?_⟩
  refine readArtifact_bind_eq_ok_iff.2 ⟨attributes, hattributes.congr hoptions₀ hfiles₀, ?_⟩
  refine Step.ofExcept_bind_eq_ok_iff.2 ⟨raw, hraw, ?_⟩
  refine Step.bind_eq_ok_iff.2 ⟨_, s₁, hopen, insertionIndex_bind_eq_ok_iff.2 ?_⟩
  rw [hoptions, hsame]
  refine ⟨hcompletes.index_le, Step.bind_eq_ok_iff.2 ⟨_, s₂, houtput, Step.bind_eq_ok_iff.2
    ⟨_, s₃, hclose, ?_⟩⟩⟩
  obtain ⟨-, -, -, file, -, hsome, -⟩ := id hunder
  refine outputImage_bind_eq_ok_iff.2 ⟨_, hsome, ?_⟩
  refine Step.bind_eq_ok_iff.2 ⟨d, _, computeDigest_eq_ok_iff.2 ⟨?_, rfl⟩, ?_⟩
  · rw [hunder.1]
    exact hdigest
  refine signer_bind_eq_ok_iff.2 ⟨_, hidentity, ?_⟩
  dsimp only
  rw [hwho]
  refine hready.signedOutput_bind_eq_ok_iff.2 ?_
  refine Step.ofExcept_bind_eq_ok_iff.2 ⟨amount, hneeded, Step.bind_eq_ok_iff.2 ⟨_, s₄, hgrew, ?_⟩⟩
  refine Step.ofExcept_bind_eq_ok_iff.2 ⟨extra, hwrap, ?_⟩
  exact Step.bind_eq_ok_iff.2 ⟨_, s₅, hput, hclosed⟩

theorem exists_writeArtifact (role : Artifact) {target : String}
    (htarget : s.options.outputPath? role = some target)
    (haccepts : s.files.Accepts s.options.force target l) (b : Bytes) :
    ∃ s', writeArtifact role b s = .ok () s' ∧
      s.files.Wrote target (!s.options.force) l s'.files b := by
  obtain ⟨created, hcreate⟩ :=
    haccepts.create (s.outputMode.getD FileSystem.defaultMode)
  have hopen : ∀ a, Session.create target a s = .ok l { s with files := created } := fun _ =>
    create_eq_ok_iff.2 ⟨haccepts.force_or_not_contains, created, hcreate, rfl⟩
  refine ⟨{ s with files := created.write l b }, ?_, FileSystem.wrote_of_create hcreate b⟩
  simp only [writeArtifact]
  rw [Step.get_bind]
  exact required_bind_eq_ok_iff.2 ⟨target, htarget, Step.bind_eq_ok_iff.2 ⟨l, _, hopen _, rfl⟩⟩

theorem Arranged.exists_generateAndExportSignature (h : Arranged s data path out i k)
    (hx : Image.parse data = .ok x) (hbefore : x.signatures = .ok before)
    (hselects : Selects s true who) (hdigest : x.digest s.options.digest .signing = .ok d)
    (hgenerate : who.generate d s.draws = .ok extra) {target : String}
    (htarget : s.options.signatureOutput = some target)
    (haccepts : s.files.Accepts s.options.force target l) :
    ∃ s', generateAndExportSignature s = .ok () s' ∧
      s.files.Wrote target (!s.options.force) l s'.files (extra.toFile s.options.armored) := by
  obtain ⟨hinput, ⟨mode, hfound⟩, -, -, -, -⟩ := h
  obtain ⟨halgorithm, hnow, name, database, warnings, hname, hload, hfind⟩ := hselects
  have hwho : (⟨s.options.digest, who.identity, s.now⟩ : Signer) = who := by
    rw [← halgorithm, ← hnow]
  obtain ⟨s₁, hwrite, hwrote⟩ := exists_writeArtifact .signature (s := { s with
    warnings := s.warnings ++ warnings, identity := some who.identity, signatures := before
    outputMode := some mode, input := some ⟨path, x⟩, digest := some d }) htarget haccepts
    (extra.toFile s.options.armored)
  refine ⟨{ s₁ with input := none }, ?_, hwrote⟩
  simp only [generateAndExportSignature]
  refine Step.bind_eq_ok_iff.2 ⟨_, _, findCertificate_eq_ok_iff.2
    ⟨name, database, warnings, _, hname, hload, hfind, rfl⟩, ?_⟩
  refine Step.bind_eq_ok_iff.2 ⟨_, _, openInput_eq_ok_iff.2
    ⟨path, i, data, mode, x, before, hinput, hfound, hx, hbefore, rfl⟩, ?_⟩
  refine inputImage_bind_eq_ok_iff.2 ⟨_, rfl, ?_⟩
  refine Step.bind_eq_ok_iff.2 ⟨d, _, computeDigest_eq_ok_iff.2 ⟨hdigest, rfl⟩, ?_⟩
  refine signer_bind_eq_ok_iff.2 ⟨_, rfl, ?_⟩
  dsimp only
  rw [hwho]
  refine generate_bind_eq_ok_iff.2 ⟨extra, hgenerate, ?_⟩
  rw [Step.get_bind]
  exact Step.bind_eq_ok_iff.2 ⟨_, s₁, hwrite, closeInput_eq_ok_iff.2 rfl⟩

theorem Arranged.exists_exportSignedAttributes (h : Arranged s data path out i k)
    (hx : Image.parse data = .ok x) (hbefore : x.signatures = .ok before)
    (hdigest : x.digest s.options.digest .signing = .ok d)
    {attributes : Cms.SignedAttributes}
    (hattributes : Cms.SignedAttributes.ofDigest d s.now = .ok attributes) {target : String}
    (htarget : s.options.attributesOutput = some target)
    (haccepts : s.files.Accepts s.options.force target l) :
    ∃ s', exportSignedAttributes s = .ok () s' ∧
      s.files.Wrote target (!s.options.force) l s'.files attributes.setDer := by
  obtain ⟨hinput, ⟨mode, hfound⟩, -, -, -, -⟩ := h
  obtain ⟨s₁, hwrite, hwrote⟩ := exists_writeArtifact .signedAttributes (s := { s with
    signatures := before, outputMode := some mode, input := some ⟨path, x⟩, digest := some d })
    htarget haccepts attributes.setDer
  refine ⟨{ s₁ with input := none }, ?_, hwrote⟩
  simp only [exportSignedAttributes]
  refine Step.bind_eq_ok_iff.2 ⟨_, _, openInput_eq_ok_iff.2
    ⟨path, i, data, mode, x, before, hinput, hfound, hx, hbefore, rfl⟩, ?_⟩
  refine inputImage_bind_eq_ok_iff.2 ⟨_, rfl, ?_⟩
  refine Step.bind_eq_ok_iff.2 ⟨d, _, computeDigest_eq_ok_iff.2 ⟨hdigest, rfl⟩, ?_⟩
  rw [Step.get_bind]
  refine Step.ofExcept_bind_eq_ok_iff.2 ⟨attributes, hattributes, ?_⟩
  exact Step.bind_eq_ok_iff.2 ⟨_, s₁, hwrite, closeInput_eq_ok_iff.2 rfl⟩

end Session

end Authenticode
