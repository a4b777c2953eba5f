import Authenticode.Proofs.FileSystem.Frame
import Authenticode.Proofs.Session.Steps
import Authenticode.Proofs.SignatureFile

/-!
# Runs that rewrite an image

Four workflows write an image: they import a signature or a raw signature, remove a
signature, or sign. Each of them opens the input, clears its table, changes the list
of signatures once, and finishes the output; only the change is its own. So what
holds of the written file follows from one description of such runs.
-/
namespace Authenticode.Session

open Cms (RawSignature Signature Signer)
open Pe (Layout)

variable {s s' : Session} {o : Options} {t : SignedImage} {x cleared : Pe.Image} {data : Bytes}
  {before : List Signature} {w : Workflow}

/-- The session's output image and list are those of `t`, and its file is where the options' path
leads. -/
def Underway (o : Options) (s : Session) (t : SignedImage) : Prop :=
  s.options = o ∧ s.signatures = t.signatures ∧
    ∃ out file, o.output = some out ∧ s.output = some ⟨file, t.image⟩ ∧ s.files.Leads out file

theorem Underway.beside (h : Underway o s t) (hs : Beside s s') : Underway o s' t := by
  obtain ⟨hoptions, hsignatures, out, file, hout, houtput, hleads⟩ := h
  exact ⟨hs.options_eq.trans hoptions, hs.signatures_eq.trans hsignatures, out, file, hout,
    hs.output_eq.trans houtput, hs.files_eq ▸ hleads⟩

theorem Underway.image_eq {output : OutputImage} (h : Underway o s t)
    (houtput : s.output = some output) : output.image = t.image := by
  obtain ⟨-, -, out, file, -, hsome, -⟩ := h
  cases hsome.symm.trans houtput
  rfl

theorem Underway.edit {α : Type} {edit : SignedImage.Edit α} {a : α} (h : Underway o s t)
    (hedit : editOutput edit s = .ok a s') : ∃ t', edit t = .ok a t' ∧ Underway o s' t' := by
  obtain ⟨hoptions, hsignatures, out, file, hout, houtput, hleads⟩ := h
  obtain ⟨p, t', hp, ht, rfl⟩ := editOutput_eq_ok_iff.1 hedit
  cases houtput.symm.trans hp
  rw [hsignatures] at ht
  exact ⟨t', ht, hoptions, rfl, out, file, hout, rfl, hleads⟩

theorem Underway.signedOutput_bind_eq_ok_iff {β : Type} {f : SignedImage → Run β} {b : β}
    (h : Underway o s t) : (signedOutput >>= f) s = .ok b s' ↔ f t s = .ok b s' := by
  obtain ⟨-, hsignatures, out, file, -, houtput, -⟩ := h
  rw [Session.signedOutput_bind_eq_ok_iff]
  constructor
  · rintro ⟨p, hp, hf⟩
    cases houtput.symm.trans hp
    rwa [hsignatures] at hf
  · intro hf
    refine ⟨_, houtput, ?_⟩
    rwa [hsignatures]

theorem Underway.growOutput {amount : Nat} (h : Underway o s t)
    (hgrow : growOutput amount s = .ok () s') :
    ∃ grown, Pe.Image.growTable amount t.image = .ok () grown ∧
      Underway o s' ⟨grown, t.signatures⟩ := by
  obtain ⟨u, hedit, hu⟩ := h.edit hgrow
  obtain ⟨hgrow, hsame⟩ := SignedImage.onImage_eq_ok_iff.1 hedit
  obtain ⟨image, signatures⟩ := u
  obtain rfl : signatures = t.signatures := hsame
  exact ⟨image, hgrow, hu⟩

theorem Underway.removeSignature {index : Int} {removed : Signature} (h : Underway o s t)
    (hremove : removeSignature index s = .ok removed s') :
    ∃ warning u, SignedImage.remove index t = .ok (removed, warning) u ∧ Underway o s' u := by
  simp only [Session.removeSignature] at hremove
  obtain ⟨⟨r, warning⟩, s₁, hedit, hremove⟩ := Step.bind_eq_ok_iff.1 hremove
  obtain ⟨u, hu, hunder⟩ := h.edit hedit
  cases hremove
  exact ⟨warning, u, hu, hunder⟩

theorem Underway.close (h : Underway o s t) (hclose : closeOutput s = .ok () s') :
    ∃ warning u out, SignedImage.finish t = .ok warning u ∧ o.output = some out ∧
      s'.files.readFile out = .ok u.image.bytes ∧ s'.signatures = t.signatures := by
  obtain ⟨hoptions, hsignatures, out, file, hout, houtput, hleads⟩ := h
  obtain ⟨p, warning, u, hp, hfinish, rfl⟩ := closeOutput_eq_ok_iff.1 hclose
  cases houtput.symm.trans hp
  rw [hsignatures] at hfinish
  exact ⟨warning, u, out, hfinish, hout, hleads.readFile_write u.image.bytes, hsignatures⟩

/-- What a run does to the list of signatures and the cleared image before it finishes. -/
inductive Change (cleared : Pe.Image) (before : List Signature) : SignedImage → Prop
  | insert {amount : Nat} {grown : Pe.Image} {index : Int} {extra : Signature} {t : SignedImage}
      (entry : ∃ d, cleared.directory = .ok d)
      (grow : Pe.Image.growTable amount cleared = .ok () grown)
      (insert : SignedImage.insert index extra ⟨grown, before⟩ = .ok () t) :
      Change cleared before t
  | remove {index : Int} {removed : Signature} {warning : Option Warning} {t : SignedImage}
      (remove : SignedImage.remove index ⟨cleared, before⟩ = .ok (removed, warning) t) :
      Change cleared before t

/-- The input is `data`, which is read as the image `x` with the signatures `before` and cleared. -/
structure Opens (s : Session) (data : Bytes) (x cleared : Pe.Image) (before : List Signature) :
    Prop where
  input : ∃ path, s.options.input = some path ∧ s.files.readFile path = .ok data
  parse : Pe.Image.parse data = .ok x
  signatures : x.signatures = .ok before
  clear : ∃ warning, Pe.Image.clearTable x = .ok warning cleared

theorem draws_growOutput {amount : Nat} (h : growOutput amount s = .ok () s') :
    s'.draws = s.draws := by
  obtain ⟨_, _, -, -, rfl⟩ := editOutput_eq_ok_iff.1 h
  rfl

/-- A run changed the cleared input to `t`, finished it and wrote it. -/
structure Rewrote (s s' : Session) (data : Bytes) (x cleared : Pe.Image)
    (before : List Signature) (t : SignedImage) : Prop
    extends Opens s data x cleared before where
  finish : ∃ warning u out, SignedImage.finish t = .ok warning u ∧ s.options.output = some out ∧
    s'.files.readFile out = .ok u.image.bytes ∧ s'.signatures = t.signatures

theorem Opens.data_eq {path : String} {data' : Bytes} (h : Opens s data x cleared before)
    (hpath : s.options.input = some path) (hread : s.files.readFile path = .ok data') :
    data = data' := by
  obtain ⟨path', hpath', hread'⟩ := h.input
  cases hpath.symm.trans hpath'
  exact Except.ok.inj (hread'.symm.trans hread)

theorem Opens.beside (h : Opens s' data x cleared before) (hs : Beside s s') :
    Opens s data x cleared before := by
  obtain ⟨⟨path, hpath, hread⟩, hparse, hsignatures, hclear⟩ := h
  rw [hs.options_eq] at hpath
  rw [hs.files_eq] at hread
  exact ⟨⟨path, hpath, hread⟩, hparse, hsignatures, hclear⟩

/-- A session whose output was just opened. -/
structure Opened (s s' : Session) (data : Bytes) (x cleared : Pe.Image) (before : List Signature) :
    Prop extends Opens s data x cleared before where
  now_eq : s'.now = s.now
  draws_eq : s'.draws = s.draws
  identity_eq : s'.identity = s.identity
  underway : Underway s.options s' ⟨cleared, before⟩
  wrote : ∃ out l, s.options.output = some out ∧
    s.files.Wrote out (!s.options.force) l s'.files data

theorem opened_of_open {s₁ s₂ s₃ : Session} (hinput : openInput s = .ok () s₁)
    (houtput : openOutput s₁ = .ok () s₂) (hclose : closeInput s₂ = .ok () s₃) :
    ∃ data x cleared before, Opened s s₃ data x cleared before ∧ s₁.options = s.options ∧
      s₁.signatures = before := by
  obtain ⟨path, l, data, mode, x, before, hpath, hfind, hx, hbefore, rfl⟩ :=
    openInput_eq_ok_iff.1 hinput
  obtain ⟨input, out, file, files, copy, warning, cleared, hinput, hout, -, hcreate, hcopy, hclear,
    rfl⟩ := openOutput_eq_ok_iff.1 houtput
  obtain rfl := closeInput_eq_ok_iff.1 hclose
  cases hinput
  obtain ⟨-, hbytes, -⟩ := Pe.Image.parse_eq_ok_iff.1 hx
  dsimp only at hcopy hclear hcreate hout ⊢
  rw [hbytes, hx, Except.ok.injEq] at hcopy
  subst hcopy
  refine ⟨data, x, cleared, before, ⟨⟨⟨path, hpath, FileSystem.readFile_of_find hfind⟩, hx,
    hbefore, warning, hclear⟩, rfl, rfl, rfl, ⟨rfl, rfl, out, file, hout, rfl, ?_⟩, out, file, hout, ?_⟩,
    rfl, rfl⟩
  · exact (FileSystem.leads_of_create hcreate).write x.bytes
  · rw [hbytes]
    exact FileSystem.wrote_of_create hcreate data

theorem Rewrote.beside {s₀ : Session} (h : Rewrote s₀ s' data x cleared before t)
    (hs : Beside s s₀) : Rewrote s s' data x cleared before t := by
  obtain ⟨hopens, warning, u, out, hfinish, hout, hread, hsame⟩ := h
  rw [hs.options_eq] at hout
  exact ⟨hopens.beside hs, warning, u, out, hfinish, hout, hread, hsame⟩

theorem Opened.rewrote {s₃ sₙ : Session} (h : Opened s s₃ data x cleared before)
    (hunder : Underway s.options sₙ t) (hclose : closeOutput sₙ = .ok () s') :
    Rewrote s s' data x cleared before t := by
  obtain ⟨warning, u, out, hfinish, hout, hread, hsame⟩ := hunder.close hclose
  exact ⟨h.toOpens, warning, u, out, hfinish, hout, hread, hsame⟩

theorem rewrote_of_removeSignatureAt (h : removeSignatureAt s = .ok () s') :
    ∃ data x cleared before t, Rewrote s s' data x cleared before t ∧
      ∃ removed warning, SignedImage.remove (s.options.signatureNumber.getD 0) ⟨cleared, before⟩
        = .ok (removed, warning) t := by
  simp only [removeSignatureAt] at h
  obtain ⟨_, s₁, hinput, h⟩ := Step.bind_eq_ok_iff.1 h
  obtain ⟨_, s₂, houtput, h⟩ := Step.bind_eq_ok_iff.1 h
  obtain ⟨_, s₃, hclose, h⟩ := Step.bind_eq_ok_iff.1 h
  obtain ⟨data, x, cleared, before, hopened, -, -⟩ := opened_of_open hinput houtput hclose
  rw [Step.get_bind, hopened.underway.1] at h
  obtain ⟨_, s₄, hdiscard, h⟩ := Step.bind_eq_ok_iff.1 h
  obtain ⟨removed, hremove⟩ := Step.discard_eq_ok_iff.1 hdiscard
  obtain ⟨warning, t, hremove, hunder⟩ := hopened.underway.removeSignature hremove
  exact ⟨data, x, cleared, before, t, hopened.rewrote hunder h, removed, warning, hremove⟩

/-- The signer of a run: the identity that the options name, as it is in the database. -/
structure Selects (s : Session) (withKey : Bool) (who : Signer) : Prop where
  algorithm_eq : who.algorithm = s.options.digest
  now_eq : who.now = s.now
  found : ∃ name database warnings, s.options.certificateName = some name ∧
    CertificateDatabase.load s.files s.options.certificateDirectory = .ok (database, warnings) ∧
    database.find name withKey = .ok who.identity

/-- The signature that a workflow puts into the list. One that it makes is about the digest of the
cleared image. -/
inductive Supplies (s : Session) (cleared : Pe.Image) : Workflow → Signature → Prop
  | imported {file : Bytes} {extra : Signature}
      (given : Provides s .signature file) (read : Signature.ofFile file = .ok extra) :
      Supplies s cleared .importSignature extra
  | wrapped {who : Signer} {value attributes : Bytes} {raw : RawSignature} {d : Digest}
      {extra : Signature} (selects : Selects s false who)
      (givenValue : Provides s .rawSignature value)
      (givenAttributes : Provides s .signedAttributes attributes)
      (read : RawSignature.ofFiles value attributes = .ok raw)
      (digest : cleared.digest s.options.digest .signing = .ok d)
      (wrap : who.wrap d raw = .ok extra) :
      Supplies s cleared .importRawSignature extra
  | generated {who : Signer} {d : Digest} {extra : Signature} (selects : Selects s true who)
      (digest : cleared.digest s.options.digest .signing = .ok d)
      (generate : who.generate d s.draws = .ok extra) :
      Supplies s cleared .generateAndEmbedSignature extra

theorem Selects.unique {withKey : Bool} {who who' : Signer} (h : Selects s withKey who)
    (h' : Selects s withKey who') : who = who' := by
  obtain ⟨halgorithm, hnow, name, database, warnings, hname, hload, hfind⟩ := h
  obtain ⟨halgorithm', hnow', name', database', warnings', hname', hload', hfind'⟩ := h'
  cases hname.symm.trans hname'
  cases hload.symm.trans hload'
  have hidentity := Except.ok.inj (hfind.symm.trans hfind')
  obtain ⟨algorithm, identity, now⟩ := who
  obtain ⟨algorithm', identity', now'⟩ := who'
  cases halgorithm.trans halgorithm'.symm
  cases hnow.trans hnow'.symm
  cases hidentity
  rfl

/-- The files and options of a run decide the signature that it puts in. -/
theorem Supplies.unique {extra other : Signature} (h : Supplies s cleared w extra)
    (h' : Supplies s cleared w other) : extra = other := by
  cases h with
  | imported given read =>
    obtain ⟨given', read'⟩ := h'
    cases given.unique given'
    exact Except.ok.inj (read.symm.trans read')
  | wrapped selects givenValue givenAttributes read digest wrap =>
    obtain _ | ⟨selects', givenValue', givenAttributes', read', digest', wrap'⟩ := h'
    cases selects.unique selects'
    cases givenValue.unique givenValue'
    cases givenAttributes.unique givenAttributes'
    cases read.symm.trans read'
    cases digest.symm.trans digest'
    exact Except.ok.inj (wrap.symm.trans wrap')
  | generated selects digest generate =>
    obtain _ | _ | ⟨selects', digest', generate'⟩ := h'
    cases selects.unique selects'
    cases digest.symm.trans digest'
    exact Except.ok.inj (generate.symm.trans generate')

theorem Supplies.readable {extra : Signature} (h : Supplies s cleared w extra) (tail : Bytes) :
    Signature.ofDer (extra.der ++ tail) = .ok extra := by
  cases h with
  | imported given read =>
    obtain ⟨der, -, hder⟩ := Except.bind_eq_ok_iff.1 read
    exact Signature.ofDer_der_append hder tail
  | wrapped selects givenValue givenAttributes read digest wrap =>
    obtain ⟨-, -, assemble⟩ := Cms.Signer.wrap_eq_ok_iff.1 wrap
    exact Cms.Signer.ofDer_der_append_of_assemble assemble tail
  | generated selects digest generate =>
    exact Cms.Signer.ofDer_der_append_of_generate generate tail

/-- A signature is put into the list at its index, once the table has grown. -/
structure Inserts (o : Options) (cleared : Pe.Image) (before : List Signature) (extra : Signature)
    (t : SignedImage) : Prop where
  entry : ∃ e, cleared.directory = .ok e
  insert : ∃ amount grown, Pe.Image.growTable amount cleared = .ok () grown ∧
    SignedImage.insert (o.signatureNumber.getD before.length) extra ⟨grown, before⟩ = .ok () t

theorem Inserts.change {extra : Signature} (h : Inserts o cleared before extra t) :
    Change cleared before t := by
  obtain ⟨entry, amount, grown, hgrow, hinsert⟩ := h
  exact .insert entry hgrow hinsert

/-- The signature file is read when the output is there already. A file that the output was
written over holds an image by then, which is no signature. -/
theorem Opened.provides {s₃ : Session} {file : Bytes} {extra : Signature}
    (h : Opened s s₃ data x cleared before) (hgiven : Provides s₃ .signature file)
    (hread : Signature.ofFile file = .ok extra) : Provides s .signature file := by
  obtain ⟨path, hpath, hfile⟩ := hgiven
  obtain ⟨m, mode, hfind⟩ := FileSystem.exists_find_of_readFile hfile
  obtain ⟨out, l, -, hwrote⟩ := h.wrote
  rw [h.underway.1] at hpath
  by_cases hm : m = l
  · obtain ⟨mode', hnode⟩ := hwrote.contents
    rw [hm] at hfind
    cases hnode.symm.trans (FileSystem.find_eq_ok_iff.1 hfind).2
    exact absurd hread (Signature.ofFile_ne_ok_of_parse h.parse extra)
  · exact ⟨path, hpath, FileSystem.readFile_of_find (hwrote.filled.find_before hfind hm)⟩

theorem rewrote_of_importSignature (h : importSignature s = .ok () s') :
    ∃ data x cleared before t, Rewrote s s' data x cleared before t ∧
      ∃ extra, Supplies s cleared .importSignature extra ∧
        Inserts s.options cleared before extra t := by
  simp only [importSignature] at h
  obtain ⟨_, s₁, hinput, h⟩ := Step.bind_eq_ok_iff.1 h
  replace h := (insertionIndex_bind_eq_ok_iff.1 h).2
  obtain ⟨_, s₂, houtput, h⟩ := Step.bind_eq_ok_iff.1 h
  obtain ⟨_, s₃, hclose, h⟩ := Step.bind_eq_ok_iff.1 h
  obtain ⟨data, x, cleared, before, hopened, hoptions, hbefore⟩ :=
    opened_of_open hinput houtput hclose
  rw [hoptions, hbefore] at h
  have hunder := hopened.underway
  obtain ⟨file, hgiven, h⟩ := readArtifact_bind_eq_ok_iff.1 h
  obtain ⟨extra, hread, h⟩ := Step.ofExcept_bind_eq_ok_iff.1 h
  obtain ⟨amount, hspace, h⟩ :=
    Step.ofExcept_bind_eq_ok_iff.1 (hunder.signedOutput_bind_eq_ok_iff.1 h)
  obtain ⟨_, s₄, hgrow, h⟩ := Step.bind_eq_ok_iff.1 h
  obtain ⟨grown, hgrow, hunder⟩ := hunder.growOutput hgrow
  obtain ⟨_, -, h⟩ :=
    Step.ofExcept_bind_eq_ok_iff.1 (hunder.signedOutput_bind_eq_ok_iff.1 h)
  obtain ⟨_, s₅, hinsert, h⟩ := Step.bind_eq_ok_iff.1 h
  obtain ⟨t, hinsert, hunder⟩ := hunder.edit hinsert
  exact ⟨data, x, cleared, before, t, hopened.rewrote hunder h, extra,
    .imported (hopened.provides hgiven hread) hread,
    SignedImage.exists_directory_of_missingSpace hspace, amount, grown, hgrow, hinsert⟩

theorem rewrote_of_importRawSignature (h : importRawSignature s = .ok () s') :
    ∃ data x cleared before t, Rewrote s s' data x cleared before t ∧
      ∃ extra, Supplies s cleared .importRawSignature extra ∧
        Inserts s.options cleared before extra t := by
  simp only [importRawSignature] at h
  obtain ⟨_, s₀, hcertificate, h⟩ := Step.bind_eq_ok_iff.1 h
  obtain ⟨name, database, warnings, identity, hname, hload, hfind, rfl⟩ :=
    findCertificate_eq_ok_iff.1 hcertificate
  obtain ⟨value, hvalue, h⟩ := readArtifact_bind_eq_ok_iff.1 h
  obtain ⟨attributes, hattributes, h⟩ := readArtifact_bind_eq_ok_iff.1 h
  obtain ⟨raw, hraw, h⟩ := Step.ofExcept_bind_eq_ok_iff.1 h
  obtain ⟨_, s₁, hinput, h⟩ := Step.bind_eq_ok_iff.1 h
  replace h := (insertionIndex_bind_eq_ok_iff.1 h).2
  obtain ⟨_, s₂, houtput, h⟩ := Step.bind_eq_ok_iff.1 h
  obtain ⟨_, s₃, hclose, h⟩ := Step.bind_eq_ok_iff.1 h
  obtain ⟨data, x, cleared, before, hopened, hoptions, hbefore⟩ :=
    opened_of_open hinput houtput hclose
  rw [hoptions, hbefore] at h
  obtain ⟨output, hout, h⟩ := outputImage_bind_eq_ok_iff.1 h
  obtain ⟨d, s₄, hcompute, h⟩ := Step.bind_eq_ok_iff.1 h
  obtain ⟨hdigest, rfl⟩ := computeDigest_eq_ok_iff.1 hcompute
  rw [hopened.underway.image_eq hout, hopened.underway.1] at hdigest
  have hunder : Underway s.options { s₃ with digest := some d } ⟨cleared, before⟩ :=
    hopened.underway.beside ⟨rfl, rfl, rfl, rfl⟩
  obtain ⟨identity', hidentity, h⟩ := signer_bind_eq_ok_iff.1 h
  obtain rfl : identity = identity' :=
    Option.some.inj (hopened.identity_eq.symm.trans hidentity)
  obtain ⟨amount, hspace, h⟩ :=
    Step.ofExcept_bind_eq_ok_iff.1 (hunder.signedOutput_bind_eq_ok_iff.1 h)
  obtain ⟨_, s₅, hgrow, h⟩ := Step.bind_eq_ok_iff.1 h
  obtain ⟨grown, hgrow, hunder⟩ := hunder.growOutput hgrow
  obtain ⟨extra, hwrap, h⟩ := Step.ofExcept_bind_eq_ok_iff.1 h
  obtain ⟨_, s₆, hinsert, h⟩ := Step.bind_eq_ok_iff.1 h
  obtain ⟨t, hinsert, hunder⟩ := hunder.edit hinsert
  refine ⟨data, x, cleared, before, t, (hopened.rewrote hunder h).beside ⟨rfl, rfl, rfl, rfl⟩, extra,
    .wrapped ⟨?_, ?_, name, database, warnings, hname, hload, hfind⟩ hvalue hattributes hraw hdigest
      hwrap,
    SignedImage.exists_directory_of_spaceNeeded hspace, amount, grown, hgrow, hinsert⟩
  · exact congrArg Options.digest hopened.underway.1
  · exact hopened.now_eq

/-- What a run that signs adds: the signature is about the digest of the cleared image, which the
grown image still has. -/
structure Embeds (o : Options) (cleared : Pe.Image) (before : List Signature) (d : Digest)
    (extra : Signature) (t : SignedImage) : Prop where
  entry : ∃ e, cleared.directory = .ok e
  digest : cleared.digest o.digest .signing = .ok d
  generate : ∃ (who : Cms.Signer) (draws : List Nat),
    who.algorithm = o.digest ∧ who.generate d draws = .ok extra
  insert : ∃ amount grown, Pe.Image.growTable amount cleared = .ok () grown ∧
    SignedImage.insert (o.signatureNumber.getD before.length) extra ⟨grown, before⟩ = .ok () t

theorem Embeds.inserts {d : Digest} {extra : Signature} (h : Embeds o cleared before d extra t) :
    Inserts o cleared before extra t :=
  ⟨h.entry, h.insert⟩

theorem Embeds.change {d : Digest} {extra : Signature} (h : Embeds o cleared before d extra t) :
    Change cleared before t := h.inserts.change

/-- A run that signs with everything it does to the list: room is made for a draft, and the
signature that is put in is made of the digest the draft left alone. -/
structure Signs (s : Session) (cleared : Pe.Image) (before : List Signature) (who : Signer)
    (d : Digest) (extra : Signature) (t : SignedImage) : Prop where
  selects : Selects s true who
  digest : cleared.digest s.options.digest .signing = .ok d
  generate : who.generate d s.draws = .ok extra
  insert : ∃ draft amount grown, who.draft none = .ok draft ∧
    SignedImage.missingSpace ⟨cleared, before⟩ draft = .ok amount ∧
    Pe.Image.growTable amount cleared = .ok () grown ∧
    SignedImage.insert (s.options.signatureNumber.getD before.length) extra ⟨grown, before⟩
      = .ok () t

theorem Signs.embeds {who : Signer} {d : Digest} {extra : Signature}
    (h : Signs s cleared before who d extra t) : Embeds s.options cleared before d extra t := by
  obtain ⟨hselects, hdigest, hgenerate, draft, amount, grown, -, hspace, hgrow, hinsert⟩ := h
  exact ⟨SignedImage.exists_directory_of_missingSpace hspace, hdigest,
    ⟨who, s.draws, hselects.algorithm_eq, hgenerate⟩, amount, grown, hgrow, hinsert⟩

theorem Signs.supplies {who : Signer} {d : Digest} {extra : Signature}
    (h : Signs s cleared before who d extra t) :
    Supplies s cleared .generateAndEmbedSignature extra :=
  .generated h.selects h.digest h.generate

theorem signs_of_generateAndEmbedSignature (h : generateAndEmbedSignature s = .ok () s') :
    ∃ data x cleared before t, Rewrote s s' data x cleared before t ∧
      ∃ who d extra, Signs s cleared before who d extra t := by
  simp only [generateAndEmbedSignature] at h
  obtain ⟨_, s₀, hcertificate, h⟩ := Step.bind_eq_ok_iff.1 h
  obtain ⟨name, database, warnings, identity, hname, hload, hfind, rfl⟩ :=
    findCertificate_eq_ok_iff.1 hcertificate
  obtain ⟨_, s₁, hinput, h⟩ := Step.bind_eq_ok_iff.1 h
  replace h := (insertionIndex_bind_eq_ok_iff.1 h).2
  obtain ⟨_, s₂, houtput, h⟩ := Step.bind_eq_ok_iff.1 h
  obtain ⟨_, s₃, hclose, h⟩ := Step.bind_eq_ok_iff.1 h
  obtain ⟨data, x, cleared, before, hopened, hoptions, hbefore⟩ :=
    opened_of_open hinput houtput hclose
  rw [hoptions, hbefore] at h
  obtain ⟨output, hout, h⟩ := outputImage_bind_eq_ok_iff.1 h
  obtain ⟨d, s₄, hcompute, h⟩ := Step.bind_eq_ok_iff.1 h
  obtain ⟨hdigest, rfl⟩ := computeDigest_eq_ok_iff.1 hcompute
  rw [hopened.underway.image_eq hout, hopened.underway.1] at hdigest
  have hunder : Underway s.options { s₃ with digest := some d } ⟨cleared, before⟩ :=
    hopened.underway.beside ⟨rfl, rfl, rfl, rfl⟩
  obtain ⟨identity', hidentity, h⟩ := signer_bind_eq_ok_iff.1 h
  obtain rfl : identity = identity' :=
    Option.some.inj (hopened.identity_eq.symm.trans hidentity)
  obtain ⟨amount, hneeded, h⟩ :=
    Step.ofExcept_bind_eq_ok_iff.1 (hunder.signedOutput_bind_eq_ok_iff.1 h)
  obtain ⟨draft, hdraft, hspace⟩ := Except.bind_eq_ok_iff.1 hneeded
  obtain ⟨_, s₅, hgrew, h⟩ := Step.bind_eq_ok_iff.1 h
  obtain ⟨grown, hgrow, hgrown⟩ := hunder.growOutput hgrew
  obtain ⟨output', -, h⟩ := outputImage_bind_eq_ok_iff.1 h
  obtain ⟨d', s₆, hcompute', h⟩ := Step.bind_eq_ok_iff.1 h
  obtain ⟨-, rfl⟩ := computeDigest_eq_ok_iff.1 hcompute'
  have hready : Underway s.options { s₅ with digest := some d' } ⟨grown, before⟩ :=
    hgrown.beside ⟨rfl, rfl, rfl, rfl⟩
  by_cases hd : d' = d
  · subst hd
    rw [if_neg (not_not.2 rfl)] at h
    obtain ⟨extra, hextra, h⟩ := generate_bind_eq_ok_iff.1 h
    have hdraws : s₅.draws = s.draws := (draws_growOutput hgrew).trans hopened.draws_eq
    rw [hdraws] at hextra
    obtain ⟨_, s₇, hput, h⟩ := Step.bind_eq_ok_iff.1 h
    obtain ⟨t, hinsert, hdone⟩ := hready.edit hput
    refine ⟨data, x, cleared, before, t, (hopened.rewrote hdone h).beside ⟨rfl, rfl, rfl, rfl⟩, _,
      d', extra, ⟨?_, ?_, name, database, warnings, hname, hload, hfind⟩, hdigest, hextra, draft,
      amount, grown, hdraft, hspace, hgrow, hinsert⟩
    · exact congrArg Options.digest hopened.underway.1
    · exact hopened.now_eq
  · rw [if_pos hd] at h
    cases h

theorem rewrote_of_generateAndEmbedSignature (h : generateAndEmbedSignature s = .ok () s') :
    ∃ data x cleared before t, Rewrote s s' data x cleared before t ∧
      ∃ d extra, Embeds s.options cleared before d extra t := by
  obtain ⟨data, x, cleared, before, t, hrewrote, who, d, extra, hsigns⟩ :=
    signs_of_generateAndEmbedSignature h
  exact ⟨data, x, cleared, before, t, hrewrote, d, extra, hsigns.embeds⟩

theorem run_of_perform {actions : ActionSet} (hselect : selectWorkflow actions = .ok w)
    (h : perform actions s = .ok () s') : run w s = .ok () s' := by
  simp only [perform] at h
  rw [hselect] at h
  obtain ⟨_, hw, h⟩ := Step.ofExcept_bind_eq_ok_iff.1 h
  cases hw
  by_cases hwrites : w.writesImage = true
  · rw [if_pos hwrites] at h
    obtain ⟨_, t, hpaths, h⟩ := Step.bind_eq_ok_iff.1 h
    obtain ⟨rfl, -⟩ := checkPaths_eq_ok_iff.1 hpaths
    exact h
  · rwa [if_neg hwrites] at h

/-- Every run that writes an image opens it, changes its list of signatures once, and finishes. -/
theorem rewrote_of_run (hwrites : w.writesImage = true) (h : run w s = .ok () s') :
    ∃ data x cleared before t, Rewrote s s' data x cleared before t ∧ Change cleared before t := by
  cases w with
  | importRawSignature =>
    obtain ⟨data, x, cleared, before, t, hrewrote, extra, -, hinserts⟩ :=
      rewrote_of_importRawSignature h
    exact ⟨data, x, cleared, before, t, hrewrote, hinserts.change⟩
  | importSignature =>
    obtain ⟨data, x, cleared, before, t, hrewrote, extra, -, hinserts⟩ :=
      rewrote_of_importSignature h
    exact ⟨data, x, cleared, before, t, hrewrote, hinserts.change⟩
  | removeSignature =>
    obtain ⟨data, x, cleared, before, t, hrewrote, removed, warning, hremove⟩ :=
      rewrote_of_removeSignatureAt h
    exact ⟨data, x, cleared, before, t, hrewrote, .remove hremove⟩
  | generateAndEmbedSignature =>
    obtain ⟨data, x, cleared, before, t, hrewrote, d, extra, hembeds⟩ :=
      rewrote_of_generateAndEmbedSignature h
    exact ⟨data, x, cleared, before, t, hrewrote, hembeds.change⟩
  | exportSignedAttributes => cases hwrites
  | exportPublicKey => cases hwrites
  | exportCertificate => cases hwrites
  | exportSignature => cases hwrites
  | listSignatures => cases hwrites
  | printDigest omitted => cases hwrites
  | generateAndExportSignature => cases hwrites

theorem Change.over (h : Change cleared before t) (hparse : Pe.Image.parse data = .ok x)
    {warning : Option Warning} (hclear : Pe.Image.clearTable x = .ok warning cleared) :
    ∃ table, t.image.Over x.layout x.base table := by
  have hordered := Layout.ordered_of_parse (Pe.Image.parse_eq_ok_iff.1 hparse).1
  cases h with
  | insert entry grow insert =>
    obtain ⟨d, hd⟩ := entry
    have hover := (Pe.Image.over_of_clearTable hordered hclear hd).growTable grow
    exact SignedImage.over_of_insert hover insert
  | remove remove =>
    obtain ⟨_, _, _, _, _, _, hreplace⟩ := SignedImage.remove_eq_ok remove
    obtain ⟨d, hd⟩ := Pe.Image.exists_directory_of_replaceTable hreplace
    exact SignedImage.over_of_remove (Pe.Image.over_of_clearTable hordered hclear hd) remove

/-- The written file is an image over the base of the input, and its table is the encoding of the
list that the run ends with. -/
theorem Rewrote.over (h : Rewrote s s' data x cleared before t)
    (hchange : Change cleared before t) :
    ∃ (u : Pe.Image) (out : String) (table : Bytes), s.options.output = some out ∧
      s'.files.readFile out = .ok u.bytes ∧ CertificateTable.encode s'.signatures = .ok table ∧
      u.Over x.layout x.base table := by
  obtain ⟨⟨-, hparse, -, warning, hclear⟩, _, u, out, hfinish, hout, hread, hsame⟩ := h
  obtain ⟨table, hover⟩ := hchange.over hparse hclear
  obtain ⟨table', htable, -, hover'⟩ := SignedImage.over_of_finish hover hfinish
  exact ⟨u.image, out, table', hout, hread, hsame ▸ htable, hover'⟩

end Authenticode.Session
