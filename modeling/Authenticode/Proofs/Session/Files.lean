import Authenticode.Proofs.FileSystem.Frame
import Authenticode.Proofs.Session.Steps

/-!
# What a run does to the files

A run opens at most one file for writing, the one its workflow is for. An exported file
is written at once. An output image is first a copy of the input, and is written again
only when it is finished, by the last step that can fail. So a run that fails leaves all
files as they were, or such a copy, and a run that succeeds has changed no other file.
-/
namespace Authenticode

/-- The path of the file that a workflow writes. -/
def Workflow.target? (o : Options) : Workflow → Option String
  | .importRawSignature | .importSignature | .removeSignature | .generateAndEmbedSignature =>
    o.output
  | .exportSignedAttributes => o.outputPath? .signedAttributes
  | .exportPublicKey => o.outputPath? .publicKey
  | .exportCertificate => o.outputPath? .certificate
  | .exportSignature | .generateAndExportSignature => o.outputPath? .signature
  | .listSignatures | .printDigest _ => none

theorem Workflow.target?_of_writesImage {w : Workflow} (h : w.writesImage = true) (o : Options) :
    w.target? o = o.output := by
  cases w with
  | importRawSignature | importSignature | removeSignature | generateAndEmbedSignature => rfl
  | exportSignedAttributes | exportPublicKey | exportCertificate | exportSignature
  | listSignatures | printDigest _ | generateAndExportSignature => cases h

namespace Session

open Step (Respects Triple)

variable {s s' t : Session} {w : Workflow} {actions : ActionSet} {R : Session → Session → Prop}
  [IsPreorder Session R] {opened : Prop}

theorem respects_required {α : Type} (what : Missing) (o : Option α) :
    Respects R (required what o) := by
  intro s
  cases o with
  | none => exact refl s
  | some a => exact refl s

theorem respects_doing {α : Type} (a : Activity) (r : Except IoFailure α) :
    Respects R (doing a r) := by
  intro s
  cases r with
  | error f => exact refl s
  | ok b => exact refl s

theorem respects_inputImage : Respects R inputImage := by
  refine Step.respects_get.bind ?_
  intro s
  split
  · exact Step.respects_pure _
  · exact Step.respects_throw _

theorem respects_outputImage : Respects R outputImage := by
  refine Step.respects_get.bind ?_
  intro s
  split
  · exact Step.respects_pure _
  · exact Step.respects_throw _

theorem respects_signedOutput : Respects R signedOutput :=
  respects_outputImage.bind fun _ => Step.respects_get.bind fun _ => Step.respects_pure _

theorem respects_checkPaths : Respects R checkPaths := by
  refine Step.respects_get.bind fun s => (respects_required _ _).bind fun input =>
    (respects_required _ _).bind fun output => ?_
  exact (Step.respects_throw _).ite (Step.respects_pure _)

theorem respects_refuseExisting (path : String) : Respects R (refuseExisting path) :=
  Step.respects_get.bind fun _ => (Step.respects_throw _).ite (Step.respects_pure _)

theorem respects_readArtifact (role : Artifact) : Respects R (readArtifact role) :=
  Step.respects_get.bind fun _ => (respects_required _ _).bind fun _ =>
    (respects_doing _ _).bind fun _ => respects_doing _ _

theorem respects_signer : Respects R signer :=
  Step.respects_get.bind fun _ => (Step.respects_ofExcept _).bind fun _ => Step.respects_pure _

theorem respects_generate (who : Cms.Signer) (d : Digest) : Respects R (generate who d) :=
  Step.respects_get.bind fun _ => Step.respects_ofExcept _

theorem respects_insertionIndex : Respects R insertionIndex := by
  refine Step.respects_get.bind fun s => ?_
  dsimp only
  split
  · exact (Step.respects_throw _).ite (Step.respects_pure _)
  · exact Step.respects_pure _

/-- Two sessions with the same options and files, whose outputs stand in the same file. -/
structure Along (s t : Session) : Prop where
  options_eq : t.options = s.options
  files_eq : t.files = s.files
  output_eq : t.output.map OutputImage.file = s.output.map OutputImage.file

instance : IsPreorder Session Along where
  refl _ := ⟨rfl, rfl, rfl⟩
  trans _ _ _ h h' := ⟨h'.options_eq.trans h.options_eq, h'.files_eq.trans h.files_eq,
    h'.output_eq.trans h.output_eq⟩

theorem respects_modify {g : Session → Session} (h : ∀ s, Along s (g s)) :
    Respects Along (modify g : Run Unit) := h

theorem respects_warn (ws : List Warning) : Respects Along (warn ws) :=
  respects_modify fun _ => ⟨rfl, rfl, rfl⟩

theorem respects_print (text : String) : Respects Along (print text) :=
  respects_modify fun _ => ⟨rfl, rfl, rfl⟩

theorem respects_closeInput : Respects Along closeInput :=
  respects_modify fun _ => ⟨rfl, rfl, rfl⟩

theorem respects_openInput : Respects Along openInput := by
  refine Step.respects_get.bind fun s => (respects_required _ _).bind fun path =>
    (respects_doing _ _).bind fun opened => (respects_doing _ _).bind fun data =>
    (Step.respects_ofExcept _).bind fun image => ?_
  split
  · exact Step.respects_throw _
  · exact respects_modify fun _ => ⟨rfl, rfl, rfl⟩

theorem respects_findCertificate (withKey : Bool) : Respects Along (findCertificate withKey) :=
  Step.respects_get.bind fun _ => (respects_required _ _).bind fun _ =>
    (Step.respects_ofExcept _).bind fun _ => (respects_warn _).bind fun _ =>
    (Step.respects_ofExcept _).bind fun _ => respects_modify fun _ => ⟨rfl, rfl, rfl⟩

theorem respects_computeDigest (image : Pe.Image) (o : Pe.DigestOptions) :
    Respects Along (computeDigest image o) := by
  refine Step.respects_get.bind fun s => (Step.respects_ofExcept _).bind fun d => ?_
  exact Respects.bind (respects_modify fun _ => ⟨rfl, rfl, rfl⟩) fun _ => Step.respects_pure _

theorem respects_editOutput {α : Type} (edit : SignedImage.Edit α) :
    Respects Along (editOutput edit) := by
  intro s
  cases houtput : s.output with
  | none =>
    have hfail : editOutput edit s = .error (.inconsistent .outputNotOpen) s := by
      simp only [editOutput, outputImage, bind_assoc, Step.get_bind, houtput, Step.throw_bind]
    rw [hfail]
    exact refl s
  | some o =>
    have hopen : editOutput edit s = _ := Step.bind_of_ok (a := o) (t := s) (by
      simp only [outputImage, Step.get_bind, houtput]
      rfl)
    rw [hopen, Step.get_bind]
    cases edit ⟨o.image, s.signatures⟩ with
    | ok a t => exact ⟨rfl, rfl, by rw [houtput]; rfl⟩
    | error f t => exact ⟨rfl, rfl, by rw [houtput]; rfl⟩

theorem respects_growOutput (amount : Nat) : Respects Along (growOutput amount) :=
  respects_editOutput _

theorem respects_insertSignature (index : Int) (extra : Cms.Signature) :
    Respects Along (insertSignature index extra) :=
  respects_editOutput _

theorem respects_removeSignature (index : Int) : Respects Along (removeSignature index) :=
  (respects_editOutput _).bind fun _ => (respects_warn _).bind fun _ => Step.respects_pure _

/-- Nothing was written yet. -/
def Untouched (s t : Session) : Prop := t.options = s.options ∧ t.files = s.files

/-- An image that was read from the input. -/
def Reads (s : Session) (i : InputImage) : Prop :=
  ∃ path, s.options.input = some path ∧ s.files.readFile path = .ok i.image.bytes

/-- The input is open, and nothing was written yet. -/
def Loaded (s t : Session) : Prop := Untouched s t ∧ ∃ i, Reads s i ∧ t.input = some i

/-- Where the output path leads there is a copy of the input, and nothing else has changed. -/
def Copied (s : Session) (l : Location) (files : FileSystem) : Prop :=
  ∃ path data out, s.options.input = some path ∧ s.files.readFile path = .ok data ∧
    s.options.output = some out ∧ s.files.Wrote out (!s.options.force) l files data

/-- The output image is open, and its file is not finished. -/
def Ongoing (s t : Session) : Prop :=
  t.options = s.options ∧ ∃ l, Copied s l t.files ∧ t.output.map OutputImage.file = some l

/-- What a run leaves when it fails: all files as they were or, if it may have opened an output, a
copy of the input there. -/
def Left (opened : Prop) (s t : Session) : Prop :=
  t.files = s.files ∨ opened ∧ ∃ l, Copied s l t.files

/-- The file at a path was written, and nothing else has changed. -/
def Exported (s : Session) (path : String) (t : Session) : Prop :=
  ∃ l b, s.files.Wrote path (!s.options.force) l t.files b

theorem Untouched.along {t' : Session} (h : Untouched s t) (ht : Along t t') : Untouched s t' :=
  ⟨ht.options_eq.trans h.1, ht.files_eq.trans h.2⟩

theorem Ongoing.along {t' : Session} (h : Ongoing s t) (ht : Along t t') : Ongoing s t' := by
  obtain ⟨hoptions, l, hcopied, houtput⟩ := h
  exact ⟨ht.options_eq.trans hoptions, l, ht.files_eq ▸ hcopied, ht.output_eq.trans houtput⟩

section

variable {α : Type} {x : Run α}

theorem untouched_of_respects (hx : Respects Along x) :
    Triple (Untouched s) x (fun _ => Untouched s) (Left opened s) :=
  (Triple.of_respects hx fun _ _ ht h => h.along ht).mono (fun _ => id) (fun _ _ => id)
    fun _ h => .inl h.2

theorem loaded_of_respects (hx : Respects Eq x) :
    Triple (Loaded s) x (fun _ => Loaded s) (Left opened s) :=
  (Triple.of_respects hx fun _ _ ht h => ht ▸ h).mono (fun _ => id) (fun _ _ => id)
    fun _ h => .inl h.1.2

theorem ongoing_of_respects (hx : Respects Along x) :
    Triple (Ongoing s) x (fun _ => Ongoing s) (Left True s) :=
  (Triple.of_respects hx fun _ _ ht h => h.along ht).mono (fun _ => id) (fun _ _ => id)
    fun _ ⟨_, l, h, _⟩ => .inr ⟨trivial, l, h⟩

end

theorem triple_openInput : Triple (Untouched s) openInput (fun _ => Loaded s) (Left opened s) := by
  intro t ht
  have hkeeps : Triple (Untouched s) openInput (fun _ => Untouched s) (Left opened s) :=
    untouched_of_respects respects_openInput
  replace hkeeps := hkeeps t ht
  cases h : openInput t with
  | error f t' =>
    rw [h] at hkeeps
    exact hkeeps
  | ok _ t' =>
    rw [h] at hkeeps
    obtain ⟨path, l, data, mode, image, signatures, hpath, hfind, hparse, -, rfl⟩ :=
      openInput_eq_ok_iff.1 h
    rw [ht.1] at hpath
    rw [ht.2] at hfind
    obtain ⟨-, rfl, -⟩ := Pe.Image.parse_eq_ok_iff.1 hparse
    exact ⟨hkeeps, _, ⟨path, hpath, FileSystem.readFile_of_find hfind⟩, rfl⟩

theorem triple_inputImage :
    Triple (Loaded s) inputImage (fun i t => Untouched s t ∧ Reads s i) (Left opened s) := by
  rintro t ⟨ht, i, hi, hinput⟩
  have hopen : inputImage t = .ok i t := by
    simp only [inputImage, Step.get_bind, hinput]
    rfl
  rw [hopen]
  exact ⟨ht, hi⟩

theorem triple_create (path : String) (a : Activity) :
    Triple (Untouched s) (create path a) (fun l t => t.options = s.options ∧
      ∃ mode, s.files.create path (!s.options.force) mode = .ok (l, t.files)) (Left opened s) := by
  refine Triple.bind (untouched_of_respects (respects_refuseExisting path)) fun _ => ?_
  rintro t ⟨hoptions, hfiles⟩
  rw [Step.get_bind, hoptions, hfiles]
  cases h : s.files.create path (!s.options.force)
      (t.outputMode.getD FileSystem.defaultMode) with
  | error f => exact .inl hfiles
  | ok r => exact ⟨rfl, _, h⟩

theorem triple_write {path : String} {l : Location} (b : Bytes) :
    Triple (fun t => t.options = s.options ∧
        ∃ mode, s.files.create path (!s.options.force) mode = .ok (l, t.files))
      (write l b) (fun _ t => t.options = s.options ∧
        s.files.Wrote path (!s.options.force) l t.files b) (Left opened s) := by
  rintro t ⟨hoptions, mode, hcreate⟩
  exact ⟨hoptions, FileSystem.wrote_of_create hcreate b⟩

theorem required_bind {α β : Type} {what : Missing} {o : Option α} {f : α → Run β}
    {P E : Session → Prop} {Q : β → Session → Prop} (hE : ∀ t, P t → E t)
    (h : ∀ a, o = some a → Triple P (f a) Q E) : Triple P (required what o >>= f) Q E := by
  cases o with
  | none => exact hE
  | some a => exact h a rfl

theorem triple_writeArtifact (role : Artifact) (b : Bytes) :
    Triple (Untouched s) (writeArtifact role b)
      (fun _ t => ∃ path, s.options.outputPath? role = some path ∧ Exported s path t)
      (Left opened s) := by
  refine Triple.get_bind fun t ht => required_bind ?_ fun path hpath => ?_
  · rintro _ rfl
    exact .inl ht.2
  · rw [ht.1] at hpath
    refine Triple.bind ((triple_create path _).mono ?_ (fun _ _ => id) fun _ => id) fun l =>
      (triple_write b).mono (fun _ => id) ?_ fun _ => id
    · rintro _ rfl
      exact ht
    · rintro _ t' ⟨-, hwrote⟩
      exact ⟨path, hpath, l, b, hwrote⟩

theorem triple_openOutput : Triple (Loaded s) openOutput (fun _ => Ongoing s) (Left True s) := by
  refine triple_inputImage.bind fun i => Triple.get_bind fun t ht => required_bind ?_ fun out hout => ?_
  · rintro _ rfl
    exact .inl ht.1.2
  obtain ⟨⟨hoptions, hfiles⟩, path, hpath, hread⟩ := ht
  rw [hoptions] at hout
  refine Triple.bind ((triple_create out .openingOutput).mono ?_ (fun _ _ => id) fun _ => id)
    fun l => Triple.bind (triple_write i.image.bytes) fun _ => ?_
  · rintro _ rfl
    exact ⟨hoptions, hfiles⟩
  refine Triple.ofExcept_bind ?_ fun copy _ => ?_
  · rintro t' ⟨-, hwrote⟩
    exact .inr ⟨trivial, l, path, _, out, hpath, hread, hout, hwrote⟩
  split
  · rintro t' ⟨-, hwrote⟩
    exact .inr ⟨trivial, l, path, _, out, hpath, hread, hout, hwrote⟩
  · rintro t' ⟨hoptions', hwrote⟩
    exact ⟨hoptions', l, ⟨path, _, out, hpath, hread, hout, hwrote⟩, rfl⟩

theorem triple_closeOutput : Triple (Ongoing s) closeOutput
    (fun _ t => ∃ out, s.options.output = some out ∧ Exported s out t) (Left True s) := by
  rintro t ⟨-, l, hcopied, houtput⟩
  cases hoption : t.output with
  | none =>
    rw [hoption] at houtput
    cases houtput
  | some o =>
    rw [hoption] at houtput
    cases houtput
    obtain ⟨path, data, out, hpath, hread, hout, hwrote⟩ := hcopied
    have hopen : outputImage t = .ok o t := by
      simp only [outputImage, Step.get_bind, hoption]
      rfl
    rw [closeOutput, Step.bind_of_ok hopen, Step.modify_bind, Step.get_bind]
    cases SignedImage.finish ⟨o.image, t.signatures⟩ with
    | error f u => exact .inr ⟨trivial, _, path, data, out, hpath, hread, hout, hwrote⟩
    | ok warning u => exact ⟨out, hout, _, _, hwrote.write u.image.bytes⟩

theorem triple_closeInput {P Q E : Session → Prop} (h : ∀ t, P t → Q { t with input := none }) :
    Triple P closeInput (fun _ => Q) E := h

/-- What a workflow that succeeded has done to the files. -/
def Finished (s : Session) (w : Workflow) (t : Session) : Prop :=
  t.files = s.files ∨ ∃ path, w.target? s.options = some path ∧ Exported s path t

/-- A workflow that succeeded has written its file, if it has one. -/
def Completed (s : Session) (w : Workflow) (t : Session) : Prop :=
  w.target? s.options = none ∧ t.files = s.files ∨
    ∃ path, w.target? s.options = some path ∧ Exported s path t

theorem Completed.finished (h : Completed s w t) : Finished s w t := h.imp_left And.right

section

variable {α : Type} {x : Run α} {f : α → Run Unit} {Q : Unit → Session → Prop}

theorem untouched_bind (hx : Respects Along x)
    (hf : ∀ a, Triple (Untouched s) (f a) Q (Left opened s)) :
    Triple (Untouched s) (x >>= f) Q (Left opened s) :=
  (untouched_of_respects hx).bind hf

theorem ongoing_bind (hx : Respects Along x) (hf : ∀ a, Triple (Ongoing s) (f a) Q (Left True s)) :
    Triple (Ongoing s) (x >>= f) Q (Left True s) :=
  (ongoing_of_respects hx).bind hf

end

theorem triple_importRawSignature : Triple (Untouched s) importRawSignature
    (fun _ => Completed s .importRawSignature) (Left True s) := by
  refine untouched_bind (respects_findCertificate _) fun _ =>
    untouched_bind (respects_readArtifact _) fun _ =>
    untouched_bind (respects_readArtifact _) fun _ =>
    untouched_bind (Step.respects_ofExcept _) fun _ => triple_openInput.bind fun _ =>
    (loaded_of_respects respects_insertionIndex).bind fun _ => triple_openOutput.bind fun _ =>
    ongoing_bind respects_closeInput fun _ => ongoing_bind respects_outputImage fun _ =>
    ongoing_bind (respects_computeDigest _ _) fun _ => ongoing_bind respects_signer fun _ =>
    ongoing_bind respects_signedOutput fun _ => ongoing_bind (Step.respects_ofExcept _) fun _ =>
    ongoing_bind (respects_growOutput _) fun _ => ongoing_bind (Step.respects_ofExcept _) fun _ =>
    ongoing_bind (respects_insertSignature _ _) fun _ => ?_
  exact triple_closeOutput.mono (fun _ => id) (fun _ _ => .inr) fun _ => id

theorem triple_exportSignedAttributes : Triple (Untouched s) exportSignedAttributes
    (fun _ => Completed s .exportSignedAttributes) (Left False s) := by
  refine untouched_bind respects_openInput fun _ => untouched_bind respects_inputImage fun _ =>
    untouched_bind (respects_computeDigest _ _) fun _ => untouched_bind Step.respects_get fun _ =>
    untouched_bind (Step.respects_ofExcept _) fun _ => (triple_writeArtifact _ _).bind fun _ => ?_
  exact triple_closeInput fun _ => .inr

theorem triple_importSignature : Triple (Untouched s) importSignature
    (fun _ => Completed s .importSignature) (Left True s) := by
  refine triple_openInput.bind fun _ => (loaded_of_respects respects_insertionIndex).bind fun _ =>
    triple_openOutput.bind fun _ => ongoing_bind respects_closeInput fun _ =>
    ongoing_bind (respects_readArtifact _) fun _ => ongoing_bind (Step.respects_ofExcept _) fun _ =>
    ongoing_bind respects_signedOutput fun _ => ongoing_bind (Step.respects_ofExcept _) fun _ =>
    ongoing_bind (respects_growOutput _) fun _ => ongoing_bind respects_signedOutput fun _ =>
    ongoing_bind (Step.respects_ofExcept _) fun _ =>
    ongoing_bind (respects_insertSignature _ _) fun _ => ?_
  exact triple_closeOutput.mono (fun _ => id) (fun _ _ => .inr) fun _ => id

theorem triple_exportPublicKey : Triple (Untouched s) exportPublicKey
    (fun _ => Completed s .exportPublicKey) (Left False s) := by
  refine untouched_bind (respects_findCertificate _) fun _ => untouched_bind respects_signer fun _ =>
    untouched_bind (Step.respects_ofExcept _) fun _ => untouched_bind Step.respects_get fun _ => ?_
  exact (triple_writeArtifact _ _).mono (fun _ => id) (fun _ _ => .inr) fun _ => id

theorem triple_exportCertificate : Triple (Untouched s) exportCertificate
    (fun _ => Completed s .exportCertificate) (Left False s) := by
  refine untouched_bind (respects_findCertificate _) fun _ => untouched_bind respects_signer fun _ =>
    untouched_bind Step.respects_get fun _ => ?_
  exact (triple_writeArtifact _ _).mono (fun _ => id) (fun _ _ => .inr) fun _ => id

theorem triple_exportSignature : Triple (Untouched s) exportSignature
    (fun _ => Completed s .exportSignature) (Left False s) := by
  refine untouched_bind respects_openInput fun _ => untouched_bind Step.respects_get fun t => ?_
  refine Triple.ite (Triple.throw_of fun _ h => .inl h.2) ?_
  refine untouched_bind (Step.respects_ofExcept _) fun _ => (triple_writeArtifact _ _).bind fun _ => ?_
  exact triple_closeInput fun _ => .inr

theorem triple_removeSignatureAt : Triple (Untouched s) removeSignatureAt
    (fun _ => Completed s .removeSignature) (Left True s) := by
  refine triple_openInput.bind fun _ => triple_openOutput.bind fun _ =>
    ongoing_bind respects_closeInput fun _ => ongoing_bind Step.respects_get fun _ =>
    ongoing_bind (respects_removeSignature _).discard fun _ => ?_
  exact triple_closeOutput.mono (fun _ => id) (fun _ _ => .inr) fun _ => id

theorem triple_listSignatures : Triple (Untouched s) listSignatures
    (fun _ => Completed s .listSignatures) (Left False s) := by
  refine untouched_bind respects_openInput fun _ => untouched_bind Step.respects_get fun _ =>
    untouched_bind (respects_print _) fun _ => ?_
  exact triple_closeInput fun _ h => .inl ⟨rfl, h.2⟩

theorem triple_printDigest (omitted : Bool) : Triple (Untouched s) (printDigest omitted)
    (fun _ => Completed s (.printDigest omitted)) (Left False s) := by
  refine untouched_bind respects_openInput fun _ => untouched_bind respects_inputImage fun _ =>
    untouched_bind Step.respects_get fun _ => untouched_bind (respects_computeDigest _ _) fun _ =>
    untouched_bind (respects_print _) fun _ => ?_
  exact triple_closeInput fun _ h => .inl ⟨rfl, h.2⟩

theorem triple_generateAndExportSignature : Triple (Untouched s) generateAndExportSignature
    (fun _ => Completed s .generateAndExportSignature) (Left False s) := by
  refine untouched_bind (respects_findCertificate _) fun _ =>
    untouched_bind respects_openInput fun _ => untouched_bind respects_inputImage fun _ =>
    untouched_bind (respects_computeDigest _ _) fun _ => untouched_bind respects_signer fun _ =>
    untouched_bind (respects_generate _ _) fun _ => untouched_bind Step.respects_get fun _ =>
    (triple_writeArtifact _ _).bind fun _ => ?_
  exact triple_closeInput fun _ => .inr

theorem triple_generateAndEmbedSignature : Triple (Untouched s) generateAndEmbedSignature
    (fun _ => Completed s .generateAndEmbedSignature) (Left True s) := by
  refine untouched_bind (respects_findCertificate _) fun _ => triple_openInput.bind fun _ =>
    (loaded_of_respects respects_insertionIndex).bind fun _ => triple_openOutput.bind fun _ =>
    ongoing_bind respects_closeInput fun _ => ongoing_bind respects_outputImage fun _ =>
    ongoing_bind (respects_computeDigest _ _) fun _ => ongoing_bind respects_signer fun _ =>
    ongoing_bind respects_signedOutput fun _ => ongoing_bind (Step.respects_ofExcept _) fun _ =>
    ongoing_bind (respects_growOutput _) fun _ => ongoing_bind respects_outputImage fun _ =>
    ongoing_bind (respects_computeDigest _ _) fun _ => ?_
  refine Triple.ite (Triple.throw_of fun _ ⟨_, l, h, _⟩ => .inr ⟨trivial, l, h⟩) ?_
  refine ongoing_bind (respects_generate _ _) fun _ =>
    ongoing_bind (respects_insertSignature _ _) fun _ => ?_
  exact triple_closeOutput.mono (fun _ => id) (fun _ _ => .inr) fun _ => id

theorem triple_run_completed (w : Workflow) :
    Triple (Untouched s) (run w) (fun _ => Completed s w) (Left (w.writesImage = true) s) := by
  have hleft : ∀ {p q : Prop}, (p → q) → ∀ t, Left p s t → Left q s t := by
    rintro p q hpq t (hsame | ⟨hp, hcopied⟩)
    · exact .inl hsame
    · exact .inr ⟨hpq hp, hcopied⟩
  cases w with
  | importRawSignature =>
    exact triple_importRawSignature.mono (fun _ => id) (fun _ _ => id) (hleft fun _ => rfl)
  | exportSignedAttributes =>
    exact triple_exportSignedAttributes.mono (fun _ => id) (fun _ _ => id) (hleft False.elim)
  | importSignature =>
    exact triple_importSignature.mono (fun _ => id) (fun _ _ => id) (hleft fun _ => rfl)
  | exportPublicKey =>
    exact triple_exportPublicKey.mono (fun _ => id) (fun _ _ => id) (hleft False.elim)
  | exportCertificate =>
    exact triple_exportCertificate.mono (fun _ => id) (fun _ _ => id) (hleft False.elim)
  | exportSignature =>
    exact triple_exportSignature.mono (fun _ => id) (fun _ _ => id) (hleft False.elim)
  | removeSignature =>
    exact triple_removeSignatureAt.mono (fun _ => id) (fun _ _ => id) (hleft fun _ => rfl)
  | listSignatures =>
    exact triple_listSignatures.mono (fun _ => id) (fun _ _ => id) (hleft False.elim)
  | printDigest omitted =>
    exact (triple_printDigest omitted).mono (fun _ => id) (fun _ _ => id) (hleft False.elim)
  | generateAndExportSignature =>
    exact triple_generateAndExportSignature.mono (fun _ => id) (fun _ _ => id) (hleft False.elim)
  | generateAndEmbedSignature =>
    exact triple_generateAndEmbedSignature.mono (fun _ => id) (fun _ _ => id) (hleft fun _ => rfl)

theorem triple_run (w : Workflow) :
    Triple (Untouched s) (run w) (fun _ => Finished s w) (Left (w.writesImage = true) s) :=
  (triple_run_completed w).mono (fun _ => id) (fun _ _ => Completed.finished) fun _ => id

/-- A run fails before anything is written, or it runs its workflow; the paths of a workflow that
writes an image lead to different files. -/
theorem perform_cases (actions : ActionSet) (s : Session) :
    (∃ f, perform actions s = .error f s) ∨
      ∃ w, selectWorkflow actions = .ok w ∧ perform actions s = run w s ∧
        (w.writesImage = true → ∃ input out, s.options.input = some input ∧
          s.options.output = some out ∧ s.files.isSameFile input out = false) := by
  cases hselect : selectWorkflow actions with
  | error f =>
    refine .inl ⟨f, ?_⟩
    rw [perform, hselect]
    rfl
  | ok w =>
    have hperform : perform actions s
        = (if w.writesImage then checkPaths >>= fun _ => run w else run w) s := by
      rw [perform, hselect]
      rfl
    cases hwrites : w.writesImage with
    | false =>
      rw [hwrites, if_neg Bool.false_ne_true] at hperform
      exact .inr ⟨w, rfl, hperform, fun h => by rw [hwrites] at h; cases h⟩
    | true =>
      rw [hwrites, if_pos rfl] at hperform
      cases hpaths : checkPaths s with
      | error f t =>
        have hstill : s = t := by
          have h : Respects Eq checkPaths := respects_checkPaths
          simpa [hpaths, Step.stateOf] using h s
        rw [Step.bind_of_error hpaths, ← hstill] at hperform
        exact .inl ⟨f, hperform⟩
      | ok _ t =>
        obtain ⟨rfl, input, out, hinput, hout, hsame⟩ := checkPaths_eq_ok_iff.1 hpaths
        rw [Step.bind_of_ok hpaths] at hperform
        exact .inr ⟨w, rfl, hperform, fun _ => ⟨input, out, hinput, hout, hsame⟩⟩

/-- A run that fails leaves all files as they were, or a copy of the input image where the output
path leads and everything else as it was. No image is left half edited. -/
theorem files_of_failure {f : Error} (h : perform actions s = .error f s') :
    s'.files = s.files ∨
      ∃ w input out data l mode, selectWorkflow actions = .ok w ∧ w.writesImage = true ∧
        s.options.input = some input ∧ s.files.readFile input = .ok data ∧
        s.options.output = some out ∧ s'.files.find out = .ok (l, .file data mode) ∧
        (∀ m n, s.files.find out = .ok (m, n) → m = l) ∧
        s'.files.workingDirectory = s.files.workingDirectory ∧
        ∀ m, m ≠ l → s'.files.node? m = s.files.node? m := by
  rcases perform_cases actions s with ⟨f', hfail⟩ | ⟨w, hselect, hrun, -⟩
  · rw [hfail] at h
    cases h
    exact .inl rfl
  · have hleft := triple_run w s ⟨rfl, rfl⟩
    rw [← hrun, h] at hleft
    rcases hleft with hsame | ⟨hwrites, l, input, data, out, hinput, hread, hout, hwrote⟩
    · exact .inl hsame
    · obtain ⟨mode, hfind⟩ := hwrote.find
      have hagree := hwrote.filled.agree
      exact .inr ⟨w, input, out, data, l, mode, hselect, hwrites, hinput, hread, hout, hfind,
        fun m n => hwrote.eq_of_find, hagree.1.symm, fun m hm => (hagree.2 m hm).symm⟩

/-- A run that is to remove a signature from an image without any leaves a copy of it. -/
theorem files_of_failure_least :
    ∃ f s', perform (.ofList [.removeSignature])
        (onFiles { input := some "in", output := some "out" }
          [("in", (Pe.Image.least .none [] [7]).bytes)]) = .error f s' ∧
      s'.files.readFile "out" = .ok (Pe.Image.least .none [] [7]).bytes := by
  set x := Pe.Image.least .none [] [7]
  set s := onFiles { input := some "in", output := some "out" } [("in", x.bytes)]
  obtain ⟨f, h⟩ := Step.exists_error_of_isOk
    (show Step.isOk (perform (.ofList [.removeSignature]) s) = false by decide +kernel)
  refine ⟨f, _, h, ?_⟩
  have hread : s.files.readFile "in" = .ok x.bytes := by decide +kernel
  rcases files_of_failure h with hsame | ⟨w, input, out, data, l, mode, -, -, hinput, hdata, hout,
    hfind, -⟩
  · have hchanged : (Step.stateOf (perform (.ofList [.removeSignature]) s)).files ≠ s.files := by
      decide +kernel
    exact absurd hsame hchanged
  · cases hinput
    cases hout
    cases hread.symm.trans hdata
    exact FileSystem.readFile_of_find hfind

/-- What the paths of a run lead to. A path leads to the same file with the same contents after a
run, whatever came of it; only where files may be overwritten the file of the workflow's target is
lost, and an image is never written over the input. A file has one name here: about a second name of
the input as a hard link nothing is said. -/
theorem find_of_perform {path : String} {l : Location} {n : Node}
    (h : s.files.find path = .ok (l, n)) :
    (Step.stateOf (perform actions s)).files.find path = .ok (l, n) ∨
      s.options.force = true ∧ ∃ w target, selectWorkflow actions = .ok w ∧
        w.target? s.options = some target ∧ s.files.find target = .ok (l, n) ∧
        (w.writesImage = true → ∀ input m, s.options.input = some input →
          s.files.find input ≠ .ok (l, m)) := by
  rcases perform_cases actions s with ⟨f', hfail⟩ | ⟨w, hselect, hrun, hpaths⟩
  · rw [hfail]
    exact .inl h
  have hfiles : (Step.stateOf (perform actions s)).files = s.files ∨
      ∃ target, w.target? s.options = some target ∧
        Exported s target (Step.stateOf (perform actions s)) := by
    have hdone := triple_run w s ⟨rfl, rfl⟩
    rw [← hrun] at hdone
    cases hresult : perform actions s with
    | ok _ t =>
      rw [hresult] at hdone
      exact hdone
    | error f t =>
      rw [hresult] at hdone
      rcases hdone with hsame | ⟨hwrites, k, input, data, out, -, -, hout, hwrote⟩
      · exact .inl hsame
      · exact .inr ⟨out, (Workflow.target?_of_writesImage hwrites _).trans hout, k, data, hwrote⟩
  rcases hfiles with hsame | ⟨target, htarget, k, b, hwrote⟩
  · rw [hsame]
    exact .inl h
  by_cases hk : l = k
  · subst hk
    have hnode := (FileSystem.find_eq_ok_iff.1 h).2
    obtain ⟨hfresh, hfind⟩ := hwrote.find_before hnode
    refine .inr ⟨by simpa using hfresh, w, target, hselect, htarget, hfind, ?_⟩
    intro hwrites input m hinput hm
    obtain ⟨input', out, hinput', hout, hdiffer⟩ := hpaths hwrites
    cases hinput.symm.trans hinput'
    rw [Workflow.target?_of_writesImage hwrites, hout] at htarget
    cases htarget
    simp [FileSystem.isSameFile, hm, hfind] at hdiffer
  · exact .inl (hwrote.filled.find_of_ne h hk)

/-- A run that imports a signature into a signed image leaves both files it reads. -/
theorem find_of_perform_least :
    let s := onFiles
      { input := some "in", output := some "out", signatureInput := some "signature" }
      [("in", (Pe.Image.least .none [] [7]).bytes), ("signature", Cms.Signature.least.der)]
    let t := Step.stateOf (perform (.ofList [.importSignature]) s)
    t.files.find "in" = s.files.find "in" ∧ t.files.find "signature" = s.files.find "signature" ∧
      t.files ≠ s.files := by
  intro s t
  have hforce : s.options.force ≠ true := nofun
  have hin : s.files.find "in"
      = .ok (["in"], .file (Pe.Image.least .none [] [7]).bytes 0o644) := by decide +kernel
  have hsignature : s.files.find "signature"
      = .ok (["signature"], .file Cms.Signature.least.der 0o644) := by decide +kernel
  refine ⟨?_, ?_, by decide +kernel⟩
  · rw [hin]
    exact (find_of_perform hin).resolve_right fun h => hforce h.1
  · rw [hsignature]
    exact (find_of_perform hsignature).resolve_right fun h => hforce h.1

/-- Exporting a signature over the image it is read from. -/
example :
    let s := onFiles { input := some "in", signatureOutput := some "in", force := true }
      [("in", (Pe.Image.least ⟨224, 24⟩ []
        ((CertificateTable.encode [.least]).toOption.getD [])).bytes)]
    (Step.stateOf (perform (.ofList [.exportSignature]) s)).files.readFile "in"
      = .ok Cms.Signature.least.der := by
  decide +kernel

end Session

end Authenticode
