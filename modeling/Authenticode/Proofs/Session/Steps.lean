import Authenticode.Proofs.FileSystem
import Authenticode.Proofs.SignedImage
import Authenticode.Session.Workflows

/-!
# What the steps of a run do

For each step of a run this module says what its success means and what the session
is afterwards. Later modules take a run apart with these descriptions.
-/
namespace Authenticode.Session

open Cms (Signature Signer)

variable {s s' : Session} {d : Digest} {index : Int}

/-- A session whose files stand in the root, which is the working directory. -/
def onFiles (o : Options) (files : List (String × Bytes)) : Session where
  options := o
  now := 0
  files := ⟨files.map fun (name, b) => ([name], .file b 0o644), []⟩

theorem required_bind_eq_ok_iff {α β : Type} {what : Missing} {o : Option α} {f : α → Run β}
    {b : β} : (required what o >>= f) s = .ok b s' ↔ ∃ a, o = some a ∧ f a s = .ok b s' := by
  cases o with
  | none => exact ⟨nofun, fun ⟨_, h, _⟩ => nomatch h⟩
  | some a =>
    constructor
    · intro h
      exact ⟨a, rfl, h⟩
    · rintro ⟨_, ha, h⟩
      cases ha
      exact h

theorem doing_bind_eq_ok_iff {α β : Type} {what : Activity} {r : Except IoFailure α}
    {f : α → Run β} {b : β} :
    (doing what r >>= f) s = .ok b s' ↔ ∃ a, r = .ok a ∧ f a s = .ok b s' := by
  cases r with
  | error e => exact ⟨nofun, fun ⟨_, h, _⟩ => nomatch h⟩
  | ok a =>
    constructor
    · intro h
      exact ⟨a, rfl, h⟩
    · rintro ⟨_, ha, h⟩
      cases ha
      exact h

theorem parseInput_eq_ok_iff {data : Bytes} {i : Pe.Image} :
    parseInput data = .ok i ↔ Pe.Image.parse data = .ok i := by
  unfold parseInput
  split
  · next h => exact ⟨nofun, fun h' => by rw [h] at h'; cases h'⟩
  · exact Iff.rfl

theorem checkPaths_eq_ok_iff :
    checkPaths s = .ok () s' ↔ s = s' ∧ ∃ input out, s.options.input = some input ∧
      s.options.output = some out ∧ s.files.isSameFile input out = false := by
  simp only [checkPaths]
  rw [Step.get_bind]
  simp only [required_bind_eq_ok_iff]
  constructor
  · rintro ⟨input, hinput, out, hout, h⟩
    cases hsame : s.files.isSameFile input out with
    | true =>
      rw [hsame, if_pos rfl] at h
      cases h
    | false =>
      rw [hsame, if_neg Bool.false_ne_true] at h
      cases h
      exact ⟨rfl, input, out, hinput, hout, hsame⟩
  · rintro ⟨rfl, input, out, hinput, hout, hsame⟩
    refine ⟨input, hinput, out, hout, ?_⟩
    rw [hsame, if_neg Bool.false_ne_true]
    rfl

theorem openInput_eq_ok_iff :
    openInput s = .ok () s' ↔ ∃ path l data mode image signatures, s.options.input = some path ∧
      s.files.find path = .ok (l, .file data mode) ∧ Pe.Image.parse data = .ok image ∧
      image.signatures = .ok signatures ∧
      s' = { s with signatures, outputMode := some mode, input := some ⟨path, image⟩ } := by
  simp only [openInput]
  rw [Step.get_bind]
  simp only [required_bind_eq_ok_iff, doing_bind_eq_ok_iff, Step.ofExcept_bind_eq_ok_iff]
  constructor
  · rintro ⟨path, hpath, opened, hopened, data, hdata, image, himage, h⟩
    obtain ⟨l, mode, hfind, rfl⟩ := FileSystem.exists_find_of_read hopened hdata
    cases hsignatures : image.signatures with
    | error f =>
      rw [hsignatures] at h
      cases h
    | ok signatures =>
      rw [hsignatures] at h
      cases Step.modify_eq_ok_iff.1 h
      exact ⟨path, l, data, mode, image, signatures, hpath, hfind, parseInput_eq_ok_iff.1 himage,
        hsignatures, rfl⟩
  · rintro ⟨path, l, data, mode, image, signatures, hpath, hfind, himage, hsignatures, rfl⟩
    refine ⟨path, hpath, _, FileSystem.openForReading_of_find hfind, data, rfl, image,
      parseInput_eq_ok_iff.2 himage, ?_⟩
    rw [hsignatures]
    rfl

theorem insertionIndex_bind_eq_ok_iff {β : Type} {f : Int → Run β} {b : β} :
    (insertionIndex >>= f) s = .ok b s' ↔
      s.options.signatureNumber.getD s.signatures.length ≤ s.signatures.length + 1 ∧
      f (s.options.signatureNumber.getD s.signatures.length) s = .ok b s' := by
  cases hnumber : s.options.signatureNumber with
  | none =>
    have hindex : insertionIndex s = .ok (s.signatures.length : Int) s := by
      rw [insertionIndex, Step.get_bind, hnumber]
      rfl
    rw [Step.bind_of_ok hindex]
    exact ⟨fun h => ⟨by simp, h⟩, fun h => h.2⟩
  | some n =>
    have hindex : insertionIndex s =
        if n > s.signatures.length + 1 then .error .signatureNumber s else .ok n s := by
      rw [insertionIndex, Step.get_bind, hnumber]
      dsimp only
      split <;> rfl
    by_cases hn : n > s.signatures.length + 1
    · rw [Step.bind_of_error (hindex.trans (if_pos hn))]
      constructor
      · intro h
        cases h
      · intro h
        exact absurd h.1 (not_le.2 hn)
    · rw [Step.bind_of_ok (hindex.trans (if_neg hn))]
      exact ⟨fun h => ⟨not_lt.1 hn, h⟩, fun h => h.2⟩

theorem create_eq_ok_iff {path : String} {a : Activity} {l : Location} :
    create path a s = .ok l s' ↔ (s.options.force = true ∨ s.files.contains path = false) ∧
      ∃ files, s.files.create path (!s.options.force)
        (s.outputMode.getD FileSystem.defaultMode) = .ok (l, files) ∧ s' = { s with files } := by
  have hrefuse : refuseExisting path s = if !s.options.force && s.files.contains path then
      .error (.precondition (.outputExists path)) s else .ok () s := by
    simp only [refuseExisting]
    rw [Step.get_bind]
    split <;> rfl
  by_cases hfree : s.options.force = true ∨ s.files.contains path = false
  · have hpass : (!s.options.force && s.files.contains path) = false := by
      rcases hfree with h | h <;> simp [h]
    rw [hpass, if_neg Bool.false_ne_true] at hrefuse
    simp only [create]
    rw [Step.bind_of_ok hrefuse, Step.get_bind]
    simp only [doing_bind_eq_ok_iff]
    constructor
    · rintro ⟨⟨file, files⟩, hcreate, h⟩
      cases h
      exact ⟨hfree, files, hcreate, rfl⟩
    · rintro ⟨-, files, hcreate, rfl⟩
      exact ⟨⟨l, files⟩, hcreate, rfl⟩
  · have hstop : (!s.options.force && s.files.contains path) = true := by
      simpa using hfree
    rw [hstop, if_pos rfl] at hrefuse
    simp only [create]
    rw [Step.bind_of_error hrefuse]
    exact ⟨nofun, fun h => absurd h.1 hfree⟩

theorem inputImage_bind_eq_ok_iff {β : Type} {f : InputImage → Run β} {b : β} :
    (inputImage >>= f) s = .ok b s' ↔ ∃ i, s.input = some i ∧ f i s = .ok b s' := by
  cases hinput : s.input with
  | none =>
    have hfail : inputImage s = .error (.inconsistent .inputNotOpen) s := by
      simp only [inputImage, Step.get_bind, hinput, Step.throw_apply]
    rw [Step.bind_of_error hfail]
    exact ⟨nofun, fun ⟨_, h, _⟩ => nomatch h⟩
  | some i =>
    have hfound : inputImage s = .ok i s := by
      simp only [inputImage, Step.get_bind, hinput]
      rfl
    rw [Step.bind_of_ok hfound]
    exact ⟨fun h => ⟨i, rfl, h⟩, fun ⟨_, h, h'⟩ => by cases h; exact h'⟩

theorem outputImage_bind_eq_ok_iff {β : Type} {f : OutputImage → Run β} {b : β} :
    (outputImage >>= f) s = .ok b s' ↔ ∃ o, s.output = some o ∧ f o s = .ok b s' := by
  cases houtput : s.output with
  | none =>
    have hfail : outputImage s = .error (.inconsistent .outputNotOpen) s := by
      simp only [outputImage, Step.get_bind, houtput, Step.throw_apply]
    rw [Step.bind_of_error hfail]
    exact ⟨nofun, fun ⟨_, h, _⟩ => nomatch h⟩
  | some o =>
    have hfound : outputImage s = .ok o s := by
      simp only [outputImage, Step.get_bind, houtput]
      rfl
    rw [Step.bind_of_ok hfound]
    exact ⟨fun h => ⟨o, rfl, h⟩, fun ⟨_, h, h'⟩ => by cases h; exact h'⟩

theorem signedOutput_bind_eq_ok_iff {β : Type} {f : SignedImage → Run β} {b : β} :
    (signedOutput >>= f) s = .ok b s' ↔
      ∃ o, s.output = some o ∧ f ⟨o.image, s.signatures⟩ s = .ok b s' := by
  rw [Step.bind_eq_ok_iff]
  unfold signedOutput
  simp only [outputImage_bind_eq_ok_iff, Step.get_bind, Step.pure_eq_ok_iff]
  constructor
  · rintro ⟨t, _, ⟨o, ho, rfl, rfl⟩, h⟩
    exact ⟨o, ho, h⟩
  · rintro ⟨o, ho, h⟩
    exact ⟨_, _, ⟨o, ho, rfl, rfl⟩, h⟩

/-- The output starts as the input without its table, in a file that holds a copy of the input. -/
theorem openOutput_eq_ok_iff :
    openOutput s = .ok () s' ↔ ∃ input out file files copy warning cleared, s.input = some input ∧
      s.options.output = some out ∧
      (s.options.force = true ∨ s.files.contains out = false) ∧
      s.files.create out (!s.options.force) (s.outputMode.getD FileSystem.defaultMode)
        = .ok (file, files) ∧
      Pe.Image.parse input.image.bytes = .ok copy ∧
      Pe.Image.clearTable copy = .ok warning cleared ∧
      s' = { s with
        files := files.write file input.image.bytes
        warnings := s.warnings ++ warning.toList
        output := some ⟨file, cleared⟩ } := by
  simp only [openOutput]
  rw [inputImage_bind_eq_ok_iff]
  constructor
  · rintro ⟨input, hinput, h⟩
    rw [Step.get_bind] at h
    obtain ⟨out, hout, h⟩ := required_bind_eq_ok_iff.1 h
    obtain ⟨file, t, hopened, h⟩ := Step.bind_eq_ok_iff.1 h
    obtain ⟨hfree, files, hcreate, rfl⟩ := create_eq_ok_iff.1 hopened
    obtain ⟨_, t, hwrite, h⟩ := Step.bind_eq_ok_iff.1 h
    cases hwrite
    obtain ⟨copy, hcopy, h⟩ := Step.ofExcept_bind_eq_ok_iff.1 h
    cases hclear : Pe.Image.clearTable copy with
    | error f j =>
      rw [hclear] at h
      cases h
    | ok warning cleared =>
      rw [hclear] at h
      cases h
      exact ⟨input, out, file, files, copy, warning, cleared, hinput, hout, hfree, hcreate, hcopy,
        hclear, rfl⟩
  · rintro ⟨input, out, file, files, copy, warning, cleared, hinput, hout, hfree, hcreate, hcopy,
      hclear, rfl⟩
    refine ⟨input, hinput, ?_⟩
    rw [Step.get_bind]
    refine required_bind_eq_ok_iff.2 ⟨out, hout, ?_⟩
    rw [Step.bind_of_ok (create_eq_ok_iff.2 ⟨hfree, files, hcreate, rfl⟩)]
    refine Step.bind_eq_ok_iff.2 ⟨_, _, rfl, Step.ofExcept_bind_eq_ok_iff.2 ⟨copy, hcopy, ?_⟩⟩
    rw [hclear]
    rfl

theorem editOutput_eq_ok_iff {α : Type} {edit : SignedImage.Edit α} {a : α} :
    editOutput edit s = .ok a s' ↔ ∃ o t, s.output = some o ∧
      edit ⟨o.image, s.signatures⟩ = .ok a t ∧
      s' = { s with output := some ⟨o.file, t.image⟩, signatures := t.signatures } := by
  simp only [editOutput]
  rw [outputImage_bind_eq_ok_iff]
  constructor
  · rintro ⟨o, ho, h⟩
    rw [Step.get_bind] at h
    cases hedit : edit ⟨o.image, s.signatures⟩ with
    | error f t =>
      rw [hedit] at h
      cases h
    | ok b t =>
      rw [hedit] at h
      cases h
      exact ⟨o, t, ho, hedit, rfl⟩
  · rintro ⟨o, t, ho, hedit, rfl⟩
    refine ⟨o, ho, ?_⟩
    rw [Step.get_bind, hedit]
    rfl

theorem closeOutput_eq_ok_iff :
    closeOutput s = .ok () s' ↔ ∃ o warning t, s.output = some o ∧
      SignedImage.finish ⟨o.image, s.signatures⟩ = .ok warning t ∧
      s' = { s with
        files := s.files.write o.file t.image.bytes
        warnings := s.warnings ++ warning.toList
        output := none } := by
  simp only [closeOutput]
  rw [outputImage_bind_eq_ok_iff]
  constructor
  · rintro ⟨o, ho, h⟩
    rw [Step.modify_bind, Step.get_bind] at h
    cases hfinish : SignedImage.finish ⟨o.image, s.signatures⟩ with
    | error f t =>
      simp only [hfinish] at h
      cases h
    | ok warning t =>
      simp only [hfinish] at h
      cases h
      exact ⟨o, warning, t, ho, hfinish, rfl⟩
  · rintro ⟨o, warning, t, ho, hfinish, rfl⟩
    refine ⟨o, ho, ?_⟩
    rw [Step.modify_bind, Step.get_bind]
    simp only [hfinish]
    rfl

/-- Two sessions with the same options, files, output and list. -/
structure Beside (s s' : Session) : Prop where
  options_eq : s'.options = s.options
  files_eq : s'.files = s.files
  output_eq : s'.output = s.output
  signatures_eq : s'.signatures = s.signatures

theorem closeInput_eq_ok_iff : closeInput s = .ok () s' ↔ s' = { s with input := none } := by
  rw [closeInput, Step.modify_eq_ok_iff]
  exact eq_comm

theorem findCertificate_eq_ok_iff {withKey : Bool} :
    findCertificate withKey s = .ok () s' ↔ ∃ name database warnings identity,
      s.options.certificateName = some name ∧
      CertificateDatabase.load s.files s.options.certificateDirectory = .ok (database, warnings) ∧
      database.find name withKey = .ok identity ∧
      s' = { s with warnings := s.warnings ++ warnings, identity := some identity } := by
  simp only [findCertificate]
  rw [Step.get_bind]
  simp only [required_bind_eq_ok_iff, Step.ofExcept_bind_eq_ok_iff]
  constructor
  · rintro ⟨name, hname, ⟨database, warnings⟩, hload, h⟩
    obtain ⟨_, t, hwarn, h⟩ := Step.bind_eq_ok_iff.1 h
    cases hwarn
    obtain ⟨identity, hfind, h⟩ := Step.ofExcept_bind_eq_ok_iff.1 h
    cases h
    exact ⟨name, database, warnings, identity, hname, hload, hfind, rfl⟩
  · rintro ⟨name, database, warnings, identity, hname, hload, hfind, rfl⟩
    refine ⟨name, hname, ⟨database, warnings⟩, hload, Step.bind_eq_ok_iff.2 ⟨_, _, rfl, ?_⟩⟩
    exact Step.ofExcept_bind_eq_ok_iff.2 ⟨identity, hfind, rfl⟩

/-- The options name a file for a role, and this is what it holds. -/
def Provides (s : Session) (role : Artifact) (data : Bytes) : Prop :=
  ∃ path, s.options.inputPath? role = some path ∧ s.files.readFile path = .ok data

theorem Provides.unique {role : Artifact} {b c : Bytes} (h : Provides s role b)
    (h' : Provides s role c) : b = c := by
  obtain ⟨path, hpath, hread⟩ := h
  obtain ⟨path', hpath', hread'⟩ := h'
  cases hpath.symm.trans hpath'
  cases hread.symm.trans hread'
  rfl

theorem Provides.congr {role : Artifact} {b : Bytes} (h : Provides s role b)
    (hoptions : s'.options = s.options) (hfiles : s'.files = s.files) : Provides s' role b := by
  obtain ⟨path, hpath, hread⟩ := h
  rw [← hoptions] at hpath
  rw [← hfiles] at hread
  exact ⟨path, hpath, hread⟩

theorem readArtifact_bind_eq_ok_iff {β : Type} {role : Artifact} {f : Bytes → Run β} {b : β} :
    (readArtifact role >>= f) s = .ok b s' ↔ ∃ data, Provides s role data ∧ f data s = .ok b s' := by
  have hread : ∀ {data t}, readArtifact role s = .ok data t ↔ Provides s role data ∧ s = t := by
    intro data t
    simp only [readArtifact]
    rw [Step.get_bind]
    simp only [required_bind_eq_ok_iff, doing_bind_eq_ok_iff]
    constructor
    · rintro ⟨path, hpath, opened, hopened, h⟩
      cases hdata : opened.read with
      | error f =>
        rw [hdata] at h
        cases h
      | ok c =>
        rw [hdata] at h
        cases h
        exact ⟨⟨path, hpath, Except.bind_eq_ok_iff.2 ⟨opened, hopened, hdata⟩⟩, rfl⟩
    · rintro ⟨⟨path, hpath, h⟩, rfl⟩
      obtain ⟨opened, hopened, hdata⟩ := Except.bind_eq_ok_iff.1 h
      refine ⟨path, hpath, opened, hopened, ?_⟩
      rw [hdata]
      rfl
  rw [Step.bind_eq_ok_iff]
  constructor
  · rintro ⟨data, t, h, hf⟩
    obtain ⟨hdata, rfl⟩ := hread.1 h
    exact ⟨data, hdata, hf⟩
  · rintro ⟨data, hdata, hf⟩
    exact ⟨data, s, hread.2 ⟨hdata, rfl⟩, hf⟩

theorem signer_bind_eq_ok_iff {β : Type} {f : Signer → Run β} {b : β} :
    (signer >>= f) s = .ok b s' ↔ ∃ identity, s.identity = some identity ∧
      f ⟨s.options.digest, identity, s.now⟩ s = .ok b s' := by
  cases hidentity : s.identity with
  | none =>
    have hfail : signer s = .error (.inconsistent .noCertificateSelected) s := by
      simp only [signer, Step.get_bind, hidentity, selected]
      rfl
    rw [Step.bind_of_error hfail]
    exact ⟨nofun, fun ⟨_, h, _⟩ => nomatch h⟩
  | some identity =>
    have hsigner : signer s = .ok ⟨s.options.digest, identity, s.now⟩ s := by
      simp only [signer, Step.get_bind, hidentity, selected]
      rfl
    rw [Step.bind_of_ok hsigner]
    constructor
    · intro h
      exact ⟨identity, rfl, h⟩
    · rintro ⟨_, hsame, h⟩
      cases hsame
      exact h

theorem generate_bind_eq_ok_iff {β : Type} {who : Signer} {f : Signature → Run β} {b : β} :
    (generate who d >>= f) s = .ok b s' ↔
      ∃ sig, who.generate d s.draws = .ok sig ∧ f sig s = .ok b s' := by
  simp only [generate]
  exact Step.ofExcept_bind_eq_ok_iff

theorem computeDigest_eq_ok_iff {image : Pe.Image} {o : Pe.DigestOptions} :
    computeDigest image o s = .ok d s' ↔
      image.digest s.options.digest o = .ok d ∧ s' = { s with digest := some d } := by
  simp only [computeDigest]
  rw [Step.get_bind, Step.ofExcept_bind_eq_ok_iff]
  constructor
  · rintro ⟨d', hd, h⟩
    cases h
    exact ⟨hd, rfl⟩
  · rintro ⟨hd, rfl⟩
    exact ⟨d, hd, rfl⟩

end Authenticode.Session
