import Authenticode.Proofs.FileSystem.Contents
import Authenticode.Proofs.TwoRuns
import Authenticode.Session.Workflows

/-!
# Sessions used again

A session that was used before still has the list, the images, the digest and the
identity of the earlier runs. Each workflow sets what it reads before it reads it, so a
run on such a session does what it does on a new one: it ends in the same way, prints
the same and leaves the same contents of files. The permission bits of an earlier input
are the one thing that a later run may see, where it exports a key or a certificate.
-/
namespace Authenticode.Session

open Step
open Cms (Signature SigningIdentity)

/-- Which parts of a session have been set by the run that goes on. -/
structure Known where
  input : Bool
  output : Bool
  signatures : Bool
  identity : Bool

def Known.nothing : Known := ⟨false, false, false, false⟩

/-- Two sessions in one run, the first of which was as `before` when the run began and the second
of which was new. The parts that are known are the same in both. -/
structure Like (k : Known) (before s t : Session) : Prop where
  options : s.options = t.options
  asked : t.options = before.options
  now : s.now = t.now
  draws : s.draws = t.draws
  files : s.files.SameContents t.files
  printed : s.printed = before.printed ++ t.printed
  warnings : s.warnings = before.warnings ++ t.warnings
  input : k.input = true → s.input = t.input
  output : k.output = true → s.output = t.output
  signatures : k.signatures = true → s.signatures = t.signatures
  identity : k.identity = true → s.identity = t.identity

variable {α β : Type} {k k' k'' : Known} {x : Run α} {f : α → Run β}
  {before s t : Session}

theorem Like.forget (h : Like k before s t) : Like .nothing before s t :=
  { h with input := nofun, output := nofun, signatures := nofun, identity := nofun }

theorem Like.forget_here (h : Like k before s t) :
    ∀ s' t', s' = s ∧ t' = t → Like .nothing before s' t' := by
  rintro _ _ ⟨rfl, rfl⟩
  exact h.forget

/-- From sessions with the parts of `k` in common, a step has the same outcome, and then the parts
of `k'` are in common. -/
def Agrees (k : Known) (x : Run α) (k' : Known) : Prop :=
  ∀ before, Paired (Like k before) x x (fun _ => Like k' before)
    (Like .nothing before)

namespace Agrees

theorem bind (hx : Agrees k x k') (hf : ∀ a, Agrees k' (f a) k'') : Agrees k (x >>= f) k'' :=
  fun before => (hx before).bind fun a => hf a before

theorem pure (a : α) : Agrees k (pure a) k := fun _ => .pure a fun _ _ h => h

theorem throw (e : Error) : Agrees k (throw e : Run α) k' := fun _ => .throw e fun _ _ h => h.forget

theorem stateless (hx : Stateless x) : Agrees k x k :=
  fun _ => .stateless hx fun _ _ h => h.forget

theorem modify {g : Session → Session}
    (h : ∀ before s t, Like k before s t → Like k' before (g s) (g t)) :
    Agrees k (modify g) k' :=
  fun before => .modify (h before)

/-- A step that looks at the session sees the same in both if it looks at common parts only. -/
theorem get_bind {f : Session → Run β}
    (hsame : ∀ before s t, Like k before s t → f s = f t)
    (h : ∀ s, Agrees k (f s) k') : Agrees k (get >>= f) k' := by
  intro before s t hst
  change Alike _ _ (f s s) (f t t)
  rw [hsame before s t hst]
  exact h t before s t hst

theorem ite {c : Prop} [Decidable c] {y : Run α} (hx : Agrees k x k') (hy : Agrees k y k') :
    Agrees k (if c then x else y) k' :=
  fun before => (hx before).ite (hy before)

theorem discard (h : Agrees k x k') : Agrees k (Functor.discard x) k' := by
  intro before
  refine (h before).discard.mono (fun _ _ h => h) ?_ fun _ _ h => h
  rintro - s t ⟨-, hst⟩
  exact hst

theorem forget (h : Agrees k x k') : Agrees k x .nothing :=
  fun before => (h before).mono (fun _ _ h => h) (fun _ _ _ h => h.forget)
    fun _ _ h => h

end Agrees

theorem stateless_doing (a : Activity) (r : Except IoFailure α) : Stateless (doing a r) := by
  cases r with
  | error f => exact .inr ⟨.io a f, rfl⟩
  | ok x => exact .inl ⟨x, rfl⟩

theorem stateless_required (what : Missing) (o : Option α) : Stateless (required what o) := by
  cases o with
  | none => exact .inr ⟨.missing what, rfl⟩
  | some x => exact .inl ⟨x, rfl⟩

theorem agrees_ofExcept (r : Except Error α) : Agrees k (ofExcept r) k :=
  .stateless (stateless_ofExcept r)

theorem agrees_required (what : Missing) (o : Option α) : Agrees k (required what o) k :=
  .stateless (stateless_required what o)

theorem paired_openForReading {P E : Session → Session → Prop} {Q : β → Session → Session → Prop}
    {f g : FileSystem.Opened → Run β} (h : s.files.SameContents t.files) (a : Activity)
    (path : String) (hE : ∀ s t, P s t → E s t)
    (hfg : ∀ o p, o.read = p.read → Paired P (f o) (g p) Q E) :
    Paired P (doing a (s.files.openForReading path) >>= f)
      (doing a (t.files.openForReading path) >>= g) Q E := by
  rcases h.openForReading_cases path with ⟨e, hs, ht⟩ | ⟨o, p, hs, ht, hread⟩
  · rw [hs, ht]
    exact fun s t hst => alike_error (hE s t hst)
  · rw [hs, ht]
    exact hfg o p hread

theorem agrees_warn (ws : List Warning) : Agrees k (warn ws) k := by
  refine .modify fun before s t h => { h with warnings := ?_ }
  dsimp only
  rw [h.warnings, List.append_assoc]

theorem agrees_print (text : String) : Agrees k (print text) k := by
  refine .modify fun before s t h => { h with printed := ?_ }
  dsimp only
  rw [h.printed, String.append_assoc]

theorem agrees_checkPaths : Agrees k checkPaths k := by
  refine .get_bind (fun _ s t h => ?_) fun s => ?_
  · simp only [h.options, h.files.isSameFile_eq]
  · refine (agrees_required _ _).bind fun input => (agrees_required _ _).bind fun output => ?_
    exact .ite (.throw _) (.pure _)

theorem agrees_openInput : Agrees k openInput { k with input := true, signatures := true } := by
  intro before
  refine .get_bind fun s t h => ?_
  have hfailed := h.forget_here
  rw [h.options]
  refine (Paired.stateless (stateless_required _ _) hfailed).bind fun path => ?_
  refine paired_openForReading h.files _ _ hfailed fun o p hread => ?_
  rw [hread]
  refine (Paired.stateless (stateless_doing _ _) hfailed).bind fun bytes => ?_
  refine (Paired.stateless (stateless_ofExcept _) hfailed).bind fun image => ?_
  cases image.signatures with
  | error f => exact .throw _ hfailed
  | ok list =>
    refine .modify ?_
    rintro _ _ ⟨rfl, rfl⟩
    exact { h with input := fun _ => rfl, signatures := fun _ => rfl }

theorem agrees_closeInput : Agrees k closeInput k :=
  .modify fun _ _ _ h => { h with input := fun _ => rfl }

theorem agrees_inputImage (hk : k.input = true) : Agrees k inputImage k := by
  refine .get_bind (fun _ s t h => ?_) fun s => ?_
  · rw [h.input hk]
  · cases s.input with
    | none => exact .throw _
    | some i => exact .pure i

theorem agrees_refuseExisting (path : String) : Agrees k (refuseExisting path) k := by
  refine .get_bind (fun _ s t h => ?_) fun s => ?_
  · simp only [h.options, h.files.contains_eq]
  · exact .ite (.throw _) (.pure _)

/-- The permission bits that a new file asks for may come from an input that was opened earlier. -/
theorem agrees_create (path : String) (a : Activity) : Agrees k (create path a) k := by
  refine (agrees_refuseExisting path).bind fun _ before => ?_
  refine .get_bind fun s t h => ?_
  have hforce : s.options.force = t.options.force := congrArg _ h.options
  rw [hforce]
  dsimp only
  rcases h.files.create_cases path (!t.options.force) (s.outputMode.getD FileSystem.defaultMode)
    (t.outputMode.getD FileSystem.defaultMode) with ⟨e, hs, ht⟩ | ⟨l, fs, gs, hs, ht, hfiles⟩
  · rw [hs, ht]
    rintro _ _ ⟨rfl, rfl⟩
    exact alike_error h.forget
  · rw [hs, ht]
    rintro _ _ ⟨rfl, rfl⟩
    exact alike_ok { h with files := hfiles }

theorem agrees_write (file : Location) (bytes : Bytes) : Agrees k (write file bytes) k :=
  .modify fun _ _ _ h => { h with files := h.files.write file bytes }

theorem agrees_readArtifact (role : Artifact) : Agrees k (readArtifact role) k := by
  intro before
  refine .get_bind fun s t h => ?_
  have hfailed := h.forget_here
  rw [h.options]
  refine (Paired.stateless (stateless_required _ _) hfailed).bind fun path => ?_
  refine paired_openForReading h.files _ _ hfailed fun o p hread => ?_
  rw [hread]
  refine (Paired.stateless (stateless_doing _ _) hfailed).mono (fun _ _ h => h) ?_ (fun _ _ h => h)
  rintro _ _ _ ⟨rfl, rfl⟩
  exact h

theorem agrees_writeArtifact (role : Artifact) (bytes : Bytes) :
    Agrees k (writeArtifact role bytes) k := by
  refine .get_bind (fun _ s t h => ?_) fun s => ?_
  · rw [h.options]
  · refine (agrees_required _ _).bind fun path => ?_
    exact (agrees_create path _).bind fun file => agrees_write file bytes

theorem agrees_openOutput (hk : k.input = true) :
    Agrees k openOutput { k with output := true } := by
  refine (agrees_inputImage hk).bind fun input => ?_
  refine .get_bind (fun _ s t h => ?_) fun s => ?_
  · rw [h.options]
  refine (agrees_required _ _).bind fun path => (agrees_create path _).bind fun file => ?_
  refine (agrees_write file _).bind fun _ => (agrees_ofExcept _).bind fun copy => ?_
  cases Pe.Image.clearTable copy with
  | error f j => exact .throw f
  | ok warning image =>
    refine (agrees_warn _).bind fun _ => .modify fun _ _ _ h => ?_
    exact { h with output := fun _ => rfl }

theorem agrees_outputImage (hk : k.output = true) : Agrees k outputImage k := by
  refine .get_bind (fun _ s t h => ?_) fun s => ?_
  · rw [h.output hk]
  · cases s.output with
    | none => exact .throw _
    | some o => exact .pure o

theorem agrees_signedOutput (hk : k.output = true) (hk' : k.signatures = true) :
    Agrees k signedOutput k := by
  refine (agrees_outputImage hk).bind fun output => ?_
  refine .get_bind (fun _ s t h => ?_) fun s => .pure _
  rw [h.signatures hk']

theorem agrees_editOutput (hk : k.output = true) (hk' : k.signatures = true)
    (edit : SignedImage.Edit α) : Agrees k (editOutput edit) k := by
  refine (agrees_outputImage hk).bind fun output => ?_
  refine .get_bind (fun _ s t h => ?_) fun s => ?_
  · rw [h.signatures hk']
  · have hstore (t : SignedImage) : Agrees k (modify fun s => { s with
        output := some { output with image := t.image }, signatures := t.signatures }) k :=
      .modify fun _ _ _ h => { h with output := fun _ => rfl, signatures := fun _ => rfl }
    cases edit ⟨output.image, s.signatures⟩ with
    | ok a t => exact (hstore t).bind fun _ => .pure a
    | error f t => exact (hstore t).bind fun _ => .throw f

theorem agrees_removeSignature (hk : k.output = true) (hk' : k.signatures = true) (index : Int) :
    Agrees k (removeSignature index) k := by
  refine (agrees_editOutput hk hk' _).bind fun removed => ?_
  exact (agrees_warn _).bind fun _ => .pure _

theorem agrees_closeOutput (hk : k.output = true) (hk' : k.signatures = true) :
    Agrees k closeOutput k := by
  refine (agrees_outputImage hk).bind fun output => ?_
  have hclosed : Agrees k (modify fun s => { s with output := none }) k :=
    .modify fun _ _ _ h => { h with output := fun _ => rfl }
  refine hclosed.bind fun _ => ?_
  refine .get_bind (fun _ s t h => ?_) fun s => ?_
  · rw [h.signatures hk']
  · cases SignedImage.finish ⟨output.image, s.signatures⟩ with
    | ok warning t => exact (agrees_warn _).bind fun _ => agrees_write _ _
    | error f t => exact .throw f

theorem agrees_findCertificate (withKey : Bool) :
    Agrees k (findCertificate withKey) { k with identity := true } := by
  refine .get_bind (fun _ s t h => ?_) fun s => ?_
  · rw [h.options, CertificateDatabase.load_eq h.files]
  refine (agrees_required _ _).bind fun name => ?_
  refine (agrees_ofExcept _).bind fun loaded => ?_
  refine (agrees_warn _).bind fun _ => ?_
  refine (agrees_ofExcept _).bind fun identity => ?_
  exact .modify fun _ _ _ h => { h with identity := fun _ => rfl }

theorem agrees_signer (hk : k.identity = true) : Agrees k signer k := by
  refine .get_bind (fun _ s t h => ?_) fun s => ?_
  · rw [h.options, h.identity hk, h.now]
  · exact (agrees_ofExcept _).bind fun identity => .pure _

theorem agrees_generate (who : Cms.Signer) (d : Digest) : Agrees k (generate who d) k := by
  refine .get_bind (fun _ s t h => ?_) fun s => agrees_ofExcept _
  rw [h.draws]

theorem agrees_computeDigest (image : Pe.Image) (o : Pe.DigestOptions) :
    Agrees k (computeDigest image o) k := by
  refine .get_bind (fun _ s t h => ?_) fun s => ?_
  · rw [h.options]
  refine (agrees_ofExcept _).bind fun digest => ?_
  have hstore : Agrees k (modify fun s => { s with digest := some digest }) k :=
    .modify fun _ _ _ h => { h with }
  exact hstore.bind fun _ => .pure digest

theorem agrees_insertionIndex (hk : k.signatures = true) : Agrees k insertionIndex k := by
  refine .get_bind (fun _ s t h => ?_) fun s => ?_
  · rw [h.options, h.signatures hk]
  · dsimp only
    cases s.options.signatureNumber with
    | none => exact .pure _
    | some n => exact .ite (.throw _) (.pure _)

theorem agrees_importRawSignature : Agrees .nothing importRawSignature .nothing := by
  refine (agrees_findCertificate _).bind fun _ => ?_
  refine (agrees_readArtifact _).bind fun value => (agrees_readArtifact _).bind fun attributes => ?_
  refine (agrees_ofExcept _).bind fun raw => agrees_openInput.bind fun _ => ?_
  refine (agrees_insertionIndex rfl).bind fun index => (agrees_openOutput rfl).bind fun _ => ?_
  refine agrees_closeInput.bind fun _ => (agrees_outputImage rfl).bind fun output => ?_
  refine (agrees_computeDigest _ _).bind fun digest => (agrees_signer rfl).bind fun signer => ?_
  refine (agrees_signedOutput rfl rfl).bind fun signed => (agrees_ofExcept _).bind fun amount => ?_
  refine (agrees_editOutput rfl rfl _).bind fun _ => (agrees_ofExcept _).bind fun signature => ?_
  exact (agrees_editOutput rfl rfl _).bind fun _ => (agrees_closeOutput rfl rfl).forget

theorem agrees_exportSignedAttributes : Agrees .nothing exportSignedAttributes .nothing := by
  refine agrees_openInput.bind fun _ => (agrees_inputImage rfl).bind fun input => ?_
  refine (agrees_computeDigest _ _).bind fun digest => ?_
  refine .get_bind (fun _ s t h => ?_) fun s => ?_
  · rw [h.now]
  refine (agrees_ofExcept _).bind fun attributes => ?_
  exact (agrees_writeArtifact _ _).bind fun _ => agrees_closeInput.forget

theorem agrees_importSignature : Agrees .nothing importSignature .nothing := by
  refine agrees_openInput.bind fun _ => (agrees_insertionIndex rfl).bind fun index => ?_
  refine (agrees_openOutput rfl).bind fun _ => agrees_closeInput.bind fun _ => ?_
  refine (agrees_readArtifact _).bind fun file => (agrees_ofExcept _).bind fun signature => ?_
  refine (agrees_signedOutput rfl rfl).bind fun signed => (agrees_ofExcept _).bind fun amount => ?_
  refine (agrees_editOutput rfl rfl _).bind fun _ => ?_
  refine (agrees_signedOutput rfl rfl).bind fun signed => (agrees_ofExcept _).bind fun _ => ?_
  exact (agrees_editOutput rfl rfl _).bind fun _ => (agrees_closeOutput rfl rfl).forget

theorem agrees_exportPublicKey : Agrees .nothing exportPublicKey .nothing := by
  refine (agrees_findCertificate _).bind fun _ => (agrees_signer rfl).bind fun signer => ?_
  refine (agrees_ofExcept _).bind fun key => ?_
  refine .get_bind (fun _ s t h => ?_) fun s => (agrees_writeArtifact _ _).forget
  rw [h.options]

theorem agrees_exportCertificate : Agrees .nothing exportCertificate .nothing := by
  refine (agrees_findCertificate _).bind fun _ => (agrees_signer rfl).bind fun signer => ?_
  refine .get_bind (fun _ s t h => ?_) fun s => (agrees_writeArtifact _ _).forget
  rw [h.options]

theorem agrees_exportSignature : Agrees .nothing exportSignature .nothing := by
  refine agrees_openInput.bind fun _ => .get_bind (fun _ s t h => ?_) fun s => ?_
  · rw [h.options, h.signatures rfl]
  refine Agrees.ite (.throw _) ?_
  refine (agrees_ofExcept _).bind fun file => ?_
  exact (agrees_writeArtifact _ _).bind fun _ => agrees_closeInput.forget

theorem agrees_removeSignatureAt : Agrees .nothing removeSignatureAt .nothing := by
  refine agrees_openInput.bind fun _ => (agrees_openOutput rfl).bind fun _ => ?_
  refine agrees_closeInput.bind fun _ => .get_bind (fun _ s t h => ?_) fun s => ?_
  · rw [h.options]
  refine (agrees_removeSignature rfl rfl _).discard.bind fun _ => ?_
  exact (agrees_closeOutput rfl rfl).forget

theorem agrees_listSignatures : Agrees .nothing listSignatures .nothing := by
  refine agrees_openInput.bind fun _ => .get_bind (fun _ s t h => ?_) fun s => ?_
  · rw [h.signatures rfl]
  exact (agrees_print _).bind fun _ => agrees_closeInput.forget

theorem agrees_printDigest (omitVendorCertificate : Bool) :
    Agrees .nothing (printDigest omitVendorCertificate) .nothing := by
  refine agrees_openInput.bind fun _ => (agrees_inputImage rfl).bind fun input => ?_
  refine .get_bind (fun _ s t h => ?_) fun s => ?_
  · rw [h.options]
  refine (agrees_computeDigest _ _).bind fun digest => ?_
  exact (agrees_print _).bind fun _ => agrees_closeInput.forget

theorem agrees_generateAndExportSignature :
    Agrees .nothing generateAndExportSignature .nothing := by
  refine (agrees_findCertificate _).bind fun _ => agrees_openInput.bind fun _ => ?_
  refine (agrees_inputImage rfl).bind fun input => (agrees_computeDigest _ _).bind fun digest => ?_
  refine (agrees_signer rfl).bind fun signer => (agrees_generate _ _).bind fun signature => ?_
  refine .get_bind (fun _ s t h => ?_) fun s => ?_
  · rw [h.options]
  exact (agrees_writeArtifact _ _).bind fun _ => agrees_closeInput.forget

theorem agrees_generateAndEmbedSignature : Agrees .nothing generateAndEmbedSignature .nothing := by
  refine (agrees_findCertificate _).bind fun _ => agrees_openInput.bind fun _ => ?_
  refine (agrees_insertionIndex rfl).bind fun index => (agrees_openOutput rfl).bind fun _ => ?_
  refine agrees_closeInput.bind fun _ => (agrees_outputImage rfl).bind fun output => ?_
  refine (agrees_computeDigest _ _).bind fun before => (agrees_signer rfl).bind fun signer => ?_
  refine (agrees_signedOutput rfl rfl).bind fun signed => (agrees_ofExcept _).bind fun amount => ?_
  refine (agrees_editOutput rfl rfl _).bind fun _ => (agrees_outputImage rfl).bind fun grown => ?_
  refine (agrees_computeDigest _ _).bind fun digest => Agrees.ite (.throw _) ?_
  refine (agrees_generate _ _).bind fun signature => ?_
  exact (agrees_editOutput rfl rfl _).bind fun _ => (agrees_closeOutput rfl rfl).forget

theorem agrees_run (w : Workflow) : Agrees .nothing (run w) .nothing := by
  cases w with
  | importRawSignature => exact agrees_importRawSignature
  | exportSignedAttributes => exact agrees_exportSignedAttributes
  | importSignature => exact agrees_importSignature
  | exportPublicKey => exact agrees_exportPublicKey
  | exportCertificate => exact agrees_exportCertificate
  | exportSignature => exact agrees_exportSignature
  | removeSignature => exact agrees_removeSignatureAt
  | listSignatures => exact agrees_listSignatures
  | printDigest omitted => exact agrees_printDigest omitted
  | generateAndExportSignature => exact agrees_generateAndExportSignature
  | generateAndEmbedSignature => exact agrees_generateAndEmbedSignature

theorem agrees_perform (actions : ActionSet) : Agrees .nothing (perform actions) .nothing := by
  refine (agrees_ofExcept _).bind fun w => ?_
  cases w.writesImage with
  | true => exact agrees_checkPaths.bind fun _ => agrees_run w
  | false => exact agrees_run w

/-- A set of actions that is asked for at some time, with the random numbers that are drawn if
something is signed then. -/
structure Request where
  now : Int
  draws : List Nat
  actions : ActionSet

/-- The run of a request on the session as it is. -/
def serve (r : Request) (s : Session) : EStateM.Result Error Session Unit :=
  perform r.actions { s with now := r.now, draws := r.draws }

/-- The session that a list of requests leaves, whether they fail or not. -/
def after : List Request → Session → Session
  | [], s => s
  | r :: rest, s => after rest (stateOf (serve r s))

/-- The same request to a new session that sees the same files. -/
def serveAnew (r : Request) (s : Session) : EStateM.Result Error Session Unit :=
  perform r.actions { options := s.options, now := r.now, files := s.files, draws := r.draws }

theorem like_serve (r : Request) (s : Session) :
    outcome (serve r s) = outcome (serveAnew r s) ∧
      Like .nothing s (stateOf (serve r s)) (stateOf (serveAnew r s)) := by
  have hstart : Like .nothing s { s with now := r.now, draws := r.draws }
      { options := s.options, now := r.now, files := s.files, draws := r.draws } :=
    ⟨rfl, rfl, rfl, rfl, rfl, String.append_empty.symm, (List.append_nil _).symm, nofun, nofun,
      nofun, nofun⟩
  obtain ⟨houtcome, hlike⟩ := (agrees_perform r.actions s _ _ hstart).outcome_eq
  exact ⟨houtcome, hlike.elim (fun h => h.choose_spec) id⟩

theorem options_after (earlier : List Request) (s : Session) :
    (after earlier s).options = s.options := by
  induction earlier generalizing s with
  | nil => rfl
  | cons r rest ih =>
    have hlike := (like_serve r s).2
    exact (ih _).trans (hlike.options.trans hlike.asked)

/-- A request to a session that has answered others before, some of them perhaps with a failure, is
answered as by a new session with the same options that sees the files as they are, at the same time
and with the same random numbers: it ends in the same way, prints and warns the same, and leaves the
same contents of files. -/
theorem answered_after (options : Options) (files : FileSystem) (start : Int)
    (earlier : List Request) (r : Request) :
    let s := after earlier { options, now := start, files }
    let new : Session := { options, now := r.now, files := s.files, draws := r.draws }
    let used := perform r.actions { s with now := r.now, draws := r.draws }
    let fresh := perform r.actions new
    outcome used = outcome fresh ∧
      (stateOf used).printed = s.printed ++ (stateOf fresh).printed ∧
      (stateOf used).warnings = s.warnings ++ (stateOf fresh).warnings ∧
      (stateOf used).files.SameContents (stateOf fresh).files := by
  intro s new used fresh
  have hoptions : s.options = options := options_after earlier _
  have hfresh : fresh = serveAnew r s := by
    rw [serveAnew, hoptions]
  obtain ⟨houtcome, hlike⟩ := like_serve r s
  rw [← hfresh] at houtcome hlike
  exact ⟨houtcome, hlike.printed, hlike.warnings, hlike.files⟩

end Authenticode.Session
