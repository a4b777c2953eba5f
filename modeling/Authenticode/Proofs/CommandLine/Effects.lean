import Authenticode.Proofs.CommandLine.Requests
import Authenticode.Proofs.RawSignature
import Authenticode.Proofs.Session.Effects
import Authenticode.Proofs.Session.Embedding

/-!
# What a command line has done

A run that ends well has done everything that its arguments asked for, since a set of
arguments selects a workflow only if the workflow is about each of them. The one
exception is a signature from a file beside a new signature.
-/
namespace Authenticode.CommandLine

open Cms (RawSignature Signature SignedAttributes SignedParts Signer)
open Pe (Image)
open Session (exportedFile)

variable {a : Arguments} {c : Configuration} {o : Options} {s s' : Session} {p : Parameter}
  {w : Workflow}

/-- An argument that asks for something has taken effect between two sessions. -/
inductive TookEffect (a : Arguments) (s s' : Session) : Parameter → Prop
  /-- The digest was printed, with the vendor certificates or without them. -/
  | digested {p : Parameter} {input : String} {x : Image} {list : List Signature} {d : Digest}
      (asked : p ∈ [.flag .hash, .flag .omitVendorCertificate]) (shows : s.Shows input x list)
      (digest : x.digest s.options.digest
        ⟨s.options.padding, a.has .omitVendorCertificate⟩ = .ok d)
      (printed : s'.printed = s.printed ++ (input ++ " " ++ d.toHex ++ "\n")) :
      TookEffect a s s' p
  | listed {input : String} {x : Image} {list : List Signature} (shows : s.Shows input x list)
      (printed : s'.printed = s.printed ++ Listing.text list) :
      TookEffect a s s' (.flag .listSignatures)
  | removed {cleared : Image}
      (relists : s.Relists s' cleared (.remove s.options.signatureNumber)) :
      TookEffect a s s' (.flag .removeSignature)
  /-- A new signature was put into the image. -/
  | embedded {who : Signer} {cleared : Image} {d : Digest} {extra : Signature}
      (kept : a.value? .exportSignature = none) (selects : s.Selects true who)
      (digest : cleared.digest s.options.digest .signing = .ok d)
      (generate : who.generate d s.draws = .ok extra)
      (relists : s.Relists s' cleared (.insert s.options.signatureNumber extra)) :
      TookEffect a s s' (.flag .sign)
  /-- A new signature was written to a file. -/
  | signed {p : Parameter} {input path : String} {x : Image} {list : List Signature} {who : Signer}
      {d : Digest} {extra : Signature} (asked : p ∈ [.flag .sign, .setting .exportSignature])
      (both : a.has .sign = true) (given : a.value? .exportSignature = some path)
      (shows : s.Shows input x list) (selects : s.Selects true who)
      (digest : x.digest s.options.digest .signing = .ok d)
      (generate : who.generate d s.draws = .ok extra)
      (writes : s.Writes s' path (extra.toFile s.options.armored)) :
      TookEffect a s s' p
  | exportedSignature {input path : String} {x : Image} {list : List Signature} {sig : Signature}
      (unsigned : a.has .sign = false) (given : a.value? .exportSignature = some path)
      (shows : s.Shows input x list)
      (found : list[(s.options.signatureNumber.getD 0).toNat]? = some sig)
      (writes : s.Writes s' path (sig.toFile s.options.armored)) :
      TookEffect a s s' (.setting .exportSignature)
  | importedSignature {path : String} {file : Bytes} {cleared : Image} {extra : Signature}
      (given : a.value? .importSignature = some path) (reads : s.files.readFile path = .ok file)
      (signature : Signature.ofFile file = .ok extra)
      (relists : s.Relists s' cleared (.insert s.options.signatureNumber extra)) :
      TookEffect a s s' (.setting .importSignature)
  /-- The value and the attributes in two files were put into the image as a signature, and a
  checker finds them there. -/
  | wrapped {p : Parameter} {path attributesPath : String} {file attributesFile : Bytes}
      {raw : RawSignature} {who : Signer} {cleared : Image} {d : Digest} {extra : Signature}
      {parts : SignedParts}
      (asked : p ∈ [.setting .importRawSignature, .setting .importSignedAttributes])
      (given : a.value? .importRawSignature = some path)
      (givenAttributes : a.value? .importSignedAttributes = some attributesPath)
      (reads : s.files.readFile path = .ok file)
      (readsAttributes : s.files.readFile attributesPath = .ok attributesFile)
      (value : RawSignature.ofFiles file attributesFile = .ok raw) (selects : s.Selects false who)
      (digest : cleared.digest s.options.digest .signing = .ok d)
      (wrap : who.wrap d raw = .ok extra) (found : extra.parts = .ok (some parts))
      (value_eq : parts.value = raw.value) (attributes_eq : parts.attributes = raw.attributes.setDer)
      (relists : s.Relists s' cleared (.insert s.options.signatureNumber extra)) :
      TookEffect a s s' p
  | exportedSignedAttributes {input path : String} {x : Image} {list : List Signature} {d : Digest}
      {attributes : SignedAttributes} (given : a.value? .exportSignedAttributes = some path)
      (shows : s.Shows input x list) (digest : x.digest s.options.digest .signing = .ok d)
      (made : SignedAttributes.ofDigest d s.now = .ok attributes)
      (writes : s.Writes s' path attributes.setDer) :
      TookEffect a s s' (.setting .exportSignedAttributes)
  | exportedPublicKey {path : String} {who : Signer} {key : Key.PublicKey}
      (given : a.value? .exportPublicKey = some path) (selects : s.Selects true who)
      (found : who.identity.publicKey = .ok key)
      (writes : s.Writes s' path (exportedFile s.options.armored "PUBLIC KEY" key.encode)) :
      TookEffect a s s' (.setting .exportPublicKey)
  | exportedCertificate {path : String} {who : Signer}
      (given : a.value? .exportCertificate = some path) (selects : s.Selects false who)
      (writes : s.Writes s' path
        (exportedFile s.options.armored "CERTIFICATE" who.identity.certificate.der)) :
      TookEffect a s s' (.setting .exportCertificate)

/-- The options of a run name the files that the command line names. -/
structure Arguments.Names (a : Arguments) (o : Options) : Prop where
  rawSignature : o.rawSignature = a.value? .importRawSignature
  attributesInput : o.attributesInput = a.value? .importSignedAttributes
  attributesOutput : o.attributesOutput = a.value? .exportSignedAttributes
  signatureInput : o.signatureInput = a.value? .importSignature
  signatureOutput : o.signatureOutput = a.value? .exportSignature
  publicKeyOutput : o.publicKeyOutput = a.value? .exportPublicKey
  certificateOutput : o.certificateOutput = a.value? .exportCertificate

theorem Arguments.names_of_options (h : a.options c = .ok o) : a.Names o := by
  unfold options at h
  split at h
  all_goals
    obtain ⟨digest, -, h⟩ := Except.bind_eq_ok_iff.1 h
    cases h
    exact ⟨rfl, rfl, rfl, rfl, rfl, rfl, rfl⟩

namespace TookEffect

theorem of_printDigest {omitted : Bool} (homitted : a.has .omitVendorCertificate = omitted)
    (h : Session.printDigest omitted s = .ok () s')
    (hp : p ∈ [.flag .hash, .flag .omitVendorCertificate]) : TookEffect a s s' p := by
  obtain ⟨input, x, list, d, hshows, hdigest, hprinted⟩ := Session.prints_of_printDigest h
  exact .digested hp hshows (homitted ▸ hdigest) hprinted

theorem of_listSignatures (h : Session.listSignatures s = .ok () s') :
    TookEffect a s s' (.flag .listSignatures) := by
  obtain ⟨input, x, list, hshows, hprinted⟩ := Session.prints_of_listSignatures h
  exact .listed hshows hprinted

theorem of_removeSignature (h : Session.run .removeSignature s = .ok () s') :
    TookEffect a s s' (.flag .removeSignature) := by
  obtain ⟨cleared, edit, hasks, hrelists⟩ := Session.relists_of_run rfl h
  cases hasks with
  | insert supplies => cases supplies
  | remove => exact .removed hrelists

theorem of_generateAndEmbedSignature (hkept : a.value? .exportSignature = none)
    (h : Session.run .generateAndEmbedSignature s = .ok () s') :
    TookEffect a s s' (.flag .sign) := by
  obtain ⟨cleared, edit, ⟨supplies⟩, hrelists⟩ := Session.relists_of_run rfl h
  obtain _ | _ | ⟨selects, digest, generate⟩ := supplies
  exact .embedded hkept selects digest generate hrelists

section

variable (hnames : a.Names s.options)
include hnames

theorem of_generateAndExportSignature (hsign : a.has .sign = true)
    (h : Session.generateAndExportSignature s = .ok () s')
    (hp : p ∈ [.flag .sign, .setting .exportSignature]) : TookEffect a s s' p := by
  obtain ⟨input, x, list, who, d, extra, path, hshows, hselects, hdigest, hgenerate, hpath,
    hwrites⟩ := Session.writes_of_generateAndExportSignature h
  rw [hnames.signatureOutput] at hpath
  exact .signed hp hsign hpath hshows hselects hdigest hgenerate hwrites

theorem of_exportSignature (hsign : a.has .sign = false)
    (h : Session.exportSignature s = .ok () s') :
    TookEffect a s s' (.setting .exportSignature) := by
  obtain ⟨input, x, list, sig, path, hshows, hfound, hpath, hwrites⟩ :=
    Session.writes_of_exportSignature h
  rw [hnames.signatureOutput] at hpath
  exact .exportedSignature hsign hpath hshows hfound hwrites

theorem of_importSignature (h : Session.run .importSignature s = .ok () s') :
    TookEffect a s s' (.setting .importSignature) := by
  obtain ⟨cleared, edit, ⟨supplies⟩, hrelists⟩ := Session.relists_of_run rfl h
  obtain ⟨⟨path, hpath, hread⟩, hextra⟩ := supplies
  exact .importedSignature (hnames.signatureInput.symm.trans hpath) hread hextra hrelists

theorem of_importRawSignature (h : Session.run .importRawSignature s = .ok () s')
    (hp : p ∈ [.setting .importRawSignature, .setting .importSignedAttributes]) :
    TookEffect a s s' p := by
  obtain ⟨cleared, edit, ⟨supplies⟩, hrelists⟩ := Session.relists_of_run rfl h
  obtain _ | ⟨selects, ⟨path, hpath, hread⟩, ⟨path', hpath', hread'⟩, hraw, digest, wrap⟩ := supplies
  obtain ⟨_, parts, -, hparts, -, -, hattributes, hvalue⟩ :=
    Cms.Signer.exists_parts_of_wrap hraw wrap
  exact .wrapped hp (hnames.rawSignature.symm.trans hpath)
    (hnames.attributesInput.symm.trans hpath') hread hread' hraw selects digest wrap hparts hvalue
    hattributes hrelists

theorem of_exportSignedAttributes (h : Session.exportSignedAttributes s = .ok () s') :
    TookEffect a s s' (.setting .exportSignedAttributes) := by
  obtain ⟨input, x, list, d, attributes, path, hshows, hdigest, hmade, hpath, hwrites⟩ :=
    Session.writes_of_exportSignedAttributes h
  rw [hnames.attributesOutput] at hpath
  exact .exportedSignedAttributes hpath hshows hdigest hmade hwrites

theorem of_exportPublicKey (h : Session.exportPublicKey s = .ok () s') :
    TookEffect a s s' (.setting .exportPublicKey) := by
  obtain ⟨who, key, path, hselects, hfound, hpath, hwrites⟩ := Session.writes_of_exportPublicKey h
  rw [hnames.publicKeyOutput] at hpath
  exact .exportedPublicKey hpath hselects hfound hwrites

theorem of_exportCertificate (h : Session.exportCertificate s = .ok () s') :
    TookEffect a s s' (.setting .exportCertificate) := by
  obtain ⟨who, path, hselects, hpath, hwrites⟩ := Session.writes_of_exportCertificate h
  rw [hnames.certificateOutput] at hpath
  exact .exportedCertificate hpath hselects hwrites

end

end TookEffect

theorem Arguments.gives_eq_of_requests {ps : List Parameter} (h : a.requests = ps)
    (p : Parameter) (hp : p ∈ actionParameters) : a.gives p = decide (p ∈ ps) := by
  rw [Bool.eq_iff_iff, decide_eq_true_iff, ← h, mem_requests, and_iff_right hp]

theorem Arguments.value?_exportSignature_of_requests {ps : List Parameter} (h : a.requests = ps)
    (hps : .setting .exportSignature ∉ ps) : a.value? .exportSignature = none := by
  have hgives := gives_eq_of_requests h (.setting .exportSignature) (by decide)
  rw [decide_eq_false hps] at hgives
  exact Option.isNone_iff_eq_none.1 (Option.isSome_eq_false_iff.1 hgives)

/-- A workflow that ends well has done all that selected it, and a signature from a file beside a
new signature is the only exception. -/
theorem tookEffect_of_run (hnames : a.Names s.options) (hselect : (a.requests, w) ∈ combinations)
    (h : Session.run w s = .ok () s') : ∀ p ∈ a.requests,
      TookEffect a s s' p ∨ p = .setting .importSignature ∧ a.has .sign = true := by
  simp only [combinations, List.mem_cons, List.not_mem_nil, or_false, Prod.mk.injEq] at hselect
  rcases hselect with ⟨hps, rfl⟩ | ⟨hps, rfl⟩ | ⟨hps, rfl⟩ | ⟨hps, rfl⟩ | ⟨hps, rfl⟩ | ⟨hps, rfl⟩ |
    ⟨hps, rfl⟩ | ⟨hps, rfl⟩ | ⟨hps, rfl⟩ | ⟨hps, rfl⟩ | ⟨hps, rfl⟩ | ⟨hps, rfl⟩ | ⟨hps, rfl⟩
  all_goals
    have hsign := Arguments.gives_eq_of_requests hps (.flag .sign) (by decide)
    rw [hps]
  · have homit := Arguments.gives_eq_of_requests hps (.flag .omitVendorCertificate) (by decide)
    exact List.forall_mem_singleton.2 (.inl (.of_printDigest homit h (by decide)))
  · have homit := Arguments.gives_eq_of_requests hps (.flag .omitVendorCertificate) (by decide)
    exact fun p hp => .inl (.of_printDigest homit h hp)
  · have hkept := Arguments.value?_exportSignature_of_requests hps (by decide)
    exact List.forall_mem_singleton.2 (.inl (.of_generateAndEmbedSignature hkept h))
  · have hkept := Arguments.value?_exportSignature_of_requests hps (by decide)
    exact List.forall_mem_cons.2 ⟨.inl (.of_generateAndEmbedSignature hkept h),
      List.forall_mem_singleton.2 (.inr ⟨rfl, hsign⟩)⟩
  · exact fun p hp => .inl (.of_generateAndExportSignature hnames hsign h hp)
  · exact List.forall_mem_singleton.2 (.inl (.of_exportSignature hnames hsign h))
  · exact List.forall_mem_singleton.2 (.inl (.of_importSignature hnames h))
  · exact fun p hp => .inl (.of_importRawSignature hnames h hp)
  · exact List.forall_mem_singleton.2 (.inl (.of_exportSignedAttributes hnames h))
  · exact List.forall_mem_singleton.2 (.inl (.of_exportPublicKey hnames h))
  · exact List.forall_mem_singleton.2 (.inl (.of_exportCertificate hnames h))
  · exact List.forall_mem_singleton.2 (.inl (.of_removeSignature h))
  · exact List.forall_mem_singleton.2 (.inl (.of_listSignatures h))

theorem exists_combination_of_perform (h : Session.perform a.actions s = .ok () s') :
    ∃ w, (a.requests, w) ∈ combinations ∧ Session.run w s = .ok () s' := by
  rcases Session.perform_cases a.actions s with ⟨f, hfail⟩ | ⟨w, hw, hrun, -⟩
  · cases hfail.symm.trans h
  · exact ⟨w, selectWorkflow_actions_eq_ok_iff.1 hw, hrun.symm.trans h⟩

theorem exists_error_of_not_mem (hselect : ∀ w, (a.requests, w) ∉ combinations) (s : Session) :
    ∃ e, Session.perform a.actions s = .error e s := by
  rcases Session.perform_cases a.actions s with hfail | ⟨w, hw, -⟩
  · exact hfail
  · exact absurd (selectWorkflow_actions_eq_ok_iff.1 hw) (hselect w)

/-- How a command line can end. -/
inductive Ends (directory : Option String) (now : Int) (files : FileSystem) (draws : List Nat)
    (arguments : List String) : Outcome → Prop
  | stopped {why : Stop} (read : read arguments = .error why) :
      Ends directory now files draws arguments ⟨.stopped why, "", [], files⟩
  /-- The configuration cannot be used. -/
  | unconfigured {a : Arguments} {e : Error} (read : read arguments = .ok a)
      (options : a.configuration files directory >>= a.options = .error e) :
      Ends directory now files draws arguments ⟨.failed e, "", [], files⟩
  | failed {a : Arguments} {c : Configuration} {options : Options} {e : Error} {s : Session}
      (read : read arguments = .ok a) (configuration : a.configuration files directory = .ok c)
      (options_eq : a.options c = .ok options)
      (perform : Session.perform a.actions { options, now, files, draws } = .error e s) :
      Ends directory now files draws arguments ⟨.failed e, s.printed, s.warnings, s.files⟩
  | succeeded {a : Arguments} {c : Configuration} {options : Options} {s : Session}
      (read : read arguments = .ok a) (configuration : a.configuration files directory = .ok c)
      (options_eq : a.options c = .ok options)
      (perform : Session.perform a.actions { options, now, files, draws } = .ok () s) :
      Ends directory now files draws arguments ⟨.succeeded, s.printed, s.warnings, s.files⟩

theorem ends_run (directory : Option String) (now : Int) (files : FileSystem) (draws : List Nat)
    (arguments : List String) :
    Ends directory now files draws arguments (run directory now files arguments draws) := by
  unfold run
  split
  · next why hread => exact .stopped hread
  · next a hread =>
    split
    · next e hoptions => exact .unconfigured hread hoptions
    · next options hoptions =>
      obtain ⟨c, hconfiguration, hoptions⟩ := Except.bind_eq_ok_iff.1 hoptions
      split
      · next s hperform => exact .succeeded hread hconfiguration hoptions hperform
      · next e s hperform => exact .failed hread hconfiguration hoptions hperform

theorem Outcome.exitStatus_of_failed (e : Error) (printed : String) (warnings : List Warning)
    (files : FileSystem) : exitStatus ⟨.failed e, printed, warnings, files⟩ ≠ 0 := by
  cases e <;> simp [exitStatus]

theorem exitStatus_of_perform {directory : Option String} {now : Int} {files : FileSystem}
    {draws : List Nat} {arguments : List String} (hread : read arguments = .ok a)
    (hconfiguration : a.configuration files directory = .ok c) (hoptions : a.options c = .ok o)
    (hperform : Step.isOk (Session.perform a.actions { options := o, now, files, draws }) = true) :
    (run directory now files arguments draws).exitStatus = 0 := by
  have hends := ends_run directory now files draws arguments
  generalize run directory now files arguments draws = outcome at hends ⊢
  cases hends with
  | stopped h => cases hread.symm.trans h
  | unconfigured h hfail =>
    cases hread.symm.trans h
    rw [hconfiguration] at hfail
    cases hoptions.symm.trans hfail
  | failed h hc ho hfail =>
    cases hread.symm.trans h
    cases hconfiguration.symm.trans hc
    cases hoptions.symm.trans ho
    rw [hfail] at hperform
    cases hperform
  | succeeded => rfl

/-- Nothing that is asked for is dropped in silence, but for one slip. A command line that ends with
success asks for the help or the version, and then it does nothing else, or everything it asks for
has taken effect, except that a signature from a file is passed over beside a new signature. A
command line that asks for what no workflow does is refused with an error, and nothing has been
done. -/
theorem tookEffect_of_exitStatus (directory : Option String) (now : Int) (files : FileSystem)
    (draws : List Nat)
    (arguments : List String) :
    let outcome := run directory now files arguments draws
    (outcome.exitStatus = 0 →
      (∃ why, read arguments = .error why ∧ why ≠ .usage ∧
        outcome = ⟨.stopped why, "", [], files⟩) ∨
      ∃ a c options s', read arguments = .ok a ∧ a.configuration files directory = .ok c ∧
        a.options c = .ok options ∧
        outcome = ⟨.succeeded, s'.printed, s'.warnings, s'.files⟩ ∧
        (∃ w, (a.requests, w) ∈ combinations) ∧
        ∀ p ∈ a.requests, (a.has .sign = true → p ≠ .setting .importSignature) →
          TookEffect a { options, now, files, draws } s' p) ∧
    ∀ a, read arguments = .ok a → (∀ w, (a.requests, w) ∉ combinations) →
      ∃ e, outcome = ⟨.failed e, "", [], files⟩ ∧ outcome.exitStatus ≠ 0 := by
  intro outcome
  have hends : Ends directory now files draws arguments outcome := ends_run ..
  clear_value outcome
  cases hends with
  | @stopped why hread =>
    refine ⟨fun hexit => .inl ⟨why, hread, ?_, rfl⟩, fun a ha => ?_⟩
    · rintro rfl
      cases hexit
    · cases hread.symm.trans ha
  | @unconfigured a e hread hoptions =>
    exact ⟨fun hexit => absurd hexit (Outcome.exitStatus_of_failed e _ _ _),
      fun _ _ _ => ⟨e, rfl, Outcome.exitStatus_of_failed e _ _ _⟩⟩
  | @failed a c options e s hread hconfiguration hoptions hperform =>
    refine ⟨fun hexit => absurd hexit (Outcome.exitStatus_of_failed e _ _ _), fun b hb hnone => ?_⟩
    cases hread.symm.trans hb
    obtain ⟨e', herror⟩ := exists_error_of_not_mem hnone { options, now, files, draws }
    cases hperform.symm.trans herror
    exact ⟨e, rfl, Outcome.exitStatus_of_failed e _ _ _⟩
  | @succeeded a c options s' hread hconfiguration hoptions hperform =>
    obtain ⟨w, hmem, hrun⟩ := exists_combination_of_perform hperform
    refine ⟨fun _ => .inr ⟨a, c, options, s', hread, hconfiguration, hoptions, rfl, ⟨w, hmem⟩, ?_⟩,
      fun b hb hnone => ?_⟩
    · intro p hp hfile
      have heffect := tookEffect_of_run (Arguments.names_of_options hoptions) hmem hrun p hp
      exact heffect.resolve_right fun h => hfile h.2 h.1
    · cases hread.symm.trans hb
      exact absurd hmem (hnone w)

def signable : FileSystem :=
  (Session.onFiles {} [("in", (Image.least .none [] [7]).bytes), ("signature", Signature.least.der),
    ("a.der", X509.Certificate.leastFile [1]), ("a.key", Key.RsaKey.least.encode)]).files

def signingBoth : Arguments where
  flags := [.sign]
  values := [(.importSignature, "signature"), (.certificate, "a"), (.certificateDirectory, "."),
    (.output, "out"), (.input, "in")]

/-- A new signature is put into the image, and the one in the file is passed over. To remove a
signature and to list them at once is refused. -/
theorem tookEffect_of_exitStatus_passedOver :
    let outcome := run none 0 signable
      ["-i", "in", "-o", "out", "-n", ".", "-c", "a", "-s", "-m", "signature"]
    outcome.exitStatus = 0 ∧
      (∃ b extra, outcome.files.readFile "out" = .ok b ∧
        (⟨b, (Image.least .none [] [7]).layout⟩ : Image).signatures = .ok [extra] ∧
        extra ≠ .least) ∧
      ∃ e, run none 0 signable ["-i", "in", "-r", "-S"] = ⟨.failed e, "", [], signable⟩ := by
  intro outcome
  have hread : read ["-i", "in", "-o", "out", "-n", ".", "-c", "a", "-s", "-m", "signature"]
      = .ok signingBoth := rfl
  have hconfiguration : signingBoth.configuration signable none = .ok .standard := by
    decide +kernel
  have hoptions : signingBoth.options .standard = .ok
      { input := some "in", output := some "out", certificateName := some "a"
        certificateDirectory := ".", signatureInput := some "signature" } := by decide +kernel
  have hperform : Step.isOk (Session.perform signingBoth.actions
      { options := { input := some "in", output := some "out", certificateName := some "a"
                     certificateDirectory := ".", signatureInput := some "signature" }
        now := 0, files := signable }) = true := by decide +kernel
  have hexit : outcome.exitStatus = 0 :=
    exitStatus_of_perform hread hconfiguration hoptions hperform
  obtain ⟨heffects, -⟩ := tookEffect_of_exitStatus none 0 signable [1]
    ["-i", "in", "-o", "out", "-n", ".", "-c", "a", "-s", "-m", "signature"]
  refine ⟨hexit, ?_, ?_⟩
  · rcases heffects hexit with ⟨why, h, -⟩ | ⟨a, c, options, s', h, hc, ho, houtcome, -, hall⟩
    · cases hread.symm.trans h
    · cases hread.symm.trans h
      cases hconfiguration.symm.trans hc
      cases hoptions.symm.trans ho
      have hsign := hall (.flag .sign) (by decide +kernel) nofun
      cases hsign with
      | digested asked => exact absurd asked (by decide)
      | wrapped asked => exact absurd asked (by decide)
      | signed _ _ given => cases given
      | embedded _ _ _ generate relists =>
        obtain ⟨input, x, before, _, after, out, b, ⟨hinput, ⟨data, hdata, hx⟩, hbefore⟩, -, happly,
          hout, ⟨l, hwrote⟩, hlist, -⟩ := relists
        cases hinput
        cases hout
        have hin : signable.readFile "in" = .ok (Image.least .none [] [7]).bytes := by
          decide +kernel
        cases hin.symm.trans hdata
        have hleast : Image.parse (Image.least .none [] [7]).bytes
            = .ok (Image.least .none [] [7]) := by decide +kernel
        cases hleast.symm.trans hx
        have hnone : (Image.least .none [] [7]).signatures = .ok [] := by decide +kernel
        cases hnone.symm.trans hbefore
        cases (Session.ListEdit.apply_insert (k := 0) rfl le_rfl).symm.trans happly
        refine ⟨b, _, ?_, hlist, ?_⟩
        · rw [congrArg Outcome.files houtcome]
          exact hwrote.readFile
        · rintro rfl
          have hoctets := Cms.Signer.digestOctets_of_generate generate
          have hnot : Signature.least.digestOctets.toOption.join = none := by decide +kernel
          rw [hoctets] at hnot
          cases hnot
  · have hlisting : read ["-i", "in", "-r", "-S"]
        = .ok ⟨[.listSignatures, .removeSignature], [(.input, "in")]⟩ := rfl
    have hrefused : ∀ q ∈ combinations,
        q.1 ≠ Arguments.requests ⟨[.listSignatures, .removeSignature], [(.input, "in")]⟩ := by
      decide +kernel
    obtain ⟨-, hrefuses⟩ := tookEffect_of_exitStatus none 0 signable [1] ["-i", "in", "-r", "-S"]
    obtain ⟨e, hrun, -⟩ := hrefuses _ hlisting fun w hw => hrefused _ hw rfl
    exact ⟨e, hrun⟩

end Authenticode.CommandLine
