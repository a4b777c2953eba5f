import Authenticode.Proofs.Session.Completion
import Authenticode.Proofs.Session.Digests
import Authenticode.Proofs.Session.Embedding

/-!
# Three routes to a signed image

An image can be signed in one run, by a signature that is exported and imported again,
or by an outside signer whose value is wrapped. The runs hash different images — the
input, the cleared output, the grown output — and make room from different drafts. They
end with the same octets nevertheless, because the digest is the same for all of them
when clearing the table leaves it alone.
-/
namespace Authenticode.Session

open Cms (RawSignature Signature Signer SigningIdentity)
open FileSystem (Wrote)
open Pe (Image)

variable {s s' : Session} {x cleared : Image} {before : List Signature} {t : SignedImage}
  {data : Bytes} {path out : String} {i k : Location} {identity : SigningIdentity}
  {who : Signer} {d : Digest} {extra : Signature} {key : Key.RsaKey}

/-- The certificate name of the options means this identity of the database and no other one. -/
def NamesOnly (o : Options) (files : FileSystem) (identity : SigningIdentity) : Prop :=
  ∃ name database warnings, o.certificateName = some name ∧
    CertificateDatabase.load files o.certificateDirectory = .ok (database, warnings) ∧
    database.entries.filter (·.isNamed name) = [identity]

def asSigner (s : Session) (identity : SigningIdentity) : Signer :=
  ⟨s.options.digest, identity, s.now⟩

/-- An only identity is found whether or not a key is asked for, if it has one. -/
theorem NamesOnly.selects (h : NamesOnly s.options s.files identity)
    (hkey : identity.privateKey.isSome = true) (withKey : Bool) :
    Selects s withKey (s.asSigner identity) := by
  obtain ⟨name, database, warnings, hname, hload, honly⟩ := h
  refine ⟨rfl, rfl, name, database, warnings, hname, hload, ?_⟩
  have hfilter : database.entries.filter
      (fun e => e.isNamed name && (!withKey || e.privateKey.isSome)) = [identity] := by
    simp only [Bool.and_comm (SigningIdentity.isNamed _ name)]
    rw [← List.filter_filter, honly, List.filter_cons_of_pos (by simp [hkey]), List.filter_nil]
  unfold CertificateDatabase.find
  rw [hfilter]
  rfl

/-- A session that exports its signature to a path, with random numbers of its own. -/
def exportingTo (s : Session) (draws : List Nat) (target : String) (armored : Bool) : Session :=
  { s with options := { s.options with signatureOutput := some target, armored }, draws }

def importingFrom (s : Session) (files : FileSystem) (source : String) : Session :=
  { s with options := { s.options with signatureInput := some source }, files }

def askingAt (s : Session) (target : String) : Session :=
  { s with options := { s.options with attributesOutput := some target } }

/-- A session that imports the value of an outside signer, with the attributes that were signed. -/
def answeredAt (s : Session) (files : FileSystem) (attributes value : String) : Session :=
  { s with
    options := { s.options with rawSignature := some value, attributesInput := some attributes }
    files }

/-- A run that signs by an RSA key does to the cleared image what putting its signature in does. -/
theorem Signs.completes {warning : Option Warning} {u : SignedImage}
    (h : Signs s cleared before who d extra t)
    (hkey : who.identity.privateKey = some (.rsa key))
    (hfinish : SignedImage.finish t = .ok warning u) :
    Completes s.options cleared before extra u.image.bytes := by
  obtain ⟨draft, amount, grown, hdraft, hspace, hgrow, hinsert⟩ := h.insert
  rw [SignedImage.missingSpace_congr (Signer.length_draft hkey hdraft h.generate)] at hspace
  exact ⟨amount, grown, t, warning, u, hspace, hgrow, hinsert, hfinish, rfl⟩

section

variable {b : Bytes} {warning : Option Warning} (harranged : Arranged s data path out i k)
  (hx : Image.parse data = .ok x) (hbefore : x.signatures = .ok before)
  (hclear : Image.clearTable x = .ok warning cleared)
  (hdigest : x.digest s.options.digest .signing = .ok d)
  (hkey : identity.privateKey = some (.rsa key)) (halike : key.SignsAlike)
  (hgenerate : (s.asSigner identity).generate d s.draws = .ok extra)
  (hcompletes : Completes s.options cleared before extra b)
include harranged hx hbefore hclear hdigest hkey halike hgenerate hcompletes

/-- A signature that can be made can be exported, in either form, and imported again. -/
theorem exists_export_import (hnames : NamesOnly s.options s.files identity) {target : String}
    {p : Location} (haccepts : s.files.Accepts s.options.force target p) (hi : p ≠ i)
    (hk : p ≠ k) (armored : Bool) {draws : List Nat} (hdraws : key.Usable draws) :
    ∃ s₁ s₂, perform (.ofList [.exportSignature, .generateSignature])
        (exportingTo s draws target armored) = .ok () s₁ ∧
      perform (.ofList [.importSignature]) (importingFrom s s₁.files target) = .ok () s₂ ∧
      s₂.files.readFile out = .ok b := by
  have hexporting : Arranged (exportingTo s draws target armored) data path out i k :=
    { harranged with }
  have hselects : Selects (exportingTo s draws target armored) true (s.asSigner identity) :=
    { hnames.selects (hkey ▸ rfl) true with }
  have hagain := Signer.generate_eq_of_signsAlike hkey halike hgenerate hdraws
  obtain ⟨s₁, hexport, hwrote⟩ := hexporting.exists_generateAndExportSignature hx hbefore hselects
    hdigest hagain rfl haccepts
  have himporting : Arranged (importingFrom s s₁.files target) data path out i k :=
    harranged.of_filled hwrote.filled ⟨rfl, rfl, rfl⟩ hi.symm hk.symm
  have hextra : Signature.ofFile (extra.toFile armored) = .ok extra := by
    have hread := Signer.ofDer_der_append_of_generate hgenerate []
    rw [List.append_nil] at hread
    exact Signature.ofFile_toFile hread armored
  obtain ⟨mode, hfound⟩ := hwrote.find
  obtain ⟨s₂, himport, hread⟩ :=
    himporting.exists_importSignature hx hbefore hclear rfl hfound hk hextra hcompletes
  refine ⟨s₁, s₂, ?_, ?_, hread⟩
  · rw [hexporting.perform_eq (w := .generateAndExportSignature) (by decide +kernel)]
    exact hexport
  · rw [himporting.perform_eq (w := .importSignature) (by decide +kernel)]
    exact himport

/-- The attributes of a signature that can be made can be exported, and once they are signed by the
same key the signature is put together from the value. -/
theorem exists_ask_answer (hcleared : cleared.digest s.options.digest .signing = .ok d)
    {target : String} {p : Location} (haccepts : s.files.Accepts s.options.force target p)
    (hi : p ≠ i) (hk : p ≠ k) :
    ∃ s₁ message value, perform (.ofList [.exportSignedAttributes]) (askingAt s target)
        = .ok () s₁ ∧
      s₁.files.readFile target = .ok message ∧
      (∀ draws, key.Usable draws →
        (Key.PrivateKey.rsa key).sign s.options.digest message draws = .ok value) ∧
      (Armor.decode value = .ok none → ∀ (files : FileSystem) (source : String) (fresh : Bool)
        (q : Location), s₁.files.Wrote source fresh q files value → q ≠ i → q ≠ k → q ≠ p →
        NamesOnly s.options files identity →
        ∃ s₂, perform (.ofList [.importRawSignature, .importSignedAttributes])
            (answeredAt s files target source) = .ok () s₂ ∧
          s₂.files.readFile out = .ok b) := by
  obtain ⟨attributes, value, hattributes, hsign, hwrap, hraw⟩ :=
    Signer.exists_wrap_of_generate hkey hgenerate
  have hasking : Arranged (askingAt s target) data path out i k := { harranged with }
  obtain ⟨s₁, hexport, hwrote⟩ :=
    hasking.exists_exportSignedAttributes hx hbefore hdigest hattributes rfl haccepts
  refine ⟨s₁, attributes.setDer, value, ?_, hwrote.readFile,
    fun _ => Key.PrivateKey.sign_eq_of_signsAlike halike hsign, ?_⟩
  · rw [hasking.perform_eq (w := .exportSignedAttributes) (by decide +kernel)]
    exact hexport
  · intro hplain files source fresh q hanswer hqi hqk hqp hnames
    have hasked : Arranged (importingFrom s s₁.files target) data path out i k :=
      harranged.of_filled hwrote.filled ⟨rfl, rfl, rfl⟩ hi.symm hk.symm
    have hanswered : Arranged (answeredAt s files target source) data path out i k :=
      hasked.of_filled hanswer.filled ⟨rfl, rfl, rfl⟩ hqi.symm hqk.symm
    obtain ⟨mode, hfound⟩ := hwrote.find
    have hattributes := hanswer.filled.find_of_ne hfound hqp.symm
    have hselects : Selects (answeredAt s files target source) false (s.asSigner identity) :=
      { NamesOnly.selects (s := answeredAt s files target source) hnames (hkey ▸ rfl) false with }
    obtain ⟨s₂, himport, hread⟩ := hanswered.exists_importRawSignature hx hbefore hclear hselects
      ⟨source, rfl, hanswer.readFile⟩ ⟨target, rfl, FileSystem.readFile_of_find hattributes⟩
      (hraw hplain) hcleared hwrap hcompletes
    refine ⟨s₂, ?_, hread⟩
    rw [hanswered.perform_eq (w := .importRawSignature) (by decide +kernel)]
    exact himport

end

/-- Where clearing the table leaves the digest alone and the key signs alike, all routes from an
image to a signed one end with the octets that a single run writes, whatever random numbers are
drawn on the way. The exported file, the attributes and the value may stand anywhere but in the
place of the input, of the output or of one another, and the identity has to be the only one of its
name whenever it is looked up. -/
theorem routes_agree (h : perform (.ofList [.generateSignature, .importSignature]) s = .ok () s')
    (hinput : s.options.input = some path) (hread : s.files.readFile path = .ok data)
    (hx : Image.parse data = .ok x) (hapart : x.ClearsApart)
    (hnames : NamesOnly s.options s.files identity)
    (hkey : identity.privateKey = some (.rsa key)) (halike : key.SignsAlike) :
    ∃ (out : String) (i k : Location) (b : Bytes), s.options.output = some out ∧
      (∃ mode, s.files.find path = .ok (i, .file data mode)) ∧
      s.files.Accepts s.options.force out k ∧ s'.files.readFile out = .ok b ∧
      (∀ (target : String) (p : Location) (armored : Bool) (draws : List Nat),
        s.files.Accepts s.options.force target p → p ≠ i → p ≠ k → key.Usable draws →
        ∃ s₁ s₂, perform (.ofList [.exportSignature, .generateSignature])
            (exportingTo s draws target armored) = .ok () s₁ ∧
          perform (.ofList [.importSignature]) (importingFrom s s₁.files target) = .ok () s₂ ∧
          s₂.files.readFile out = .ok b) ∧
      (∀ (target : String) (p : Location),
        s.files.Accepts s.options.force target p → p ≠ i → p ≠ k →
        ∃ s₁ message value, perform (.ofList [.exportSignedAttributes]) (askingAt s target)
            = .ok () s₁ ∧
          s₁.files.readFile target = .ok message ∧
          (∀ draws, key.Usable draws →
            (Key.PrivateKey.rsa key).sign s.options.digest message draws = .ok value) ∧
          (Armor.decode value = .ok none → ∀ (files : FileSystem) (source : String)
            (fresh : Bool) (q : Location), s₁.files.Wrote source fresh q files value →
            q ≠ i → q ≠ k → q ≠ p → NamesOnly s.options files identity →
            ∃ s₂, perform (.ofList [.importRawSignature, .importSignedAttributes])
                (answeredAt s files target source) = .ok () s₂ ∧
              s₂.files.readFile out = .ok b)) := by
  have hselect : selectWorkflow (.ofList [.generateSignature, .importSignature])
      = .ok .generateAndEmbedSignature := by decide +kernel
  obtain ⟨data₁, path₁, out, i, k, harranged⟩ := arranged_of_perform hselect h
  obtain ⟨data₂, x₂, cleared, before, t, hrewrote, who, d, extra, hsigns⟩ :=
    signs_of_generateAndEmbedSignature (run_of_perform hselect h)
  cases hinput.symm.trans harranged.input
  obtain ⟨mode, hfound⟩ := harranged.found
  cases (FileSystem.readFile_of_find hfound).symm.trans hread
  obtain rfl := hrewrote.data_eq hinput hread
  cases hx.symm.trans hrewrote.parse
  obtain ⟨warning, hclear⟩ := hrewrote.clear
  obtain ⟨_, u, out₂, hfinish, hout₂, hwritten, -⟩ := hrewrote.finish
  cases harranged.output.symm.trans hout₂
  obtain rfl := hsigns.selects.unique (hnames.selects (hkey ▸ rfl) true)
  have hdigest := hapart.digest hx hclear hsigns.digest
  have hcompletes := hsigns.completes hkey hfinish
  refine ⟨out, i, k, u.image.bytes, harranged.output, ⟨mode, hfound⟩, harranged.accepts, hwritten,
    ?_, ?_⟩
  · intro target p armored draws haccepts hi hk hdraws
    exact exists_export_import harranged hx hrewrote.signatures hclear hdigest hkey halike
      hsigns.generate hcompletes hnames haccepts hi hk armored hdraws
  · intro target p haccepts hi hk
    exact exists_ask_answer harranged hx hrewrote.signatures hclear hdigest hkey halike
      hsigns.generate hcompletes hsigns.digest haccepts hi hk

/-- An image that ends with its certificate table. -/
def tabled : Image := .least ⟨224, 24⟩ [] ((CertificateTable.encode [.least]).toOption.getD [])

/-- What an outside signer is asked to sign, what it answers with random numbers of its own, and the
files with the answer. -/
def asked : Session :=
  Step.stateOf (perform (.ofList [.exportSignedAttributes])
    (askingAt (signing tabled.bytes) "attributes"))

def answer : Bytes :=
  ((Key.PrivateKey.rsa .least).sign .sha256
    ((asked.files.readFile "attributes").toOption.getD []) [3]).toOption.getD []

def answered : FileSystem :=
  match asked.files.create "value" true FileSystem.defaultMode with
  | .ok (l, files) => files.write l answer
  | .error _ => asked.files

theorem routes_agree_tabled :
    ∃ (s' s₁ s₂ s₃ s₄ : Session) (b message : Bytes),
      perform (.ofList [.generateSignature, .importSignature]) (signing tabled.bytes)
        = .ok () s' ∧ s'.files.readFile "out" = .ok b ∧
      perform (.ofList [.exportSignature, .generateSignature])
        (exportingTo (signing tabled.bytes) [2] "signature" true) = .ok () s₁ ∧
      perform (.ofList [.importSignature])
        (importingFrom (signing tabled.bytes) s₁.files "signature") = .ok () s₂ ∧
      s₂.files.readFile "out" = .ok b ∧
      perform (.ofList [.exportSignedAttributes]) (askingAt (signing tabled.bytes) "attributes")
        = .ok () s₃ ∧ s₃.files.readFile "attributes" = .ok message ∧
      (Key.PrivateKey.rsa .least).sign .sha256 message [3] = .ok answer ∧
      perform (.ofList [.importRawSignature, .importSignedAttributes])
        (answeredAt (signing tabled.bytes) answered "attributes" "value") = .ok () s₄ ∧
      s₄.files.readFile "out" = .ok b := by
  have hrun := Step.eq_ok_of_isOk (show Step.isOk (perform
    (.ofList [.generateSignature, .importSignature]) (signing tabled.bytes)) = true by
      decide +kernel)
  have hx : Image.parse tabled.bytes = .ok tabled := by decide +kernel
  have hapart : tabled.ClearsApart := by
    intro d hd _
    have hentry : tabled.directory = .ok ⟨224, 24⟩ := by decide +kernel
    cases hentry.symm.trans hd
    exact ⟨by decide +kernel, by decide +kernel⟩
  have hnames : ∀ files, CertificateDatabase.load files "." = .ok (⟨[.least]⟩, []) →
      NamesOnly (signing tabled.bytes).options files .least :=
    fun files hload => ⟨"a", ⟨[.least]⟩, [], rfl, hload, by decide +kernel⟩
  have haccepts : ∀ path, ((signing tabled.bytes).files.create path true 0).map Prod.fst
      = .ok [path] → (signing tabled.bytes).files.Accepts false path [path] := by
    intro path hcreate
    obtain ⟨⟨l, files⟩, hcreate, rfl⟩ := Except.map_eq_ok_iff.1 hcreate
    exact ⟨0, files, hcreate⟩
  obtain ⟨out, i, k, b, hout, ⟨mode, hfound⟩, hk, hwritten, hexported, hasked⟩ :=
    routes_agree hrun rfl (by decide +kernel) hx hapart (hnames _ (by decide +kernel)) rfl
      Key.RsaKey.valid_least.signsAlike
  cases hout
  have hin : ((signing tabled.bytes).files.find "in").map Prod.fst = .ok ["in"] := by
    decide +kernel
  rw [hfound] at hin
  obtain rfl : i = ["in"] := Except.ok.inj hin
  obtain rfl := hk.unique (haccepts "out" (by decide +kernel))
  obtain ⟨s₁, s₂, hexport, himport, hread⟩ := hexported "signature" ["signature"] true [2]
    (haccepts "signature" (by decide +kernel)) (by decide) (by decide)
    ⟨2, List.mem_singleton_self 2, by decide +kernel⟩
  obtain ⟨s₃, message, value, hask, hmessage, hsign, hanswered⟩ := hasked "attributes"
    ["attributes"] (haccepts "attributes" (by decide +kernel)) (by decide) (by decide)
  obtain rfl : asked = s₃ := congrArg Step.stateOf hask
  have hsigned := hsign [3] ⟨3, List.mem_singleton_self 3, by decide +kernel⟩
  obtain rfl : answer = value := by
    unfold answer
    rw [hmessage]
    exact congrArg (fun r => r.toOption.getD []) hsigned
  have hwrote : asked.files.Wrote "value" true ["value"] answered answer := by
    have hfirst : (asked.files.create "value" true FileSystem.defaultMode).map Prod.fst
        = .ok ["value"] := by decide +kernel
    obtain ⟨⟨l, files⟩, hcreate, rfl⟩ := Except.map_eq_ok_iff.1 hfirst
    have hanswered : answered = files.write ["value"] answer := by
      unfold answered
      rw [hcreate]
    rw [hanswered]
    exact FileSystem.wrote_of_create hcreate answer
  obtain ⟨s₄, hanswer, hread'⟩ := hanswered (by decide +kernel) answered "value" true ["value"]
    hwrote (by decide) (by decide) (by decide) (hnames _ (by decide +kernel))
  exact ⟨_, s₁, s₂, asked, s₄, b, message, hrun, hwritten, hexport, himport, hread, hask, hmessage,
    hsigned, hanswer, hread'⟩

def written? : EStateM.Result Error Session Unit → Option Bytes
  | .ok _ s => (s.files.readFile "out").toOption
  | .error _ _ => none

theorem exists_of_written? {r : EStateM.Result Error Session Unit} {b : Bytes}
    (h : written? r = some b) : ∃ s, r = .ok () s ∧ s.files.readFile "out" = .ok b := by
  cases r with
  | error f s => cases h
  | ok u s =>
    refine ⟨s, rfl, ?_⟩
    unfold written? at h
    cases hread : s.files.readFile "out" with
    | error f =>
      simp only [hread] at h
      cases h
    | ok c =>
      simp only [hread] at h
      cases h
      rfl

/-- Where octets stand behind the table, clearing it leaves it in the image as data. A run that
signs hashes it with the rest, and one that exports a signature does not. -/
theorem routes_differ_of_clipped :
    ∃ (s' s₁ s₂ : Session) (y z : Bytes), Image.parse clipped.bytes = .ok clipped ∧
      Key.RsaKey.least.Valid ∧
      NamesOnly (signing clipped.bytes).options (signing clipped.bytes).files .least ∧
      perform (.ofList [.generateSignature, .importSignature]) (signing clipped.bytes)
        = .ok () s' ∧ s'.files.readFile "out" = .ok y ∧
      perform (.ofList [.exportSignature, .generateSignature])
        (exportingTo (signing clipped.bytes) [1] "signature" false) = .ok () s₁ ∧
      perform (.ofList [.importSignature])
        (importingFrom (signing clipped.bytes) s₁.files "signature") = .ok () s₂ ∧
      s₂.files.readFile "out" = .ok z ∧ y ≠ z := by
  have hexport := Step.eq_ok_of_isOk (show Step.isOk (perform
    (.ofList [.exportSignature, .generateSignature])
    (exportingTo (signing clipped.bytes) [1] "signature" false)) = true by decide +kernel)
  set s₁ := Step.stateOf (perform (.ofList [.exportSignature, .generateSignature])
    (exportingTo (signing clipped.bytes) [1] "signature" false)) with hs₁
  have hdiffer : ((written? (perform (.ofList [.generateSignature, .importSignature])
        (signing clipped.bytes))).bind fun y =>
      (written? (perform (.ofList [.importSignature])
        (importingFrom (signing clipped.bytes) s₁.files "signature"))).map fun z =>
          decide (y[422]? = z[422]?)) = some false := by
    rw [hs₁]
    decide +kernel
  obtain ⟨y, hy, hmap⟩ := Option.bind_eq_some_iff.1 hdiffer
  obtain ⟨z, hz, hne⟩ := Option.map_eq_some_iff.1 hmap
  obtain ⟨s', hembed, hwritten⟩ := exists_of_written? hy
  obtain ⟨s₂, himport, hwritten'⟩ := exists_of_written? hz
  refine ⟨s', s₁, s₂, y, z, by decide +kernel, Key.RsaKey.valid_least,
    ⟨"a", ⟨[.least]⟩, [], rfl, by decide +kernel, by decide +kernel⟩, hembed, hwritten,
    hexport, himport, hwritten', ?_⟩
  rintro rfl
  exact of_decide_eq_false hne rfl

end Authenticode.Session
