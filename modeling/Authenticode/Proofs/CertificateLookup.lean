import Authenticode.Proofs.FileSystem.Contents
import Authenticode.Proofs.Key.Signing
import Authenticode.Proofs.Session.Steps

/-!
# Looking up a certificate without its key

A certificate is looked up by its nickname or its common name among the certificate files of a
directory. The key that may lie beside it is loaded at the same time. A key that is missing or
belongs to another certificate changes nothing, but one that cannot be used hides its
certificate, also from those who do not ask for the key. So a lookup without a key is one among
the certificates that are not hidden, and directories with the same certificate files can differ
in their answers only by what they hide.
-/
namespace Authenticode.CertificateDatabase

open Cms (SigningIdentity)

variable {fs gs : FileSystem} {directory name : String} {all es es' : List SigningIdentity}

def withoutKey (i : SigningIdentity) : SigningIdentity := { i with privateKey := none }

/-- The certificate in a file of the directory, under its nickname. -/
def certificateAt? (fs : FileSystem) (directory name : String) : Option SigningIdentity := do
  let c ← X509.Certificate.ofFile? (← (readFile fs (Path.join directory name)).toOption)
  some ⟨(Path.splitName name).1, c, none⟩

/-- The certificates in a directory, whatever lies beside them. -/
def certificates (fs : FileSystem) (directory : String) : Except Error (List SigningIdentity) :=
  match fs.list directory with
  | .ok names =>
    let files := (names.filter isCertificateName).mergeSort fun a b => a ≤ b
    .ok (files.filterMap (certificateAt? fs directory))
  | .error f => .error (.io (.openingCertificates directory) f)

/-- Whether the file at a path is a key that cannot be used with a certificate: it holds no private
key of a kind that is read, or the certificate holds no such public key to compare it with. -/
def isUnusableKey (fs : FileSystem) (path : String) (c : X509.Certificate) : Bool :=
  fs.isFile path &&
    (((readFile fs path).toOption.bind Key.PrivateKey.ofFile?).isNone || c.publicKey?.isNone)

/-- Whether the key beside a certificate keeps it from being loaded. -/
def isHidden (fs : FileSystem) (directory : String) (i : SigningIdentity) : Bool :=
  isUnusableKey fs (Path.join directory (i.nickname ++ "." ++ keyExtension)) i.certificate

/-- The certificate that a name means in a directory, looked up without asking for its key. -/
def lookUp (fs : FileSystem) (directory name : String) : Except Error SigningIdentity := do
  let (database, _) ← load fs directory
  return withoutKey (← database.find name false)

theorem isOk_loadKey (fs : FileSystem) (path nickname : String) (c : X509.Certificate) :
    (loadKey fs path nickname c).isOk = !isUnusableKey fs path c := by
  unfold loadKey isUnusableKey
  cases fs.isFile path with
  | false => rfl
  | true =>
    cases readFile fs path with
    | error f => rfl
    | ok octets =>
      simp only [Except.toOption, Option.bind_some]
      cases hkey : Key.PrivateKey.ofFile? octets with
      | none =>
        simp only [bind, Except.bind, hkey]
        rfl
      | some key =>
        cases hpublic : c.publicKey? with
        | none =>
          simp only [bind, Except.bind, hkey]
          rfl
        | some certified =>
          simp only [bind, Except.bind, hkey]
          cases certified.sameAs key.publicKey with
          | false => rfl
          | true => rfl

/-- What is loaded from a file is its certificate, unless that is hidden. -/
theorem toOption_loadEntry (fs : FileSystem) (directory name : String) :
    (loadEntry fs directory name).toOption.map (fun r => withoutKey r.1)
      = (certificateAt? fs directory name).filter fun i => !isHidden fs directory i := by
  unfold loadEntry certificateAt?
  cases readFile fs (Path.join directory name) with
  | error f => rfl
  | ok octets =>
    cases hc : X509.Certificate.ofFile? octets with
    | none =>
      simp only [bind, Except.bind, Except.toOption, Option.bind, hc]
      rfl
    | some c =>
      have hloaded := isOk_loadKey fs
        (Path.join directory ((Path.splitName name).1 ++ "." ++ keyExtension))
        (Path.splitName name).1 c
      simp only [bind, Except.bind, Except.toOption, Option.bind, hc, Option.filter_some, isHidden]
      rw [← hloaded]
      cases loadKey fs _ _ c with
      | error f => rfl
      | ok r => rfl

theorem entries_loadEntries (fs : FileSystem) (directory : String) (names : List String) :
    (loadEntries fs directory names).1
      = names.filterMap fun name => (loadEntry fs directory name).toOption.map Prod.fst := by
  induction names with
  | nil => rfl
  | cons name names ih =>
    rw [loadEntries_cons, List.filterMap_cons, ← ih]
    cases loadEntry fs directory name with
    | error f => rfl
    | ok r => rfl

theorem map_withoutKey_loadEntries (fs : FileSystem) (directory : String) (names : List String) :
    (loadEntries fs directory names).1.map withoutKey
      = (names.filterMap (certificateAt? fs directory)).filter
        fun i => !isHidden fs directory i := by
  rw [entries_loadEntries, List.map_filterMap, List.filter_filterMap]
  congr 1
  funext name
  rw [← toOption_loadEntry, Option.map_map]
  rfl

theorem map_find (es : List SigningIdentity) (name : String) :
    (find ⟨es⟩ name false).map withoutKey = find ⟨es.map withoutKey⟩ name false := by
  have hfilter : (es.map withoutKey).filter
        (fun e => e.isNamed name && (!false || e.privateKey.isSome))
      = (es.filter fun e => e.isNamed name && (!false || e.privateKey.isSome)).map withoutKey := by
    rw [List.filter_map]
    rfl
  unfold find
  dsimp only
  rw [hfilter]
  rcases es.filter _ with _ | ⟨e, _ | ⟨e', others⟩⟩
  · rfl
  · rfl
  · simp [Except.map]

theorem find_filter_isNamed (es : List SigningIdentity) (name : String) :
    find ⟨es.filter (·.isNamed name)⟩ name false = find ⟨es⟩ name false := by
  unfold find
  simp

/-- A lookup is one among the certificates of that name that are not hidden. -/
theorem lookUp_eq (fs : FileSystem) (directory name : String) :
    lookUp fs directory name = (certificates fs directory).bind fun all =>
      let named := all.filter (·.isNamed name)
      find ⟨named.filter fun i => !isHidden fs directory i⟩ name false := by
  unfold lookUp load certificates
  cases fs.list directory with
  | error f => rfl
  | ok names =>
    dsimp only
    set files := (names.filter isCertificateName).mergeSort fun a b => a ≤ b
    set all := files.filterMap (certificateAt? fs directory)
    have hloaded : (loadEntries fs directory files).1.map withoutKey
        = all.filter fun i => !isHidden fs directory i :=
      map_withoutKey_loadEntries fs directory files
    have hnamed : (all.filter fun i => !isHidden fs directory i).filter (·.isNamed name)
        = (all.filter (·.isNamed name)).filter fun i => !isHidden fs directory i := by
      simp only [List.filter_filter, Bool.and_comm]
    calc
      (do return withoutKey (← find ⟨(loadEntries fs directory files).1⟩ name false))
          = (find ⟨(loadEntries fs directory files).1⟩ name false).map withoutKey := by
        cases find ⟨(loadEntries fs directory files).1⟩ name false with
        | error f => rfl
        | ok i => rfl
      _ = find ⟨all.filter fun i => !isHidden fs directory i⟩ name false := by
        rw [map_find, hloaded]
      _ = find ⟨(all.filter (·.isNamed name)).filter fun i => !isHidden fs directory i⟩
            name false := by
        rw [← hnamed, find_filter_isNamed]

/-- Two lookups among certificates of the name end alike when there are as many of them, and the
same one if there is one. -/
theorem find_eq_find_iff (h : ∀ e ∈ es, e.isNamed name = true)
    (h' : ∀ e ∈ es', e.isNamed name = true) :
    find ⟨es⟩ name false = find ⟨es'⟩ name false ↔
      es.length = es'.length ∧ (es.length = 1 → es = es') := by
  have hall : ∀ list : List SigningIdentity, (∀ e ∈ list, e.isNamed name = true) →
      list.filter (fun e => e.isNamed name && (!false || e.privateKey.isSome)) = list := by
    intro list hlist
    apply List.filter_eq_self.2
    intro e he
    simp [hlist e he]
  unfold find
  dsimp only
  rw [hall es h, hall es' h']
  rcases es with _ | ⟨e, _ | ⟨e₂, others⟩⟩ <;> rcases es' with _ | ⟨e', _ | ⟨e₂', others'⟩⟩ <;>
    simp

/-- Directories with the same certificate files. All other files may differ. -/
def SameCertificates (fs gs : FileSystem) (directory : String) : Prop :=
  match fs.list directory, gs.list directory with
  | .ok names, .ok names' =>
    (names.filter isCertificateName).Perm (names'.filter isCertificateName) ∧
      ∀ name ∈ names, isCertificateName name = true →
        readFile fs (Path.join directory name) = readFile gs (Path.join directory name)
  | .error f, .error g => f = g
  | _, _ => False

theorem mergeSort_eq_of_perm {names names' : List String} (h : names.Perm names') :
    (names.mergeSort fun a b => a ≤ b) = names'.mergeSort fun a b => a ≤ b := by
  have hsorted : ∀ list : List String,
      (list.mergeSort fun a b => a ≤ b).Pairwise fun a b => decide (a ≤ b) = true := by
    intro list
    apply List.pairwise_mergeSort
    · intro a b c hab hbc
      simpa using String.le_trans (of_decide_eq_true hab) (of_decide_eq_true hbc)
    · intro a b
      simpa using String.le_total a b
  apply List.Perm.eq_of_pairwise _ (hsorted names) (hsorted names')
  · exact (List.mergeSort_perm names _).trans (h.trans (List.mergeSort_perm names' _).symm)
  · intro a b _ _ hab hba
    exact String.le_antisymm (of_decide_eq_true hab) (of_decide_eq_true hba)

theorem SameCertificates.certificates_eq (h : SameCertificates fs gs directory) :
    certificates fs directory = certificates gs directory := by
  unfold SameCertificates at h
  unfold certificates
  cases hfs : fs.list directory with
  | error f =>
    cases hgs : gs.list directory with
    | error g =>
      rw [hfs, hgs] at h
      rw [show f = g from h]
    | ok names' =>
      rw [hfs, hgs] at h
      exact h.elim
  | ok names =>
    cases hgs : gs.list directory with
    | error g =>
      rw [hfs, hgs] at h
      exact h.elim
    | ok names' =>
      rw [hfs, hgs] at h
      obtain ⟨hperm, hcontents⟩ := h
      dsimp only
      rw [← mergeSort_eq_of_perm hperm]
      congr 1
      apply List.filterMap_congr
      intro name hname
      obtain ⟨hmem, hcertificate⟩ := List.mem_filter.1 (List.mem_mergeSort.1 hname)
      unfold certificateAt?
      rw [hcontents name hmem hcertificate]

def certificateFor (commonName : String) : Bytes :=
  let entry := Der.encodeParts Der.tagSequence
    [Der.encodeOid X509.commonNameOid, Der.encode 0x0c (Bytes.ofText commonName)]
  X509.Certificate.encode [1] (Der.encodeParts Der.tagSet [entry])
    (Key.PrivateKey.rsa .least).publicKey

/-- Two certificates of one common name, and octets beside the second where its key would be. -/
def sharedName (key : List (String × Bytes)) : FileSystem :=
  (Session.onFiles {} ([("a.der", certificateFor "c"), ("b.der", certificateFor "c")] ++ key)).files

/-- In two directories with the same certificate files a name means one of the same certificates,
of which each directory hides those beside a key that cannot be used. What is found, or why
nothing is, is the same exactly when the certificates of the name that are left are equally many,
and the same one if there is one. So it is the same where both hide the same certificates of the
name. -/
theorem lookUp_of_sameCertificates (h : SameCertificates fs gs directory) (name : String) :
    (∀ f, certificates fs directory = .error f →
      lookUp fs directory name = .error f ∧ lookUp gs directory name = .error f) ∧
    ∀ all, certificates fs directory = .ok all →
      let named := all.filter (·.isNamed name)
      let left (files : FileSystem) := named.filter fun i => !isHidden files directory i
      lookUp fs directory name = find ⟨left fs⟩ name false ∧
      lookUp gs directory name = find ⟨left gs⟩ name false ∧
      (lookUp fs directory name = lookUp gs directory name ↔
        (left fs).length = (left gs).length ∧ ((left fs).length = 1 → left fs = left gs)) ∧
      ((∀ i ∈ named, isHidden fs directory i = isHidden gs directory i) →
        lookUp fs directory name = lookUp gs directory name) := by
  have hsame := h.certificates_eq
  have hfs := lookUp_eq fs directory name
  have hgs := lookUp_eq gs directory name
  rw [← hsame] at hgs
  constructor
  · intro f hf
    rw [hf] at hfs hgs
    exact ⟨hfs, hgs⟩
  · intro all hall named left
    rw [hall] at hfs hgs
    have hnamed : ∀ files, ∀ i ∈ left files, i.isNamed name = true := by
      intro files i hi
      exact (List.mem_filter.1 (List.mem_filter.1 hi).1).2
    refine ⟨hfs, hgs, ?_, ?_⟩
    · rw [hfs, hgs]
      exact find_eq_find_iff (hnamed fs) (hnamed gs)
    · intro hhidden
      have hleft : left fs = left gs := by
        apply List.filter_congr
        intro i hi
        rw [hhidden i hi]
      rw [hfs, hgs]
      exact congrArg (fun es => find ⟨es⟩ name false) hleft

/-- Octets that are no key hide the certificate they lie beside, so that its nickname is not found,
and the common name that is ambiguous without them means the other certificate. -/
theorem lookUp_of_sameCertificates_corrupt :
    let fs := sharedName []
    let gs := sharedName [("b.key", [])]
    SameCertificates fs gs "." ∧
      lookUp fs "." "c" = .error (.certificate (.ambiguous "c" 2)) ∧
      (lookUp gs "." "c").map (·.nickname) = .ok "a" ∧
      (lookUp fs "." "b").map (·.nickname) = .ok "b" ∧
      lookUp gs "." "b" = .error (.certificateNotFound "b") := by
  intro fs gs
  have hnames : fs.list "." = .ok ["a.der", "b.der"] := by decide +kernel
  have hnames' : gs.list "." = .ok ["a.der", "b.der", "b.key"] := by decide +kernel
  have hsame : SameCertificates fs gs "." := by
    unfold SameCertificates
    rw [hnames, hnames']
    decide +kernel
  have hall : certificates fs "." = .ok (["a.der", "b.der"].filterMap (certificateAt? fs ".")) := by
    have hfilter : ["a.der", "b.der"].filter isCertificateName = ["a.der", "b.der"] := by
      decide +kernel
    have hsorted : (["a.der", "b.der"].mergeSort fun a b => a ≤ b) = ["a.der", "b.der"] :=
      List.mergeSort_of_pairwise (by decide +kernel)
    unfold certificates
    rw [hnames]
    dsimp only
    rw [hfilter, hsorted]
  obtain ⟨hshared, hshared', -⟩ := (lookUp_of_sameCertificates hsame "c").2 _ hall
  obtain ⟨hsecond, hsecond', -⟩ := (lookUp_of_sameCertificates hsame "b").2 _ hall
  rw [hshared, hshared', hsecond, hsecond']
  refine ⟨hsame, ?_, ?_, ?_, ?_⟩
  all_goals decide +kernel

end Authenticode.CertificateDatabase
