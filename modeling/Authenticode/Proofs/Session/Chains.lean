import Authenticode.Proofs.CertificateTable
import Authenticode.Proofs.Session.Rewriting

/-!
# Chains of runs

A file may be rewritten by several runs in a row, each of which reads what the one
before it wrote. Only the base of the first file and the last list of signatures
show in the result: reserved space, filling and tables of earlier runs leave no
trace. The invariant is that the base of every file on the way, filled up to the
alignment of a table, is that of the first file up to the rewritten fields.
-/
namespace Authenticode.Session

open Cms (Signature)
open Pe (Image)

variable {data data' data'' : Bytes} {x y : Image} {signatures : List Signature} {s s' : Session}

/-- A run that writes an image reads the first file, writes the second, and ends with a list of
signatures. -/
def Rewrites (data data' : Bytes) (signatures : List Signature) : Prop :=
  ∃ (s s' : Session) (actions : ActionSet) (w : Workflow) (path out : String),
    selectWorkflow actions = .ok w ∧ w.writesImage = true ∧ perform actions s = .ok () s' ∧
    s.options.input = some path ∧ s.files.readFile path = .ok data ∧
    s.options.output = some out ∧ s'.files.readFile out = .ok data' ∧ s'.signatures = signatures

/-- Runs in a row, each reading the file that the one before it wrote. -/
inductive Chain (data : Bytes) : Bytes → List Signature → Prop
  | one {data' : Bytes} {signatures : List Signature} :
      Rewrites data data' signatures → Chain data data' signatures
  | more {data' data'' : Bytes} {before signatures : List Signature} :
      Chain data data' before → Rewrites data' data'' signatures → Chain data data'' signatures

/-- A run clears what it read, changes the list of signatures once, and finishes the image. -/
theorem Rewrites.exists_change (h : Rewrites data data' signatures) :
    ∃ (x cleared : Image) (before : List Signature) (t u : SignedImage) (w w' : Option Warning),
      Image.parse data = .ok x ∧ x.signatures = .ok before ∧
      Image.clearTable x = .ok w cleared ∧ Change cleared before t ∧ t.signatures = signatures ∧
      SignedImage.finish t = .ok w' u ∧ u.image.bytes = data' := by
  obtain ⟨s, s', actions, workflow, path, out, hselect, hwrites, hperform, hpath, hread, hout,
    hwritten, rfl⟩ := h
  obtain ⟨data₁, x, cleared, before, t, hrewrote, hchange⟩ :=
    rewrote_of_run hwrites (run_of_perform hselect hperform)
  obtain rfl := hrewrote.data_eq hpath hread
  obtain ⟨w, hclear⟩ := hrewrote.clear
  obtain ⟨w', u, out', hfinish, hout', hwritten', hsame⟩ := hrewrote.finish
  cases hout.symm.trans hout'
  cases hwritten.symm.trans hwritten'
  exact ⟨x, cleared, before, t, u, w, w', hrewrote.parse, hrewrote.signatures, hclear, hchange,
    hsame.symm, hfinish, rfl⟩

theorem Rewrites.over (h : Rewrites data data' signatures) :
    ∃ (x u : Image) (table : Bytes), Image.parse data = .ok x ∧ u.bytes = data' ∧
      CertificateTable.encode signatures = .ok table ∧ u.Over x.layout x.base table := by
  obtain ⟨x, cleared, before, t, u, _, _, hparse, -, hclear, hchange, rfl, hfinish, rfl⟩ :=
    h.exists_change
  obtain ⟨_, hover⟩ := hchange.over hparse hclear
  obtain ⟨table, htable, -, hover'⟩ := SignedImage.over_of_finish hover hfinish
  exact ⟨x, u.image, table, hparse, rfl, htable, hover'⟩

/-- What a chain writes is an image over the base of the file before it, and that base is, filled
up, the base of the first file. -/
theorem Chain.over (hx : Image.parse data = .ok x) (h : Chain data data' signatures) :
    ∃ (y u : Image) (table : Bytes), (∃ last, Image.parse last = .ok y) ∧ u.bytes = data' ∧
      CertificateTable.encode signatures = .ok table ∧ u.Over y.layout y.base table ∧
      y.layout = { x.layout with sections := y.layout.sections } ∧
      Bytes.AgreeOff x.layout.Rewritten y.base.aligned x.base.aligned := by
  induction h with
  | one hrun =>
    obtain ⟨y, u, table, hy, hbytes, htable, hover⟩ := hrun.over
    cases hx.symm.trans hy
    exact ⟨x, u, table, ⟨data, hx⟩, hbytes, htable, hover, rfl, .refl _ _⟩
  | more _ hrun ih =>
    obtain ⟨y, u, _, ⟨last, hy⟩, rfl, -, hover, hlayout, hbase⟩ := ih
    obtain ⟨z, v, table, hz, hbytes, htable, hover'⟩ := hrun.over
    obtain ⟨hsame, -⟩ := hover.reopened hy hz
    obtain ⟨_, hholds⟩ := hover.exists_holds
    have haligned := hover.base_aligned
    rw [← hsame.base_eq, hlayout] at haligned
    refine ⟨z, v, table, ⟨_, hz⟩, hbytes, htable, hover', ?_, haligned.trans hbase⟩
    rw [hsame.layout_eq, hholds.layout_eq, hlayout]

/-- Outputs are in a normal form: a chain that ends with a list of signatures leaves the base of
the first file, filled up to the alignment of a table, with the encoding of the list behind it and
its place in the directory entry. Only the checksum is not determined, so two chains that end with
one list leave the same octets outside of it. -/
theorem normalForm_of_chain (hx : Image.parse data = .ok x) (h : Chain data data' signatures)
    (hsignatures : signatures ≠ []) :
    ∃ table, CertificateTable.encode signatures = .ok table ∧
      (⟨x.base.aligned.length, table.length⟩ : Pe.CertificateDirectory).Fits ∧
      Bytes.AgreeOff (Bytes.Within x.layout.checksumOffset Pe.Checksum.fieldLength) data'
        (Image.normalForm x.layout x.base table) ∧
      ∀ data'', Chain data data'' signatures →
        Bytes.AgreeOff (Bytes.Within x.layout.checksumOffset Pe.Checksum.fieldLength)
          data' data'' := by
  have hform : ∀ {written : Bytes}, Chain data written signatures →
      ∃ table, CertificateTable.encode signatures = .ok table ∧
        (⟨x.base.aligned.length, table.length⟩ : Pe.CertificateDirectory).Fits ∧
        Bytes.AgreeOff (Bytes.Within x.layout.checksumOffset Pe.Checksum.fieldLength) written
          (Image.normalForm x.layout x.base table) := by
    intro written hchain
    obtain ⟨y, u, table, -, rfl, htable, hover, hlayout, hbase⟩ := hchain.over hx
    have hne := CertificateTable.ne_nil_of_encode htable hsignatures
    have hnormal := hover.normalForm hne
    have hfits := hover.fits hne
    have hentry := hover.1.trans (Bytes.length_le_aligned _)
    rw [hlayout] at hnormal hentry
    rw [hbase.1] at hfits hentry
    exact ⟨table, htable, hfits, hnormal.trans (Image.normalForm_congr hentry hbase table)⟩
  obtain ⟨table, htable, hfits, hnormal⟩ := hform h
  refine ⟨table, htable, hfits, hnormal, ?_⟩
  intro data'' h''
  obtain ⟨table', htable', -, hnormal'⟩ := hform h''
  cases htable.symm.trans htable'
  exact hnormal.trans hnormal'.symm

def importing (data : Bytes) : Session :=
  onFiles
    { input := some "in", output := some "out", signatureInput := some "signature" }
    [("in", data), ("signature", Signature.least.der)]

def imported (data : Bytes) : Bytes :=
  ((Step.stateOf (perform (.ofList [.importSignature]) (importing data))).files.readFile
    "out").toOption.getD []

def removing (data : Bytes) : Session :=
  onFiles { input := some "in", output := some "out" } [("in", data)]

/-- Two runs in a row that import a signature into an image with an octet behind its headers. -/
theorem normalForm_of_chain_imported :
    Chain (Image.least .none [] [7]).bytes (imported (imported (Image.least .none [] [7]).bytes))
      [.least, .least] ∧
    ∃ table, CertificateTable.encode [.least, .least] = .ok table ∧
      Bytes.AgreeOff (Bytes.Within 152 4)
        (imported (imported (Image.least .none [] [7]).bytes))
        (Image.normalForm (Image.least .none [] [7]).layout (Image.least .none [] [7]).base
          table) := by
  have hx : Image.parse (Image.least .none [] [7]).bytes = .ok (Image.least .none [] [7]) := by
    decide +kernel
  have hone : Rewrites (Image.least .none [] [7]).bytes (imported (Image.least .none [] [7]).bytes)
      [.least] := by
    refine ⟨importing (Image.least .none [] [7]).bytes, _, .ofList [.importSignature],
      .importSignature, "in", "out", ?_, rfl, Step.eq_ok_of_isOk ?_, rfl, ?_, rfl, ?_, ?_⟩
    all_goals decide +kernel
  have htwo : Rewrites (imported (Image.least .none [] [7]).bytes)
      (imported (imported (Image.least .none [] [7]).bytes)) [.least, .least] := by
    refine ⟨importing (imported (Image.least .none [] [7]).bytes), _, .ofList [.importSignature],
      .importSignature, "in", "out", ?_, rfl, Step.eq_ok_of_isOk ?_, rfl, ?_, rfl, ?_, ?_⟩
    all_goals decide +kernel
  have hchain := Chain.more (.one hone) htwo
  obtain ⟨table, htable, -, hnormal, -⟩ := normalForm_of_chain hx hchain (List.cons_ne_nil _ _)
  exact ⟨hchain, table, htable, hnormal⟩

end Authenticode.Session
