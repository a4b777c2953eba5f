import Authenticode.Proofs.Session.Chains

/-!
# Runs as edits of a list

A run that writes an image edits a list: it puts one signature in or takes one out, at
an index that has to be one of the list, and every other signature stays as it is and
in its order. The list a run starts from is the one that the run before it left, so a
history of runs comes to the edits of those that succeeded, one after the other.
-/
namespace Authenticode.Session

open Cms (RawSignature Signature Signer)
open Pe (Image)

/-- One edit of a list of signatures. The index may be left open. -/
inductive ListEdit
  | insert (index : Option Int) (extra : Signature)
  | remove (index : Option Int)
  deriving DecidableEq, Repr

/-- The edited list, if the index is one of the list. A signature is put behind the last one, and
the first one is taken out, when nothing else is asked for. -/
def ListEdit.apply (list : List Signature) : ListEdit → Option (List Signature)
  | insert index extra =>
    let i := index.getD list.length
    if 0 ≤ i ∧ i ≤ list.length then some (list.take i.toNat ++ extra :: list.drop i.toNat)
    else none
  | remove index =>
    let i := index.getD 0
    if 0 ≤ i ∧ i < list.length then some (list.take i.toNat ++ list.drop (i.toNat + 1)) else none

/-- The list after several edits, each of which has to be possible. -/
def ListEdit.applyAll (list : List Signature) (edits : List ListEdit) :
    Option (List Signature) :=
  edits.foldlM apply list

variable {s s' : Session} {actions : ActionSet} {w : Workflow} {x cleared : Image}
  {list before : List Signature} {data data' first : Bytes} {t : SignedImage}
  {edit : ListEdit} {edits : List ListEdit} {extra : Signature}

theorem insertIdx_eq_take_append {k : Nat} (hk : k ≤ list.length) :
    list.insertIdx k extra = list.take k ++ extra :: list.drop k := by
  induction k generalizing list with
  | zero => rfl
  | succ k ih =>
    cases list with
    | nil => exact absurd hk (Nat.not_succ_le_zero k)
    | cons s rest => exact congrArg (s :: ·) (ih (Nat.le_of_succ_le_succ hk))

theorem ListEdit.apply_insert {index : Option Int} {k : Nat}
    (hindex : index.getD list.length = k) (hk : k ≤ list.length) :
    apply list (insert index extra) = some (list.insertIdx k extra) := by
  simp only [apply, hindex]
  rw [if_pos ⟨Int.natCast_nonneg k, Int.ofNat_le.2 hk⟩, Int.toNat_natCast,
    insertIdx_eq_take_append hk]

theorem ListEdit.apply_remove {index : Option Int} {k : Nat} (hindex : index.getD 0 = k)
    (hk : k < list.length) : apply list (remove index) = some (list.eraseIdx k) := by
  simp only [apply, hindex]
  rw [if_pos ⟨Int.natCast_nonneg k, Int.ofNat_lt.2 hk⟩, Int.toNat_natCast,
    List.eraseIdx_eq_take_drop_succ]

theorem ListEdit.applyAll_concat {after : List Signature}
    (h : applyAll list edits = some before) (hedit : edit.apply before = some after) :
    applyAll list (edits ++ [edit]) = some after := by
  unfold applyAll at h ⊢
  rw [List.foldlM_append, h]
  exact (bind_pure _).trans hedit

/-- The edit of a workflow. What it puts in is the signature it reads or makes. -/
inductive Asks (s : Session) (cleared : Image) : Workflow → ListEdit → Prop
  | insert {w : Workflow} {extra : Signature} (supplies : Supplies s cleared w extra) :
      Asks s cleared w (.insert s.options.signatureNumber extra)
  | remove : Asks s cleared .removeSignature (.remove s.options.signatureNumber)

theorem Asks.unique {other : ListEdit} (h : Asks s cleared w edit)
    (h' : Asks s cleared w other) : edit = other := by
  cases h with
  | insert supplies =>
    cases h' with
    | insert supplies' => rw [supplies.unique supplies']
    | remove => cases supplies
  | remove =>
    cases h' with
    | insert supplies => cases supplies
    | remove => rfl

/-- A run made an edit of the list that it read: the one it asked for. The new list can be read
again. -/
structure Edited (s s' : Session) (w : Workflow) (data : Bytes) (x cleared : Image)
    (before : List Signature) (t : SignedImage) (edit : ListEdit) : Prop
    extends Rewrote s s' data x cleared before t where
  change : Change cleared before t
  asks : Asks s cleared w edit
  apply_eq : edit.apply before = some t.signatures
  readable : ∀ sig ∈ t.signatures, ∀ tail, Signature.ofDer (sig.der ++ tail) = .ok sig

theorem Rewrote.edited_of_inserts (h : Rewrote s s' data x cleared before t)
    (hsupplies : Supplies s cleared w extra) (hinserts : Inserts s.options cleared before extra t) :
    Edited s s' w data x cleared before t (.insert s.options.signatureNumber extra) := by
  obtain ⟨-, amount, grown, -, hinsert⟩ := id hinserts
  obtain ⟨k, table, hindex, hk, hlist, -, -⟩ := SignedImage.insert_eq_ok hinsert
  refine ⟨h, hinserts.change, .insert hsupplies, ?_, ?_⟩
  · rw [hlist]
    exact ListEdit.apply_insert hindex hk
  · intro sig hsig
    rw [hlist] at hsig
    rcases List.eq_or_mem_of_mem_insertIdx hsig with rfl | hsig
    · exact hsupplies.readable
    · exact SignedImage.readable_of_signatures h.signatures sig hsig

theorem Rewrote.edited_of_remove {removed : Signature} {warning : Option Warning}
    (h : Rewrote s s' data x cleared before t)
    (hremove : SignedImage.remove (s.options.signatureNumber.getD 0) ⟨cleared, before⟩
      = .ok (removed, warning) t) :
    Edited s s' .removeSignature data x cleared before t (.remove s.options.signatureNumber) := by
  obtain ⟨k, table, hindex, hfound, hlist, -, -⟩ := SignedImage.remove_eq_ok hremove
  obtain ⟨hk, -⟩ := List.getElem?_eq_some_iff.1 hfound
  refine ⟨h, .remove hremove, .remove, ?_, ?_⟩
  · rw [hlist]
    exact ListEdit.apply_remove hindex hk
  · intro sig hsig
    rw [hlist] at hsig
    exact SignedImage.readable_of_signatures h.signatures sig (List.mem_of_mem_eraseIdx hsig)

theorem edited_of_run (hwrites : w.writesImage = true) (h : run w s = .ok () s') :
    ∃ data x cleared before t edit, Edited s s' w data x cleared before t edit := by
  cases w with
  | importRawSignature =>
    obtain ⟨data, x, cleared, before, t, hrewrote, extra, hsupplies, hinserts⟩ :=
      rewrote_of_importRawSignature h
    exact ⟨data, x, cleared, before, t, _, hrewrote.edited_of_inserts hsupplies hinserts⟩
  | importSignature =>
    obtain ⟨data, x, cleared, before, t, hrewrote, extra, hsupplies, hinserts⟩ :=
      rewrote_of_importSignature h
    exact ⟨data, x, cleared, before, t, _, hrewrote.edited_of_inserts hsupplies hinserts⟩
  | removeSignature =>
    obtain ⟨data, x, cleared, before, t, hrewrote, removed, warning, hremove⟩ :=
      rewrote_of_removeSignatureAt h
    exact ⟨data, x, cleared, before, t, _, hrewrote.edited_of_remove hremove⟩
  | generateAndEmbedSignature =>
    obtain ⟨data, x, cleared, before, t, hrewrote, who, d, extra, hsigns⟩ :=
      signs_of_generateAndEmbedSignature h
    exact ⟨data, x, cleared, before, t, _,
      hrewrote.edited_of_inserts hsigns.supplies hsigns.embeds.inserts⟩
  | exportSignedAttributes => cases hwrites
  | exportPublicKey => cases hwrites
  | exportCertificate => cases hwrites
  | exportSignature => cases hwrites
  | listSignatures => cases hwrites
  | printDigest omitted => cases hwrites
  | generateAndExportSignature => cases hwrites

/-- Wherever the written file opens, it has the edited list. It opens when everything its layout is
read from was kept. -/
theorem Edited.reopened (h : Edited s s' w data x cleared before t edit) :
    ∃ out data', s.options.output = some out ∧ s'.files.readFile out = .ok data' ∧
      s'.signatures = t.signatures ∧
      (∀ y, Image.parse data' = .ok y → y.signatures = .ok t.signatures) ∧
      (x.layout.sizeOfHeaders ≤ x.base.length → x.layout.Settled x.base.length data →
        Image.parse data' = .ok ⟨data', x.layout⟩) := by
  obtain ⟨-, -, -, -, -, -, hsame⟩ := h.finish
  obtain ⟨u, out, table, hout, hwritten, htable, hover⟩ := h.toRewrote.over h.change
  obtain ⟨_, hholds⟩ := hover.exists_holds
  rw [hsame] at htable
  refine ⟨out, u.bytes, hout, hwritten, hsame, ?_, ?_⟩
  · intro y hy
    obtain ⟨hfields, -⟩ := hover.reopened h.parse hy
    exact SignedImage.signatures_of_over (hfields.over hover) htable h.readable
  · intro hheaders hsettled
    have hle := (hover.agree x.base_prefix).right_le
    rw [hover.parse h.parse (hheaders.trans hle) hsettled, ← hholds.layout_eq]

/-- The input of a run that writes an image is this file. -/
structure Attempts (s : Session) (actions : ActionSet) (w : Workflow) (data : Bytes) : Prop where
  select : selectWorkflow actions = .ok w
  writes : w.writesImage = true
  input : ∃ path, s.options.input = some path ∧ s.files.readFile path = .ok data

/-- Runs in a row with the edits they made. A run reads the file that was written last, and one that
fails leaves it to the next run. -/
inductive History (first : Bytes) : Bytes → List ListEdit → Prop
  | start : History first first []
  | succeeded {data data' : Bytes} {edits : List ListEdit} {edit : ListEdit} {s s' : Session}
      {actions : ActionSet} {w : Workflow} {x cleared : Image} {warning : Option Warning}
      {out : String} (earlier : History first data edits) (attempts : Attempts s actions w data)
      (ok : perform actions s = .ok () s') (parse : Image.parse data = .ok x)
      (clear : Image.clearTable x = .ok warning cleared) (asks : Asks s cleared w edit)
      (output : s.options.output = some out) (written : s'.files.readFile out = .ok data') :
      History first data' (edits ++ [edit])
  | failed {data : Bytes} {edits : List ListEdit} {s s' : Session} {actions : ActionSet}
      {w : Workflow} {f : Error} (earlier : History first data edits)
      (attempts : Attempts s actions w data) (error : perform actions s = .error f s') :
      History first data edits

theorem Attempts.edited (h : Attempts s actions w data) (hrun : perform actions s = .ok () s') :
    ∃ x cleared before t edit, Edited s s' w data x cleared before t edit := by
  obtain ⟨hselect, hwrites, path, hpath, hread⟩ := h
  obtain ⟨data', x, cleared, before, t, edit, hedited⟩ :=
    edited_of_run hwrites (run_of_perform hselect hrun)
  obtain rfl := hedited.data_eq hpath hread
  exact ⟨x, cleared, before, t, edit, hedited⟩

/-- The file that a history ends with has the edited list of the first file. -/
theorem History.applyAll_eq (h : History first data edits) {y : Image} {after : List Signature}
    (hy : Image.parse data = .ok y) (hafter : y.signatures = .ok after) :
    ∃ x list, Image.parse first = .ok x ∧ x.signatures = .ok list ∧
      ListEdit.applyAll list edits = some after := by
  induction h generalizing y after with
  | start => exact ⟨y, after, hy, hafter, rfl⟩
  | failed _ _ _ ih => exact ih hy hafter
  | succeeded earlier attempts ok parse clear asks output written ih =>
    obtain ⟨x, cleared, before, t, edit, hedited⟩ := attempts.edited ok
    cases parse.symm.trans hedited.parse
    obtain ⟨_, hclear⟩ := hedited.clear
    cases clear.symm.trans hclear
    cases asks.unique hedited.asks
    obtain ⟨out, data', hout, hwritten, -, hreopened, -⟩ := hedited.reopened
    cases output.symm.trans hout
    cases written.symm.trans hwritten
    obtain ⟨x₀, list, hfirst, hlist, happly⟩ := ih hedited.parse hedited.signatures
    cases hafter.symm.trans (hreopened y hy)
    exact ⟨x₀, list, hfirst, hlist, ListEdit.applyAll_concat happly hedited.apply_eq⟩

/-- A run that writes an image succeeds only if the edit it asks for is possible, and then the file
it writes has, wherever it opens, the edited list and nothing else. After any history that list is
the first file's list after all edits so far, and the run makes the history longer by its own. -/
theorem edits_of_history (hhistory : History first data edits)
    (hattempts : Attempts s actions w data) (h : perform actions s = .ok () s') :
    ∃ (x₀ x cleared : Image) (warning : Option Warning) (list before after : List Signature)
      (edit : ListEdit) (out : String) (data' : Bytes),
      Image.parse first = .ok x₀ ∧ x₀.signatures = .ok list ∧
      Image.parse data = .ok x ∧ x.signatures = .ok before ∧
      ListEdit.applyAll list edits = some before ∧
      Image.clearTable x = .ok warning cleared ∧ Asks s cleared w edit ∧
      edit.apply before = some after ∧
      s.options.output = some out ∧ s'.files.readFile out = .ok data' ∧ s'.signatures = after ∧
      History first data' (edits ++ [edit]) ∧
      (∀ y, Image.parse data' = .ok y → y.signatures = .ok after) ∧
      (x.layout.sizeOfHeaders ≤ x.base.length → x.layout.Settled x.base.length data →
        Image.parse data' = .ok ⟨data', x.layout⟩) := by
  obtain ⟨x, cleared, before, t, edit, hedited⟩ := hattempts.edited h
  obtain ⟨warning, hclear⟩ := hedited.clear
  obtain ⟨out, data', hout, hwritten, hsame, hreopened, hopens⟩ := hedited.reopened
  obtain ⟨x₀, list, hfirst, hlist, happly⟩ :=
    hhistory.applyAll_eq hedited.parse hedited.signatures
  exact ⟨x₀, x, cleared, warning, list, before, t.signatures, edit, out, data', hfirst, hlist,
    hedited.parse, hedited.signatures, happly, hclear, hedited.asks, hedited.apply_eq, hout,
    hwritten, hsame,
    hhistory.succeeded hattempts h hedited.parse hclear hedited.asks hout hwritten, hreopened,
    hopens⟩

/-- A signature is imported, a run that asks for an index far behind the list fails, and the
signature is taken out again. -/
theorem edits_of_history_removed :
    let first := (Image.least .none [] [7]).bytes
    ∃ s' data', History first (imported first) [.insert none .least] ∧
      perform (.ofList [.removeSignature]) (removing (imported first)) = .ok () s' ∧
      s'.files.readFile "out" = .ok data' ∧
      History first data' [.insert none .least, .remove none] ∧
      ∀ y, Image.parse data' = .ok y → y.signatures = .ok [] := by
  intro first
  have hx : Image.parse first = .ok (Image.least .none [] [7]) := by decide +kernel
  have hselect : selectWorkflow (.ofList [.importSignature]) = .ok .importSignature := by
    decide +kernel
  have hsupplies : Supplies (importing first) (Image.least .none [] [7]) .importSignature .least :=
    .imported (show Provides _ _ Signature.least.der from ⟨"signature", rfl, by decide +kernel⟩)
      (by decide +kernel)
  have hentry : (Image.least .none [] [7]).directory = .ok .none := by decide +kernel
  have hclear := Image.clearTable_of_isEmpty hentry rfl
  have himported : History first (imported first) [.insert none .least] :=
    History.start.succeeded ⟨hselect, rfl, "in", rfl, by decide +kernel⟩
      (Step.eq_ok_of_isOk (by decide +kernel)) hx hclear
      (.insert hsupplies) rfl (by decide +kernel)
  obtain ⟨f, hfailed⟩ : ∃ f, perform (.ofList [.importSignature])
      { importing (imported first) with
        options.signatureNumber := some 5 } = .error f (Step.stateOf (perform
          (.ofList [.importSignature])
          { importing (imported first) with options.signatureNumber := some 5 })) :=
    Step.exists_error_of_isOk (by decide +kernel)
  have hhistory := himported.failed ⟨hselect, rfl, "in", rfl, by decide +kernel⟩ hfailed
  have hrun : perform (.ofList [.removeSignature]) (removing (imported first)) = .ok ()
      (Step.stateOf (perform (.ofList [.removeSignature]) (removing (imported first)))) :=
    Step.eq_ok_of_isOk (by decide +kernel)
  obtain ⟨x₀, x, cleared, warning, list, before, after, edit, out, data', hx₀, hlist, -, -, hbefore,
    -, hasks, hafter, hout, hwritten, -, hlonger, hreopened, -⟩ :=
    edits_of_history (w := .removeSignature) hhistory
      ⟨by decide +kernel, rfl, "in", rfl, by decide +kernel⟩ hrun
  cases hx.symm.trans hx₀
  have hnone : (Image.least .none [] [7]).signatures = .ok [] := by decide +kernel
  cases hnone.symm.trans hlist
  have hone : ListEdit.applyAll [] [.insert none .least] = some [.least] := by decide +kernel
  cases hone.symm.trans hbefore
  cases hout
  cases hasks with
  | insert supplies => cases supplies
  | remove =>
    have hempty : (ListEdit.remove none).apply [.least] = some [] := by decide +kernel
    cases hempty.symm.trans hafter
    exact ⟨_, data', himported, hrun, hwritten, hlonger, hreopened⟩

end Authenticode.Session
