import Authenticode.Proofs.Pe.Failures
import Authenticode.Proofs.SignedImage

/-!
# List and table in step

An image is edited side by side with the list of its signatures. The list leads, and space
may be reserved for the table before anything is written into it. The first edit that writes
the list makes the table the encoding of the list with zeros behind it; every later call keeps
that, whether it succeeds or fails, so the list can be read from the image at any time.
-/
namespace Authenticode.SignedImage

open Cms (Signature)
open Pe (Layout)

variable {s t : SignedImage} {index : Int} {extra : Signature} {f : Error} {l : Layout}
  {base table : Bytes}

/-- The operations by which a workflow edits an image and its list. -/
inductive Call
  | allocate (amount : Nat)
  | insert (index : Int) (s : Signature)
  | remove (index : Int)
  | finish
  deriving DecidableEq, Repr

namespace Call

/-- What a call does; of what it answers only a failure is kept. -/
def edit : Call → Edit Unit
  | allocate amount => onImage (Pe.Image.growTable amount)
  | insert index s => SignedImage.insert index s
  | remove index => discard (SignedImage.remove index)
  | finish => discard SignedImage.finish

/-- The state after a call, whether it succeeds or fails. -/
def after (c : Call) (t : SignedImage) : SignedImage := Step.stateOf (c.edit t)

/-- Whether a call writes the list into the table when it succeeds. -/
def writes : Call → Bool
  | allocate _ => false
  | insert .. | remove _ | finish => true

/-- Whether a call reserves a table of less than 4 GiB, if it reserves any. -/
def TableBelow (t : SignedImage) : Call → Prop
  | allocate amount => ∀ n ∈ t.image.reserved.toOption, n + amount < 2 ^ 32
  | insert .. | remove _ | finish => True

instance decidableTableBelow (t : SignedImage) : (c : Call) → Decidable (c.TableBelow t)
  | allocate amount =>
    inferInstanceAs (Decidable (∀ n ∈ t.image.reserved.toOption, n + amount < 2 ^ 32))
  | insert .. | remove _ | finish => .isTrue trivial

theorem after_of_ok {c : Call} (h : c.edit t = .ok () s) : c.after t = s := by
  rw [after, h]
  rfl

theorem after_of_error {c : Call} (h : c.edit t = .error f s) : c.after t = s := by
  rw [after, h]
  rfl

end Call

/-- The state after calls that are made in turn; a failure does not end them. -/
def afterCalls : List Call → SignedImage → SignedImage
  | [], t => t
  | c :: cs, t => afterCalls cs (c.after t)

def TablesBelow : List Call → SignedImage → Prop
  | [], _ => True
  | c :: cs, t => c.TableBelow t ∧ TablesBelow cs (c.after t)

/-- Whether the list was written into the table by one of the calls. -/
def Written : List Call → SignedImage → Prop
  | [], _ => False
  | c :: cs, t => c.writes = true ∧ Step.isOk (c.edit t) = true ∨ Written cs (c.after t)

instance decidableTablesBelow :
    (calls : List Call) → (t : SignedImage) → Decidable (TablesBelow calls t)
  | [], _ => .isTrue trivial
  | c :: cs, t =>
    have := decidableTablesBelow cs (c.after t)
    inferInstanceAs (Decidable (_ ∧ _))

instance decidableWritten : (calls : List Call) → (t : SignedImage) → Decidable (Written calls t)
  | [], _ => .isFalse id
  | c :: cs, t =>
    have := decidableWritten cs (c.after t)
    inferInstanceAs (Decidable (_ ∨ _))

/-- What every call keeps: the image is over its base, and the listed signatures can be read and
make a table of less than 4 GiB. -/
structure Sound (l : Layout) (base : Bytes) (t : SignedImage) : Prop where
  based : ∃ table, t.image.Over l base table
  readable : ∀ s ∈ t.signatures, ∃ der, Signature.ofDer der = .ok s
  size_lt : CertificateTable.size t.signatures < 2 ^ 32

/-- The table is the encoding of the list, with zeros in the space that is left. -/
def InStep (l : Layout) (base : Bytes) (t : SignedImage) : Prop :=
  ∃ table k, CertificateTable.encode t.signatures = .ok table ∧
    t.image.Over l base (table ++ Bytes.zeros k)

/-- A list in step with the image is what is read from the image. -/
theorem InStep.signatures_eq (h : InStep l base t) (hsound : Sound l base t) :
    t.image.signatures = .ok t.signatures := by
  obtain ⟨table, k, htable, hover⟩ := h
  apply signatures_of_over_append hover htable
  intro s hs
  obtain ⟨der, hder⟩ := hsound.readable s hs
  exact Signature.ofDer_der_append hder

theorem insert_error_of_over (hover : s.image.Over l base table)
    (h : insert index extra s = .error f t) :
    t = s ∧ (index < 0 ∨ s.signatures.length < index ∨
      table.length < CertificateTable.sizeWith s.signatures extra) := by
  obtain ⟨rfl, hneg | hlarge | ⟨k, hk, hwrite⟩⟩ := insert_eq_error h
  · exact ⟨rfl, .inl hneg⟩
  · exact ⟨rfl, .inr (.inl hlarge)⟩
  · refine ⟨rfl, .inr (.inr ?_)⟩
    by_contra hroom
    have hsize := CertificateTable.size_insertIdx hk extra
    have hbelow : CertificateTable.size (t.signatures.insertIdx k extra) < 2 ^ 32 := by
      have htable := hover.length_lt
      omega
    obtain ⟨written, hencode⟩ := CertificateTable.exists_encode_of_size hbelow
    have hlength := CertificateTable.length_of_encode hencode
    obtain ⟨j, hok⟩ := hover.exists_writeTable (t := written) (by omega)
    cases (hwrite written hencode).symm.trans hok

theorem remove_error_of_sound (hsound : Sound l base s) (hover : s.image.Over l base table)
    (h : remove index s = .error f t) :
    t = s ∧ (index < 0 ∨ s.signatures.length ≤ index) ∨
      table = [] ∧ 2 ^ 32 ≤ base.aligned.length ∧ t.image.Over l base [] ∧
        ∃ k : Nat, k < s.signatures.length ∧ t.signatures = s.signatures.eraseIdx k := by
  obtain hindex | ⟨k, hk, hlist, hreplace⟩ := remove_eq_error h
  · exact .inl hindex
  · have hsize := (CertificateTable.size_eraseIdx_le s.signatures k).trans_lt hsound.size_lt
    rw [← hlist] at hsize
    obtain ⟨written, hencode⟩ := CertificateTable.exists_encode_of_size hsize
    have hlength := CertificateTable.length_of_encode hencode
    obtain ⟨-, ⟨rfl, hfar, hover'⟩ | ⟨hlong, -⟩⟩ :=
      hover.of_replaceTable_error (hreplace written hencode)
    · exact .inr ⟨rfl, hfar, hover', k, hk, hlist⟩
    · omega

theorem finish_error_of_sound (hsound : Sound l base s) (hover : s.image.Over l base table)
    (h : finish s = .error f t) :
    t.signatures = s.signatures ∧ s.signatures ≠ [] ∧ table = [] ∧
      2 ^ 32 ≤ base.aligned.length ∧ t.image.Over l base [] := by
  obtain ⟨hlist, hfail⟩ := finish_eq_error h
  obtain ⟨written, hencode⟩ := CertificateTable.exists_encode_of_size hsound.size_lt
  have hlength := CertificateTable.length_of_encode hencode
  have hsize := hsound.size_lt
  rcases hfail written hencode with hreplace | ⟨w, j, hreplace, hupdate⟩
  · obtain ⟨hne, ⟨rfl, hfar, hover'⟩ | ⟨hlong, -⟩⟩ := hover.of_replaceTable_error hreplace
    · refine ⟨hlist, ?_, rfl, hfar, hover'⟩
      intro hnil
      rw [hnil] at hencode
      cases hencode
      exact hne rfl
    · omega
  · obtain ⟨k, hok⟩ := (hover.replaceTable hreplace).exists_updateChecksum
    cases hupdate.symm.trans hok

theorem inStep_of_insert (hover : s.image.Over l base table)
    (h : insert index extra s = .ok () t) : InStep l base t := by
  obtain ⟨k, written, -, -, -, hencode, hwrite⟩ := insert_eq_ok h
  have hfits := hover.le_of_writeTable hwrite
  refine ⟨written, table.length - written.length, hencode, ?_⟩
  rw [← Bytes.resize_of_le hfits]
  exact hover.writeTable hwrite

theorem inStep_of_over (hover : t.image.Over l base table)
    (hencode : CertificateTable.encode t.signatures = .ok table) : InStep l base t :=
  ⟨table, 0, hencode, by simpa [Bytes.zeros] using hover⟩

theorem inStep_of_writes {c : Call} (hsound : Sound l base t) (hwrites : c.writes = true)
    (hok : Step.isOk (c.edit t) = true) : InStep l base (c.after t) := by
  obtain ⟨table, hover⟩ := hsound.based
  have hafter : c.edit t = .ok () (c.after t) := Step.eq_ok_of_isOk hok
  cases c with
  | allocate amount => cases hwrites
  | insert index s => exact inStep_of_insert hover hafter
  | remove index =>
    obtain ⟨⟨removed, w⟩, hremove⟩ := Step.discard_eq_ok_iff.1 hafter
    obtain ⟨k, written, -, -, -, hencode, hreplace⟩ := remove_eq_ok hremove
    exact inStep_of_over (hover.replaceTable hreplace) hencode
  | finish =>
    obtain ⟨w, hfinish⟩ := Step.discard_eq_ok_iff.1 hafter
    obtain ⟨written, hencode, hlist, hover'⟩ := over_of_finish hover hfinish
    rw [← hlist] at hencode
    exact inStep_of_over hover' hencode

theorem over_after_allocate {amount : Nat} (hover : t.image.Over l base table)
    (hbelow : (Call.allocate amount).TableBelow t) :
    ∃ k, ((Call.allocate amount).after t).image.Over l base (table ++ Bytes.zeros k) ∧
      ((Call.allocate amount).after t).signatures = t.signatures := by
  have hsize : table.length + amount < 2 ^ 32 := by
    apply hbelow
    rw [hover.image_reserved]
    rfl
  cases hgrow : onImage (Pe.Image.growTable amount) t with
  | ok _ u =>
    rw [Call.after_of_ok (c := .allocate amount) hgrow]
    obtain ⟨hgrow, hlist⟩ := onImage_eq_ok_iff.1 hgrow
    exact ⟨amount, hover.growTable hgrow, hlist⟩
  | error f u =>
    rw [Call.after_of_error (c := .allocate amount) hgrow]
    obtain ⟨hgrow, hlist⟩ := onImage_eq_error_iff.1 hgrow
    obtain hover' | ⟨hlong, -⟩ := hover.of_growTable_error hgrow
    · exact ⟨0, by simpa [Bytes.zeros] using hover', hlist⟩
    · omega

theorem Sound.insert (h : Sound l base t) (hs : ∃ der, Signature.ofDer der = .ok extra)
    (hinsert : insert index extra t = .ok () s) : Sound l base s := by
  obtain ⟨table, hover⟩ := h.based
  obtain ⟨k, written, -, -, hlist, hencode, hwrite⟩ := insert_eq_ok hinsert
  refine ⟨⟨_, hover.writeTable hwrite⟩, ?_, ?_⟩
  · intro s' hs'
    rw [hlist] at hs'
    rcases List.eq_or_mem_of_mem_insertIdx hs' with rfl | hmem
    · exact hs
    · exact h.readable s' hmem
  · rw [← CertificateTable.length_of_encode hencode]
    exact (hover.le_of_writeTable hwrite).trans_lt hover.length_lt

theorem Sound.eraseIdx {k : Nat} (h : Sound l base t) (hover : s.image.Over l base table)
    (hlist : s.signatures = t.signatures.eraseIdx k) : Sound l base s := by
  refine ⟨⟨table, hover⟩, ?_, ?_⟩
  · intro s' hs'
    rw [hlist] at hs'
    exact h.readable s' (List.mem_of_mem_eraseIdx hs')
  · rw [hlist]
    exact (CertificateTable.size_eraseIdx_le _ k).trans_lt h.size_lt

theorem Sound.of_signatures_eq (h : Sound l base t) (hover : s.image.Over l base table)
    (hlist : s.signatures = t.signatures) : Sound l base s :=
  ⟨⟨table, hover⟩, hlist ▸ h.readable, hlist ▸ h.size_lt⟩

/-- Every call keeps the image over its base and the list readable, also where it fails. -/
theorem Sound.after (h : Sound l base t) (c : Call)
    (hs : ∀ index s, c = .insert index s → ∃ der, Signature.ofDer der = .ok s)
    (hbelow : c.TableBelow t) : Sound l base (c.after t) := by
  obtain ⟨table, hover⟩ := h.based
  cases c with
  | allocate amount =>
    obtain ⟨k, hover', hlist⟩ := over_after_allocate hover hbelow
    exact h.of_signatures_eq hover' hlist
  | insert index extra =>
    cases hinsert : SignedImage.insert index extra t with
    | ok _ u =>
      rw [Call.after_of_ok (c := .insert index extra) hinsert]
      exact h.insert (hs index extra rfl) hinsert
    | error f u =>
      rw [Call.after_of_error (c := .insert index extra) hinsert, (insert_eq_error hinsert).1]
      exact h
  | remove index =>
    cases hremove : SignedImage.remove index t with
    | ok answer u =>
      rw [Call.after_of_ok (c := .remove index) (Step.discard_of_ok hremove)]
      obtain ⟨k, written, -, -, hlist, -, hreplace⟩ := remove_eq_ok hremove
      exact h.eraseIdx (hover.replaceTable hreplace) hlist
    | error f u =>
      rw [Call.after_of_error (c := .remove index) (Step.discard_of_error hremove)]
      rcases remove_error_of_sound h hover hremove with ⟨rfl, -⟩ | ⟨-, -, hover', k, -, hlist⟩
      · exact h
      · exact h.eraseIdx hover' hlist
  | finish =>
    cases hfinish : SignedImage.finish t with
    | ok w u =>
      rw [Call.after_of_ok (c := .finish) (Step.discard_of_ok hfinish)]
      obtain ⟨written, -, hlist, hover'⟩ := over_of_finish hover hfinish
      exact h.of_signatures_eq hover' hlist
    | error f u =>
      rw [Call.after_of_error (c := .finish) (Step.discard_of_error hfinish)]
      obtain ⟨hlist, -, -, -, hover'⟩ := finish_error_of_sound h hover hfinish
      exact h.of_signatures_eq hover' hlist

/-- Once the table follows the list, a removal fails for the index only. -/
theorem InStep.remove_error (h : InStep l base s) (hsound : Sound l base s)
    (hremove : remove index s = .error f t) :
    t = s ∧ (index < 0 ∨ s.signatures.length ≤ index) := by
  obtain ⟨written, k, hencode, hover⟩ := h
  rcases remove_error_of_sound hsound hover hremove with hindex | ⟨hnil, -, -, j, hj, -⟩
  · exact hindex
  · -- Without a table there is no signature to remove.
    have hne : s.signatures ≠ [] := List.ne_nil_of_length_pos (Nat.zero_lt_of_lt hj)
    exact absurd (List.append_eq_nil_iff.1 hnil).1 (CertificateTable.ne_nil_of_encode hencode hne)

theorem InStep.finish_ne_error (h : InStep l base s) (hsound : Sound l base s) :
    finish s ≠ .error f t := by
  intro hfinish
  obtain ⟨written, k, hencode, hover⟩ := h
  obtain ⟨-, hne, hnil, -⟩ := finish_error_of_sound hsound hover hfinish
  exact CertificateTable.ne_nil_of_encode hencode hne (List.append_eq_nil_iff.1 hnil).1

theorem InStep.eq_of_error {c : Call} (h : InStep l base s) (hsound : Sound l base s)
    (hwrites : c.writes = true) (hfail : c.edit s = .error f t) : t = s := by
  cases c with
  | allocate amount => cases hwrites
  | insert index extra => exact (insert_eq_error hfail).1
  | remove index => exact (h.remove_error hsound (Step.discard_eq_error_iff.1 hfail)).1
  | finish => exact absurd (Step.discard_eq_error_iff.1 hfail) (h.finish_ne_error hsound)

/-- List and table stay in step, whatever call is made and whatever comes of it. -/
theorem InStep.after (h : InStep l base t) (hsound : Sound l base t) (c : Call)
    (hbelow : c.TableBelow t) : InStep l base (c.after t) := by
  cases c with
  | allocate amount =>
    obtain ⟨written, k, hencode, hover⟩ := h
    obtain ⟨more, hover', hlist⟩ := over_after_allocate hover hbelow
    refine ⟨written, k + more, hlist ▸ hencode, ?_⟩
    rwa [List.append_assoc, Bytes.zeros_append] at hover'
  | insert | remove | finish =>
    cases hrun : Call.edit _ t with
    | ok _ u => exact inStep_of_writes hsound rfl (by rw [hrun]; rfl)
    | error f u =>
      rw [Call.after_of_error hrun, h.eq_of_error hsound rfl hrun]
      exact h

theorem inStep_of_afterCalls (calls : List Call) (h : Sound l base t)
    (hs : ∀ index s, Call.insert index s ∈ calls → ∃ der, Signature.ofDer der = .ok s)
    (hbelow : TablesBelow calls t) :
    Sound l base (afterCalls calls t) ∧
      (InStep l base t ∨ Written calls t → InStep l base (afterCalls calls t)) := by
  induction calls generalizing t with
  | nil => exact ⟨h, fun hstep => hstep.elim (fun hstep => hstep) False.elim⟩
  | cons c cs ih =>
    obtain ⟨hbelow, hrest⟩ := hbelow
    have hafter : Sound l base (c.after t) := by
      apply h.after c _ hbelow
      rintro index s rfl
      exact hs index s (List.mem_cons_self ..)
    have hs' : ∀ index s, Call.insert index s ∈ cs → ∃ der, Signature.ofDer der = .ok s := by
      intro index s hmem
      exact hs index s (List.mem_cons_of_mem c hmem)
    obtain ⟨hsound, hstep⟩ := ih hafter hs' hrest
    refine ⟨hsound, ?_⟩
    rintro (hbefore | ⟨hwrites, hok⟩ | hwritten)
    · exact hstep (.inl (hbefore.after h c hbelow))
    · exact hstep (.inl (inStep_of_writes h hwrites hok))
    · exact hstep (.inr hwritten)

/-- Calls on an image that was parsed without a certificate table, with any list. From the first
success on of a call that writes the list, the list is what is read from the image. Insertion and
removal change the list at their index as lists are changed; where they fail, for the index or for
lack of space, list and image stay as they are. A removal that is the first to write the list needs
a place for the table below 4 GiB to be sure of that, and so does finishing. -/
theorem signatures_of_calls {data : Bytes} {i : Pe.Image} {d : Pe.CertificateDirectory}
    {list : List Signature} (hparse : Pe.Image.parse data = .ok i) (hd : i.directory = .ok d)
    (he : d.isEmpty = true) (hlist : ∀ s ∈ list, ∃ der, Signature.ofDer der = .ok s)
    (hsize : CertificateTable.size list < 2 ^ 32) (calls : List Call)
    (hs : ∀ index s, Call.insert index s ∈ calls → ∃ der, Signature.ofDer der = .ok s)
    (hbelow : TablesBelow calls ⟨i, list⟩) :
    let t := afterCalls calls ⟨i, list⟩
    let placed := Written calls ⟨i, list⟩ ∨ align8 data.length < 2 ^ 32
    (Written calls ⟨i, list⟩ → t.image.signatures = .ok t.signatures) ∧
    (∀ index extra,
      (∀ u, insert index extra t = .ok () u → ∃ k : Nat, index = k ∧ k ≤ t.signatures.length ∧
        u.signatures = t.signatures.insertIdx k extra) ∧
      ∀ f u, insert index extra t = .error f u → u = t ∧
        (index < 0 ∨ t.signatures.length < index ∨ ∃ n, t.image.reserved = .ok n ∧
          n < CertificateTable.sizeWith t.signatures extra)) ∧
    (∀ index,
      (∀ removed w u, remove index t = .ok (removed, w) u → ∃ k : Nat, index = k ∧
        t.signatures[k]? = some removed ∧ u.signatures = t.signatures.eraseIdx k) ∧
      (placed → ∀ f u, remove index t = .error f u → u = t ∧
        (index < 0 ∨ t.signatures.length ≤ index))) ∧
    (placed → ∃ w u, finish t = .ok w u) := by
  intro t placed
  have hover := Pe.Image.over_of_parse hparse hd he
  obtain ⟨hsound, hstep⟩ := inStep_of_afterCalls calls ⟨⟨_, hover⟩, hlist, hsize⟩ hs hbelow
  obtain ⟨table, hover⟩ := hsound.based
  have hplaced : placed → InStep i.layout data t ∨ data.aligned.length < 2 ^ 32 := by
    rintro (hwritten | hnear)
    · exact .inl (hstep (.inr hwritten))
    · exact .inr (by rwa [Bytes.length_aligned])
  refine ⟨?_, ?_, ?_, ?_⟩
  · intro hwritten
    exact (hstep (.inr hwritten)).signatures_eq hsound
  · intro index extra
    constructor
    · intro u hinsert
      obtain ⟨k, _, hindex, hle, hlist, -⟩ := insert_eq_ok hinsert
      exact ⟨k, hindex, hle, hlist⟩
    · intro f u hinsert
      obtain ⟨hsame, hneg | hlarge | hroom⟩ := insert_error_of_over hover hinsert
      · exact ⟨hsame, .inl hneg⟩
      · exact ⟨hsame, .inr (.inl hlarge)⟩
      · exact ⟨hsame, .inr (.inr ⟨_, hover.image_reserved, hroom⟩)⟩
  · intro index
    constructor
    · intro removed w u hremove
      obtain ⟨k, _, hindex, hfound, hlist, -⟩ := remove_eq_ok hremove
      exact ⟨k, hindex, hfound, hlist⟩
    · intro hp f u hremove
      rcases hplaced hp with hinstep | hnear
      · exact hinstep.remove_error hsound hremove
      · rcases remove_error_of_sound hsound hover hremove with hindex | ⟨-, hfar, -⟩
        · exact hindex
        · omega
  · intro hp
    cases hfinish : finish t with
    | ok w u => exact ⟨w, u, rfl⟩
    | error f u =>
      rcases hplaced hp with hinstep | hnear
      · exact absurd hfinish (hinstep.finish_ne_error hsound)
      · obtain ⟨-, -, -, hfar, -⟩ := finish_error_of_sound hsound hover hfinish
        omega

/-- Calls of every kind. The first two fail, for the index and for lack of space, and so does the
fifth; the table is filled, shortened, taken away and made anew. -/
def editsWithFailures : List Call :=
  [.remove 3, .insert 0 .least, .allocate 48, .insert 1 .least, .insert 5 .least, .allocate 7,
    .remove 0, .finish, .remove 0, .allocate 30, .insert 0 .least]

theorem signatures_of_calls_failures :
    let x := Pe.Image.least .none [] [1, 2, 3]
    let start : SignedImage := ⟨x, [.least]⟩
    let t := afterCalls editsWithFailures start
    Pe.Image.parse x.bytes = .ok x ∧ Written editsWithFailures start ∧
      t.signatures = [.least] ∧ t.image.signatures = .ok t.signatures ∧
      (∀ f u, insert 2 .least t = .error f u → u = t) ∧
      (∀ f u, remove 1 t = .error f u → u = t) ∧ ∃ w u, finish t = .ok w u := by
  intro x start t
  have hparse : Pe.Image.parse x.bytes = .ok x := by decide +kernel
  have hnone : x.directory = .ok .none := by decide +kernel
  have hleast : ∃ der, Signature.ofDer der = .ok .least := ⟨Signature.least.der, by decide +kernel⟩
  have hlist : ∀ s ∈ [Signature.least], ∃ der, Signature.ofDer der = .ok s := by
    intro s hs
    obtain rfl : s = .least := by simpa using hs
    exact hleast
  have hcalls : ∀ index s, Call.insert index s ∈ editsWithFailures →
      ∃ der, Signature.ofDer der = .ok s := by
    intro index s hs
    have hs' : s = .least := by
      simp [editsWithFailures] at hs
      rcases hs with h | h | h | h
      all_goals exact h.2
    exact hs' ▸ hleast
  have hbelow : TablesBelow editsWithFailures start := by decide +kernel
  have hwritten : Written editsWithFailures start := by decide +kernel
  obtain ⟨hread, hinsert, hremove, hfinish⟩ :=
    signatures_of_calls hparse hnone rfl hlist (by decide +kernel) editsWithFailures hcalls hbelow
  refine ⟨hparse, hwritten, by decide +kernel, hread hwritten, ?_, ?_, hfinish (.inl hwritten)⟩
  · intro f u hfail
    exact ((hinsert 2 .least).2 f u hfail).1
  · intro f u hfail
    exact ((hremove 1).2 (.inl hwritten) f u hfail).1

end Authenticode.SignedImage
