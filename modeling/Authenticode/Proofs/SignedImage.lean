import Authenticode.Proofs.CertificateTable
import Authenticode.Proofs.Pe.Table
import Authenticode.SignedImage

/-!
# What edits of a signed image do

An edit of an image with its list of signatures is an edit of the image with a table
computed from the list. Over a base the image therefore stays over that base, and
once it is finished its table is exactly the encoding of the list, from which the list
is read again. The order of the two matters where an edit fails: insertion sets the
list last and leaves everything as it was, removal sets it first.
-/
namespace Authenticode.SignedImage

open Cms (Signature)
open Pe (Layout)

variable {s t : SignedImage} {index : Int} {extra removed : Signature} {w : Option Warning}
  {f : Error} {l : Layout} {base table : Bytes}

theorem onImage_eq_ok_iff {α : Type} {edit : Pe.Image.Edit α} {a : α} :
    onImage edit s = .ok a t ↔ edit s.image = .ok a t.image ∧ t.signatures = s.signatures := by
  unfold onImage
  cases edit s.image with
  | error f j => exact ⟨nofun, fun h => nomatch h.1⟩
  | ok b j =>
    obtain ⟨image, signatures⟩ := t
    simp only [EStateM.Result.ok.injEq, mk.injEq]
    exact ⟨fun h => ⟨⟨h.1, h.2.1⟩, h.2.2.symm⟩, fun h => ⟨h.1.1, h.1.2, h.2.symm⟩⟩

theorem onImage_eq_error_iff {α : Type} {edit : Pe.Image.Edit α} :
    onImage edit s = .error f t ↔
      edit s.image = .error f t.image ∧ t.signatures = s.signatures := by
  unfold onImage
  cases edit s.image with
  | ok b j => exact ⟨nofun, fun h => nomatch h.1⟩
  | error g j =>
    obtain ⟨image, signatures⟩ := t
    simp only [EStateM.Result.error.injEq, mk.injEq]
    exact ⟨fun h => ⟨⟨h.1, h.2.1⟩, h.2.2.symm⟩, fun h => ⟨h.1.1, h.1.2, h.2.symm⟩⟩

theorem eq_of_image_eq (himage : t.image = s.image) (hsignatures : t.signatures = s.signatures) :
    t = s := by
  cases t
  cases s
  cases himage
  cases hsignatures
  rfl

theorem position?_eq_some_iff {bound k : Nat} :
    position? index bound = some k ↔ index = k ∧ k < bound := by
  unfold position?
  split
  · rw [Option.some.injEq]
    omega
  · exact ⟨nofun, fun h => by omega⟩

theorem position?_eq_none_iff {bound : Nat} :
    position? index bound = none ↔ index < 0 ∨ bound ≤ index := by
  unfold position?
  split
  · exact ⟨nofun, fun h => by omega⟩
  · exact ⟨fun _ => by omega, fun _ => rfl⟩

theorem insert_eq_ok (h : insert index extra s = .ok () t) :
    ∃ (k : Nat) (table : Bytes), index = k ∧ k ≤ s.signatures.length ∧
      t.signatures = s.signatures.insertIdx k extra ∧
      CertificateTable.encode t.signatures = .ok table ∧
      Pe.Image.writeTable table s.image = .ok () t.image := by
  simp only [insert] at h
  rw [Step.get_bind] at h
  cases hk : position? index (s.signatures.length + 1) with
  | none =>
    rw [hk] at h
    cases h
  | some k =>
    rw [hk] at h
    simp only [Step.bind_eq_ok_iff, Step.ofExcept_eq_ok_iff, Step.modify_eq_ok_iff] at h
    obtain ⟨table, _, ⟨htable, rfl⟩, _, u, hwrite, rfl⟩ := h
    obtain ⟨hwrite, -⟩ := onImage_eq_ok_iff.1 hwrite
    obtain ⟨hindex, hle⟩ := position?_eq_some_iff.1 hk
    exact ⟨k, table, hindex, by omega, rfl, htable, hwrite⟩

theorem remove_eq_ok (h : remove index s = .ok (removed, w) t) :
    ∃ (k : Nat) (table : Bytes), index = k ∧ s.signatures[k]? = some removed ∧
      t.signatures = s.signatures.eraseIdx k ∧
      CertificateTable.encode t.signatures = .ok table ∧
      Pe.Image.replaceTable table s.image = .ok w t.image := by
  simp only [remove] at h
  rw [Step.get_bind] at h
  cases hk : position? index s.signatures.length with
  | none =>
    rw [hk] at h
    cases h
  | some k =>
    rw [hk] at h
    cases hremoved : s.signatures[k]? with
    | none =>
      simp only [hremoved] at h
      cases h
    | some found =>
      simp only [hremoved, Step.bind_eq_ok_iff, Step.ofExcept_eq_ok_iff, Step.modify_eq_ok_iff,
        Step.pure_eq_ok_iff] at h
      obtain ⟨_, _, rfl, table, _, ⟨htable, rfl⟩, warning, u, hreplace, hpair, rfl⟩ := h
      cases hpair
      obtain ⟨hreplace, hsame⟩ := onImage_eq_ok_iff.1 hreplace
      rw [hsame]
      exact ⟨k, table, (position?_eq_some_iff.1 hk).1, hremoved, rfl, htable, hreplace⟩

theorem finish_eq_ok (h : finish s = .ok w t) :
    ∃ table j, CertificateTable.encode s.signatures = .ok table ∧
      t.signatures = s.signatures ∧ Pe.Image.replaceTable table s.image = .ok w j ∧
      Pe.Image.updateChecksum j = .ok () t.image := by
  simp only [finish, Step.bind_eq_ok_iff, Step.get_eq_ok_iff, Step.ofExcept_eq_ok_iff,
    onImage_eq_ok_iff, Step.pure_eq_ok_iff] at h
  obtain ⟨_, _, ⟨rfl, rfl⟩, table, _, ⟨htable, rfl⟩, _, u, ⟨hreplace, hsame⟩, _, v,
    ⟨hupdate, hsame'⟩, rfl, rfl⟩ := h
  exact ⟨table, u.image, htable, hsame'.trans hsame, hreplace, hupdate⟩

/-- An insertion that fails has changed nothing: the list is set last. -/
theorem insert_eq_error (h : insert index extra s = .error f t) :
    t = s ∧ (index < 0 ∨ s.signatures.length < index ∨
      ∃ k : Nat, k ≤ s.signatures.length ∧
        ∀ table, CertificateTable.encode (s.signatures.insertIdx k extra) = .ok table →
          Pe.Image.writeTable table s.image = .error f s.image) := by
  simp only [insert] at h
  rw [Step.get_bind] at h
  cases hk : position? index (s.signatures.length + 1) with
  | none =>
    rw [hk] at h
    cases h
    have hindex := position?_eq_none_iff.1 hk
    exact ⟨rfl, by omega⟩
  | some k =>
    rw [hk] at h
    have hle : k ≤ s.signatures.length := Nat.le_of_lt_succ (position?_eq_some_iff.1 hk).2
    rcases Step.ofExcept_bind_eq_error_iff.1 h with ⟨hencode, rfl⟩ | ⟨table, hencode, h⟩
    · refine ⟨rfl, .inr (.inr ⟨k, hle, ?_⟩)⟩
      intro table htable
      cases hencode.symm.trans htable
    · rcases Step.bind_eq_error_iff.1 h with hwrite | ⟨_, u, -, hmodify⟩
      · obtain ⟨hwrite, hsame⟩ := onImage_eq_error_iff.1 hwrite
        obtain rfl := eq_of_image_eq (Pe.Image.eq_of_writeTable_error hwrite) hsame
        refine ⟨rfl, .inr (.inr ⟨k, hle, ?_⟩)⟩
        intro table' htable
        cases hencode.symm.trans htable
        exact hwrite
      · cases hmodify

/-- A removal that fails for another reason than the index has changed the list. -/
theorem remove_eq_error (h : remove index s = .error f t) :
    t = s ∧ (index < 0 ∨ s.signatures.length ≤ index) ∨
      ∃ k : Nat, k < s.signatures.length ∧ t.signatures = s.signatures.eraseIdx k ∧
        ∀ table, CertificateTable.encode t.signatures = .ok table →
          Pe.Image.replaceTable table s.image = .error f t.image := by
  simp only [remove] at h
  rw [Step.get_bind] at h
  cases hk : position? index s.signatures.length with
  | none =>
    rw [hk] at h
    cases h
    exact .inl ⟨rfl, position?_eq_none_iff.1 hk⟩
  | some k =>
    rw [hk] at h
    have hlt := (position?_eq_some_iff.1 hk).2
    simp only [List.getElem?_eq_getElem hlt] at h
    rw [Step.modify_bind] at h
    rcases Step.ofExcept_bind_eq_error_iff.1 h with ⟨hencode, rfl⟩ | ⟨table, hencode, h⟩
    · refine .inr ⟨k, hlt, rfl, ?_⟩
      intro table htable
      cases hencode.symm.trans htable
    · rcases Step.bind_eq_error_iff.1 h with hreplace | ⟨_, u, -, hpure⟩
      · obtain ⟨hreplace, hsame⟩ := onImage_eq_error_iff.1 hreplace
        refine .inr ⟨k, hlt, hsame, ?_⟩
        intro table' htable
        rw [hsame] at htable
        cases hencode.symm.trans htable
        exact hreplace
      · cases hpure

theorem finish_eq_error (h : finish s = .error f t) :
    t.signatures = s.signatures ∧
      ∀ table, CertificateTable.encode s.signatures = .ok table →
        Pe.Image.replaceTable table s.image = .error f t.image ∨
          ∃ w j, Pe.Image.replaceTable table s.image = .ok w j ∧
            Pe.Image.updateChecksum j = .error f t.image := by
  simp only [finish] at h
  rw [Step.get_bind] at h
  rcases Step.ofExcept_bind_eq_error_iff.1 h with ⟨hencode, rfl⟩ | ⟨table, hencode, h⟩
  · refine ⟨rfl, ?_⟩
    intro table htable
    cases hencode.symm.trans htable
  · rcases Step.bind_eq_error_iff.1 h with hreplace | ⟨w, u, hreplace, h⟩
    · obtain ⟨hreplace, hsame⟩ := onImage_eq_error_iff.1 hreplace
      refine ⟨hsame, ?_⟩
      intro table' htable
      cases hencode.symm.trans htable
      exact .inl hreplace
    · obtain ⟨hreplace, hsame⟩ := onImage_eq_ok_iff.1 hreplace
      rcases Step.bind_eq_error_iff.1 h with hupdate | ⟨_, v, -, hpure⟩
      · obtain ⟨hupdate, hsame'⟩ := onImage_eq_error_iff.1 hupdate
        refine ⟨hsame'.trans hsame, ?_⟩
        intro table' htable
        cases hencode.symm.trans htable
        exact .inr ⟨w, u.image, hreplace, hupdate⟩
      · cases hpure

theorem exists_directory_of_missingSpace {amount : Nat}
    (h : s.missingSpace extra = .ok amount) : ∃ d, s.image.directory = .ok d := by
  unfold missingSpace at h
  obtain ⟨reserved, hreserved, -⟩ := Except.bind_eq_ok_iff.1 h
  obtain ⟨d, hd, -⟩ := Except.map_eq_ok_iff.1 hreserved
  exact ⟨d, hd⟩

theorem exists_directory_of_spaceNeeded {who : Cms.Signer} {raw : Option Cms.RawSignature}
    {amount : Nat} (h : s.spaceNeeded who raw = .ok amount) : ∃ d, s.image.directory = .ok d := by
  unfold spaceNeeded at h
  obtain ⟨draft, -, h⟩ := Except.bind_eq_ok_iff.1 h
  exact exists_directory_of_missingSpace h

theorem over_of_insert (hover : s.image.Over l base table) (h : insert index extra s = .ok () t) :
    ∃ table', t.image.Over l base table' := by
  obtain ⟨_, table', _, _, _, _, hwrite⟩ := insert_eq_ok h
  exact ⟨_, hover.writeTable hwrite⟩

theorem over_of_remove (hover : s.image.Over l base table)
    (h : remove index s = .ok (removed, w) t) : ∃ table', t.image.Over l base table' := by
  obtain ⟨_, table', _, _, _, _, hreplace⟩ := remove_eq_ok h
  exact ⟨table', hover.replaceTable hreplace⟩

theorem over_of_finish (hover : s.image.Over l base table) (h : finish s = .ok w t) :
    ∃ table', CertificateTable.encode s.signatures = .ok table' ∧
      t.signatures = s.signatures ∧ t.image.Over l base table' := by
  obtain ⟨table', j, htable, hsame, hreplace, hupdate⟩ := finish_eq_ok h
  exact ⟨table', htable, hsame, (hover.replaceTable hreplace).updateChecksum hupdate⟩

theorem readable_of_signatures {i : Pe.Image} {list : List Signature}
    (h : i.signatures = .ok list) :
    ∀ s ∈ list, ∀ tail, Signature.ofDer (s.der ++ tail) = .ok s := by
  unfold Pe.Image.signatures at h
  obtain ⟨table, -, h⟩ := Except.bind_eq_ok_iff.1 h
  cases table with
  | none =>
    cases h
    exact List.forall_mem_nil _
  | some table => exact CertificateTable.readable_of_decodeFrom h

/-- An image whose table is the encoding of a list, whatever zeros follow, has that list. -/
theorem signatures_of_over_append {i : Pe.Image} {list : List Signature} {k : Nat}
    (hover : i.Over l base (table ++ Bytes.zeros k))
    (htable : CertificateTable.encode list = .ok table)
    (hs : ∀ s ∈ list, ∀ tail, Signature.ofDer (s.der ++ tail) = .ok s) :
    i.signatures = .ok list := by
  obtain ⟨_, hholds⟩ := hover.exists_holds
  by_cases hnil : table ++ Bytes.zeros k = []
  · obtain ⟨d, hd, hempty, -⟩ := hholds.entry
    have hnone : i.table = .ok none := by
      unfold Pe.Image.table
      rw [hd]
      exact if_pos (hempty hnil)
    have hlist : list = [] := by
      by_contra hne
      exact CertificateTable.ne_nil_of_encode htable hne (List.append_eq_nil_iff.1 hnil).1
    rw [hlist]
    exact Except.bind_eq_ok_iff.2 ⟨_, hnone, rfl⟩
  · exact Except.bind_eq_ok_iff.2
      ⟨_, hholds.table_eq hnil, CertificateTable.decodeFrom_encode_append htable hs 0 k⟩

theorem signatures_of_over {i : Pe.Image} {list : List Signature} (hover : i.Over l base table)
    (htable : CertificateTable.encode list = .ok table)
    (hs : ∀ s ∈ list, ∀ tail, Signature.ofDer (s.der ++ tail) = .ok s) :
    i.signatures = .ok list := by
  rw [← List.append_nil table] at hover
  exact signatures_of_over_append (k := 0) hover htable hs

end Authenticode.SignedImage
