import Authenticode.Proofs.Pe.Checksum
import Authenticode.Proofs.Session.Chains

/-!
# The checksum of a written image

Finishing an image stores the checksum of the octets as they are then, with what the
field held before still in its place. Whether the checksum holds in the written file is
therefore a question about one octet: it does when the field starts with a word, and
else when its first octet came out as it was. That octet is the one which clearing the
table left, since nothing in between touches the front of the image.
-/
namespace Authenticode.Session

open Bytes (AgreeOff Within)
open Cms (Signature)
open Pe (Image)
open Pe.Checksum (compute fieldLength)

variable {data data' : Bytes} {x cleared : Image} {before signatures : List Signature}
  {t u : SignedImage} {w : Option Warning} {l : Pe.Layout} {base : Bytes}

theorem Change.sameFront (h : Change cleared before t)
    (hover : ∀ d, cleared.directory = .ok d → cleared.Over l base []) :
    cleared.SameFront t.image ∧
      ∃ table, t.image.Over l base table ∧ (t.signatures = [] → table = []) := by
  cases h with
  | insert entry grow insert =>
    obtain ⟨d, hd⟩ := entry
    have hgrown := (hover d hd).growTable grow
    obtain ⟨k, table, -, hk, hlist, -, hwrite⟩ := SignedImage.insert_eq_ok insert
    have hlayout := hgrown.layout_eq.trans (hover d hd).layout_eq.symm
    refine ⟨(Image.sameFront_of_growTable grow).trans hlayout
      (hgrown.sameFront_of_writeTable hwrite), _, hgrown.writeTable hwrite, ?_⟩
    intro hnil
    rw [hnil] at hlist
    exact absurd (congrArg List.length hlist) (by rw [List.length_insertIdx_of_le_length hk]; simp)
  | remove remove =>
    obtain ⟨k, table, -, -, -, htable, hreplace⟩ := SignedImage.remove_eq_ok remove
    obtain ⟨d, hd⟩ := Image.exists_directory_of_replaceTable hreplace
    refine ⟨(hover d hd).sameFront_of_replaceTable (fun _ => rfl) hreplace, table,
      (hover d hd).replaceTable hreplace, ?_⟩
    intro hnil
    rw [hnil] at htable
    cases htable
    rfl

/-- Finishing stores the checksum of an image that still has the front it had. -/
theorem hasChecksum_iff_of_finish {table : Bytes} (hover : t.image.Over l base table)
    (hnil : t.signatures = [] → table = []) (h : SignedImage.finish t = .ok w u) :
    u.image.HasChecksum ↔ Even l.checksumOffset ∨
      u.image.bytes[l.checksumOffset]? = t.image.bytes[l.checksumOffset]? := by
  obtain ⟨table', j, htable, -, hreplace, hupdate⟩ := SignedImage.finish_eq_ok h
  have hempty : table' = [] → table = [] := by
    rintro rfl
    by_contra hne
    exact CertificateTable.ne_nil_of_encode htable (fun hlist => hne (hnil hlist)) rfl
  have hfront := hover.sameFront_of_replaceTable hempty hreplace
  have hiff := Image.hasChecksum_iff_of_updateChecksum hupdate
  obtain ⟨_, hholds⟩ := hover.exists_holds
  have hle := hholds.ordered.checksum_le
  rw [(hover.replaceTable hreplace).layout_eq] at hiff
  unfold fieldLength at hle
  rwa [hfront _ (by rw [hover.layout_eq]; omega)] at hiff

/-- The checksum is to be that of the octets as they are, whatever its field holds. It is not where
the field starts in the middle of a word: then it depends on the first octet of the field. So an
update leaves the right checksum, and a second one nothing to change, exactly when that octet does
not count or came out as it was; clearing a table and writing an image end with such an update. -/
theorem hasChecksum_iff (hx : Image.parse data = .ok x) :
    (∀ other : Bytes, AgreeOff (Within x.layout.checksumOffset fieldLength) other data →
      (compute other x.layout.checksumOffset = compute data x.layout.checksumOffset ↔
        Even x.layout.checksumOffset ∨
          other[x.layout.checksumOffset]? = data[x.layout.checksumOffset]?)) ∧
    (∃ y z, Image.updateChecksum x = .ok () y ∧ Image.updateChecksum y = .ok () z ∧
      (y.HasChecksum ↔ Even x.layout.checksumOffset ∨
        y.bytes[x.layout.checksumOffset]? = data[x.layout.checksumOffset]?) ∧
      (z = y ↔ y.HasChecksum)) ∧
    (∀ d w y, x.directory = .ok d → d.isEmpty = false → Image.clearTable x = .ok w y →
      (y.HasChecksum ↔ Even x.layout.checksumOffset ∨
        y.bytes[x.layout.checksumOffset]? = data[x.layout.checksumOffset]?)) ∧
    ∀ data' signatures, Rewrites data data' signatures →
      ∃ w cleared, Image.clearTable x = .ok w cleared ∧
        ((⟨data', x.layout⟩ : Image).HasChecksum ↔ Even x.layout.checksumOffset ∨
          data'[x.layout.checksumOffset]? = cleared.bytes[x.layout.checksumOffset]?) ∧
        ∀ y, Image.parse data' = .ok y → y.layout.checksumOffset = x.layout.checksumOffset := by
  obtain ⟨hlayout, hbytes, d, hd, -⟩ := Image.parse_eq_ok_iff.1 hx
  have hordered := Pe.Layout.ordered_of_parse hlayout
  have hin : x.layout.checksumOffset + fieldLength ≤ x.length :=
    hordered.checksum_le.trans ((Nat.le_add_right _ _).trans (Image.entry_le_of_directory hd))
  have hfield : x.layout.checksumOffset < data.length := by
    unfold fieldLength Image.length at hin
    rw [hbytes] at hin
    omega
  refine ⟨fun other hother => Pe.Checksum.compute_eq_iff_of_agreeOff hother hfield, ?_, ?_, ?_⟩
  · obtain ⟨y, hy⟩ : ∃ y, Image.updateChecksum x = .ok () y := ⟨_, Image.updateChecksum_of_le hin⟩
    obtain ⟨hlayout', hlength⟩ := Image.length_of_updateChecksum hy
    obtain ⟨z, hz⟩ : ∃ z, Image.updateChecksum y = .ok () z :=
      ⟨_, Image.updateChecksum_of_le (by rwa [hlayout', hlength])⟩
    rw [← hbytes]
    exact ⟨y, z, hy, hz, Image.hasChecksum_iff_of_updateChecksum hy,
      Image.eq_iff_hasChecksum_of_updateChecksum hz⟩
  · intro d' w y hd' he hclear
    rw [← hbytes]
    exact Image.hasChecksum_iff_of_clearTable hordered hd' he hclear
  · intro data' signatures hrun
    obtain ⟨x', cleared, before, t, u, w, w', hparse, -, hclear, hchange, -, hfinish, rfl⟩ :=
      hrun.exists_change
    cases hx.symm.trans hparse
    obtain ⟨hfront, table, hover, hnil⟩ := hchange.sameFront fun d hd =>
      Image.over_of_clearTable hordered hclear hd
    obtain ⟨_, -, -, hwritten⟩ := SignedImage.over_of_finish hover hfinish
    have hlayout' := hwritten.layout_eq
    have hcleared := (Image.holds_of_clearTable hordered hclear).2.1
    have hiff := hasChecksum_iff_of_finish hover hnil hfinish
    have hle := hordered.checksum_le
    unfold fieldLength at hle
    rw [hfront _ (by rw [hcleared]; omega)] at hiff
    refine ⟨w, cleared, hclear, ?_, ?_⟩
    · rwa [← hlayout'] at hiff ⊢
    · intro y hy
      obtain ⟨hsame, -⟩ := hwritten.reopened hx hy
      rw [hsame.layout_eq, hlayout']

/-- The least image with a section header, its headers moved by one octet into the middle of a
word. -/
def moved : Image where
  bytes :=
    let whole := (Image.least .none [(0, 0)] []).bytes
    whole.take 60 ++ Bytes.ofLe 4 65 ++ [0] ++ whole.drop 64
  layout := ⟨153, 217, 264, [⟨"", 0, 0⟩]⟩

/-- The checksum of the moved image does not hold after an update, and a second update stores
another one. It does not hold in the file that a run writes either. -/
theorem hasChecksum_iff_moved :
    Image.parse moved.bytes = .ok moved ∧
      (∃ y z, Image.updateChecksum moved = .ok () y ∧ Image.updateChecksum y = .ok () z ∧
        ¬y.HasChecksum ∧ z ≠ y) ∧
      Rewrites moved.bytes (imported moved.bytes) [.least] ∧
      ¬(⟨imported moved.bytes, moved.layout⟩ : Image).HasChecksum := by
  have hx : Image.parse moved.bytes = .ok moved := by decide +kernel
  obtain ⟨-, ⟨y, z, hy, hz, hiff, hsame⟩, -, hruns⟩ := hasChecksum_iff hx
  have hstate : Step.stateOf (Image.updateChecksum moved) = y := by rw [hy]; rfl
  have hnot : ¬(Even moved.layout.checksumOffset ∨
      y.bytes[moved.layout.checksumOffset]? = moved.bytes[moved.layout.checksumOffset]?) := by
    rw [← hstate]
    decide +kernel
  have hlost := mt hiff.1 hnot
  have hrun : Rewrites moved.bytes (imported moved.bytes) [.least] := by
    refine ⟨importing moved.bytes, _, .ofList [.importSignature], .importSignature, "in", "out", ?_,
      rfl, Step.eq_ok_of_isOk ?_, rfl, ?_, rfl, ?_, ?_⟩
    all_goals decide +kernel
  obtain ⟨w, cleared, hclear, hiff', -⟩ := hruns _ _ hrun
  have hentry : moved.directory = .ok .none := by decide +kernel
  rw [Image.clearTable_of_isEmpty hentry rfl, EStateM.Result.ok.injEq] at hclear
  obtain ⟨-, rfl⟩ := hclear
  have hnot' : ¬(Even moved.layout.checksumOffset ∨
      (imported moved.bytes)[moved.layout.checksumOffset]?
        = moved.bytes[moved.layout.checksumOffset]?) := by
    decide +kernel
  exact ⟨hx, ⟨y, z, hy, hz, hlost, mt hsame.1 hlost⟩, hrun, mt hiff'.1 hnot'⟩

end Authenticode.Session
