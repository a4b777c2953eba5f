import Authenticode.Proofs.Pe.Bounds
import Authenticode.Proofs.Pe.Failures
import Authenticode.Proofs.Pe.TableCoverage

/-!
# A digest that no call changes

An image without a certificate table may be given one, lose it and be given another, by
calls in any order of which some fail. What it was parsed from stays its base all the
while: the octets are that base, at most seven zeros, and a table that ends the file. A
padded digest covers the base as if it were filled up, so it is the same after every
sequence of calls.
-/
namespace Authenticode.Pe.Image

variable {i : Image} {l : Layout} {d : CertificateDirectory} {base table : Bytes}
  {a : HashAlgorithm} {o : DigestOptions}

/-- The image after calls that are made in turn; a failure does not end them. -/
def afterCalls : List Call → Image → Image
  | [], i => i
  | c :: cs, i => afterCalls cs (c.after i)

/-- No call leaves a file of 4 GiB or more. -/
def StaysBelow : List Call → Image → Prop
  | [], _ => True
  | c :: cs, i => (c.after i).length < 2 ^ 32 ∧ StaysBelow cs (c.after i)

instance decidableStaysBelow : (calls : List Call) → (i : Image) → Decidable (StaysBelow calls i)
  | [], _ => .isTrue trivial
  | c :: cs, i =>
    have := decidableStaysBelow cs (c.after i)
    inferInstanceAs (Decidable (_ ∧ _))

theorem Call.after_eq (c : Call) (i : Image) : c.after i = Step.stateOf (c.edit i) := by
  unfold Call.after
  cases c.edit i <;> rfl

/-- Clearing takes the table away just as replacing it by an empty one does. -/
theorem Call.after_clear (hd : i.directory = .ok d) :
    Call.clear.after i = (Call.replace []).after i := by
  rw [Call.after_eq, Call.after_eq]
  apply Step.stateOf_discard.trans
  rw [clearTable_eq_replaceTable hd]
  exact Step.stateOf_discard.symm

theorem Call.after_digest (a : HashAlgorithm) (o : DigestOptions) (i : Image) :
    (Call.digest a o).after i = i := by
  rw [Call.after_eq]
  apply Step.stateOf_discard.trans
  cases i.digest a o <;> rfl

theorem Over.after_grow (h : i.Over l base table) (amount : Nat)
    (hlength : ((Call.grow amount).after i).length < 2 ^ 32) :
    ∃ table', ((Call.grow amount).after i).Over l base table' := by
  cases hgrow : Image.growTable amount i with
  | ok _ j =>
    rw [Call.after_of_ok (c := .grow amount) hgrow]
    exact ⟨_, h.growTable hgrow⟩
  | error f j =>
    rw [Call.after_of_error (c := .grow amount) hgrow] at hlength ⊢
    rcases h.of_growTable_error hgrow with hover | ⟨hsize, hlong⟩
    · exact ⟨_, hover⟩
    · omega

theorem Over.after_write (h : i.Over l base table) (t : Bytes) :
    ∃ table', ((Call.write t).after i).Over l base table' := by
  cases hwrite : Image.writeTable t i with
  | ok _ j =>
    rw [Call.after_of_ok (c := .write t) hwrite]
    exact ⟨_, h.writeTable hwrite⟩
  | error f j =>
    rw [Call.after_of_error (c := .write t) hwrite, eq_of_writeTable_error hwrite]
    exact ⟨_, h⟩

theorem Over.after_replace (h : i.Over l base table) (t : Bytes)
    (hlength : ((Call.replace t).after i).length < 2 ^ 32) :
    ∃ table', ((Call.replace t).after i).Over l base table' := by
  cases hreplace : Image.replaceTable t i with
  | ok w j =>
    rw [Call.after_of_ok (c := .replace t) (Step.discard_of_ok hreplace)]
    exact ⟨_, h.replaceTable hreplace⟩
  | error f j =>
    rw [Call.after_of_error (c := .replace t) (Step.discard_of_error hreplace)] at hlength ⊢
    obtain ⟨-, ⟨-, -, hover⟩ | ⟨hsize, hlong⟩⟩ := h.of_replaceTable_error hreplace
    · exact ⟨_, hover⟩
    · omega

/-- Every call leaves an image over the same base, whether it succeeds or fails. -/
theorem Over.after (h : i.Over l base table) (c : Call) (hlength : (c.after i).length < 2 ^ 32) :
    ∃ table', (c.after i).Over l base table' := by
  cases c with
  | clear =>
    obtain ⟨d, hd, -⟩ := h.entry
    rw [Call.after_clear hd] at hlength ⊢
    exact h.after_replace [] hlength
  | grow amount => exact h.after_grow amount hlength
  | write t => exact h.after_write t
  | replace t => exact h.after_replace t hlength
  | updateChecksum =>
    obtain ⟨j, hupdate⟩ := h.exists_updateChecksum
    rw [Call.after_of_ok (c := .updateChecksum) hupdate]
    exact ⟨_, h.updateChecksum hupdate⟩
  | digest a o =>
    rw [Call.after_digest]
    exact ⟨table, h⟩

theorem Over.afterCalls (h : i.Over l base table) (calls : List Call)
    (hbelow : StaysBelow calls i) : ∃ table', (Image.afterCalls calls i).Over l base table' := by
  induction calls generalizing i table with
  | nil => exact ⟨table, h⟩
  | cons c cs ih =>
    obtain ⟨hlength, hrest⟩ := hbelow
    obtain ⟨table', hafter⟩ := h.after c hlength
    exact ih hafter hrest

/-- The table of an image over a base stands behind the base, at an aligned offset, and ends the
file. -/
theorem Over.directory (h : i.Over l base table) :
    ∃ d, i.directory = .ok d ∧ (d.isEmpty = true ∨
      8 ∣ d.offset ∧ base.length ≤ d.offset ∧ d.stop = i.length) := by
  obtain ⟨d, hd, hempty⟩ := h.entry
  refine ⟨d, hd, ?_⟩
  by_cases htable : table = []
  · exact .inl (hempty.1 htable)
  · have hholds := h.holds htable
    cases hd.symm.trans (hholds.directory_of_table htable)
    refine .inr ⟨?_, Bytes.length_le_aligned base, hholds.stop_eq⟩
    rw [Bytes.length_aligned]
    exact Bytes.dvd_align8 _

/-- Calls on an image that was parsed without a certificate table: a padded digest stays what it
was, and the directory entry is empty or names a table that stands behind what was parsed, at an
aligned offset, and ends the file. -/
theorem digest_of_calls {data : Bytes} {digest : Digest} (hparse : parse data = .ok i)
    (hd : i.directory = .ok d) (he : d.isEmpty = true) (hapart : i.layout.SectionsApart)
    (ho : o.padding = true) (hdigest : i.digest a o = .ok digest) (calls : List Call)
    (hbelow : StaysBelow calls i) :
    (Image.afterCalls calls i).digest a o = .ok digest ∧
      ∃ e, (Image.afterCalls calls i).directory = .ok e ∧ (e.isEmpty = true ∨
        8 ∣ e.offset ∧ data.length ≤ e.offset ∧ e.stop = (Image.afterCalls calls i).length) := by
  obtain ⟨hlayout, rfl, -⟩ := parse_eq_ok_iff.1 hparse
  obtain ⟨covered, hcovered, -⟩ := Except.map_eq_ok_iff.1 hdigest
  obtain ⟨hheaders, hsections⟩ := within_of_coverage (Layout.ordered_of_parse hlayout) hcovered
  have hover := over_of_parse hparse hd he
  obtain ⟨table, hafter⟩ := hover.afterCalls calls hbelow
  rw [hover.padded_digest ho hheaders hsections hapart] at hdigest
  exact ⟨(hafter.padded_digest ho hheaders hsections hapart).trans hdigest, hafter.directory⟩

/-- Calls of every kind on an image with a section and an unaligned end; the first and the fifth
fail. -/
def mixedCalls : List Call :=
  [.write [9], .grow 24, .write [1, 2], .grow 3, .write (List.replicate 28 7), .updateChecksum,
    .replace [1, 2, 3, 4, 5], .clear, .grow 8]

/-- Two of the calls fail, and a table is there at the end. The section of vendor certificates is
left out of the digest. -/
theorem digest_of_calls_mixed :
    let x := least .none [(264, 8)] (Bytes.zeros 8 ++ [1, 2, 3])
    parse x.bytes = .ok x ∧ x.layout.SectionsApart ∧ StaysBelow mixedCalls x ∧
      ∃ digest, x.digest .sha256 ⟨true, true⟩ = .ok digest ∧
        (afterCalls mixedCalls x).digest .sha256 ⟨true, true⟩ = .ok digest ∧
        ∃ e, (afterCalls mixedCalls x).directory = .ok e ∧ (e.isEmpty = true ∨
          8 ∣ e.offset ∧ x.bytes.length ≤ e.offset ∧
            e.stop = (afterCalls mixedCalls x).length) := by
  intro x
  have hparse : parse x.bytes = .ok x := by decide +kernel
  have hnone : x.directory = .ok .none := by decide +kernel
  have hapart : x.layout.SectionsApart := by decide +kernel
  have hbelow : StaysBelow mixedCalls x := by decide +kernel
  have hcoverage : (x.coverage ⟨true, true⟩).isOk = true := by decide +kernel
  cases hcovered : x.coverage ⟨true, true⟩ with
  | error f =>
    rw [hcovered] at hcoverage
    cases hcoverage
  | ok covered =>
    have hdigest : x.digest .sha256 ⟨true, true⟩ = .ok (Digest.compute .sha256 covered) := by
      rw [Image.digest, hcovered]
      rfl
    exact ⟨hparse, hapart, hbelow, _, hdigest,
      digest_of_calls hparse hnone rfl hapart rfl hdigest mixedCalls hbelow⟩

end Authenticode.Pe.Image
