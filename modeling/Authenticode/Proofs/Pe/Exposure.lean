import Authenticode.Proofs.Pe.Bounds

/-!
# Images that can be made to abort

A table that overlaps its own directory entry is written over the entry, and the
entry may then name octets outside the file, or a table that cuts the headers once
it is cleared. Such an image is exposed. Writing is the only call that leads there:
every other one either fails on a table that does not end the file or leaves the
image sound. So some sequence of calls aborts exactly when some sequence of writes
exposes the image.
-/
namespace Authenticode.Pe.Image

/-- The entry names a table that leaves the file, or one that ends it and begins within the
headers. -/
def Exposed (i : Image) : Prop :=
  ∃ d, i.directory = .ok d ∧ d.isEmpty = false ∧
    (i.length < d.stop ∨ d.stop = i.length ∧ d.offset < i.layout.sizeOfHeaders)

/-- The image after tables were written in turn. -/
def afterWrites : List Bytes → Image → Image
  | [], i => i
  | t :: ts, i => afterWrites ts ((Call.write t).after i)

variable {i j : Image} {d : CertificateDirectory} {table : Bytes}

theorem holdable_writes (calls : List Call) : ∀ tables i,
    Holdable calls (afterWrites tables i) → Holdable (tables.map .write ++ calls) i := by
  intro tables
  induction tables with
  | nil => intro i h; exact h
  | cons t ts ih => intro i h; exact ⟨trivial, ih _ h⟩

theorem mem_answers_writes {r : Except Error Unit} (calls : List Call) : ∀ tables i,
    r ∈ answers calls (afterWrites tables i) → r ∈ answers (tables.map .write ++ calls) i := by
  intro tables
  induction tables with
  | nil => intro i h; exact h
  | cons t ts ih => intro i h; exact List.mem_cons_of_mem _ (ih _ h)

theorem after_write (hd : i.directory = .ok d) :
    (Call.write table).after i =
      if table.length ≤ d.reserved ∧ d.isEmpty = false ∧ d.stop ≤ i.length then
        i.withBytes (i.bytes.overwrite d.offset (table.resize d.size)) else i := by
  by_cases hfits : table.length ≤ d.reserved
  · cases he : d.isEmpty with
    | true =>
      have hwrite := writeTable_of_le hd hfits (by simp [he])
      rw [Call.after_of_ok (c := .write table) hwrite]
      simp [he]
    | false =>
      by_cases hin : d.stop ≤ i.length
      · have hwrite := writeTable_of_le hd hfits fun _ => hin
        rw [Call.after_of_ok (c := .write table) hwrite]
        simp [he, hfits, hin]
      · have hwrite := writeTable_of_outside hd he (reserved_of_table he ▸ hfits) (Nat.not_le.1 hin)
        rw [Call.after_of_error (c := .write table) hwrite]
        simp [hin]
  · have hwrite := writeTable_of_lt hd (Nat.not_le.1 hfits)
    rw [Call.after_of_error (c := .write table) hwrite]
    simp [hfits]

/-- The same layout over octets that are the same in the directory entry. -/
structure Alike (i j : Image) : Prop where
  layout_eq : j.layout = i.layout
  agree : Bytes.AgreeOff (fun k => ¬Bytes.Within i.layout.directoryOffset directoryEntrySize k)
    j.bytes i.bytes

theorem Alike.length_eq (h : i.Alike j) : j.length = i.length := h.agree.1

theorem Alike.directory_iff (h : i.Alike j) : j.directory = .ok d ↔ i.directory = .ok d := by
  apply directory_congr h.layout_eq
  rw [h.layout_eq]
  exact h.agree.slice?_eq fun k hk hk' hout => hout ⟨hk, hk'⟩

theorem Alike.exposed (h : i.Alike j) (hj : j.Exposed) : i.Exposed := by
  obtain ⟨d, hd, he, hout⟩ := hj
  rw [h.length_eq, h.layout_eq] at hout
  exact ⟨d, h.directory_iff.1 hd, he, hout⟩

/-- What a write stores in the entry is decided by the entry and the table alone. -/
theorem Alike.write (h : i.Alike j) (hd : i.directory = .ok d) (table : Bytes) :
    ((Call.write table).after i).Alike ((Call.write table).after j) := by
  rw [after_write hd, after_write (h.directory_iff.2 hd), h.length_eq]
  split
  · next hwrites =>
    obtain ⟨-, -, hstop⟩ := hwrites
    have hin : d.offset + (table.resize d.size).length ≤ i.bytes.length := by
      rw [Bytes.length_resize]
      exact hstop
    refine ⟨h.layout_eq, .overwrite hin (h.agree.mono fun k hk => .inl hk)⟩
  · exact h

theorem length_after_write (hd : i.directory = .ok d) (table : Bytes) :
    ((Call.write table).after i).layout = i.layout ∧
      ((Call.write table).after i).length = i.length := by
  rw [after_write hd]
  split
  · next hwrites =>
    obtain ⟨-, -, hstop⟩ := hwrites
    refine ⟨rfl, Bytes.length_overwrite ?_⟩
    rw [Bytes.length_resize]
    exact hstop
  · exact ⟨rfl, rfl⟩

theorem Alike.afterWrites : ∀ (tables : List Bytes) {i j : Image},
    i.layout.directoryOffset + directoryEntrySize ≤ i.length → i.Alike j →
      (Image.afterWrites tables i).Alike (Image.afterWrites tables j) := by
  intro tables
  induction tables with
  | nil => intro i j _ h; exact h
  | cons t ts ih =>
    intro i j hentry h
    obtain ⟨d, hd⟩ := exists_directory hentry
    obtain ⟨hlayout, hlength⟩ := length_after_write hd t
    apply ih
    · rw [hlayout, hlength]
      exact hentry
    · exact h.write hd t

theorem Sound.not_exposed (h : i.Sound) : ¬i.Exposed := by
  rintro ⟨d, hd, he, hout | ⟨hstop, hcut⟩⟩
  · have hin := h.stop_le d hd he
    omega
  · have hbehind := (h.detached d hd he).1 hstop
    omega

theorem Sound.not_exposed_afterWrites : ∀ (tables : List Bytes) (i : Image), i.Sound →
    ¬(Image.afterWrites tables i).Exposed := by
  intro tables
  induction tables with
  | nil => intro i h; exact h.not_exposed
  | cons t ts ih => intro i h; exact ih _ (h.edit (c := .write t) trivial).call.2

/-- What every call keeps where the table need not be detached. -/
structure Unexposed (i : Image) : Prop where
  ordered : i.layout.Ordered
  headers_le : i.layout.sizeOfHeaders ≤ i.length
  never : ∀ tables, ¬(afterWrites tables i).Exposed

theorem Sound.unexposed (h : i.Sound) : i.Unexposed :=
  ⟨h.ordered, h.headers_le, fun tables => h.not_exposed_afterWrites tables i⟩

theorem Unexposed.inside (h : i.Unexposed) : i.Inside := by
  refine ⟨h.ordered, h.headers_le, ?_⟩
  intro d hd he
  by_contra hout
  exact h.never [] ⟨d, hd, he, .inl (Nat.not_le.1 hout)⟩

/-- Only a table with octets behind it can overlap the entry without exposing the image. -/
theorem Unexposed.sound (h : i.Unexposed)
    (hend : ∀ d, i.directory = .ok d → d.isEmpty = false → d.stop = i.length) : i.Sound := by
  refine ⟨h.inside, ?_⟩
  intro d hd he
  have hstop := hend d hd he
  have hbehind : i.layout.sizeOfHeaders ≤ d.offset := by
    by_contra hcut
    exact h.never [] ⟨d, hd, he, .inr ⟨hstop, Nat.not_le.1 hcut⟩⟩
  exact ⟨fun _ => hbehind, .inr (h.ordered.entry_le.trans hbehind)⟩

section

variable (h : i.Unexposed) (hd : i.directory = .ok d) (he : d.isEmpty = false)
  (hstop : d.stop ≠ i.length)

include h hd he hstop

theorem Unexposed.clearTable : Keeps Sound (clearTable i) := by
  have hcleared : (i.withDirectory .none).Sound :=
    .of_withDirectory h.ordered h.headers_le ⟨by decide, by decide⟩ nofun
  have hwithout : i.withoutTable d = i.withDirectory .none := if_neg hstop
  apply Keeps.clearTable hd he
  rw [hwithout]
  exact hcleared.updateChecksum

theorem Unexposed.growTable (amount : Nat) : Keeps Unexposed (growTable amount i) := by
  by_cases hzero : amount = 0
  · rw [hzero, growTable_zero]
    exact h
  · have htail := tailDirectory_of_table hd he
    rw [if_neg hstop] at htail
    rw [growTable_of_tail_error hzero htail]
    exact ⟨nofun, h⟩

theorem Unexposed.replaceTable (table : Bytes) : Keeps Unexposed (replaceTable table i) := by
  by_cases htable : table = []
  · rw [htable, replaceTable_nil hd, he, if_neg Bool.false_ne_true]
    exact (h.clearTable hd he hstop).mono fun j hj => hj.unexposed
  · have htail := tailDirectory_of_table hd he
    rw [if_neg hstop] at htail
    rw [replaceTable_of_tail_error hd htable htail]
    exact ⟨nofun, h⟩

end

theorem Unexposed.writeTable (h : i.Unexposed) (table : Bytes) :
    Keeps Unexposed (writeTable table i) := by
  obtain ⟨d, hd⟩ := exists_directory h.inside.entry_le
  by_cases hfits : table.length ≤ d.reserved
  · have hwrite := writeTable_of_le hd hfits (h.inside.stop_le d hd)
    have hafter := Call.after_of_ok (c := .write table) hwrite
    obtain ⟨hlayout, hlength⟩ := length_after_write hd table
    rw [hwrite, ← hafter]
    refine ⟨?_, ?_, fun tables => h.never (table :: tables)⟩
    · rw [hlayout]
      exact h.ordered
    · rw [hlayout, hlength]
      exact h.headers_le
  · rw [writeTable_of_lt hd (Nat.not_le.1 hfits)]
    exact ⟨nofun, h⟩

theorem Unexposed.updateChecksum (h : i.Unexposed) : Keeps Unexposed (updateChecksum i) := by
  have hin : i.layout.checksumOffset + Checksum.fieldLength ≤ i.bytes.length :=
    h.inside.checksum_le
  rw [updateChecksum_of_le hin]
  set sum := Bytes.ofLe Checksum.fieldLength (Checksum.compute i.bytes i.layout.checksumOffset)
  have hsum : sum.length = Checksum.fieldLength := Bytes.length_ofLe _ _
  have halike : i.Alike (i.withBytes (i.bytes.overwrite i.layout.checksumOffset sum)) := by
    refine ⟨rfl, (Bytes.agreeOff_overwrite (by rwa [hsum])).mono ?_⟩
    intro k hk hentry
    have hchecksum := h.ordered.checksum_le
    rw [hsum] at hk
    have := hk.2
    have := hentry.1
    omega
  refine ⟨h.ordered, ?_, ?_⟩
  · rw [layout_withBytes, halike.length_eq]
    exact h.headers_le
  · intro tables hexposed
    exact h.never tables ((halike.afterWrites tables h.inside.entry_le).exposed hexposed)

/-- Every call keeps an image that no writes expose. -/
theorem Unexposed.edit (h : i.Unexposed) {c : Call} (hc : c.Holdable i) :
    Keeps Unexposed (c.edit i) := by
  obtain ⟨d, hd⟩ := exists_directory h.inside.entry_le
  by_cases hmiddle : d.isEmpty = false ∧ d.stop ≠ i.length
  · obtain ⟨he, hstop⟩ := hmiddle
    cases c with
    | clear => exact (h.clearTable hd he hstop).discard.mono fun j hj => hj.unexposed
    | grow amount => exact h.growTable hd he hstop amount
    | write table => exact h.writeTable table
    | replace table => exact (h.replaceTable hd he hstop table).discard
    | updateChecksum => exact h.updateChecksum
    | digest a o => exact h.inside.keeps_digest h a o
  · have hsound : i.Sound := by
      apply h.sound
      intro d' hd' he
      cases hd.symm.trans hd'
      by_contra hstop
      exact hmiddle ⟨he, hstop⟩
    exact (hsound.edit hc).mono fun j hj => hj.unexposed

/-- The certificate table ends the file, but begins within the headers. -/
def TableCutsHeaders (i : Image) : Prop :=
  ∃ d, i.directory = .ok d ∧ d.isEmpty = false ∧ d.stop = i.length ∧
    d.offset < i.layout.sizeOfHeaders

instance (i : Image) : Decidable i.TableCutsHeaders :=
  match h : i.directory with
  | .ok d => decidable_of_iff (d.isEmpty = false ∧ d.stop = i.length ∧
      d.offset < i.layout.sizeOfHeaders)
      ⟨fun hd => ⟨d, h, hd⟩, fun ⟨d', hd', hd⟩ => by cases h.symm.trans hd'; exact hd⟩
  | .error _ => .isFalse fun ⟨d, hd, _⟩ => by cases h.symm.trans hd

/-- Clearing a table that begins within the headers leaves an image that is too short for them,
whether the checksum can still be stored or not. -/
theorem after_clear_of_cut (hd : i.directory = .ok d) (he : d.isEmpty = false)
    (hstop : d.stop = i.length) :
    (Call.clear.after i).layout = i.layout ∧ (Call.clear.after i).length = d.offset := by
  have hcut : (i.withoutTable d).length = d.offset := by
    have hlen : (i.withDirectory .none).bytes.length = i.length :=
      length_withDirectory (entry_le_of_directory hd) _
    unfold withoutTable
    rw [if_pos hstop, length_withBytes, List.length_take, hlen, ← hstop, CertificateDirectory.stop]
    omega
  have hclear := clearTable_of_table hd he
  by_cases hchecksum :
      i.layout.checksumOffset + Checksum.fieldLength ≤ (i.withoutTable d).length
  · rw [updateChecksum_of_le (by rwa [layout_withoutTable])] at hclear
    rw [Call.after_of_ok (c := .clear) (Step.discard_of_ok hclear), length_withBytes,
      Bytes.length_overwrite (by rwa [Bytes.length_ofLe, layout_withoutTable])]
    exact ⟨layout_withoutTable i d, hcut⟩
  · rw [updateChecksum_of_lt (by rw [layout_withoutTable]; omega)] at hclear
    rw [Call.after_of_error (c := .clear) (Step.discard_of_error hclear)]
    exact ⟨layout_withoutTable i d, hcut⟩

theorem aborted_mem_answers_of_cut (hd : i.directory = .ok d) (he : d.isEmpty = false)
    (hstop : d.stop = i.length) (hcut : d.offset < i.layout.sizeOfHeaders) (a : HashAlgorithm)
    (o : DigestOptions) : .error .aborted ∈ answers [.clear, .digest a o] i := by
  obtain ⟨hlayout, hlen⟩ := after_clear_of_cut hd he hstop
  have hdigest : (Call.clear.after i).digest a o = .error .aborted := by
    rw [digest, coverage_of_length_lt (by rw [hlayout, hlen]; exact hcut)]
    rfl
  have hedit : (Call.digest a o).edit (Call.clear.after i)
      = .error .aborted (Call.clear.after i) := by
    change (discard (ofExcept ((Call.clear.after i).digest a o)) : Edit Unit) _ = _
    rw [hdigest]
    rfl
  have hanswer : (Call.digest a o).answer (Call.clear.after i) = .error .aborted := by
    rw [Call.answer, hedit]
  exact List.mem_cons_of_mem _ (List.mem_cons.2 (.inl hanswer.symm))

theorem Exposed.exists_aborted (h : i.Exposed) :
    ∃ calls, Holdable calls i ∧ .error .aborted ∈ answers calls i := by
  obtain ⟨d, hd, he, hout | ⟨hstop, hcut⟩⟩ := h
  · have hwrite : (Call.write []).edit i = .error .aborted i :=
      writeTable_of_outside hd he (Nat.zero_le _) hout
    refine ⟨[.write []], ⟨trivial, trivial⟩, List.mem_cons.2 (.inl ?_)⟩
    rw [Call.answer, hwrite]
  · exact ⟨[.clear, .digest .sha256 .signing], ⟨trivial, trivial, trivial⟩,
      aborted_mem_answers_of_cut hd he hstop hcut .sha256 .signing⟩

/-- The certificate table lies around its own directory entry. -/
def TableCoversEntry (i : Image) : Prop :=
  ∃ d, i.directory = .ok d ∧ d.isEmpty = false ∧ d.offset ≤ i.layout.directoryOffset ∧
    i.layout.directoryOffset + directoryEntrySize ≤ d.stop

instance (i : Image) : Decidable i.TableCoversEntry :=
  match h : i.directory with
  | .ok d => decidable_of_iff (d.isEmpty = false ∧ d.offset ≤ i.layout.directoryOffset ∧
      i.layout.directoryOffset + directoryEntrySize ≤ d.stop)
      ⟨fun hd => ⟨d, h, hd⟩, fun ⟨d', hd', hd⟩ => by cases h.symm.trans hd'; exact hd⟩
  | .error _ => .isFalse fun ⟨d, hd, _⟩ => by cases h.symm.trans hd

/-- Where the table covers its directory entry, writing it can store any entry. -/
theorem writeTable_of_covers (hd : i.directory = .ok d) (he : d.isEmpty = false)
    (hstop : d.stop ≤ i.length) (hcovers : d.offset ≤ i.layout.directoryOffset ∧
      i.layout.directoryOffset + directoryEntrySize ≤ d.stop) (e : CertificateDirectory) :
    Image.writeTable (((i.withDirectory e).bytes.take d.stop).drop d.offset) i
      = .ok () (i.withDirectory e) := by
  have hentry := entry_le_of_directory hd
  have hlen : (i.withDirectory e).bytes.length = i.bytes.length := length_withDirectory hentry e
  have hstop' : d.stop ≤ i.bytes.length := hstop
  have hreserved := reserved_of_table he
  have htable : (((i.withDirectory e).bytes.take d.stop).drop d.offset).length = d.size := by
    rw [List.length_drop, List.length_take, hlen, Nat.min_eq_left hstop', CertificateDirectory.stop,
      Nat.add_sub_cancel_left]
  rw [writeTable_of_le hd (by omega) fun _ => hstop, he, if_neg Bool.false_ne_true,
    ← htable, Bytes.resize_self]
  congr 1
  have hsize : d.offset + (((i.withDirectory e).bytes.take d.stop).drop d.offset).length
      ≤ i.bytes.length := by rwa [htable]
  refine congrArg i.withBytes (List.ext_getElem? ?_)
  intro k
  have hoff := (agreeOff_withDirectory hentry e).2 k
  rw [Bytes.getElem?_overwrite hsize, htable]
  by_cases hk : Bytes.Within d.offset d.size k
  · have hin : d.offset + (k - d.offset) = k := by
      have := hk.1
      omega
    rw [if_pos hk, List.getElem?_drop, List.getElem?_take, hin]
    rw [if_pos (show k < d.stop from hk.2)]
    rfl
  · rw [if_neg hk]
    refine (hoff fun hwithin => hk ⟨?_, ?_⟩).symm
    · exact hcovers.1.trans hwithin.1
    · exact hwithin.2.trans_le hcovers.2

/-- What decides whether calls can abort: some sequence of calls does exactly when some sequence of
writes exposes the image. No writes do when the table is detached. Where it cuts the headers,
clearing it and computing a digest abort at once; where it covers its directory entry, two writes
do. -/
theorem answers_of_parse {data : Bytes} (hparse : parse data = .ok i) :
    ((∀ calls, Holdable calls i → ∀ r ∈ answers calls i, r ≠ .error .aborted) ↔
      ∀ tables, ¬(afterWrites tables i).Exposed) ∧
    (i.TableDetached → ∀ calls, Holdable calls i →
      ∀ r ∈ answers calls i, r ≠ .error .aborted) ∧
    (i.TableCutsHeaders → ∀ a o, .error .aborted ∈ answers [.clear, .digest a o] i) ∧
    (i.TableCoversEntry → i.length < 2 ^ 32 →
      ∃ table, .error .aborted ∈ answers [.write table, .write []] i) := by
  have hinside := inside_of_parse hparse
  have hsafe : i.Unexposed → ∀ calls, Holdable calls i →
      ∀ r ∈ answers calls i, r ≠ .error .aborted :=
    fun h calls => answers_ne_aborted (fun _ _ hj hc => hj.edit hc) calls i h
  refine ⟨⟨?_, ?_⟩, ?_, ?_, ?_⟩
  · intro hanswers tables hexposed
    obtain ⟨calls, hcalls, habort⟩ := hexposed.exists_aborted
    exact hanswers _ (holdable_writes calls tables i hcalls) _
      (mem_answers_writes calls tables i habort) rfl
  · intro hnever
    exact hsafe ⟨hinside.ordered, hinside.headers_le, hnever⟩
  · intro hdetached
    have hsound : i.Sound := ⟨hinside, hdetached⟩
    exact hsafe hsound.unexposed
  · rintro ⟨d, hd, he, hstop, hcut⟩
    exact aborted_mem_answers_of_cut hd he hstop hcut
  · rintro ⟨d, hd, he, hcovers⟩ hlen
    let far : CertificateDirectory := ⟨2 ^ 32 - 1, 2 ^ 32 - 1⟩
    have hentry := entry_le_of_directory hd
    have hfar : (i.withDirectory far).directory = .ok far :=
      directory_withDirectory hentry ⟨by decide, by decide⟩
    have hwrite := writeTable_of_covers hd he (hinside.stop_le d hd he) hcovers far
    have hagain : (Call.write []).edit (i.withDirectory far) = .error .aborted _ :=
      writeTable_of_outside hfar rfl (Nat.zero_le _) (by
        rw [length_withDirectory hentry]
        exact hlen.trans (by decide))
    refine ⟨((i.withDirectory far).bytes.take d.stop).drop d.offset,
      List.mem_cons_of_mem _ (List.mem_cons.2 (.inl ?_))⟩
    rw [Call.after_of_ok (c := .write _) hwrite, Call.answer, hagain]

/-- The three cases on images with a table behind the headers, with one that begins within them,
and with one that starts at the file's beginning and has an octet behind it. -/
theorem answers_of_parse_least :
    (parse (least ⟨224, 8⟩ [] (Bytes.zeros 8)).bytes = .ok (least ⟨224, 8⟩ [] (Bytes.zeros 8)) ∧
      ∀ calls, Holdable calls (least ⟨224, 8⟩ [] (Bytes.zeros 8)) →
        ∀ r ∈ answers calls (least ⟨224, 8⟩ [] (Bytes.zeros 8)), r ≠ .error .aborted) ∧
    (parse (least ⟨256, 8⟩ [(0, 0)] []).bytes = .ok (least ⟨256, 8⟩ [(0, 0)] []) ∧
      .error .aborted ∈ answers [.clear, .digest .sha256 .signing] (least ⟨256, 8⟩ [(0, 0)] [])) ∧
    (parse (least ⟨1, 223⟩ [] [0]).bytes = .ok (least ⟨1, 223⟩ [] [0]) ∧
      ∃ table, .error .aborted ∈ answers [.write table, .write []] (least ⟨1, 223⟩ [] [0])) := by
  have hbehind : parse (least ⟨224, 8⟩ [] (Bytes.zeros 8)).bytes
      = .ok (least ⟨224, 8⟩ [] (Bytes.zeros 8)) := by decide +kernel
  have hwithin : parse (least ⟨256, 8⟩ [(0, 0)] []).bytes = .ok (least ⟨256, 8⟩ [(0, 0)] []) := by
    decide +kernel
  have haround : parse (least ⟨1, 223⟩ [] [0]).bytes = .ok (least ⟨1, 223⟩ [] [0]) := by
    decide +kernel
  refine ⟨⟨hbehind, ?_⟩, ⟨hwithin, ?_⟩, ⟨haround, ?_⟩⟩
  · exact (answers_of_parse hbehind).2.1 (by decide +kernel)
  · exact (answers_of_parse hwithin).2.2.1 (by decide +kernel) .sha256 .signing
  · exact (answers_of_parse haround).2.2.2 (by decide +kernel) (by decide +kernel)

end Authenticode.Pe.Image
