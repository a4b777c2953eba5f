import Authenticode.Armor
import Mathlib.Tactic

/-!
# Taking armor off again

Armored octets are read back: base64 has one octet string for each text that is
written, the text has no dash and no blank, so the markers are found where they were
put and no line loses a symbol. Octets that begin with a letter or a digit are no
armored text, since armor begins with a dash, behind blanks at most.
-/
namespace Authenticode

variable {data : Bytes} {text : String} {d : UInt8} {rest : Bytes}

namespace Bytes

theorem ofText_eq_flatMap (s : String) : ofText s = s.toList.flatMap String.utf8EncodeChar := by
  have h : s.toByteArray = (s.toList.flatMap String.utf8EncodeChar).toByteArray :=
    String.utf8Encode_toList.symm
  change s.toByteArray.data.toList = _
  rw [h]
  simp

theorem toText?_eq_some_iff : data.toText? = some text ↔ data = ofText text := by
  change String.fromUTF8? ⟨data.toArray⟩ = _ ↔ data = text.toByteArray.data.toList
  unfold String.fromUTF8?
  constructor
  · intro h
    split at h
    · cases h
      rfl
    · cases h
  · rintro rfl
    have hvalid : (⟨text.toByteArray.data.toList.toArray⟩ : ByteArray).IsValidUTF8 := by
      rw [Array.toArray_toList]
      exact text.isValidUTF8
    rw [dif_pos hvalid]
    refine congrArg some (String.toByteArray_inj.1 ?_)
    change (⟨text.toByteArray.data.toList.toArray⟩ : ByteArray) = _
    rw [Array.toArray_toList]

theorem exists_toList_of_toText? (h : toText? (d :: rest) = some text) (hd : d < 0x80) :
    ∃ c cs, text.toList = c :: cs ∧ c.toNat = d.toNat := by
  have htext := toText?_eq_some_iff.1 h
  rw [ofText_eq_flatMap] at htext
  cases hchars : text.toList with
  | nil =>
    rw [hchars] at htext
    cases htext
  | cons c cs =>
    refine ⟨c, cs, rfl, ?_⟩
    rw [hchars, List.flatMap_cons] at htext
    have hhead : (String.utf8EncodeChar c).head? = some d := by
      cases hc : String.utf8EncodeChar c with
      | nil => exact absurd hc String.utf8EncodeChar_ne_nil
      | cons e es =>
        rw [hc] at htext
        cases htext
        rfl
    have hd' : d.toNat < 128 := hd
    unfold String.utf8EncodeChar at hhead
    change c.val.toNat = d.toNat
    dsimp only at hhead
    split_ifs at hhead
    all_goals
      rw [List.head?_cons, Option.some.injEq] at hhead
      rw [← hhead, UInt8.toNat_ofNat'] at hd' ⊢
      omega

end Bytes

namespace Base64

theorem value?_symbol {n : Nat} (h : n < 64) : value? (symbol n) = some n := by
  revert n
  decide +kernel

/-- A symbol is no padding, no dash and no blank. -/
theorem symbol_spec {n : Nat} (h : n < 64) :
    symbol n ≠ '=' ∧ symbol n ≠ '-' ∧ Text.isBlank (symbol n) = false := by
  revert n
  decide +kernel

theorem toUInt8_of_eq {n : Nat} {a : UInt8} (h : n = a.toNat) : n.toUInt8 = a := by
  rw [h]
  exact UInt8.ofNat_toNat

theorem exists_symbols (a b c : UInt8) : ∃ x y z w : Nat,
    encodeGroup a b c = [symbol x, symbol y, symbol z, symbol w] ∧
      (x < 64 ∧ y < 64 ∧ z < 64 ∧ w < 64) ∧ x * 4 + y / 16 = a.toNat ∧
      y % 16 * 16 + z / 4 = b.toNat ∧ z % 4 * 64 + w = c.toNat := by
  have ha := a.toNat_lt
  have hb := b.toNat_lt
  have hc := c.toNat_lt
  refine ⟨_, _, _, _, rfl, ⟨?_, ?_, ?_, ?_⟩, ?_, ?_, ?_⟩
  all_goals omega

theorem decode_cons {x y z w : Nat} {rest : List Char} {data : Bytes}
    (hbounds : x < 64 ∧ y < 64 ∧ z < 64 ∧ w < 64) (hrest : decode rest = some data) :
    decode (symbol x :: symbol y :: symbol z :: symbol w :: rest)
      = some ((x * 4 + y / 16).toUInt8 :: (y % 16 * 16 + z / 4).toUInt8 :: (z % 4 * 64 + w).toUInt8
        :: data) := by
  obtain ⟨hx, hy, hz, hw⟩ := hbounds
  have hfour : decodeFour (symbol x) (symbol y) (symbol z) (symbol w)
      = some [(x * 4 + y / 16).toUInt8, (y % 16 * 16 + z / 4).toUInt8,
        (z % 4 * 64 + w).toUInt8] := by
    simp only [decodeFour, value?_symbol hx, value?_symbol hy, value?_symbol hz, value?_symbol hw]
    rfl
  cases rest with
  | nil =>
    cases hrest
    rw [decode, if_neg (symbol_spec hw).1, hfour]
  | cons c cs =>
    rw [decode, hfour, hrest]
    · rfl
    · exact List.cons_ne_nil c cs

theorem decode_encode (data : Bytes) : decode (encode data) = some data := by
  fun_induction encode data with
  | case1 => rfl
  | case2 a =>
    obtain ⟨x, y, z, w, hgroup, ⟨hx, hy, -, -⟩, ha, hb, -⟩ := exists_symbols a 0 0
    have hzero : y % 16 = 0 := by
      have : (0 : UInt8).toNat = 0 := rfl
      omega
    rw [hgroup, List.take_succ_cons, List.take_succ_cons, List.take_zero]
    change decode [symbol x, symbol y, '=', '='] = _
    rw [decode, if_pos rfl, if_pos rfl, decodeTwo, value?_symbol hx, value?_symbol hy]
    exact (if_pos hzero).trans (by rw [toUInt8_of_eq ha])
  | case3 a b =>
    obtain ⟨x, y, z, w, hgroup, ⟨hx, hy, hz, -⟩, ha, hb, hc⟩ := exists_symbols a b 0
    have hzero : z % 4 = 0 := by
      have : (0 : UInt8).toNat = 0 := rfl
      omega
    rw [hgroup, List.take_succ_cons, List.take_succ_cons, List.take_succ_cons, List.take_zero]
    change decode [symbol x, symbol y, symbol z, '='] = _
    rw [decode, if_pos rfl, if_neg (symbol_spec hz).1, decodeThree, value?_symbol hx,
      value?_symbol hy, value?_symbol hz]
    exact (if_pos hzero).trans (by rw [toUInt8_of_eq ha, toUInt8_of_eq hb])
  | case4 a b c rest ih =>
    obtain ⟨x, y, z, w, hgroup, hbounds, ha, hb, hc⟩ := exists_symbols a b c
    rw [hgroup]
    refine (decode_cons hbounds ih).trans ?_
    rw [toUInt8_of_eq ha, toUInt8_of_eq hb, toUInt8_of_eq hc]

theorem plain_of_mem_encode {c : Char} (h : c ∈ encode data) :
    c ≠ '-' ∧ Text.isBlank c = false := by
  have hsymbol : ∀ {a b d : UInt8}, ∀ e ∈ encodeGroup a b d, e ≠ '-' ∧ Text.isBlank e = false := by
    intro a b d e he
    obtain ⟨x, y, z, w, hgroup, ⟨hx, hy, hz, hw⟩, -⟩ := exists_symbols a b d
    rw [hgroup] at he
    simp only [List.mem_cons, List.not_mem_nil, or_false] at he
    rcases he with rfl | rfl | rfl | rfl
    · exact (symbol_spec hx).2
    · exact (symbol_spec hy).2
    · exact (symbol_spec hz).2
    · exact (symbol_spec hw).2
  fun_induction encode data with
  | case1 => cases h
  | case2 a =>
    rcases List.mem_append.1 h with h | h
    · exact hsymbol c (List.mem_of_mem_take h)
    · simp only [List.mem_cons, List.not_mem_nil, or_false, or_self] at h
      subst h
      decide
  | case3 a b =>
    rcases List.mem_append.1 h with h | h
    · exact hsymbol c (List.mem_of_mem_take h)
    · obtain rfl := List.mem_singleton.1 h
      decide
  | case4 a b d rest ih =>
    rcases List.mem_append.1 h with h | h
    · exact hsymbol c h
    · exact ih h

end Base64

namespace Armor

theorem isArmored_of_toNat {c : Char} {cs : List Char} (hblank : Text.isBlank c = false)
    (hdash : c ≠ '-') : isArmored (c :: cs) = false := by
  unfold isArmored Text.trimStart
  rw [List.dropWhile_cons_of_neg (by simp [hblank])]
  exact Bool.and_eq_false_imp.2 fun h => absurd (beq_iff_eq.1 h).symm hdash

/-- Octets that begin with a letter or a digit, or with any ASCII character behind the digits, are
not armored. -/
theorem decode_of_head (h : 0x30 ≤ d ∧ d < 0x80) : decode (d :: rest) = .ok none := by
  unfold decode
  cases htext : Bytes.toText? (d :: rest) with
  | none => rfl
  | some text =>
    obtain ⟨c, cs, hchars, hc⟩ := Bytes.exists_toList_of_toText? htext h.2
    have hlow : 0x30 ≤ c.toNat := hc ▸ h.1
    have hhigh : c.toNat < 0x80 := hc ▸ h.2
    have hblank : Text.isBlank c = false := by
      simp only [Text.isBlank, Text.blankRanges, List.any_cons, List.any_nil, Bool.or_false]
      simp
      omega
    have hdash : c ≠ '-' := by
      rintro rfl
      revert hlow
      decide
    simp only
    rw [hchars, isArmored_of_toNat hblank hdash]
    rfl

theorem strip_of_head (h : 0x30 ≤ d ∧ d < 0x80) : strip (d :: rest) = .ok (d :: rest) := by
  rw [strip, decode_of_head h]
  rfl

variable {marker before s cs : List Char} {m : Char} {n : Nat}

theorem skipPast_of_not_mem (h : m ∉ before) :
    skipPast (m :: marker) (m :: marker) (before ++ s)
      = skipPast (m :: marker) (m :: marker) s := by
  induction before with
  | nil => rfl
  | cons c cs ih =>
    have hc : c ≠ m := Ne.symm (List.ne_of_not_mem_cons h)
    rw [List.cons_append, skipPast, if_neg hc, ih (List.not_mem_of_not_mem_cons h)]

theorem skipPast_append (left : List Char) : skipPast marker left (left ++ s) = some s := by
  induction left with
  | nil => rw [List.nil_append, skipPast]
  | cons c cs ih => rw [List.cons_append, skipPast, if_pos rfl, ih]

theorem splitAt?_of_not_mem (h : m ∉ before) :
    splitAt? (m :: marker) (before ++ (m :: marker ++ s)) = some (before, s) := by
  have hlength : (before ++ (m :: marker ++ s)).length - s.length - (m :: marker).length
      = before.length := by
    simp only [List.length_append]
    omega
  rw [splitAt?, skipPast_of_not_mem h, skipPast_append, Option.map_some, hlength, List.take_left]

theorem wrap_cons (n : Nat) (c : Char) (cs : List Char) :
    wrap n (c :: cs) = c :: cs.take n ++ '\n' :: wrap n (cs.drop n) := by
  rw [wrap]

theorem mem_wrap {c : Char} (h : c ∈ wrap n cs) : c ∈ cs ∨ c = '\n' := by
  fun_induction wrap n cs with
  | case1 => cases h
  | case2 d cs ih =>
    simp only [List.cons_append, List.mem_cons, List.mem_append] at h ⊢
    rcases h with rfl | h | rfl | h
    · exact .inl (.inl rfl)
    · exact .inl (.inr (List.mem_of_mem_take h))
    · exact .inr rfl
    · rcases ih h with h | rfl
      · exact .inl (.inr (List.mem_of_mem_drop h))
      · exact .inr rfl

/-- Wrapping cuts a text into lines of one width, but for the last one, which may be shorter. -/
theorem exists_lines_of_wrap (n : Nat) (cs : List Char) : ∃ lines : List (List Char),
    wrap n cs = lines.flatMap (· ++ ['\n']) ∧ lines.flatten = cs ∧
      (∀ line ∈ lines.dropLast, line.length = n + 1) ∧
      ∀ line ∈ lines, line ≠ [] ∧ line.length ≤ n + 1 := by
  fun_induction wrap n cs with
  | case1 => exact ⟨[], by simp⟩
  | case2 c cs ih =>
    obtain ⟨lines, hwrap, hflatten, hfull, hline⟩ := ih
    refine ⟨(c :: cs.take n) :: lines, ?_, ?_, ?_, ?_⟩
    · rw [List.flatMap_cons, ← hwrap]
      simp
    · rw [List.flatten_cons, hflatten, List.cons_append, List.take_append_drop]
    · intro line hmem
      cases lines with
      | nil => cases hmem
      | cons next rest =>
        rcases List.mem_cons.1 hmem with rfl | hmem
        · -- A line follows, so the text did not end within this one.
          have hnext : next ≠ [] := (hline next (List.mem_cons_self ..)).1
          have hdrop : cs.drop n ≠ [] := by
            intro hnil
            rw [hnil, List.flatten_cons] at hflatten
            exact hnext (List.append_eq_nil_iff.1 hflatten).1
          have hlength := List.length_pos_iff.2 hdrop
          rw [List.length_drop] at hlength
          simp
          omega
        · exact hfull line hmem
    · intro line hmem
      rcases List.mem_cons.1 hmem with rfl | hmem
      · simp
      · exact hline line hmem

theorem skipPast_wrap (h : '\n' ∉ cs) :
    skipPast ['\n', '\n'] ['\n', '\n'] (wrap n cs) = none ∧
      skipPast ['\n', '\n'] ['\n'] (wrap n cs) = none := by
  fun_induction wrap n cs with
  | case1 => exact ⟨rfl, rfl⟩
  | case2 c cs ih =>
    have hc : c ≠ '\n' := Ne.symm (List.ne_of_not_mem_cons h)
    have hcs : '\n' ∉ cs := List.not_mem_of_not_mem_cons h
    have hline : '\n' ∉ cs.take n := fun hmem => hcs (List.mem_of_mem_take hmem)
    have hnext : skipPast ['\n', '\n'] ['\n', '\n']
        (cs.take n ++ '\n' :: wrap n (cs.drop n)) = none := by
      rw [skipPast_of_not_mem hline, skipPast, if_pos rfl]
      exact (ih fun hmem => hcs (List.mem_of_mem_drop hmem)).2
    simp only [List.cons_append]
    rw [skipPast, skipPast, if_neg hc, if_neg hc]
    exact ⟨hnext, hnext⟩

theorem behindHeaders_wrap (hcs : ∀ c ∈ cs, Text.isBlank c = false) :
    behindHeaders (wrap n cs) = wrap n cs := by
  have hfeed : '\n' ∉ cs := fun h => absurd (hcs _ h) (by decide)
  have hreturn : '\r' ∉ wrap n cs := by
    intro h
    rcases mem_wrap h with h | h
    · exact absurd (hcs _ h) (by decide)
    · exact absurd h (by decide)
  have hnone : skipPast ['\r', '\n', '\r', '\n'] ['\r', '\n', '\r', '\n'] (wrap n cs ++ [])
      = none := skipPast_of_not_mem hreturn
  rw [List.append_nil] at hnone
  unfold behindHeaders splitAt?
  rw [(skipPast_wrap hfeed).1, hnone]
  rfl

theorem trimEnd_of_plain (h : ∀ c ∈ s, Text.isBlank c = false) : Text.trimEnd s = s := by
  have hnone : s.reverse.dropWhile Text.isBlank = s.reverse := by
    cases hs : s.reverse with
    | nil => rfl
    | cons c cs =>
      have hc : c ∈ s := List.mem_reverse.1 (hs ▸ List.mem_cons_self ..)
      rw [List.dropWhile_cons_of_neg (by simp [h c hc])]
  rw [Text.trimEnd, hnone, List.reverse_reverse]

theorem flatMap_lines_wrap (hcs : ∀ c ∈ cs, Text.isBlank c = false) :
    (lines (wrap n cs)).flatMap Text.trimEnd = cs := by
  fun_induction wrap n cs with
  | case1 => rfl
  | case2 c cs ih =>
    obtain ⟨hc, hrest⟩ := List.forall_mem_cons.1 hcs
    have hline : ∀ d ∈ c :: cs.take n, Text.isBlank d = false := by
      rintro d (_ | ⟨_, hd⟩)
      · exact hc
      · exact hrest d (List.mem_of_mem_take hd)
    have hfeed : ∀ d ∈ c :: cs.take n, (d == '\n') = false := by
      intro d hd
      rw [beq_eq_false_iff_ne]
      rintro rfl
      exact absurd (hline _ hd) (by decide)
    have hsplit : lines (c :: cs.take n ++ '\n' :: wrap n (cs.drop n))
        = (c :: cs.take n) :: lines (wrap n (cs.drop n)) :=
      List.splitOnP_append_cons_of_forall_mem hfeed _ rfl _
    rw [hsplit, List.flatMap_cons, trimEnd_of_plain hline,
      ih fun d hd => hrest d (List.mem_of_mem_drop hd), List.cons_append, List.take_append_drop]

theorem toList_encode (label : String) (data : Bytes) :
    (encode label data).toList = "-----BEGIN ".toList ++ (label.toList ++ ("-----".toList ++
      ('\n' :: wrap (lineLength - 1) (Base64.encode data) ++ ("-----END ".toList ++
        (label.toList ++ ("-----".toList ++ ['\n'])))))) := by
  have hopening : "-----\n".toList = "-----".toList ++ ['\n'] := by decide
  simp only [encode, String.toList_append, String.toList_ofList, List.append_assoc, hopening,
    List.cons_append, List.nil_append]

theorem dropWhile_isGap_wrap (data : Bytes) (n : Nat) (rest : List Char) :
    ('\n' :: wrap n (Base64.encode data) ++ ('-' :: rest)).dropWhile isGap
      = wrap n (Base64.encode data) ++ ('-' :: rest) := by
  have hgap : ∀ c, Text.isBlank c = false → isGap c = false := by
    intro c hc
    by_contra hgap
    simp only [isGap, Bool.not_eq_false, Bool.or_eq_true, decide_eq_true_eq] at hgap
    rcases hgap with ((rfl | rfl) | rfl) | rfl
    all_goals exact absurd hc (by decide)
  rw [List.cons_append, List.dropWhile_cons_of_pos (by decide)]
  cases hchars : Base64.encode data with
  | nil =>
    rw [wrap, List.nil_append, List.dropWhile_cons_of_neg (by decide)]
  | cons c cs =>
    have hc : c ∈ Base64.encode data := hchars ▸ List.mem_cons_self ..
    have hfirst := hgap c (Base64.plain_of_mem_encode hc).2
    rw [wrap_cons, List.cons_append, List.cons_append,
      List.dropWhile_cons_of_neg (by simp [hfirst])]

theorem block?_encode {label : String} (hlabel : '-' ∉ label.toList) (data : Bytes) :
    block? (encode label data).toList
      = some ⟨label.toList, wrap (lineLength - 1) (Base64.encode data), label.toList⟩ := by
  set body := wrap (lineLength - 1) (Base64.encode data) with hbody
  have hdash : '-' ∉ body := by
    intro h
    rcases mem_wrap h with h | h
    · exact (Base64.plain_of_mem_encode h).1 rfl
    · exact absurd h (by decide)
  have hplain : behindHeaders body = body :=
    behindHeaders_wrap fun c hc => (Base64.plain_of_mem_encode hc).2
  have hbegin (t : List Char) : splitAt? "-----BEGIN ".toList ("-----BEGIN ".toList ++ t)
      = some ([], t) := splitAt?_of_not_mem (List.not_mem_nil)
  have hopening (t : List Char) : splitAt? "-----".toList (label.toList ++ ("-----".toList ++ t))
      = some (label.toList, t) := splitAt?_of_not_mem hlabel
  have hend (t : List Char) : splitAt? "-----END ".toList (body ++ ("-----END ".toList ++ t))
      = some (body, t) := splitAt?_of_not_mem hdash
  rw [toList_encode, block?, hbegin]
  simp only [Option.bind_eq_bind, Option.bind_some, hopening]
  have hgap : ('\n' :: body ++ ("-----END ".toList ++ (label.toList ++ ("-----".toList
      ++ ['\n'])))).dropWhile isGap
        = body ++ ("-----END ".toList ++ (label.toList ++ ("-----".toList ++ ['\n']))) :=
    dropWhile_isGap_wrap data (lineLength - 1) _
  rw [← hbody, hgap, hend, Option.bind_some, hopening, Option.bind_some, hplain]

/-- Octets that were armored under a label without dashes are recognized and read back. -/
theorem decode_ofText_encode {label : String} (hlabel : '-' ∉ label.toList) (hne : label ≠ "")
    (data : Bytes) : decode (Bytes.ofText (encode label data)) = .ok (some data) := by
  have hblock : parse (encode label data).toList = .ok data := by
    have hopening : label.toList ≠ [] := by
      simpa using hne
    rw [parse, block?_encode hlabel]
    simp only [Block.data]
    rw [if_neg hopening, if_neg hopening, if_neg (not_not.2 rfl),
      flatMap_lines_wrap fun c hc => (Base64.plain_of_mem_encode hc).2, Base64.decode_encode]
  have harmored : isArmored (encode label data).toList = true := by
    rw [toList_encode]
    unfold isArmored Text.trimStart
    rfl
  unfold decode
  rw [Bytes.toText?_eq_some_iff.2 rfl]
  simp only
  rw [harmored, if_pos rfl, hblock]

end Armor

end Authenticode
