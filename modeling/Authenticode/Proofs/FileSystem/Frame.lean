import Authenticode.Proofs.FileSystem

/-!
# What writing one file leaves alone

A file is opened for writing where there was a file or nothing, and a path is followed
through directories and links only. So such a location is met by a path at its very end
or not at all: a path that leads elsewhere leads there still, and one that leads nowhere
can only have come to lead to the new file.
-/
namespace Authenticode.FileSystem

variable {fs fs' : FileSystem} {l m : Location} {n : Node} {path : String} {p : Purpose}
  {place : Place} {here : Location} {names : List String} {b : Bytes}

/-- There is a file at a location, or nothing. -/
def Leaf (fs : FileSystem) (l : Location) : Prop :=
  ∀ n, fs.node? l = some n → ∃ b mode, n = .file b mode

theorem leaf_of_file {mode : Nat} (h : fs.node? l = some (.file b mode)) : fs.Leaf l := by
  intro n hn
  rw [h] at hn
  cases hn
  exact ⟨b, mode, rfl⟩

theorem Leaf.ne_of_directory (h : fs.Leaf l) (hm : fs.node? m = some .directory) : m ≠ l := by
  rintro rfl
  obtain ⟨b, mode, hnode⟩ := h _ hm
  cases hnode

theorem Leaf.ne_of_link {target : String} (h : fs.Leaf l) (hm : fs.node? m = some (.link target)) :
    m ≠ l := by
  rintro rfl
  obtain ⟨b, mode, hnode⟩ := h _ hm
  cases hnode

/-- The location a place is about. -/
def Place.location : Place → Location
  | .existing l | .free l => l

/-- A place that is found although the file at `l` changed: it is elsewhere, or it is that file. -/
def Stays (fs' : FileSystem) (l : Location) (place : Place) : Prop :=
  place.location ≠ l ∨ place = .existing l ∧ ∃ b mode, fs'.node? l = some (.file b mode)

theorem walkNames_cons {follow : Location → List String → Except IoFailure Place} {name : String}
    {rest : List String} (hhere : fs.node? here = some .directory)
    (hname : ¬(name = "" ∨ name = ".")) (hup : ¬name = "..")
    (hlength : ¬maxName < name.utf8ByteSize) :
    fs.walkNames p follow here (name :: rest) = match fs.node? (here ++ [name]) with
      | none =>
        if p.creating ∧ rest = [] then .ok (.free (here ++ [name]))
        else if p.creating ∧ rest = [""] then .error .isDirectory
        else .error .notFound
      | some (.link target) =>
        if rest = [] ∧ !p.following then .ok (.existing (here ++ [name]))
        else if p.creating ∧ rest = [""] then .error .isDirectory
        else follow (if Path.isAbsolute target then [] else here) (steps target ++ rest)
      | some _ =>
        if p.creating ∧ rest = [""] then .error .isDirectory
        else fs.walkNames p follow (here ++ [name]) rest := by
  rw [walkNames, if_neg (not_not.2 hhere), if_neg hname, if_neg hup]
  exact if_neg hlength

/-- A walk that does not end at the changed file goes as it went before. -/
theorem walkNames_of_agreeOff
    {follow follow' : Location → List String → Except IoFailure Place}
    (hfollow : ∀ here names place, follow here names = .ok place → fs'.Stays l place →
      follow' here names = .ok place)
    (hagree : AgreeOff l fs fs') (hleaf : fs.Leaf l)
    (hwalk : fs.walkNames p follow here names = .ok place) (hstays : fs'.Stays l place) :
    fs'.walkNames p follow' here names = .ok place := by
  have hkeep : ∀ m n, fs.node? m = some n → m ≠ l → fs'.node? m = some n := by
    intro m n hm hne
    rw [← hagree.2 m hne, hm]
  have hdirectory : ∀ {m}, ¬fs.node? m ≠ some .directory → fs'.node? m = some .directory := by
    intro m hm
    exact hkeep m _ (not_not.1 hm) (hleaf.ne_of_directory (not_not.1 hm))
  fun_induction FileSystem.walkNames fs p follow here names
  case case1 =>
    cases hwalk
    rw [walkNames]
  case case2 | case5 | case7 | case8 | case10 | case12 => cases hwalk
  case case3 here name rest hhere hname ih =>
    rw [walkNames, if_neg (not_not.2 (hdirectory hhere)), if_pos hname]
    exact ih hwalk
  case case4 here rest hhere hname ih =>
    rw [walkNames, if_neg (not_not.2 (hdirectory hhere)), if_neg hname, if_pos rfl]
    exact ih hwalk
  case case6 here name rest hhere hname hup hlength next hnext hlast =>
    cases hwalk
    have hne : next ≠ l := by
      rcases hstays with hne | ⟨hfree, -⟩
      · exact hne
      · cases hfree
    have hnone : fs'.node? (here ++ [name]) = none := (hagree.2 next hne).symm.trans hnext
    simp only [walkNames_cons (hdirectory hhere) hname hup hlength, hnone]
    exact if_pos hlast
  case case9 here name rest hhere hname hup hlength next target hnext hlast =>
    have hlink : fs'.node? (here ++ [name]) = some (.link target) :=
      hkeep _ _ hnext (hleaf.ne_of_link hnext)
    simp only [walkNames_cons (hdirectory hhere) hname hup hlength, hlink]
    rw [if_pos hlast]
    exact hwalk
  case case11 here name rest hhere hname hup hlength next target hnext hlast hslash =>
    have hlink : fs'.node? (here ++ [name]) = some (.link target) :=
      hkeep _ _ hnext (hleaf.ne_of_link hnext)
    simp only [walkNames_cons (hdirectory hhere) hname hup hlength, hlink]
    rw [if_neg hlast, if_neg hslash]
    exact hfollow _ _ _ hwalk hstays
  case case13 here name rest hhere hname hup hlength next node hlink hnext hslash ih =>
    obtain ⟨node', hnode, hlink'⟩ : ∃ node', fs'.node? (here ++ [name]) = some node' ∧
        ∀ target, node' ≠ .link target := by
      by_cases hl : next = l
      · -- Behind a file no name can follow, so the walk ends at the file, which is there still.
        obtain ⟨c, mode, rfl⟩ := hleaf node (hl ▸ hnext)
        have hend : place = .existing l := by
          cases rest with
          | nil =>
            rw [walkNames] at hwalk
            cases hwalk
            rw [hl]
          | cons other rest =>
            rw [walkNames, if_pos (by simp [hnext])] at hwalk
            cases hwalk
        rcases hstays with hne | ⟨-, d, mode', hfile⟩
        · exact absurd (congrArg Place.location hend) hne
        · refine ⟨_, (congrArg fs'.node? hl).trans hfile, ?_⟩
          intro target hlink'
          cases hlink'
      · exact ⟨node, hkeep _ _ hnext hl, hlink⟩
    simp only [walkNames_cons (hdirectory hhere) hname hup hlength, hnode]
    cases node' with
    | link target => exact absurd rfl (hlink' target)
    | file c mode => exact (if_neg hslash).trans (ih hwalk)
    | directory => exact (if_neg hslash).trans (ih hwalk)

theorem walk_of_agreeOff {links : Nat} (hagree : AgreeOff l fs fs') (hleaf : fs.Leaf l)
    (hwalk : fs.walk p links here names = .ok place) (hstays : fs'.Stays l place) :
    fs'.walk p links here names = .ok place := by
  induction links generalizing here names place with
  | zero =>
    rw [walk] at hwalk ⊢
    refine walkNames_of_agreeOff ?_ hagree hleaf hwalk hstays
    intro _ _ _ h
    cases h
  | succ k ih =>
    exact walkNames_of_agreeOff (fun _ _ _ hwalk' hstays' => ih hwalk' hstays') hagree hleaf hwalk
      hstays

theorem locate_of_agreeOff (hagree : AgreeOff l fs fs') (hleaf : fs.Leaf l)
    (hlocate : fs.locate p path = .ok place) (hstays : fs'.Stays l place) :
    fs'.locate p path = .ok place := by
  unfold locate at hlocate ⊢
  rw [← hagree.1]
  split_ifs at hlocate ⊢
  all_goals exact walk_of_agreeOff hagree hleaf hlocate hstays

theorem find_of_agreeOff (hagree : AgreeOff l fs fs') (hleaf : fs.Leaf l)
    (hfind : fs.find path = .ok (m, n)) (hne : m ≠ l) : fs'.find path = .ok (m, n) := by
  obtain ⟨hlocate, hnode⟩ := find_eq_ok_iff.1 hfind
  exact find_eq_ok_iff.2
    ⟨locate_of_agreeOff hagree hleaf hlocate (.inl hne), (hagree.2 m hne).symm.trans hnode⟩

/-- At most the file at one location was created or changed, and it is there now. -/
structure Filled (l : Location) (fs fs' : FileSystem) : Prop where
  agree : AgreeOff l fs fs'
  leaf : fs.Leaf l
  file : ∃ b mode, fs'.node? l = some (.file b mode)

theorem AgreeOff.symm (h : AgreeOff l fs fs') : AgreeOff l fs' fs :=
  ⟨h.1.symm, fun m hm => (h.2 m hm).symm⟩

theorem Writable.leaf (h : fs.Writable l place) : fs.Leaf l := by
  intro n hn
  cases place with
  | free m =>
    rw [h.2] at hn
    cases hn
  | existing m =>
    obtain ⟨-, c, mode, hfile⟩ := h
    exact leaf_of_file hfile n hn

namespace Filled

theorem leaf_after (h : Filled l fs fs') : fs'.Leaf l := by
  obtain ⟨b, mode, hfile⟩ := h.file
  exact leaf_of_file hfile

theorem write (h : Filled l fs fs') (b : Bytes) : Filled l fs (fs'.write l b) := by
  obtain ⟨c, mode, hfile⟩ := h.file
  obtain ⟨mode', hfile'⟩ := node?_write (b := b) hfile
  exact ⟨h.agree.trans (agreeOff_write fs' l b), h.leaf, b, mode', hfile'⟩

theorem find_of_ne (h : Filled l fs fs') (hfind : fs.find path = .ok (m, n)) (hne : m ≠ l) :
    fs'.find path = .ok (m, n) :=
  find_of_agreeOff h.agree h.leaf hfind hne

theorem find_before (h : Filled l fs fs') (hfind : fs'.find path = .ok (m, n)) (hne : m ≠ l) :
    fs.find path = .ok (m, n) :=
  find_of_agreeOff h.agree.symm h.leaf_after hfind hne

theorem locate_of_find (h : Filled l fs fs') (hfind : fs.find path = .ok (m, n)) :
    fs'.locate .use path = .ok (.existing m) := by
  refine locate_of_agreeOff h.agree h.leaf (find_eq_ok_iff.1 hfind).1 ?_
  by_cases hm : m = l
  · exact .inr ⟨congrArg Place.existing hm, h.file⟩
  · exact .inl hm

end Filled

theorem filled_of_create {fresh : Bool} {mode : Nat}
    (h : fs.create path fresh mode = .ok (l, fs')) : Filled l fs fs' := by
  obtain ⟨place, mode', -, hplace, hne, rfl⟩ := exists_place_of_create h
  exact ⟨agreeOff_set fs l _, hplace.leaf, [], mode', node?_set_self hne⟩

/-- Where a path was opened for writing is where it led, if it led anywhere. -/
theorem eq_of_find_of_create {fresh : Bool} {mode : Nat}
    (hcreate : fs.create path fresh mode = .ok (l, fs')) (hfind : fs.find path = .ok (m, n)) :
    m = l := by
  obtain ⟨c, mode', hnode⟩ := (filled_of_create hcreate).file
  have hthere := (filled_of_create hcreate).locate_of_find hfind
  have hhere := (find_eq_ok_iff.1 (find_of_create hcreate (.refl l fs') hnode)).1
  cases hthere.symm.trans hhere
  rfl

theorem node?_of_create_fresh {mode : Nat} (h : fs.create path true mode = .ok (l, fs')) :
    fs.node? l = none := by
  obtain ⟨place, hlocate, h⟩ := Except.bind_eq_ok_iff.1 h
  cases place with
  | existing m => cases h
  | free m =>
    cases h
    unfold locate at hlocate
    split_ifs at hlocate
    all_goals exact (node?_of_walk_free hlocate).1

/-- A path was opened for writing at a location, and the file there has new contents now. -/
structure Wrote (fs : FileSystem) (path : String) (fresh : Bool) (l : Location)
    (fs' : FileSystem) (b : Bytes) : Prop where
  opened : ∃ mode created, fs.create path fresh mode = .ok (l, created) ∧ AgreeOff l created fs'
  contents : ∃ mode, fs'.node? l = some (.file b mode)

theorem wrote_of_create {fresh : Bool} {mode : Nat} {created : FileSystem}
    (h : fs.create path fresh mode = .ok (l, created)) (b : Bytes) :
    Wrote fs path fresh l (created.write l b) b := by
  obtain ⟨mode', hnode⟩ := node?_of_create h
  exact ⟨⟨mode, created, h, agreeOff_write created l b⟩, node?_write hnode⟩

namespace Wrote

variable {fresh : Bool}

theorem write (h : Wrote fs path fresh l fs' b) (c : Bytes) :
    Wrote fs path fresh l (fs'.write l c) c := by
  obtain ⟨⟨mode, created, hcreate, hagree⟩, mode', hnode⟩ := h
  exact ⟨⟨mode, created, hcreate, hagree.trans (agreeOff_write fs' l c)⟩, node?_write hnode⟩

theorem filled (h : Wrote fs path fresh l fs' b) : Filled l fs fs' := by
  obtain ⟨⟨mode, created, hcreate, hagree⟩, mode', hnode⟩ := h
  have hfilled := filled_of_create hcreate
  exact ⟨hfilled.agree.trans hagree, hfilled.leaf, b, mode', hnode⟩

theorem find (h : Wrote fs path fresh l fs' b) : ∃ mode, fs'.find path = .ok (l, .file b mode) := by
  obtain ⟨⟨mode, created, hcreate, hagree⟩, mode', hnode⟩ := h
  exact ⟨mode', find_of_create hcreate hagree hnode⟩

theorem readFile (h : Wrote fs path fresh l fs' b) : fs'.readFile path = .ok b := by
  obtain ⟨mode, hfind⟩ := h.find
  exact readFile_of_find hfind

theorem eq_of_find (h : Wrote fs path fresh l fs' b) (hfind : fs.find path = .ok (m, n)) :
    m = l := by
  obtain ⟨⟨mode, created, hcreate, -⟩, -⟩ := h
  exact eq_of_find_of_create hcreate hfind

theorem find_before (h : Wrote fs path fresh l fs' b) (hnode : fs.node? l = some n) :
    fresh = false ∧ fs.find path = .ok (l, n) := by
  obtain ⟨⟨mode, created, hcreate, -⟩, -⟩ := h
  obtain ⟨c, mode', rfl⟩ := (filled_of_create hcreate).leaf n hnode
  refine ⟨?_, find_before_create hcreate hnode⟩
  cases fresh with
  | false => rfl
  | true =>
    rw [node?_of_create_fresh hcreate] at hnode
    cases hnode

end Wrote

theorem exists_create_iff {fresh : Bool} {mode : Nat} :
    (∃ fs', fs.create path fresh mode = .ok (l, fs')) ↔
      ∃ place, fs.locate ⟨true, !fresh⟩ path = .ok place ∧ fs.Writable l place ∧
        (fresh = true → place = .free l) := by
  constructor
  · rintro ⟨fs', hcreate⟩
    obtain ⟨place, -, hlocate, hplace, -, -⟩ := exists_place_of_create hcreate
    refine ⟨place, hlocate, hplace, ?_⟩
    rintro rfl
    cases place with
    | free m => rw [hplace.1]
    | existing m =>
      obtain ⟨rfl, b, mode', hnode⟩ := hplace
      rw [node?_of_create_fresh hcreate] at hnode
      cases hnode
  · rintro ⟨place, hlocate, hplace, hfresh⟩
    cases place with
    | free m =>
      obtain ⟨rfl, -⟩ := hplace
      exact ⟨_, Except.bind_eq_ok_iff.2 ⟨_, hlocate, rfl⟩⟩
    | existing m =>
      obtain ⟨rfl, b, mode', hnode⟩ := hplace
      cases fresh with
      | true => cases hfresh rfl
      | false =>
        refine ⟨fs.set m (.file [] mode'), Except.bind_eq_ok_iff.2 ⟨_, hlocate, ?_⟩⟩
        dsimp only
        rw [if_neg Bool.false_ne_true, hnode]
        rfl

/-- A path may be opened for writing, and leads there: to a file only if files may be
overwritten. -/
def Accepts (fs : FileSystem) (force : Bool) (path : String) (l : Location) : Prop :=
  ∃ mode fs', fs.create path (!force) mode = .ok (l, fs')

namespace Accepts

variable {force : Bool}

theorem create (h : fs.Accepts force path l) (mode : Nat) :
    ∃ fs', fs.create path (!force) mode = .ok (l, fs') := by
  obtain ⟨mode', hcreate⟩ := h
  exact exists_create_iff.2 (exists_create_iff.1 hcreate)

theorem eq_of_find (h : fs.Accepts force path l) (hfind : fs.find path = .ok (m, n)) : m = l := by
  obtain ⟨mode, fs', hcreate⟩ := h
  exact eq_of_find_of_create hcreate hfind

theorem unique (h : fs.Accepts force path l) (h' : fs.Accepts force path m) : l = m := by
  obtain ⟨mode, hcreate⟩ := h
  obtain ⟨mode', hcreate'⟩ := h'
  obtain ⟨place, hlocate, hplace, -⟩ := exists_create_iff.1 hcreate
  obtain ⟨place', hlocate', hplace', -⟩ := exists_create_iff.1 hcreate'
  cases hlocate.symm.trans hlocate'
  cases place with
  | free k => exact hplace.1.symm.trans hplace'.1
  | existing k => exact hplace.1.symm.trans hplace'.1

theorem force_or_not_contains (h : fs.Accepts force path l) :
    force = true ∨ fs.contains path = false := by
  cases force with
  | true => exact .inl rfl
  | false =>
    obtain ⟨mode, fs', hcreate⟩ := id h
    right
    unfold contains
    cases hfind : fs.find path with
    | error f => rfl
    | ok found =>
      obtain ⟨m, node⟩ := found
      obtain rfl := h.eq_of_find hfind
      have hnone := node?_of_create_fresh hcreate
      rw [(find_eq_ok_iff.1 hfind).2] at hnone
      cases hnone

theorem of_filled (h : fs.Accepts force path m) (hfilled : Filled l fs fs') (hne : m ≠ l) :
    fs'.Accepts force path m := by
  obtain ⟨mode, hcreate⟩ := h
  obtain ⟨place, hlocate, hplace, hfresh⟩ := exists_create_iff.1 hcreate
  have hnode := hfilled.agree.2 m hne
  have hlocation : place.location = m := by
    cases place with
    | free k => exact hplace.1
    | existing k => exact hplace.1
  refine ⟨mode, exists_create_iff.2 ⟨place, locate_of_agreeOff hfilled.agree hfilled.leaf hlocate
    (.inl (hlocation ▸ hne)), ?_, hfresh⟩⟩
  cases place with
  | free k => exact ⟨hplace.1, hnode ▸ hplace.2⟩
  | existing k => exact ⟨hplace.1, hnode ▸ hplace.2⟩

theorem isSameFile_eq_false {other : String} (h : fs.Accepts force path l)
    (hspelling : Path.isSame other path = false) (hfind : fs.find other = .ok (m, n))
    (hne : m ≠ l) : fs.isSameFile other path = false := by
  unfold isSameFile
  rw [hspelling, hfind]
  cases hpath : fs.find path with
  | error f => rfl
  | ok found =>
    obtain ⟨k, node⟩ := found
    obtain rfl := h.eq_of_find hpath
    simpa using hne

/-- A file that is not the same as the one at the path is not where the path is opened. -/
theorem ne_of_isSameFile {other : String} {mode : Nat} (h : fs.Accepts force path l)
    (hfile : fs.find other = .ok (m, .file b mode)) (hsame : fs.isSameFile other path = false) :
    m ≠ l := by
  rintro rfl
  obtain ⟨mode', fs', hcreate⟩ := h
  have hpath := find_before_create hcreate (find_eq_ok_iff.1 hfile).2
  unfold isSameFile at hsame
  simp [hfile, hpath] at hsame

end Accepts

end Authenticode.FileSystem
