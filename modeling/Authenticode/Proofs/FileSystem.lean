import Authenticode.FileSystem.Basic
import Authenticode.Proofs.Steps

/-!
# Reading back what was written

A path along which a file was created for writing leads to that file afterwards,
whatever is written to it. Creating follows a path as reading does, except that the
last name may be free, and the new file is what reading then finds there.
-/
namespace Authenticode.FileSystem

variable {fs fs' : FileSystem} {l m : Location} {node : Node} {path : String} {b : Bytes}

theorem lookup_filter_ne {nodes : List (Location × Node)} (h : m ≠ l) :
    (nodes.filter fun p => p.1 != l).lookup m = nodes.lookup m := by
  induction nodes with
  | nil => rfl
  | cons p rest ih =>
    rw [List.lookup_cons]
    by_cases hp : p.1 = l
    · have hm : (m == p.1) = false := by simpa [hp] using h
      rw [List.filter_cons_of_neg (by simp [hp]), hm, ih]
    · rw [List.filter_cons_of_pos (by simp [hp]), List.lookup_cons, ih]

theorem node?_set_self (hl : l ≠ []) : (fs.set l node).node? l = some node := by
  rw [node?, if_neg hl, set, List.lookup_cons, beq_self_eq_true]

theorem node?_set_of_ne (h : m ≠ l) : (fs.set l node).node? m = fs.node? m := by
  unfold node? set
  have hm : (m == l) = false := by simpa using h
  rw [List.lookup_cons, hm, lookup_filter_ne h]

/-- Two file systems that differ at one location at most. -/
def AgreeOff (l : Location) (fs fs' : FileSystem) : Prop :=
  fs.workingDirectory = fs'.workingDirectory ∧ ∀ m, m ≠ l → fs.node? m = fs'.node? m

theorem AgreeOff.refl (l : Location) (fs : FileSystem) : AgreeOff l fs fs :=
  ⟨rfl, fun _ _ => rfl⟩

theorem AgreeOff.trans {fs'' : FileSystem} (h : AgreeOff l fs fs') (h' : AgreeOff l fs' fs'') :
    AgreeOff l fs fs'' :=
  ⟨h.1.trans h'.1, fun m hm => (h.2 m hm).trans (h'.2 m hm)⟩

theorem agreeOff_set (fs : FileSystem) (l : Location) (node : Node) :
    AgreeOff l fs (fs.set l node) :=
  ⟨rfl, fun _ hm => (node?_set_of_ne hm).symm⟩

theorem agreeOff_write (fs : FileSystem) (l : Location) (b : Bytes) :
    AgreeOff l fs (fs.write l b) := by
  unfold write
  split
  · exact agreeOff_set fs l _
  · exact .refl l fs

/-- Where a file may be opened for writing: there is a file already, or nothing. -/
def Writable (fs : FileSystem) (l : Location) : Place → Prop
  | .free m => m = l ∧ fs.node? l = none
  | .existing m => m = l ∧ ∃ b mode, fs.node? l = some (.file b mode)

theorem walkNames_use_cons {follow : Location → List String → Except IoFailure Place}
    {here : Location} {name : String} {rest : List String}
    (hhere : fs.node? here = some .directory) (hname : ¬(name = "" ∨ name = "."))
    (hup : ¬name = "..") (hlength : ¬maxName < name.utf8ByteSize)
    (hnode : fs.node? (here ++ [name]) = some node) (hlink : ∀ target, node ≠ .link target) :
    fs.walkNames .use follow here (name :: rest)
      = fs.walkNames .use follow (here ++ [name]) rest := by
  rw [walkNames, if_neg (not_not.2 hhere), if_neg hname, if_neg hup, if_neg hlength]
  cases node with
  | link target => exact absurd rfl (hlink target)
  | file b mode =>
    simp only [hnode]
    exact if_neg nofun
  | directory =>
    simp only [hnode]
    exact if_neg nofun

theorem walkNames_of_writable {following : Bool}
    {follow follow' : Location → List String → Except IoFailure Place}
    (hfollow : ∀ here names {place}, follow here names = .ok place → fs.Writable l place →
      follow' here names = .ok (.existing l))
    {here : Location} {names : List String} {place : Place} {mode : Nat}
    (hwalk : fs.walkNames ⟨true, following⟩ follow here names = .ok place)
    (hplace : fs.Writable l place) (hsame : AgreeOff l fs fs')
    (hfile : fs'.node? l = some (.file b mode)) :
    fs'.walkNames .use follow' here names = .ok (.existing l) := by
  have hold : fs.node? l = none ∨ ∃ c n, fs.node? l = some (.file c n) := by
    cases place with
    | free m => exact .inl hplace.2
    | existing m => exact .inr hplace.2
  have hkeep : ∀ m node, fs.node? m = some node → (∀ c n, node ≠ .file c n) →
      fs'.node? m = some node := by
    intro m node hm hnode
    rw [← hsame.2 m, hm]
    rintro rfl
    rcases hold with hnone | ⟨c, n, hcn⟩
    · rw [hm] at hnone
      cases hnone
    · rw [hm] at hcn
      cases hcn
      exact hnode c n rfl
  fun_induction FileSystem.walkNames fs ⟨true, following⟩ follow here names
  case case1 =>
    cases hwalk
    rw [walkNames, hplace.1]
  case case2 | case5 | case7 | case8 | case10 | case12 => cases hwalk
  case case3 here name rest hdirectory hname ih =>
    have hhere := hkeep _ _ (not_not.1 hdirectory) (fun _ _ => nofun)
    rw [walkNames, if_neg (not_not.2 hhere), if_pos hname]
    exact ih hwalk
  case case4 here rest hdirectory hname ih =>
    have hhere := hkeep _ _ (not_not.1 hdirectory) (fun _ _ => nofun)
    rw [walkNames, if_neg (not_not.2 hhere), if_neg hname, if_pos rfl]
    exact ih hwalk
  case case6 here name rest hdirectory hname hup hlength next hnext hlast =>
    cases hwalk
    have hhere := hkeep _ _ (not_not.1 hdirectory) (fun _ _ => nofun)
    have hnode : fs'.node? (here ++ [name]) = some (.file b mode) := by
      rw [← hfile, ← hplace.1]
    rw [walkNames_use_cons hhere hname hup hlength hnode (fun _ => nofun), hlast.2, walkNames]
    exact congrArg (fun m => Except.ok (Place.existing m)) hplace.1
  case case9 here name rest hdirectory hname hup hlength next target hnext hlast =>
    cases hwalk
    obtain ⟨hl, c, n, hcn⟩ := hplace
    rw [← hl, hnext] at hcn
    cases hcn
  case case11 here name rest hdirectory hname hup hlength next target hnext hlast hslash =>
    have hhere := hkeep _ _ (not_not.1 hdirectory) (fun _ _ => nofun)
    have hnode : fs'.node? (here ++ [name]) = some (.link target) :=
      hkeep _ _ hnext (fun _ _ => nofun)
    rw [walkNames, if_neg (not_not.2 hhere), if_neg hname, if_neg hup, if_neg hlength]
    simp only [hnode]
    rw [if_neg (fun h => Bool.false_ne_true h.2), if_neg (fun h => Bool.false_ne_true h.1)]
    exact hfollow _ _ hwalk hplace
  case case13 here name rest hdirectory hname hup hlength next node hlink hnext hslash ih =>
    have hhere := hkeep _ _ (not_not.1 hdirectory) (fun _ _ => nofun)
    obtain ⟨node', hnode, hlink'⟩ : ∃ node', fs'.node? (here ++ [name]) = some node' ∧
        ∀ target, node' ≠ .link target := by
      by_cases hl : next = l
      · exact ⟨_, (congrArg fs'.node? hl).trans hfile, fun _ => nofun⟩
      · exact ⟨node, (hsame.2 next hl).symm.trans hnext, hlink⟩
    rw [walkNames_use_cons hhere hname hup hlength hnode hlink']
    exact ih hwalk

/-- Where a path led to for writing, it leads to for reading once a file is there. -/
theorem walk_of_writable {following : Bool} {links : Nat} {here : Location} {names : List String}
    {place : Place} {mode : Nat}
    (hwalk : fs.walk ⟨true, following⟩ links here names = .ok place)
    (hplace : fs.Writable l place) (hsame : AgreeOff l fs fs')
    (hfile : fs'.node? l = some (.file b mode)) :
    fs'.walk .use links here names = .ok (.existing l) := by
  induction links generalizing here names place with
  | zero =>
    rw [walk] at hwalk ⊢
    refine walkNames_of_writable ?_ hwalk hplace hsame hfile
    intro _ _ _ h
    cases h
  | succ n ih =>
    exact walkNames_of_writable (fun _ _ _ hwalk' hplace' => ih hwalk' hplace') hwalk hplace hsame
      hfile

theorem node?_of_walkNames_free {p : Purpose}
    {follow : Location → List String → Except IoFailure Place} {here : Location}
    {names : List String}
    (hfollow : ∀ here names, follow here names = .ok (.free l) → fs.node? l = none ∧ l ≠ [])
    (hwalk : fs.walkNames p follow here names = .ok (.free l)) : fs.node? l = none ∧ l ≠ [] := by
  fun_induction FileSystem.walkNames fs p follow here names
  case case3 ih => exact ih hwalk
  case case4 ih => exact ih hwalk
  case case6 next hnext hlast =>
    have hl : next = l := by
      injection hwalk with hplace
      injection hplace
    rw [← hl]
    exact ⟨hnext, List.append_ne_nil_of_right_ne_nil _ (List.cons_ne_nil _ _)⟩
  case case11 => exact hfollow _ _ hwalk
  case case13 ih => exact ih hwalk
  all_goals cases hwalk

theorem node?_of_walk_free {p : Purpose} {links : Nat} {here : Location} {names : List String}
    (hwalk : fs.walk p links here names = .ok (.free l)) : fs.node? l = none ∧ l ≠ [] := by
  induction links generalizing here names with
  | zero =>
    rw [walk] at hwalk
    refine node?_of_walkNames_free ?_ hwalk
    intro _ _ h
    cases h
  | succ n ih => exact node?_of_walkNames_free (fun _ _ => ih) hwalk

/-- What opening a path for writing does: an empty file stands where the path leads. -/
theorem exists_place_of_create {fresh : Bool} {mode : Nat}
    (h : fs.create path fresh mode = .ok (l, fs')) :
    ∃ place mode', fs.locate ⟨true, !fresh⟩ path = .ok place ∧ fs.Writable l place ∧ l ≠ [] ∧
      fs' = fs.set l (.file [] mode') := by
  obtain ⟨place, hlocate, h⟩ := Except.bind_eq_ok_iff.1 h
  cases place with
  | free m =>
    cases h
    obtain ⟨hnone, hne⟩ : fs.node? l = none ∧ l ≠ [] := by
      unfold locate at hlocate
      split_ifs at hlocate
      all_goals exact node?_of_walk_free hlocate
    exact ⟨_, _, hlocate, ⟨rfl, hnone⟩, hne, rfl⟩
  | existing m =>
    cases fresh with
    | true => cases h
    | false =>
      dsimp only at h
      rw [if_neg Bool.false_ne_true] at h
      cases hnode : fs.node? m with
      | none =>
        rw [hnode] at h
        cases h
      | some node =>
        cases node with
        | directory =>
          rw [hnode] at h
          cases h
        | link target =>
          rw [hnode] at h
          cases h
        | file c n =>
          rw [hnode] at h
          cases h
          refine ⟨_, _, hlocate, ⟨rfl, c, n, hnode⟩, ?_, rfl⟩
          rintro rfl
          cases hnode

theorem locate_of_writable {following : Bool} {place : Place} {mode : Nat}
    (hlocate : fs.locate ⟨true, following⟩ path = .ok place) (hplace : fs.Writable l place)
    (hsame : AgreeOff l fs fs') (hfile : fs'.node? l = some (.file b mode)) :
    fs'.locate .use path = .ok (.existing l) := by
  unfold locate at hlocate ⊢
  rw [← hsame.1]
  split_ifs at hlocate ⊢
  all_goals exact walk_of_writable hlocate hplace hsame hfile

theorem find_eq_ok_iff {n : Node} :
    fs.find path = .ok (m, n) ↔ fs.locate .use path = .ok (.existing m) ∧ fs.node? m = some n := by
  unfold find
  rw [Except.bind_eq_ok_iff]
  constructor
  · rintro ⟨place, hplace, h⟩
    cases place with
    | free k => cases h
    | existing k =>
      cases hnode : fs.node? k with
      | none =>
        simp only [hnode] at h
        cases h
      | some n' =>
        simp only [hnode] at h
        cases h
        exact ⟨hplace, hnode⟩
  · rintro ⟨hplace, hnode⟩
    refine ⟨_, hplace, ?_⟩
    simp only [hnode]
    rfl

theorem find_of_create {fresh : Bool} {mode mode' : Nat} {created : FileSystem}
    (hcreate : fs.create path fresh mode = .ok (l, created)) (hsame : AgreeOff l created fs')
    (hfile : fs'.node? l = some (.file b mode')) : fs'.find path = .ok (l, .file b mode') := by
  obtain ⟨place, m, hlocate, hplace, -, rfl⟩ := exists_place_of_create hcreate
  have hall : AgreeOff l fs fs' := (agreeOff_set fs l _).trans hsame
  exact find_eq_ok_iff.2 ⟨locate_of_writable hlocate hplace hall hfile, hfile⟩

theorem find_before_create {fresh : Bool} {mode mode' : Nat}
    (hcreate : fs.create path fresh mode = .ok (l, fs'))
    (hfile : fs.node? l = some (.file b mode')) : fs.find path = .ok (l, .file b mode') := by
  obtain ⟨place, m, hlocate, hplace, -, -⟩ := exists_place_of_create hcreate
  exact find_eq_ok_iff.2 ⟨locate_of_writable hlocate hplace (.refl l fs) hfile, hfile⟩

theorem openForReading_of_find {mode : Nat} (h : fs.find path = .ok (l, .file b mode)) :
    fs.openForReading path = .ok (.file b mode) := by
  unfold openForReading
  rw [h]
  rfl

theorem readFile_of_find {mode : Nat} (h : fs.find path = .ok (l, .file b mode)) :
    fs.readFile path = .ok b := by
  unfold readFile
  rw [openForReading_of_find h]
  rfl

theorem exists_find_of_read {opened : Opened} (h : fs.openForReading path = .ok opened)
    (hread : opened.read = .ok b) :
    ∃ l mode, fs.find path = .ok (l, .file b mode) ∧ opened = .file b mode := by
  obtain ⟨⟨l, n⟩, hfind, h⟩ := Except.bind_eq_ok_iff.1 h
  cases n with
  | directory =>
    cases h
    cases hread
  | link target =>
    cases h
    cases hread
  | file c mode =>
    cases h
    cases hread
    exact ⟨l, mode, hfind, rfl⟩

theorem exists_find_of_readFile (h : fs.readFile path = .ok b) :
    ∃ l mode, fs.find path = .ok (l, .file b mode) := by
  obtain ⟨opened, hopened, hread⟩ := Except.bind_eq_ok_iff.1 h
  obtain ⟨l, mode, hfind, -⟩ := exists_find_of_read hopened hread
  exact ⟨l, mode, hfind⟩

theorem readFile_of_create {fresh : Bool} {mode mode' : Nat} {created : FileSystem}
    (hcreate : fs.create path fresh mode = .ok (l, created)) (hsame : AgreeOff l created fs')
    (hfile : fs'.node? l = some (.file b mode')) : fs'.readFile path = .ok b :=
  readFile_of_find (find_of_create hcreate hsame hfile)

theorem node?_of_create {fresh : Bool} {mode : Nat} (h : fs.create path fresh mode = .ok (l, fs')) :
    ∃ mode', fs'.node? l = some (.file [] mode') := by
  obtain ⟨-, m, -, -, hne, rfl⟩ := exists_place_of_create h
  exact ⟨m, node?_set_self hne⟩

theorem node?_write {c : Bytes} {mode : Nat} (h : fs.node? l = some (.file c mode)) :
    ∃ mode', (fs.write l b).node? l = some (.file b mode') := by
  have hne : l ≠ [] := by
    rintro rfl
    cases h
  unfold write
  rw [h]
  exact ⟨_, node?_set_self hne⟩

/-- A path was opened for writing at a location, and only this file was changed since. -/
def Leads (fs : FileSystem) (path : String) (l : Location) : Prop :=
  ∃ old fresh mode created, FileSystem.create old path fresh mode = .ok (l, created) ∧
    AgreeOff l created fs ∧ ∃ b mode', fs.node? l = some (.file b mode')

theorem leads_of_create {fresh : Bool} {mode : Nat} (h : fs.create path fresh mode = .ok (l, fs')) :
    fs'.Leads path l := by
  obtain ⟨mode', hnode⟩ := node?_of_create h
  exact ⟨fs, fresh, mode, fs', h, .refl l fs', [], mode', hnode⟩

theorem Leads.write (h : fs.Leads path l) (b : Bytes) : (fs.write l b).Leads path l := by
  obtain ⟨old, fresh, mode, created, hcreate, hsame, c, mode', hnode⟩ := h
  obtain ⟨mode'', hnode'⟩ := node?_write (b := b) hnode
  exact ⟨old, fresh, mode, created, hcreate, hsame.trans (agreeOff_write fs l b), b, mode'', hnode'⟩

theorem Leads.readFile_write (h : fs.Leads path l) (b : Bytes) :
    (fs.write l b).readFile path = .ok b := by
  obtain ⟨old, fresh, mode, created, hcreate, hsame, c, mode', hnode⟩ := h
  obtain ⟨mode'', hnode'⟩ := node?_write (b := b) hnode
  exact readFile_of_create hcreate (hsame.trans (agreeOff_write fs l b)) hnode'

end Authenticode.FileSystem
