import Authenticode.CertificateDatabase
import Authenticode.Proofs.FileSystem

/-!
# Permission bits do not matter

Nothing a run asks of its files depends on permission bits: where a path leads, what
is read from it, whether it can be created and what then stands there. So two file
systems with the same contents answer alike, and stay so when the same is written to
both, with whatever permission bits.
-/
namespace Authenticode

/-- The node with no permission bits set. -/
def Node.withoutMode : Node → Node
  | .file bytes _ => .file bytes 0
  | .directory => .directory
  | .link target => .link target

theorem Node.withoutMode_eq_iff {n m : Node} : n.withoutMode = m.withoutMode ↔
    n = m ∨ ∃ b i j, n = .file b i ∧ m = .file b j := by
  constructor
  · intro h
    cases n with
    | file b i =>
      cases m with
      | file c j =>
        cases h
        exact .inr ⟨b, i, j, rfl, rfl⟩
      | directory | link => cases h
    | directory =>
      cases m with
      | directory => exact .inl rfl
      | file | link => cases h
    | link =>
      cases m with
      | link => exact .inl (by cases h; rfl)
      | file | directory => cases h
  · rintro (rfl | ⟨b, i, j, rfl, rfl⟩) <;> rfl

namespace FileSystem

variable {fs gs : FileSystem} {l : Location} {path : String}

def withoutModes (fs : FileSystem) : FileSystem :=
  { fs with nodes := fs.nodes.map fun p => (p.1, p.2.withoutMode) }

/-- File systems that differ in permission bits at most. -/
def SameContents (fs gs : FileSystem) : Prop := fs.withoutModes = gs.withoutModes

theorem lookup_withoutMode (nodes : List (Location × Node)) :
    (nodes.map fun p => (p.1, p.2.withoutMode)).lookup l
      = (nodes.lookup l).map Node.withoutMode := by
  induction nodes with
  | nil => rfl
  | cons p rest ih =>
    rw [List.map_cons, List.lookup_cons, List.lookup_cons, ih]
    split <;> rfl

theorem node?_withoutModes (fs : FileSystem) (l : Location) :
    fs.withoutModes.node? l = (fs.node? l).map Node.withoutMode := by
  unfold node?
  split
  · rfl
  · exact lookup_withoutMode fs.nodes

theorem map_withoutMode_eq_directory {node : Option Node} :
    node.map Node.withoutMode = some .directory ↔ node = some .directory := by
  cases node with
  | none => rfl
  | some node => cases node <;> simp [Node.withoutMode]

theorem withoutModes_set (fs : FileSystem) (l : Location) (node : Node) :
    (fs.set l node).withoutModes = fs.withoutModes.set l node.withoutMode := by
  simp only [withoutModes, set, List.map_cons, List.filter_map]
  rfl

theorem names_withoutModes (fs : FileSystem) (directory : Location) :
    fs.withoutModes.names directory = fs.names directory := by
  simp only [names, withoutModes, List.filterMap_map]
  rfl

theorem walkNames_withoutModes {p : Purpose}
    {follow : Location → List String → Except IoFailure Place} (names : List String)
    (here : Location) :
    fs.withoutModes.walkNames p follow here names = fs.walkNames p follow here names := by
  induction names generalizing here with
  | nil => rfl
  | cons name rest ih =>
    simp only [walkNames, ne_eq, node?_withoutModes, map_withoutMode_eq_directory, ih]
    cases fs.node? (here ++ [name]) with
    | none => rfl
    | some node => cases node <;> rfl

theorem walk_withoutModes {p : Purpose} (links : Nat) :
    fs.withoutModes.walk p links = fs.walk p links := by
  induction links with
  | zero =>
    funext here names
    exact walkNames_withoutModes names here
  | succ n ih =>
    funext here names
    rw [walk, walk, ih]
    exact walkNames_withoutModes names here

theorem locate_withoutModes (fs : FileSystem) (p : Purpose) (path : String) :
    fs.withoutModes.locate p path = fs.locate p path := by
  unfold locate
  rw [walk_withoutModes]
  rfl

theorem find_withoutModes (fs : FileSystem) (path : String) :
    fs.withoutModes.find path
      = (fs.find path).map fun found => (found.1, found.2.withoutMode) := by
  unfold find
  rw [locate_withoutModes]
  cases fs.locate .use path with
  | error f => rfl
  | ok place =>
    cases place with
    | free m => rfl
    | existing m =>
      have hmoved := node?_withoutModes fs m
      cases hnode : fs.node? m with
      | none =>
        rw [hnode] at hmoved
        simp only [bind, Except.bind, hnode, hmoved, Option.map_none]
        rfl
      | some n =>
        rw [hnode] at hmoved
        simp only [bind, Except.bind, hnode, hmoved, Option.map_some]
        rfl

namespace SameContents

variable (h : fs.SameContents gs)

include h

theorem node?_eq (l : Location) :
    (fs.node? l).map Node.withoutMode = (gs.node? l).map Node.withoutMode := by
  rw [← node?_withoutModes, ← node?_withoutModes, h]

theorem locate_eq (p : Purpose) (path : String) : fs.locate p path = gs.locate p path := by
  rw [← locate_withoutModes, ← locate_withoutModes gs, h]

theorem find_eq (path : String) : (fs.find path).map (fun q => (q.1, q.2.withoutMode))
    = (gs.find path).map fun q => (q.1, q.2.withoutMode) := by
  rw [← find_withoutModes, ← find_withoutModes, h]

/-- What a path leads to in both: nothing, one node, or files with one contents. -/
theorem find_cases (path : String) : (∃ f, fs.find path = .error f ∧ gs.find path = .error f) ∨
    ∃ l n m, fs.find path = .ok (l, n) ∧ gs.find path = .ok (l, m) ∧
      (n = m ∨ ∃ b i j, n = .file b i ∧ m = .file b j) := by
  have heq := h.find_eq path
  cases hfs : fs.find path with
  | error f =>
    cases hgs : gs.find path with
    | error g =>
      rw [hfs, hgs] at heq
      cases heq
      exact .inl ⟨f, rfl, rfl⟩
    | ok r =>
      rw [hfs, hgs] at heq
      cases heq
  | ok q =>
    cases hgs : gs.find path with
    | error g =>
      rw [hfs, hgs] at heq
      cases heq
    | ok r =>
      rw [hfs, hgs, Except.map, Except.map, Except.ok.injEq, Prod.mk.injEq] at heq
      exact .inr ⟨q.1, q.2, r.2, rfl, by rw [heq.1], Node.withoutMode_eq_iff.1 heq.2⟩

theorem contains_eq (path : String) : fs.contains path = gs.contains path := by
  unfold contains
  rcases h.find_cases path with ⟨f, hfs, hgs⟩ | ⟨l, n, m, hfs, hgs, -⟩
  · rw [hfs, hgs]
  · rw [hfs, hgs]
    rfl

theorem isSameFile_eq (a b : String) : fs.isSameFile a b = gs.isSameFile a b := by
  unfold isSameFile
  rcases h.find_cases a with ⟨f, hfs, hgs⟩ | ⟨l, n, m, hfs, hgs, -⟩
  · rw [hfs, hgs]
  · rcases h.find_cases b with ⟨f, hfs', hgs'⟩ | ⟨l', n', m', hfs', hgs', -⟩
    · rw [hfs, hgs, hfs', hgs']
    · rw [hfs, hgs, hfs', hgs']

theorem isFile_eq (path : String) : fs.isFile path = gs.isFile path := by
  unfold isFile
  rcases h.find_cases path with ⟨f, hfs, hgs⟩ | ⟨l, n, m, hfs, hgs, rfl | ⟨b, i, j, rfl, rfl⟩⟩
  · rw [hfs, hgs]
  · rw [hfs, hgs]
  · rw [hfs, hgs]

theorem list_eq (path : String) : fs.list path = gs.list path := by
  have hnames : fs.names = gs.names := by
    funext l
    rw [← names_withoutModes, ← names_withoutModes gs, h]
  unfold list
  rw [hnames]
  rcases h.find_cases path with ⟨f, hfs, hgs⟩ | ⟨l, n, m, hfs, hgs, rfl | ⟨b, i, j, rfl, rfl⟩⟩
  · rw [hfs, hgs]
  · rw [hfs, hgs]
  · rw [hfs, hgs]
    rfl

theorem openForReading_cases (path : String) :
    (∃ f, fs.openForReading path = .error f ∧ gs.openForReading path = .error f) ∨
      ∃ o p, fs.openForReading path = .ok o ∧ gs.openForReading path = .ok p ∧
        o.read = p.read := by
  unfold openForReading
  rcases h.find_cases path with ⟨f, hfs, hgs⟩ | ⟨l, n, m, hfs, hgs, rfl | ⟨b, i, j, rfl, rfl⟩⟩
  · rw [hfs, hgs]
    exact .inl ⟨f, rfl, rfl⟩
  · rw [hfs, hgs]
    cases n <;> exact .inr ⟨_, _, rfl, rfl, rfl⟩
  · rw [hfs, hgs]
    exact .inr ⟨_, _, rfl, rfl, rfl⟩

theorem readFile_eq (path : String) : fs.readFile path = gs.readFile path := by
  unfold readFile
  rcases h.openForReading_cases path with ⟨f, hfs, hgs⟩ | ⟨o, p, hfs, hgs, hread⟩
  · rw [hfs, hgs]
  · rw [hfs, hgs]
    exact hread

theorem set {n m : Node} (l : Location) (hnode : n.withoutMode = m.withoutMode) :
    (fs.set l n).SameContents (gs.set l m) := by
  unfold SameContents
  rw [withoutModes_set, withoutModes_set, h, hnode]

theorem node?_cases (l : Location) : (fs.node? l = none ∧ gs.node? l = none) ∨
    ∃ n m, fs.node? l = some n ∧ gs.node? l = some m ∧
      (n = m ∨ ∃ b i j, n = .file b i ∧ m = .file b j) := by
  have heq := h.node?_eq l
  cases hfs : fs.node? l with
  | none =>
    rw [hfs, Option.map_none] at heq
    exact .inl ⟨rfl, Option.map_eq_none_iff.1 heq.symm⟩
  | some n =>
    rw [hfs, Option.map_some] at heq
    obtain ⟨m, hm, hnode⟩ := Option.map_eq_some_iff.1 heq.symm
    exact .inr ⟨n, m, rfl, hm, Node.withoutMode_eq_iff.1 hnode.symm⟩

theorem write (l : Location) (b : Bytes) : (fs.write l b).SameContents (gs.write l b) := by
  unfold FileSystem.write
  rcases h.node?_cases l with ⟨hfs, hgs⟩ | ⟨n, m, hfs, hgs, rfl | ⟨c, i, j, rfl, rfl⟩⟩
  · rw [hfs, hgs]
    exact h
  · rw [hfs, hgs]
    cases n with
    | file => exact h.set l rfl
    | directory | link => exact h
  · rw [hfs, hgs]
    exact h.set l rfl

/-- A file is created in both, or in neither for one reason. -/
theorem create_cases (path : String) (fresh : Bool) (mode mode' : Nat) :
    (∃ f, fs.create path fresh mode = .error f ∧ gs.create path fresh mode' = .error f) ∨
      ∃ l fs' gs', fs.create path fresh mode = .ok (l, fs') ∧
        gs.create path fresh mode' = .ok (l, gs') ∧ fs'.SameContents gs' := by
  unfold create
  rw [h.locate_eq]
  cases gs.locate ⟨true, !fresh⟩ path with
  | error f => exact .inl ⟨f, rfl, rfl⟩
  | ok place =>
    cases place with
    | free l => exact .inr ⟨l, _, _, rfl, rfl, h.set l rfl⟩
    | existing l =>
      cases fresh with
      | true => exact .inl ⟨_, rfl, rfl⟩
      | false =>
        dsimp only [bind, Except.bind]
        rw [if_neg Bool.false_ne_true]
        rcases h.node?_cases l with ⟨hfs, hgs⟩ | ⟨n, m, hfs, hgs, rfl | ⟨b, i, j, rfl, rfl⟩⟩
        · rw [hfs, hgs]
          exact .inl ⟨_, rfl, rfl⟩
        · rw [hfs, hgs]
          cases n with
          | file b i => exact .inr ⟨l, _, _, rfl, rfl, h.set l rfl⟩
          | directory | link => exact .inl ⟨_, rfl, rfl⟩
        · rw [hfs, hgs]
          exact .inr ⟨l, _, _, rfl, rfl, h.set l rfl⟩

end SameContents

end FileSystem

namespace CertificateDatabase

-- Stated here because the equation that would be generated follows a path through all its links.
theorem loadEntries_cons (fs : FileSystem) (directory name : String) (names : List String) :
    loadEntries fs directory (name :: names) =
      let (entries, warnings) := loadEntries fs directory names
      match loadEntry fs directory name with
      | .ok (e, ws) => (e :: entries, ws ++ warnings)
      | .error _ => (entries, .skipped (Path.join directory name) :: warnings) := by
  exact rfl

variable {fs gs : FileSystem} (h : fs.SameContents gs)

include h

theorem readFile_eq (path : String) : readFile fs path = readFile gs path := by
  unfold readFile
  rw [h.readFile_eq]

theorem loadEntry_eq (directory name : String) :
    loadEntry fs directory name = loadEntry gs directory name := by
  unfold loadEntry loadKey
  simp only [readFile_eq h, h.isFile_eq]

theorem loadEntries_eq (directory : String) (names : List String) :
    loadEntries fs directory names = loadEntries gs directory names := by
  induction names with
  | nil => rfl
  | cons name names ih =>
    rw [loadEntries_cons, loadEntries_cons, ih, loadEntry_eq h]

theorem load_eq (directory : String) : load fs directory = load gs directory := by
  unfold load
  rw [h.list_eq]
  cases gs.list directory with
  | error f => rfl
  | ok names =>
    dsimp only
    rw [loadEntries_eq h]

end CertificateDatabase

end Authenticode
