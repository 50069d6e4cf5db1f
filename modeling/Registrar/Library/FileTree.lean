import Registrar.Library.Table

/-!
# Files under paths

A file tree maps finitely many paths to contents.  Writing and removing a file
are described by what reading a path finds afterwards.
-/

/-- Finitely many files, at most one under each path. -/
abbrev FileTree (Path Content : Type*) :=
  Table (Table.DistinctKey (Prod.fst : Path × Content → Path))

namespace FileTree

variable {Path Content : Type*} [DecidableEq Path]

def read (tree : FileTree Path Content) (path : Path) : Option Content :=
  (tree.find? path).map Prod.snd

def exists? (tree : FileTree Path Content) (path : Path) : Bool :=
  (tree.read path).isSome

def unlink (tree : FileTree Path Content) (path : Path) :
    FileTree Path Content :=
  tree.filter fun file => file.1 ≠ path

def write (tree : FileTree Path Content) (path : Path) (content : Content) :
    FileTree Path Content where
  rows := (tree.unlink path).rows ++ [(path, content)]
  coexist := by
    rw [List.pairwise_append]
    refine ⟨(tree.unlink path).coexist, List.pairwise_singleton _ _, ?_⟩
    intro file member new isNew
    rw [List.mem_singleton.mp isNew]
    exact of_decide_eq_true (List.mem_filter.mp member).2

theorem read_eq_some_iff {tree : FileTree Path Content} {path : Path}
    {content : Content} :
    tree.read path = some content ↔ (path, content) ∈ tree.rows := by
  unfold read
  rw [Option.map_eq_some_iff]
  constructor
  · rintro ⟨file, found, rfl⟩
    obtain ⟨member, rfl⟩ := Table.find?_eq_some_iff.mp found
    exact member
  · intro member
    exact ⟨(path, content), Table.find?_eq_some_iff.mpr ⟨member, rfl⟩, rfl⟩

theorem read_eq_none_iff {tree : FileTree Path Content} {path : Path} :
    tree.read path = none ↔ ∀ content, (path, content) ∉ tree.rows := by
  rw [Option.eq_none_iff_forall_ne_some]
  exact forall_congr' fun content => not_congr read_eq_some_iff

theorem read_unlink (tree : FileTree Path Content) (path wanted : Path) :
    (tree.unlink path).read wanted =
      if wanted = path then none else tree.read wanted := by
  ext content
  simp only [read_eq_some_iff, unlink, Table.filter, List.mem_filter,
    decide_eq_true_eq]
  split_ifs with same
  · simp [same]
  · simp [same, read_eq_some_iff]

theorem read_write (tree : FileTree Path Content) (path wanted : Path)
    (content : Content) :
    (tree.write path content).read wanted =
      if wanted = path then some content else tree.read wanted := by
  ext found
  have isSplit : (wanted, found) ∈ (tree.write path content).rows ↔
      (tree.unlink path).read wanted = some found ∨
        wanted = path ∧ found = content := by
    simp [write, read_eq_some_iff]
  rw [read_eq_some_iff, isSplit, read_unlink]
  split_ifs with same
  · simp [same, eq_comm]
  · simp [same]

@[simp]
theorem read_unlink_self (tree : FileTree Path Content) (path : Path) :
    (tree.unlink path).read path = none := by
  simp [read_unlink]

@[simp]
theorem read_write_self (tree : FileTree Path Content) (path : Path)
    (content : Content) :
    (tree.write path content).read path = some content := by
  simp [read_write]

theorem read_unlink_of_ne (tree : FileTree Path Content) {path wanted : Path}
    (different : wanted ≠ path) :
    (tree.unlink path).read wanted = tree.read wanted := by
  simp [read_unlink, different]

theorem read_write_of_ne (tree : FileTree Path Content) {path wanted : Path}
    (content : Content) (different : wanted ≠ path) :
    (tree.write path content).read wanted = tree.read wanted := by
  simp [read_write, different]

end FileTree
