import TestData.Files.Tree

namespace TestData

/-!
# File systems

Looking for a file and reading it takes two answers for a path: whether it leads to a
file, as far as the file system can tell, and the text that is read there.  A file can
be there and yet not be readable, for whatever reason.  A file tree gives both answers.
-/

/-- What a file system answers about paths; there is no text where none can be read. -/
structure FileSystem where
  isFile : Path → Bool
  text? : Path → Option String

/-- The text of a file. -/
def FileSystem.readText (files : FileSystem) (path : Path) : Except StubError String :=
  match files.text? path with
  | some text => .ok text
  | none => .error .io

namespace FileTree

/-- The answers of a file tree. -/
def files (tree : FileTree) : FileSystem where
  isFile := tree.isFile
  text? path := (tree.readText path).toOption

instance : Coe FileTree FileSystem := ⟨files⟩

theorem eq_io_of_readText {tree : FileTree} {path : Path} {cause : StubError}
    (failed : tree.readText path = .error cause) : cause = .io := by
  unfold readText at failed
  split at failed
  · split at failed <;> cases failed
    rfl
  · cases failed
    rfl

/-- Reading fails in one way only, so it is the same for the tree and for its answers. -/
theorem readText_files (tree : FileTree) (path : Path) :
    tree.files.readText path = tree.readText path := by
  cases outcome : tree.readText path with
  | ok text => simp only [FileSystem.readText, files, outcome, Except.toOption]
  | error cause =>
      cases eq_io_of_readText outcome
      simp only [FileSystem.readText, files, outcome, Except.toOption]

end FileTree
end TestData
