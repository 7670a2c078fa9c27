import TestData.Failure
import TestData.Files.Path

namespace TestData

/-!
# File trees

A file tree is a set of directories and files with their bytes, addressed by the
names that lead to them from the root.  A path is followed name by name through
directories that exist; two dots lead back up, but not out of the tree.  A path that
is too long, or that holds a name no entry can have, leads nowhere.
-/

/-- An entry of a file tree. -/
inductive FileNode where
  | file (bytes : ByteArray)
  | directory

/-- Files and directories, by the names that lead to them; the root always exists. -/
structure FileTree where
  entries : List (List String × FileNode)

namespace FileTree

/-- The tree with nothing in it. -/
def empty : FileTree where
  entries := []

instance : Inhabited FileTree := ⟨empty⟩

/-- What is at the end of a way from the root. -/
def node? (tree : FileTree) (names : List String) : Option FileNode :=
  if names.isEmpty then some .directory else tree.entries.lookup names

def isDirectory (tree : FileTree) (names : List String) : Bool :=
  match tree.node? names with
  | some .directory => true
  | _ => false

/--
The number of bytes a path may have: of the 4095 of a whole path, the way to the root
of the tree takes 16.
-/
def pathLimit : Nat :=
  4079

/-- Follow one segment of a path. -/
def follow (tree : FileTree) (names : List String) (segment : String) : Option (List String) :=
  if !tree.isDirectory names || !Path.isNameable segment then none
  else if Path.isIdle segment then some names
  else if segment == ".." then (if names.isEmpty then none else some names.dropLast)
  else some (names ++ [segment])

/-- Where a path leads, whether there is anything or not. -/
def locate? (tree : FileTree) (path : Path) : Option (List String) :=
  if path.byteSize ≤ pathLimit then path.segments.foldlM tree.follow [] else none

/-- Whether there is a file at the end of a path. -/
def isFile (tree : FileTree) (path : Path) : Bool :=
  match (tree.locate? path).bind tree.node? with
  | some (.file _) => true
  | _ => false

/-- The text of a file, which has to be valid UTF-8. -/
def readText (tree : FileTree) (path : Path) : Except StubError String :=
  match (tree.locate? path).bind tree.node? with
  | some (.file bytes) =>
      match String.fromUTF8? bytes with
      | some text => .ok text
      | none => .error .io
  | _ => .error .io

/-- The tree with an entry put in place of the one that was there. -/
def insert (tree : FileTree) (names : List String) (node : FileNode) : FileTree where
  entries := (names, node) :: tree.entries.filter fun entry => entry.1 != names

/-- Write a file into a directory that exists. -/
def writeText (tree : FileTree) (path : Path) (text : String) : Except StubError FileTree :=
  match tree.locate? path with
  | some names =>
      if tree.isDirectory names then .error .io
      else .ok (tree.insert names (.file text.toUTF8))
  | none => .error .io

/--
Follow one segment of a path that is being made: a directory that is missing on the
way is put there.
-/
def descend (way : FileTree × List String) (segment : String) : FileTree × List String :=
  let (tree, names) := way
  if Path.isIdle segment then way
  else if segment == ".." then (tree, names.dropLast)
  else
    let below := names ++ [segment]
    (if tree.isDirectory below then tree else tree.insert below .directory, below)

/-- The tree with a directory and everything above it. -/
def withDirectory (tree : FileTree) (path : Path) : FileTree :=
  (path.segments.foldl descend (tree, [])).1

/-- The tree with a file and the directories above it. -/
def withFile (tree : FileTree) (path : Path) (bytes : ByteArray) : FileTree :=
  let (tree, names) := path.segments.dropLast.foldl descend (tree, [])
  tree.insert (names ++ [path.segments.getLastD ""]) (.file bytes)

end FileTree
end TestData
