namespace TestData

/-!
# Paths

A path is kept as it is written, cut at the slashes.  Empty segments and single
dots say nothing about where a path leads; the parent of a path is what is left
without its last segment that does.  Parents are a matter of the text alone: two
dots are a segment like any other.
-/

/-- A path relative to the root of a file tree, cut at the slashes. -/
structure Path where
  segments : List String
  deriving DecidableEq, Repr, Inhabited

namespace Path

/-- The path a text denotes. -/
def ofString (text : String) : Path where
  segments := text.splitOn "/"

/-- Segments that do not lead anywhere. -/
def isIdle (segment : String) : Bool :=
  segment == "" || segment == "."

/-- Whether a segment can name an entry of a directory, as far as its length and characters go. -/
def isNameable (segment : String) : Bool :=
  segment.utf8ByteSize ≤ 255 && !segment.contains '\x00'

/-- The number of bytes of a path as it is written. -/
def byteSize (path : Path) : Nat :=
  ("/".intercalate path.segments).utf8ByteSize

/-- The path of an entry of the directory the path denotes. -/
def join (path : Path) (name : String) : Path where
  segments :=
    (if path.segments.getLast? == some "" then path.segments.dropLast else path.segments) ++ [name]

/-- The path without its last segment that leads anywhere. -/
def parent? (path : Path) : Option Path :=
  match path.segments.reverse.dropWhile isIdle with
  | [] => none
  | _ :: above => some ⟨(above.dropWhile isIdle).reverse⟩

/-- The text of a path, without idle segments in front. -/
def display (path : Path) : String :=
  "/".intercalate (path.segments.dropWhile isIdle)

theorem length_parent?_lt {path parent : Path} (found : path.parent? = some parent) :
    parent.segments.length < path.segments.length := by
  unfold parent? at found
  split at found
  · contradiction
  · rename_i last above shape
    cases found
    have short : (last :: above).length ≤ path.segments.reverse.length := by
      rw [← shape]
      exact (List.dropWhile_sublist _).length_le
    have shorter : (above.dropWhile isIdle).length ≤ above.length :=
      (List.dropWhile_sublist _).length_le
    simp only [List.length_reverse, List.length_cons] at *
    omega

/-- The path, its parent, the parent of that, and so on. -/
def ancestors (path : Path) : List Path :=
  path :: (match found : path.parent? with
    | some parent =>
        have := length_parent?_lt found
        parent.ancestors
    | none => [])
termination_by path.segments.length

end Path
end TestData
