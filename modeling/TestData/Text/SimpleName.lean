namespace TestData
namespace Text

/-!
# Simple names

A qualified name is a path of segments, possibly followed by type arguments in
angle brackets.  Its simple name is the last segment of the path: what follows
the last dot or colon before the first opening bracket.
-/

/-- The characters in front of the first opening angle bracket. -/
def withoutArguments (name : List Char) : List Char :=
  name.takeWhile (· != '<')

/-- Dots and colons separate the segments of a path. -/
def isSeparator (c : Char) : Bool :=
  c == '.' || c == ':'

/-- The last segment of a path: the longest ending without a separator. -/
def lastSegment (path : List Char) : List Char :=
  (path.reverse.takeWhile fun c => !isSeparator c).reverse

theorem not_separator_of_mem_lastSegment {path : List Char} {c : Char}
    (member : c ∈ lastSegment path) : isSeparator c = false := by
  have all := List.all_eq_true.mp
    (List.all_takeWhile (p := fun c => !isSeparator c) (l := path.reverse))
  simpa using all c (List.mem_reverse.mp member)

/-- The simple name of a qualified name. -/
def simpleName (name : String) : String :=
  String.ofList (lastSegment (withoutArguments name.toList))

end Text
end TestData
