import TestData.Text.CharacterSet

namespace TestData
namespace Text

/-!
# Patterns

Regular expressions for names: characters out of a set, the two ends of the text,
alternatives and repetition.  A pattern is looked for anywhere in a text unless it
says otherwise.

The search goes through the text once.  It keeps the patterns that are still left
to match for the matches begun so far, each of them once; there are never more of
them than there are places in the pattern, so no pattern makes the search explode.
-/

/-- A regular expression over characters. -/
inductive Pattern where
  | empty
  | oneOf (characters : CharacterSet)
  | start
  | finish
  | both (first second : Pattern)
  | either (first second : Pattern)
  | many (inner : Pattern)
  | several (inner : Pattern)
  | perhaps (inner : Pattern)
  deriving DecidableEq, Repr, Inhabited

/-- What can be seen of a text from a place in it: whether it is one of the two ends. -/
structure Outlook where
  atStart : Bool
  atFinish : Bool
  deriving DecidableEq, Repr

namespace Pattern

/-- One pattern behind the other, where nothing is left of a pattern that is done. -/
def followedBy : Pattern → Pattern → Pattern
  | .empty, second => second
  | first, second => .both first second

/-- Whether a pattern matches no character at all at a place. -/
def matchesNothing (outlook : Outlook) : Pattern → Bool
  | .empty => true
  | .oneOf _ => false
  | .start => outlook.atStart
  | .finish => outlook.atFinish
  | .both first second => first.matchesNothing outlook && second.matchesNothing outlook
  | .either first second => first.matchesNothing outlook || second.matchesNothing outlook
  | .many _ => true
  | .several inner => inner.matchesNothing outlook
  | .perhaps _ => true

/--
What is left to match behind a character, one pattern for each way to match the
character.  The start of a text matters only before its first character, and its end
is not before a character.
-/
def after (atStart : Bool) (c : Char) : Pattern → List Pattern
  | .empty | .start | .finish => []
  | .oneOf characters => if characters.contains c then [.empty] else []
  | .both first second =>
      let left := (first.after atStart c).map (·.followedBy second)
      if first.matchesNothing ⟨atStart, false⟩ then left ++ second.after atStart c else left
  | .either first second => first.after atStart c ++ second.after atStart c
  | .many inner => (inner.after atStart c).map (·.followedBy (.many inner))
  | .several inner => (inner.after atStart c).map (·.followedBy (.many inner))
  | .perhaps inner => inner.after atStart c

/--
Whether a match ends somewhere in the rest of a text, be it a match that was begun
before, of which one of the given patterns is left, or a new one.
-/
def isFoundFrom (pattern : Pattern) (atStart : Bool) (begun : List Pattern) :
    List Char → Bool
  | [] => (pattern :: begun).any (·.matchesNothing ⟨atStart, true⟩)
  | c :: rest =>
      if (pattern :: begun).any (·.matchesNothing ⟨atStart, false⟩) then true
      else
        pattern.isFoundFrom false
          ((pattern :: begun).flatMap (·.after atStart c)).eraseDups rest

/-- Whether a match of the pattern occurs in a text. -/
def isFoundIn (pattern : Pattern) (text : String) : Bool :=
  pattern.isFoundFrom true [] text.toList

/-- Any text holds a match of the empty pattern. -/
theorem isFoundIn_empty (text : String) : Pattern.empty.isFoundIn text = true := by
  unfold isFoundIn
  cases text.toList <;> simp [isFoundFrom, matchesNothing]

end Pattern
end Text
end TestData
