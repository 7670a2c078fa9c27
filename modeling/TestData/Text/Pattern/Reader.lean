import TestData.Text.Pattern

namespace TestData
namespace Text
namespace Pattern

/-!
# Reading patterns

The usual way to write patterns: characters stand for themselves, a dot for any
character but a line break, a hat and a dollar sign for the ends of the text, and
brackets, parentheses, bars and signs of repetition have their usual sense.
-/

/-- The character that a backslash makes of the one behind it. -/
def escaped? (c : Char) : Option Char :=
  match c with
  | 'n' => some '\n'
  | 't' => some '\t'
  | 'r' => some '\r'
  | c => if c.isAlphanum || c.val ≥ 128 then none else some c

/-- A character, as it is or behind a backslash. -/
def readCharacter : List Char → Option (Char × List Char)
  | '\\' :: c :: rest => (escaped? c).map (·, rest)
  | ['\\'] | [] => none
  | c :: rest => some (c, rest)

/-! ## Classes -/

/--
A member of a class: a character, or a range of them.  A hyphen stands for itself
before the closing bracket, and two of them take away what follows.
-/
def readMember (input : List Char) : Option (CharacterSet × List Char) := do
  let (low, rest) ← readCharacter input
  match rest with
  | '-' :: ']' :: _ | '-' :: '-' :: _ => return (.single low, rest)
  | '-' :: rest =>
      let (high, rest) ← readCharacter rest
      if low ≤ high then return (.range low high, rest) else none
  | rest => return (.single low, rest)

/-- The hyphens at the beginning of a class, which stand for themselves. -/
def skipHyphens : List Char → List Char
  | '-' :: rest => skipHyphens rest
  | rest => rest

/--
What a class begins with that would mean something else further on: hyphens, or else
a closing bracket.
-/
def readOpening (input : List Char) : CharacterSet × List Char :=
  match input with
  | '-' :: rest => (.single '-', skipHyphens rest)
  | ']' :: rest => (.single ']', rest)
  | rest => (.empty, rest)

mutual

/-- A class after its opening bracket. -/
def readClass : Nat → List Char → Option (CharacterSet × List Char)
  | 0, _ => none
  | fuel + 1, '^' :: input => do
      let (opening, rest) := readOpening input
      let (members, rest) ← readMembers fuel id opening rest
      return (.complement members, rest)
  | fuel + 1, input =>
      let (opening, rest) := readOpening input
      readMembers fuel id opening rest

/--
The members of a class up to its closing bracket.  What is read since the last
operator is put together, and combined with what stood before the operator.
-/
def readMembers (fuel : Nat) (combine : CharacterSet → CharacterSet) (members : CharacterSet)
    (input : List Char) : Option (CharacterSet × List Char) :=
  match fuel, input with
  | 0, _ => none
  | _ + 1, ']' :: rest => some (combine members, rest)
  | fuel + 1, '[' :: rest => do
      let (inner, rest) ← readClass fuel rest
      readMembers fuel combine (.union members inner) rest
  | fuel + 1, '&' :: '&' :: rest =>
      readMembers fuel (.intersection (combine members)) .empty rest
  | fuel + 1, '-' :: '-' :: rest =>
      readMembers fuel (.difference (combine members)) .empty rest
  | fuel + 1, '~' :: '~' :: rest =>
      readMembers fuel (.symmetricDifference (combine members)) .empty rest
  | fuel + 1, input => do
      let (member, rest) ← readMember input
      readMembers fuel combine (.union members member) rest

end

/-! ## Repetition and groups -/

/--
A question mark behind a sign of repetition asks for matches to be short.  That is no
matter for whether there is a match, so it is passed over.
-/
def skipPreference : List Char → List Char
  | '?' :: rest => rest
  | rest => rest

/-- Repetition signs after an atom. -/
def readRepetition : Nat → Pattern → List Char → Pattern × List Char
  | fuel + 1, pattern, '*' :: rest => readRepetition fuel (.many pattern) (skipPreference rest)
  | fuel + 1, pattern, '+' :: rest =>
      readRepetition fuel (.several pattern) (skipPreference rest)
  | fuel + 1, pattern, '?' :: rest =>
      readRepetition fuel (.perhaps pattern) (skipPreference rest)
  | _, pattern, rest => (pattern, rest)

/-- The mark of a group that is not to be remembered, which no group is here. -/
def skipGroupMark : List Char → List Char
  | '?' :: ':' :: rest => rest
  | rest => rest

mutual

/-- Alternatives, up to the end of the input or a closing parenthesis. -/
def readAlternatives : Nat → List Char → Option (Pattern × List Char)
  | 0, _ => none
  | fuel + 1, input => do
      let (first, rest) ← readSequence fuel input
      match rest with
      | '|' :: rest =>
          let (second, rest) ← readAlternatives fuel rest
          return (.either first second, rest)
      | rest => return (first, rest)

/-- Atoms one after the other. -/
def readSequence : Nat → List Char → Option (Pattern × List Char)
  | 0, _ => none
  | fuel + 1, input =>
      match input with
      | [] | '|' :: _ | ')' :: _ => some (.empty, input)
      | input => do
          let (atom, rest) ← readAtom fuel input
          let (repeated, rest) := readRepetition rest.length atom rest
          let (following, rest) ← readSequence fuel rest
          return (.both repeated following, rest)

/-- A single character, a class, an end of the text or a group. -/
def readAtom : Nat → List Char → Option (Pattern × List Char)
  | 0, _ => none
  | fuel + 1, input =>
      match input with
      | '(' :: rest => do
          let (inner, rest) ← readAlternatives fuel (skipGroupMark rest)
          match rest with
          | ')' :: rest => return (inner, rest)
          | _ => none
      | '[' :: rest => (readClass (rest.length + 1) rest).map fun (characters, rest) =>
          (.oneOf characters, rest)
      | '.' :: rest => some (.oneOf (.complement (.single '\n')), rest)
      | '^' :: rest => some (.start, rest)
      | '$' :: rest => some (.finish, rest)
      | '*' :: _ | '+' :: _ | '?' :: _ => none
      | input => (readCharacter input).map fun (c, rest) => (.oneOf (.single c), rest)

end

/-- The pattern a text denotes, if the text is well formed. -/
def ofString? (text : String) : Option Pattern :=
  match readAlternatives (3 * text.length + 3) text.toList with
  | some (pattern, []) => some pattern
  | _ => none

end Pattern
end Text
end TestData
