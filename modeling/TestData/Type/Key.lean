namespace TestData

/-!
# Keys of types

Descriptors are compared by name: two classes are the same class when their
names are equal, whatever they declare.  The key of a type is what is left of it
when every class is reduced to its name and every type variable to the variable
itself, without its bounds.  Types are compared, remembered and written out
through their keys.
-/

/-- A type variable: the name it has and what declares it. -/
structure TypeVariable where
  declaredBy : String
  name : String
  deriving DecidableEq, Repr, Inhabited

/-- A type in which classes are reduced to their names. -/
inductive TypeKey where
  | plain (name : String)
  | parameterized (raw : String) (arguments : List TypeKey)
  | wildcard (upper lower : List TypeKey)
  | var (symbol : TypeVariable)
  | genericArray (component : TypeKey)
  deriving Repr, Inhabited

namespace TypeKey

mutual

/-- Keys are compared constructor by constructor. -/
def decideEq : (a b : TypeKey) → Decidable (a = b)
  | .plain a, .plain b =>
      if same : a = b then .isTrue (by rw [same])
      else .isFalse (by intro h; injection h; contradiction)
  | .parameterized a as, .parameterized b bs =>
      if same : a = b then
        match decideListEq as bs with
        | .isTrue sameArguments => .isTrue (by rw [same, sameArguments])
        | .isFalse different => .isFalse (by intro h; injection h; contradiction)
      else .isFalse (by intro h; injection h; contradiction)
  | .wildcard us ls, .wildcard vs ms =>
      match decideListEq us vs, decideListEq ls ms with
      | .isTrue sameUpper, .isTrue sameLower => .isTrue (by rw [sameUpper, sameLower])
      | .isFalse different, _ => .isFalse (by intro h; injection h; contradiction)
      | _, .isFalse different => .isFalse (by intro h; injection h; contradiction)
  | .var a, .var b =>
      if same : a = b then .isTrue (by rw [same])
      else .isFalse (by intro h; injection h; contradiction)
  | .genericArray a, .genericArray b =>
      match decideEq a b with
      | .isTrue same => .isTrue (by rw [same])
      | .isFalse different => .isFalse (by intro h; injection h; contradiction)
  | .plain _, .parameterized .. | .plain _, .wildcard .. | .plain _, .var _
  | .plain _, .genericArray _ | .parameterized .., .plain _ | .parameterized .., .wildcard ..
  | .parameterized .., .var _ | .parameterized .., .genericArray _
  | .wildcard .., .plain _ | .wildcard .., .parameterized .. | .wildcard .., .var _
  | .wildcard .., .genericArray _ | .var _, .plain _ | .var _, .parameterized ..
  | .var _, .wildcard .. | .var _, .genericArray _ | .genericArray _, .plain _
  | .genericArray _, .parameterized .. | .genericArray _, .wildcard ..
  | .genericArray _, .var _ => .isFalse (by intro h; cases h)

def decideListEq : (as bs : List TypeKey) → Decidable (as = bs)
  | [], [] => .isTrue rfl
  | [], _ :: _ => .isFalse (by intro h; cases h)
  | _ :: _, [] => .isFalse (by intro h; cases h)
  | a :: as, b :: bs =>
      match decideEq a b, decideListEq as bs with
      | .isTrue same, .isTrue sameRest => .isTrue (by rw [same, sameRest])
      | .isFalse different, _ => .isFalse (by intro h; injection h; contradiction)
      | _, .isFalse different => .isFalse (by intro h; injection h; contradiction)

end

instance : DecidableEq TypeKey := decideEq

/-- The key of the top class, which every non-primitive class can stand in for. -/
def object : TypeKey := .plain "object"

mutual

/--
The text of a type.  A wildcard shows its only lower bound, else its only upper
bound unless that is the top class, and nothing if it has several.
-/
def display : TypeKey → String
  | .plain name => name
  | .parameterized raw arguments => raw ++ "<" ++ ", ".intercalate (displayAll arguments) ++ ">"
  | .wildcard upper lower =>
      match lower, upper with
      | [bound], _ => "? super " ++ bound.display
      | _, [bound] => if bound = object then "?" else "? extends " ++ bound.display
      | _, _ => "?"
  | .var symbol => symbol.name
  | .genericArray component => component.display ++ "[]"

def displayAll : List TypeKey → List String
  | [] => []
  | key :: keys => key.display :: displayAll keys

end

@[simp]
theorem displayAll_eq_map (keys : List TypeKey) : displayAll keys = keys.map display := by
  induction keys with
  | nil => rfl
  | cons key keys ih => simp [displayAll, ih]

end TypeKey

end TestData
