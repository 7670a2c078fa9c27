import TestData.Type.Hierarchy

namespace TestData

/-!
# Bindings of type variables

A requested type such as `Box<String>` binds the type variables of its class, and
through the declared supertypes those of every class above it.  With the bindings
at hand the declared types of members turn into the types to request.

Walking up the hierarchy follows declared supertypes.  A supertype may itself be
a type variable, and then the walk goes on at whatever the variable is bound to,
which need not be any smaller: a class that extends its own parameter can be
applied so that the walk never ends.  The walk is therefore given a depth, and
running out of it is a result of its own.
-/

/-- The depth a computation was given does not suffice. -/
structure Exhausted where
  deriving DecidableEq, Repr, Inhabited

/-- Computations that go on only to a given depth. -/
abbrev Bounded (α : Type) := Except Exhausted α

/-- Of two computations, one after the other, each gives a result if both together do. -/
theorem Bounded.of_bind_eq_ok {α β : Type} {bounded : Bounded α} {next : α → Bounded β}
    {result : β} (given : (bounded >>= next) = .ok result) :
    ∃ between, bounded = .ok between ∧ next between = .ok result := by
  cases bounded with
  | error exhausted => cases given
  | ok between => exact ⟨between, rfl, given⟩

/-- What type variables stand for; of two entries for a variable the first counts. -/
structure Bindings where
  entries : List (TypeVariable × TypeExpr)

namespace Bindings

/-- No variable is bound. -/
def empty : Bindings where
  entries := []

instance : Inhabited Bindings := ⟨empty⟩

/-- What a variable is bound to. -/
def binding? (bindings : Bindings) (symbol : TypeVariable) : Option TypeExpr :=
  bindings.entries.lookup symbol

/-- Bind a variable, whatever it was bound to before. -/
def insert (bindings : Bindings) (symbol : TypeVariable) (type : TypeExpr) : Bindings where
  entries := (symbol, type) :: bindings.entries

@[simp]
theorem binding?_empty (symbol : TypeVariable) : empty.binding? symbol = none := rfl

@[simp]
theorem binding?_insert_self (bindings : Bindings) (symbol : TypeVariable) (type : TypeExpr) :
    (bindings.insert symbol type).binding? symbol = some type := by
  simp [binding?, insert]

theorem binding?_insert_of_ne (bindings : Bindings) {symbol other : TypeVariable}
    (type : TypeExpr) (different : other ≠ symbol) :
    (bindings.insert symbol type).binding? other = bindings.binding? other := by
  have unequal : (other == symbol) = false := beq_eq_false_iff_ne.mpr different
  simp [binding?, insert, List.lookup_cons, unequal]

/-- What a variable is bound to after one is bound was put in for that one or was there before. -/
theorem of_binding?_insert {bindings : Bindings} {symbol other : TypeVariable}
    {type found : TypeExpr} (bound : (bindings.insert symbol type).binding? other = some found) :
    other = symbol ∧ found = type ∨ bindings.binding? other = some found := by
  by_cases same : other = symbol
  · rw [same, binding?_insert_self] at bound
    exact .inl ⟨same, (Option.some.inj bound).symm⟩
  · rw [binding?_insert_of_ne _ _ same] at bound
    exact .inr bound

mutual

/--
The type with bound variables replaced.  What is put in is not resolved again.
A generic array whose component has become a class turns into an array class.
-/
def resolve (bindings : Bindings) : TypeExpr → TypeExpr
  | .plain c => .plain c
  | .var symbol bounds => (bindings.binding? symbol).getD (.var symbol bounds)
  | .parameterized raw arguments => .parameterized raw (resolveAll bindings arguments)
  | .wildcard upper lower => .wildcard (resolveAll bindings upper) (resolveAll bindings lower)
  | .genericArray component =>
      match resolve bindings component with
      | .plain c => .plain (.arrayOf c)
      | resolved => .genericArray resolved

def resolveAll (bindings : Bindings) : List TypeExpr → List TypeExpr
  | [] => []
  | type :: types => resolve bindings type :: resolveAll bindings types

end

@[simp]
theorem resolveAll_eq_map (bindings : Bindings) (types : List TypeExpr) :
    bindings.resolveAll types = types.map bindings.resolve := by
  induction types with
  | nil => rfl
  | cons type types ih => rw [List.map_cons, ← ih]; rfl

/--
Bind type parameters to arguments from left to right.  Each argument is resolved
with the bindings that are there when its turn comes.
-/
def bindArguments (bindings : Bindings) (symbols : List TypeVariable)
    (arguments : List TypeExpr) : Bindings :=
  (symbols.zip arguments).foldl
    (fun bindings entry => bindings.insert entry.1 (bindings.resolve entry.2)) bindings

/-- Add the bindings a type makes, at the type itself and above it. -/
def collect : Nat → TypeExpr → Bindings → Bounded Bindings
  | 0, _, _ => .error ⟨⟩
  | depth + 1, type, bindings =>
      let above (c : Class) (bindings : Bindings) : Bounded Bindings :=
        c.supertypes.foldlM
          (fun bindings supertype => collect depth (bindings.resolve supertype) bindings)
          bindings
      match type with
      | .plain c => above c bindings
      | .parameterized raw arguments =>
          above raw (bindings.bindArguments raw.typeVariables arguments)
      | .wildcard upper lower =>
          match TypeExpr.bound? upper lower with
          | some bound => collect depth bound bindings
          | none => .ok bindings
      | .var .. => .ok bindings
      | .genericArray _ => .ok bindings

/-- The bindings a type makes. -/
def ofType (depth : Nat) (type : TypeExpr) : Bounded Bindings :=
  collect depth type empty

end Bindings

/--
A type seen as one of its supertypes: the type itself if it already is of the
target class, else the target applied to what the type makes of its parameters.
There is no such view if the target is not above the class of the type.
-/
def TypeExpr.asSupertype (depth : Nat) (type : TypeExpr) (target : Class) :
    Bounded (Option TypeExpr) :=
  match type.rawType with
  | none => .ok none
  | some raw =>
      if raw == target then .ok (some type)
      else if !target.isAssignableFrom raw then .ok none
      else if target.typeParameters.isEmpty then .ok (some (.plain target))
      else do
        let bindings ← Bindings.ofType depth type
        return some (.parameterized target
          (target.typeVariables.map fun symbol => bindings.resolve (.ofVariable symbol)))

namespace Bindings

mutual

/--
Bind the variables of a formal type so that it fits an actual one, as far as the
two have the same shape.  A variable met again is bound again.
-/
def unify (depth : Nat) : TypeExpr → TypeExpr → Bindings → Bounded Bindings
  | .var symbol bounds, actual, bindings =>
      if TypeExpr.var symbol bounds == actual then .ok bindings
      else .ok (bindings.insert symbol actual)
  | .parameterized raw formals, actual, bindings => do
      match ← actual.asSupertype depth raw with
      | some (.parameterized _ actuals) => unifyAll depth formals actuals bindings
      | _ => return bindings
  | .genericArray formal, .genericArray actual, bindings => unify depth formal actual bindings
  | .genericArray formal, .plain c, bindings =>
      match c.component? with
      | some component => unify depth formal (.plain component) bindings
      | none => .ok bindings
  | .wildcard upperFormals lowerFormals, .wildcard upperActuals lowerActuals, bindings => do
      let bindings ← unifyAll depth upperFormals upperActuals bindings
      unifyAll depth lowerFormals lowerActuals bindings
  | .plain _, _, bindings => .ok bindings
  | .genericArray _, _, bindings => .ok bindings
  | .wildcard .., _, bindings => .ok bindings

/-- Unify two lists of types member by member, as far as the shorter one goes. -/
def unifyAll (depth : Nat) : List TypeExpr → List TypeExpr → Bindings → Bounded Bindings
  | formal :: formals, actual :: actuals, bindings => do
      unifyAll depth formals actuals (← unify depth formal actual bindings)
  | [], _, bindings => .ok bindings
  | _ :: _, [], bindings => .ok bindings

end

/-- The bindings, extended so that the formal type fits the actual one. -/
def bind (bindings : Bindings) (depth : Nat) (formal actual : TypeExpr) : Bounded Bindings :=
  unify depth formal actual bindings

end Bindings
end TestData
