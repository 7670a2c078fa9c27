import TestData.Proofs.Termination.Weight
import TestData.Strategy.Accept

namespace TestData

/-!
# What comes up in a resolution

All descriptors that a resolution can come to are parts of those it starts from, or
array classes around such parts.  A class graph is a collection of descriptors together
with everything that these mention of the types of members and of supertypes.  Of the
types that come up on the way some are parts of others, and some are made by replacing
type variables.
-/

/-- The class is one of the given ones, or an array class around one of them. -/
inductive Class.Within (classes : Class → Prop) : Class → Prop where
  | member {c : Class} (member : classes c) : Class.Within classes c
  | arrayOf {component : Class} (within : Class.Within classes component) :
      Class.Within classes (.arrayOf component)

/-- All classes in the type are among the given ones. -/
inductive TypeExpr.Within (classes : Class → Prop) : TypeExpr → Prop where
  | plain {c : Class} (within : c.Within classes) : TypeExpr.Within classes (.plain c)
  | parameterized {raw : Class} {arguments : List TypeExpr} (within : raw.Within classes)
      (inside : ∀ argument ∈ arguments, TypeExpr.Within classes argument) :
      TypeExpr.Within classes (.parameterized raw arguments)
  | wildcard {upper lower : List TypeExpr}
      (above : ∀ bound ∈ upper, TypeExpr.Within classes bound)
      (below : ∀ bound ∈ lower, TypeExpr.Within classes bound) :
      TypeExpr.Within classes (.wildcard upper lower)
  | var (symbol : TypeVariable) (bounds : List TypeExpr) : TypeExpr.Within classes (.var symbol bounds)
  | genericArray {component : TypeExpr} (inside : TypeExpr.Within classes component) :
      TypeExpr.Within classes (.genericArray component)

/-- The types a type is directly made of. -/
def TypeExpr.parts : TypeExpr → List TypeExpr
  | .plain c => c.component?.toList.map .plain
  | .parameterized _ arguments => arguments
  | .wildcard upper lower => upper ++ lower
  | .var .. => []
  | .genericArray component => [component]

namespace Class

/-- The types in the declaration of a class that may play a part when it is stubbed. -/
def mentions (c : Class) : List TypeExpr :=
  c.supertypes ++ c.component?.toList.map .plain
    ++ c.constructorDeclarations.flatMap (fun k => k.parameters.map ParameterDeclaration.type)
    ++ c.methodDeclarations.flatMap fun m =>
      m.returnType :: m.parameters.map ParameterDeclaration.type

/-- Whether there is more to a descriptor than the place of its class in the hierarchy. -/
def DeclaresMembers (c : Class) : Prop :=
  c.constructorDeclarations ≠ [] ∨ c.methodDeclarations ≠ []

end Class

/-- Class descriptors, with all that they mention. -/
structure ClassGraph where
  contains : Class → Prop
  closed {c : Class} (member : contains c) {type : TypeExpr} (mentioned : type ∈ c.mentions) :
    type.Within contains

namespace ClassGraph

/-- Of each class there is at most one descriptor that declares constructors or methods. -/
def Consistent (graph : ClassGraph) : Prop :=
  ∀ {c d : Class}, graph.contains c → graph.contains d → c.name = d.name →
    c.DeclaresMembers → d.DeclaresMembers → c = d

/-- No class stands below a type variable, and what factory methods return is no wildcard. -/
structure Orderly (graph : ClassGraph) : Prop where
  consistent : graph.Consistent
  supertypes {c : Class} (member : graph.contains c) {type : TypeExpr}
    (declared : type ∈ c.supertypes) (symbol : TypeVariable) (bounds : List TypeExpr) :
    type.unwrap ≠ some (.var symbol bounds)
  returns {c : Class} (member : graph.contains c) {m : MethodDeclaration}
    (declared : m ∈ c.methodDeclarations) (isStatic : m.isStatic = true) :
    m.returnType.isWildcard = false

variable {graph : ClassGraph} {c : Class}

theorem within_supertype (within : c.Within graph.contains) {type : TypeExpr}
    (declared : type ∈ c.supertypes) : type.Within graph.contains := by
  cases within with
  | member member =>
      apply graph.closed member
      unfold Class.mentions
      simp only [List.mem_append]
      exact Or.inl (Or.inl (Or.inl declared))
  | arrayOf within => cases declared

theorem Orderly.supertype_ne_var (orderly : graph.Orderly) (within : c.Within graph.contains)
    {type : TypeExpr} (declared : type ∈ c.supertypes) (symbol : TypeVariable)
    (bounds : List TypeExpr) : type.unwrap ≠ some (.var symbol bounds) := by
  cases within with
  | member member => exact orderly.supertypes member declared symbol bounds
  | arrayOf within => cases declared

theorem within_component (within : c.Within graph.contains) {component : Class}
    (array : c.component? = some component) : (TypeExpr.plain component).Within graph.contains := by
  cases within with
  | member member =>
      apply graph.closed member
      unfold Class.mentions
      simp [array]
  | arrayOf within =>
      cases array
      exact .plain within

theorem within_constructorParameter (member : graph.contains c) {k : ConstructorDeclaration}
    (declared : k ∈ c.constructorDeclarations) {parameter : ParameterDeclaration}
    (taken : parameter ∈ k.parameters) : parameter.type.Within graph.contains := by
  apply graph.closed member
  unfold Class.mentions
  simp only [List.mem_append, List.mem_flatMap]
  exact Or.inl (Or.inr ⟨k, declared, List.mem_map_of_mem taken⟩)

theorem within_returnType (member : graph.contains c) {m : MethodDeclaration}
    (declared : m ∈ c.methodDeclarations) : m.returnType.Within graph.contains := by
  apply graph.closed member
  unfold Class.mentions
  simp only [List.mem_append, List.mem_flatMap]
  exact Or.inr ⟨m, declared, List.mem_cons_self⟩

theorem within_methodParameter (member : graph.contains c) {m : MethodDeclaration}
    (declared : m ∈ c.methodDeclarations) {parameter : ParameterDeclaration}
    (taken : parameter ∈ m.parameters) : parameter.type.Within graph.contains := by
  apply graph.closed member
  unfold Class.mentions
  simp only [List.mem_append, List.mem_flatMap]
  exact Or.inr ⟨m, declared, List.mem_cons_of_mem _ (List.mem_map_of_mem taken)⟩

/-- An array class declares nothing, so a class with members is in the graph itself. -/
theorem contains_of_declaresMembers (within : c.Within graph.contains)
    (declares : c.DeclaresMembers) : graph.contains c := by
  cases within with
  | member member => exact member
  | arrayOf within => rcases declares with made | called <;> contradiction

end ClassGraph

theorem TypeExpr.Within.part {graph : ClassGraph} {type part : TypeExpr}
    (within : type.Within graph.contains) (member : part ∈ type.parts) : part.Within graph.contains := by
  cases within with
  | plain within =>
      rcases List.mem_map.mp member with ⟨component, array, rfl⟩
      exact ClassGraph.within_component within (Option.mem_toList.mp array)
  | parameterized _ inside => exact inside part member
  | wildcard above below =>
      rcases List.mem_append.mp member with upper | lower
      · exact above part upper
      · exact below part lower
  | var symbol bounds => cases member
  | genericArray inside =>
      cases List.mem_singleton.mp member
      exact inside

/-! ## Binding at once -/

namespace Bindings

/-- Bind type parameters to arguments, each argument as it is. -/
def bindAtOnce (bindings : Bindings) (symbols : List TypeVariable) (arguments : List TypeExpr) :
    Bindings :=
  (symbols.zip arguments).foldl
    (fun bindings entry => bindings.insert entry.1 (empty.resolve entry.2)) bindings

/-- Add the bindings a type makes, where arguments are bound as they are. -/
def collectAtOnce : Nat → TypeExpr → Bindings → Bounded Bindings
  | 0, _, _ => .error ⟨⟩
  | depth + 1, type, bindings =>
      let above (c : Class) (bindings : Bindings) : Bounded Bindings :=
        c.supertypes.foldlM
          (fun bindings supertype => collectAtOnce depth (bindings.resolve supertype) bindings)
          bindings
      match type with
      | .plain c => above c bindings
      | .parameterized raw arguments =>
          above raw (bindings.bindAtOnce raw.typeVariables arguments)
      | .wildcard upper lower =>
          match TypeExpr.bound? upper lower with
          | some bound => collectAtOnce depth bound bindings
          | none => .ok bindings
      | .var .. => .ok bindings
      | .genericArray _ => .ok bindings

/-- The bindings a type makes if no variable in its arguments is taken for one that was bound. -/
def ofTypeAtOnce (depth : Nat) (type : TypeExpr) : Bounded Bindings :=
  collectAtOnce depth type empty

end Bindings

/-! ## The types that come up -/

namespace ClassGraph

/--
The types that a request may lead to: parts of a type, a type seen as one of its
supertypes, and the types that parameters of constructors and factory methods have for
a type.
-/
inductive ComesUp (graph : ClassGraph) (start : TypeExpr) : TypeExpr → Prop where
  | start : graph.ComesUp start start
  | part {type part : TypeExpr} (whole : graph.ComesUp start type) (member : part ∈ type.parts) :
      graph.ComesUp start part
  | view {type seen : TypeExpr} {target : Class} {depth : Nat} (seeing : graph.ComesUp start type)
      (within : target.Within graph.contains)
      (viewed : type.asSupertype depth target = .ok (some seen)) : graph.ComesUp start seen
  | constructorParameter {type : TypeExpr} {c : Class} {k : Constructor} {depth : Nat}
      {bindings : Bindings} {parameter : Parameter} (made : graph.ComesUp start type)
      (constructed : Strategy.constructedClass? type = some c) (usable : k ∈ c.usableConstructors)
      (bound : Bindings.ofType depth type = .ok bindings) (taken : parameter ∈ k.parameters) :
      graph.ComesUp start (bindings.resolve parameter.type)
  | methodParameter {type : TypeExpr} {c : Class} {m : Method} {depth : Nat}
      {own bindings : Bindings} {parameter : Parameter} (made : graph.ComesUp start type)
      (manufactured : Strategy.manufacturedClass? type = some c) (usable : m ∈ c.factoryMethods)
      (bound : Bindings.ofType depth type = .ok own)
      (fitted : own.bind depth m.returnType type = .ok bindings) (taken : parameter ∈ m.parameters) :
      graph.ComesUp start (bindings.resolve parameter.type)

/-- Whatever comes up, binding arguments one after the other is binding them at once. -/
def Uncaptured (graph : ClassGraph) (start : TypeExpr) : Prop :=
  ∀ type, graph.ComesUp start type → ∀ depth,
    Bindings.ofType depth type = Bindings.ofTypeAtOnce depth type

end ClassGraph
end TestData
