import TestData.Proofs.Parameters

namespace TestData

/-!
# What sites tell about themselves

A site can be asked for the constructor or the method it is about, for the executable, for
the parameter and its position, for the field, the annotated element and the name.  Each of
these questions looks at the kind of the site on its own, and nothing in the kind makes the
answers fit together: a kind may pair an executable with a parameter of another one.

The ways of making sites let no such kind through.  They check that a parameter belongs to
the executable, and a parameter that does is found again at its own position, since
parameters are numbered in the order in which they are declared.
-/

namespace Executable

variable {e : Executable} {p : Parameter}

/-- A claimed parameter is, up to its annotations, the one declared at its position. -/
theorem Claims.getElem_index (claims : e.Claims p) :
    ∃ inRange : p.index < e.parameters.length, (e.parameters[p.index] == p) = true := by
  rcases claims_iff_exists.mp claims with ⟨q, member, same⟩
  have index : q.index = p.index := congrArg ParameterKey.index same
  have found : e.parameters[p.index]? = some q := by
    rcases mem_parameters_iff.mp member with ⟨owner, declared⟩
    rw [parameters_eq, ownedBy_getElem?, ← index, declared, ← owner]
    rfl
  rcases List.getElem?_eq_some_iff.mp found with ⟨inRange, here⟩
  exact ⟨inRange, Parameter.beq_iff_key_eq.mpr (here ▸ same)⟩

/-- What goes on after a check for a parameter goes on with a claimed one. -/
theorem claims_of_checkParameter {next : Parameter → Except SiteError Site} {site : Site}
    (made : e.checkParameter p >>= next = .ok site) : e.Claims p ∧ next p = .ok site := by
  by_cases claims : e.Claims p
  · rw [checkParameter_of_claims claims] at made
    exact ⟨claims, made⟩
  · rw [checkParameter_of_not_claims claims] at made
    cases made

/-- What goes on after a search for a position goes on with some parameter. -/
theorem exists_of_parameterAt {index : Nat} {next : Parameter → Except SiteError Site}
    {site : Site} (made : e.parameterAt index >>= next = .ok site) : ∃ q, next q = .ok site := by
  cases found : e.parameterAt index with
  | error =>
      rw [found] at made
      cases made
  | ok q =>
      rw [found] at made
      exact ⟨q, made⟩

end Executable

/-- What an element is called; a constructor is called by its class. -/
def Element.name : Element → String
  | .descriptor c => c.name
  | .constructor k => k.className
  | .method m => m.name
  | .parameter p => p.name
  | .field f => f.name

namespace SiteKind

/-- The kinds of sites that have no parent. -/
def isOrigin : SiteKind → Bool
  | .unknown | .testParameter .. => true
  | _ => false

/-- The executable takes the parameter for its own, if the kind is about one. -/
def Belongs (kind : SiteKind) : Prop :=
  ∀ p, kind.parameter? = some p → ∃ e, kind.executable? = some e ∧ e.Claims p

end SiteKind

namespace Site

/-! ## Answers that fit together -/

/-- What a site answers to one question fits what it answers to the others. -/
structure Coherent (site : Site) : Prop where
  /-- A site is not about a constructor and a method at once. -/
  oneOfTwo : site.constructor? = none ∨ site.method? = none
  /-- The executable is the constructor or the method, whichever the site is about. -/
  executable (e : Executable) : site.executable? = some e ↔
    site.constructor?.map .constructor = some e ∨ site.method?.map .method = some e
  /-- The executable has the parameter at that position, and the parameter is the element. -/
  parameter {p : Parameter} (wanted : site.parameter? = some p) :
    ∃ e index, site.executable? = some e ∧ site.parameterIndex? = some index ∧
      (∃ inRange : index < e.parameters.length, (e.parameters[index] == p) = true) ∧
      site.element? = some (.parameter p)
  /-- The element is a field if the site is about that field. -/
  field (f : Field) : site.element? = some (.field f) ↔ site.field? = some f
  /-- The name is that of the element. -/
  name : site.name? = site.element?.map Element.name

/-- A parameter that belongs to the executable is all it takes. -/
theorem coherent_of_belongs {site : Site} (belongs : site.kind.Belongs) : site.Coherent where
  oneOfTwo := by
    unfold constructor? method?
    rcases site.kind with _ | ⟨⟨_⟩ | ⟨_⟩, _⟩ | _ | _ | _ | _ | _ | _ | _ | _ <;>
      first
      | exact .inl rfl
      | exact .inr rfl
  executable e := by
    unfold executable? constructor? method?
    rcases site.kind with _ | ⟨⟨_⟩ | ⟨_⟩, _⟩ | _ | _ | _ | _ | _ | _ | _ | _ <;>
      simp [SiteKind.executable?, SiteKind.constructor?, SiteKind.method?]
  parameter {p} wanted := by
    rcases belongs p wanted with ⟨e, found, claims⟩
    refine ⟨e, p.index, found, congrArg (Option.map Parameter.index) wanted,
      claims.getElem_index, ?_⟩
    unfold element?
    unfold parameter? at wanted
    cases about : site.kind with
    | testParameter | constructorParameter | methodParameter =>
        rw [about] at wanted
        cases wanted
        rfl
    | unknown | returnValue | invocation | arrayElement | typeArgument | memoizing
    | injectedField =>
        rw [about] at wanted
        cases wanted
  field f := by
    unfold element? field?
    cases site.kind <;> simp [SiteKind.element?, SiteKind.field?]
  name := by
    unfold name? element?
    cases site.kind <;> rfl

/-! ## Sites that can be made -/

/-- The sites to be had: the unknown one, test parameters, and what is made below others. -/
inductive Obtainable : Site → Prop where
  | unknown : Obtainable .unknown
  | testParameter {e : Executable} {p : Parameter} {site : Site}
      (made : Site.testParameter e p = .ok site) : Obtainable site
  | constructorParameter {parent site : Site} {k : Constructor} {p : Parameter}
      (before : Obtainable parent) (made : parent.constructorParameter k p = .ok site) :
      Obtainable site
  | constructorParameterAt {parent site : Site} {k : Constructor} {index : Nat}
      (before : Obtainable parent) (made : parent.constructorParameterAt k index = .ok site) :
      Obtainable site
  | methodParameter {parent site : Site} {m : Method} {p : Parameter}
      (before : Obtainable parent) (made : parent.methodParameter m p = .ok site) :
      Obtainable site
  | methodParameterAt {parent site : Site} {m : Method} {index : Nat}
      (before : Obtainable parent) (made : parent.methodParameterAt m index = .ok site) :
      Obtainable site
  | returnValue {parent : Site} (before : Obtainable parent) (m : Method) :
      Obtainable (parent.returnValue m)
  | invocation {parent : Site} (before : Obtainable parent) (m : Method) :
      Obtainable (parent.invocation m)
  | arrayElement {parent : Site} (before : Obtainable parent) (component : TypeExpr) :
      Obtainable (parent.arrayElement component)
  | typeArgument {parent site : Site} {raw : Class} {arguments : List TypeExpr} {index : Nat}
      (before : Obtainable parent)
      (made : parent.typeArgument raw arguments index = .ok site) : Obtainable site
  | memoizing {parent : Site} (before : Obtainable parent) : Obtainable parent.memoizing
  | injectedField {parent : Site} (before : Obtainable parent) (f : Field) :
      Obtainable (parent.injectedField f)

/-- All along the walk parameters belong to executables, and only the last kind is an origin. -/
def Rooted : Site → Prop
  | .root kind => kind.isOrigin = true ∧ kind.Belongs
  | .child kind parent => kind.isOrigin = false ∧ kind.Belongs ∧ parent.Rooted

variable {site parent : Site}

theorem rooted_testParameter {e : Executable} {p : Parameter}
    (made : Site.testParameter e p = .ok site) : site.Rooted := by
  rcases Executable.claims_of_checkParameter made with ⟨claims, same⟩
  cases same
  exact ⟨rfl, fun _ wanted => ⟨e, rfl, Option.some.inj wanted ▸ claims⟩⟩

theorem Rooted.constructorParameter {k : Constructor} {p : Parameter} (rooted : parent.Rooted)
    (made : parent.constructorParameter k p = .ok site) : site.Rooted := by
  rcases Executable.claims_of_checkParameter made with ⟨claims, same⟩
  cases same
  exact ⟨rfl, fun _ wanted => ⟨_, rfl, Option.some.inj wanted ▸ claims⟩, rooted⟩

theorem Rooted.methodParameter {m : Method} {p : Parameter} (rooted : parent.Rooted)
    (made : parent.methodParameter m p = .ok site) : site.Rooted := by
  rcases Executable.claims_of_checkParameter made with ⟨claims, same⟩
  cases same
  exact ⟨rfl, fun _ wanted => ⟨_, rfl, Option.some.inj wanted ▸ claims⟩, rooted⟩

theorem Rooted.typeArgument {raw : Class} {arguments : List TypeExpr} {index : Nat}
    (rooted : parent.Rooted) (made : parent.typeArgument raw arguments index = .ok site) :
    site.Rooted := by
  unfold Site.typeArgument argumentAt at made
  split at made
  · cases made
    exact ⟨rfl, nofun, rooted⟩
  · cases made

theorem Obtainable.rooted (obtainable : site.Obtainable) : site.Rooted := by
  induction obtainable with
  | unknown => exact ⟨rfl, nofun⟩
  | testParameter made => exact rooted_testParameter made
  | constructorParameter _ made before => exact before.constructorParameter made
  | constructorParameterAt _ made before =>
      rcases Executable.exists_of_parameterAt made with ⟨p, made⟩
      exact before.constructorParameter made
  | methodParameter _ made before => exact before.methodParameter made
  | methodParameterAt _ made before =>
      rcases Executable.exists_of_parameterAt made with ⟨p, made⟩
      exact before.methodParameter made
  | typeArgument _ made before => exact before.typeArgument made
  | returnValue _ _ before | invocation _ _ before | arrayElement _ _ before
  | memoizing _ before | injectedField _ _ before => exact ⟨rfl, nofun, before⟩

/-- Walking up leads to an origin, and past nothing of that kind before. -/
theorem Rooted.walk (rooted : site.Rooted) :
    ∃ inner origin, site.walk = inner ++ [origin] ∧ origin.isRoot = true ∧
      origin.kind.isOrigin = true ∧ ∀ node ∈ inner, node.kind.isOrigin = false := by
  induction site with
  | root kind => exact ⟨[], .root kind, rfl, rfl, rooted.1, nofun⟩
  | child kind parent ih =>
      rcases ih rooted.2.2 with ⟨inner, origin, walked, root, starts, others⟩
      refine ⟨.child kind parent :: inner, origin, ?_, root, starts, ?_⟩
      · rw [walk_child, walked]
        rfl
      · exact List.forall_mem_cons.mpr ⟨rooted.1, others⟩

theorem Rooted.belongs_of_mem_walk (rooted : site.Rooted) :
    ∀ node ∈ site.walk, node.kind.Belongs := by
  induction site with
  | root kind => exact List.forall_mem_cons.mpr ⟨rooted.2, nofun⟩
  | child kind parent ih => exact List.forall_mem_cons.mpr ⟨rooted.2.1, ih rooted.2.2⟩

/--
However a site has been made: walking up from it ends at a root that is unknown or a test
parameter, passes no other site of these kinds, and every site on the way is coherent.
-/
theorem coherent_of_obtainable (obtainable : site.Obtainable) :
    (∃ inner origin, site.walk = inner ++ [origin] ∧ origin.isRoot = true ∧
      origin.kind.isOrigin = true ∧ ∀ node ∈ inner, node.kind.isOrigin = false) ∧
    ∀ node ∈ site.walk, node.Coherent :=
  ⟨obtainable.rooted.walk, fun node member =>
    coherent_of_belongs (obtainable.rooted.belongs_of_mem_walk node member)⟩

/-- The elements of an array that a test method of two parameters takes as the second one. -/
theorem elements_of_second_parameter_coherent :
    let limit : ParameterDeclaration := { name := "limit", type := .plain .unit }
    let names : ParameterDeclaration := { name := "names", type := .plain Class.string.arrayOf }
    let test : Method := ⟨"Suite",
      { name := "counts", returnType := .plain .unit, parameters := [limit, names] }⟩
    let second : Parameter := ⟨"Suite::counts", 1, names⟩
    let site : Site := .child (.arrayElement (.plain .string))
      (.root (.testParameter (.method test) second))
    site.Obtainable ∧ (∀ node ∈ site.walk, node.Coherent) ∧
      (Site.root (.testParameter (.method test) second)).parameterIndex? = some 1 := by
  intro limit names test second site
  have made : Site.testParameter (.method test) second =
      .ok (.root (.testParameter (.method test) second)) :=
    Executable.testParameter_of_claims ⟨rfl, names, rfl, rfl, rfl⟩
  have obtainable : site.Obtainable := .arrayElement (.testParameter made) _
  exact ⟨obtainable, (coherent_of_obtainable obtainable).2, rfl⟩

end Site
end TestData
