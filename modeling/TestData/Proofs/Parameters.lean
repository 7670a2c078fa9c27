import TestData.Site.Factory
import TestData.Strategy.Basic
import TestData.Type.WellKnown

namespace TestData

/-!
# Whose parameter a parameter is

A parameter names its owner by a text: the class and the name of the executable that
declares it, with the name `new` for constructors.  The types of the other parameters
are not part of that text.  So an executable takes for its own not only what it
declares, but also what an executable of the same qualified name declares in the same
place under the same name and with the same type.  That is all it takes for its own,
and it is where parameters of different executables share what goes by elements.
-/

theorem Parameter.beq_iff_key_eq {p q : Parameter} : (p == q) = true ↔ p.key = q.key := by
  show (p.key == q.key) = true ↔ _
  exact beq_iff_eq

namespace Executable

/-- What the parameters of an executable name as their owner. -/
def owner : Executable → String
  | .constructor k => k.owner
  | .method m => m.qualifiedName

/-- The parameters as they are declared, without owner and position. -/
def parameterDeclarations : Executable → List ParameterDeclaration
  | .constructor k => k.declaration.parameters
  | .method m => m.declaration.parameters

theorem parameters_eq (e : Executable) :
    e.parameters = ParameterDeclaration.ownedBy e.owner e.parameterDeclarations := by
  cases e <;> rfl

theorem mem_parameters_iff {e : Executable} {p : Parameter} :
    p ∈ e.parameters ↔
      p.owner = e.owner ∧ e.parameterDeclarations[p.index]? = some p.declaration := by
  rw [parameters_eq, List.mem_iff_getElem?]
  simp only [ownedBy_getElem?, Option.map_eq_some_iff]
  constructor
  · rintro ⟨index, declaration, found, rfl⟩
    exact ⟨rfl, found⟩
  · rintro ⟨owner, found⟩
    exact ⟨p.index, p.declaration, found, by rw [← owner]⟩

/--
The executable declares a parameter of that name and type in that place, and its own
text is what the parameter names as its owner.
-/
def Claims (e : Executable) (p : Parameter) : Prop :=
  p.owner = e.owner ∧ ∃ declaration, e.parameterDeclarations[p.index]? = some declaration ∧
    declaration.name = p.name ∧ declaration.type.key = p.type.key

theorem claims_iff_exists {e : Executable} {p : Parameter} :
    e.Claims p ↔ ∃ q ∈ e.parameters, q.key = p.key := by
  constructor
  · rintro ⟨owner, declaration, found, name, type⟩
    refine ⟨⟨p.owner, p.index, declaration⟩, mem_parameters_iff.mpr ⟨owner, found⟩, ?_⟩
    simp [Parameter.key, Parameter.name, Parameter.type, name, type]
  · rintro ⟨q, member, same⟩
    rcases mem_parameters_iff.mp member with ⟨owner, found⟩
    simp only [Parameter.key, ParameterKey.mk.injEq] at same
    rcases same with ⟨sameOwner, index, name, type⟩
    exact ⟨sameOwner ▸ owner, q.declaration, index ▸ found, name, type⟩

/-- Belonging to the executable is checked by key, so it is the claim that counts. -/
theorem contains_iff_claims {e : Executable} {p : Parameter} :
    e.parameters.contains p = true ↔ e.Claims p := by
  rw [List.contains_eq_any_beq, List.any_eq_true, claims_iff_exists]
  refine exists_congr fun q => and_congr_right fun _ => ?_
  exact Parameter.beq_iff_key_eq.trans eq_comm

theorem checkParameter_of_claims {e : Executable} {p : Parameter} (claims : e.Claims p) :
    e.checkParameter p = .ok p :=
  if_pos (contains_iff_claims.mpr claims)

/-- What an executable declares it also claims. -/
theorem claims_of_mem {e : Executable} {p : Parameter} (member : p ∈ e.parameters) : e.Claims p :=
  claims_iff_exists.mpr ⟨p, member, rfl⟩

theorem checkParameter_of_not_claims {e : Executable} {p : Parameter} (claims : ¬ e.Claims p) :
    e.checkParameter p = .error (.notAParameter p e) :=
  if_neg fun contains => claims (contains_iff_claims.mp contains)

/-- The site of a parameter of an executable that is about to be called. -/
def parameterSite (e : Executable) (parent : Site) (p : Parameter) : Except SiteError Site :=
  match e with
  | .constructor k => parent.constructorParameter k p
  | .method m => parent.methodParameter m p

/-- The site was made for a parameter of the executable, of a test or of a call. -/
def SiteOf (e : Executable) (p : Parameter) (site : Site) : Prop :=
  Site.testParameter e p = .ok site ∨ ∃ parent, e.parameterSite parent p = .ok site

variable {e : Executable} {p : Parameter}

theorem testParameter_of_claims (claims : e.Claims p) :
    Site.testParameter e p = .ok (.root (.testParameter e p)) := by
  rw [Site.testParameter, checkParameter_of_claims claims]
  rfl

theorem parameterSite_of_claims (claims : e.Claims p) (parent : Site) :
    ∃ site, e.parameterSite parent p = .ok site := by
  cases e with
  | constructor k =>
      rw [parameterSite, Site.constructorParameter, checkParameter_of_claims claims]
      exact ⟨_, rfl⟩
  | method m =>
      rw [parameterSite, Site.methodParameter, checkParameter_of_claims claims]
      exact ⟨_, rfl⟩

theorem testParameter_of_not_claims (claims : ¬ e.Claims p) :
    Site.testParameter e p = .error (.notAParameter p e) := by
  rw [Site.testParameter, checkParameter_of_not_claims claims]
  rfl

theorem parameterSite_of_not_claims (claims : ¬ e.Claims p) (parent : Site) :
    e.parameterSite parent p = .error (.notAParameter p e) := by
  cases e with
  | constructor k =>
      rw [parameterSite, Site.constructorParameter, checkParameter_of_not_claims claims]
      rfl
  | method m =>
      rw [parameterSite, Site.methodParameter, checkParameter_of_not_claims claims]
      rfl

/-- However it was made, the element that speaks about such a site is the parameter. -/
theorem SiteOf.nearestElement? {site : Site} (siteOf : e.SiteOf p site) :
    site.nearestElement? = some (.parameter p) := by
  by_cases claims : e.Claims p
  · rcases siteOf with made | ⟨parent, made⟩
    · rw [testParameter_of_claims claims] at made
      cases made
      rfl
    · cases e with
      | constructor k =>
          rw [parameterSite, Site.constructorParameter, checkParameter_of_claims claims] at made
          cases made
          rfl
      | method m =>
          rw [parameterSite, Site.methodParameter, checkParameter_of_claims claims] at made
          cases made
          rfl
  · rcases siteOf with made | ⟨parent, made⟩
    · rw [testParameter_of_not_claims claims] at made
      cases made
    · rw [parameterSite_of_not_claims claims] at made
      cases made

end Executable

namespace Site

/-- The sites of its own parameters can be made for every constructor. -/
theorem constructorParameter_of_mem {k : Constructor} {p : Parameter} (member : p ∈ k.parameters)
    (parent : Site) :
    parent.constructorParameter k p = .ok (.child (.constructorParameter k p) parent) := by
  have claims : (Executable.constructor k).Claims p := Executable.claims_of_mem member
  rw [constructorParameter, Executable.checkParameter_of_claims claims]
  rfl

/-- The sites of its own parameters can be made for every method. -/
theorem methodParameter_of_mem {m : Method} {p : Parameter} (member : p ∈ m.parameters)
    (parent : Site) :
    parent.methodParameter m p = .ok (.child (.methodParameter m p) parent) := by
  have claims : (Executable.method m).Claims p := Executable.claims_of_mem member
  rw [methodParameter, Executable.checkParameter_of_claims claims]
  rfl

end Site

/-- A memo by elements is the same for two parameters exactly if types and keys are. -/
theorem Discriminator.key_byNearestElement_eq_iff {first second : Executable} {p q : Parameter}
    {here there : Site} (siteOf : first.SiteOf p here) (otherSiteOf : second.SiteOf q there)
    {type other : TypeExpr} :
    byNearestElement.key here type = byNearestElement.key there other ↔
      type.key = other.key ∧ p.key = q.key := by
  simp [key, scope, siteOf.nearestElement?, otherSiteOf.nearestElement?, Element.key]

/--
The sites of an executable are refused to a parameter of another one exactly if it does
not claim it, which it never does under another qualified name.  Then their parameters
have different elements at their sites and share no memo that goes by elements.  If it
does claim it, one of its own parameters has the same element and shares every memo.
-/
theorem parameters_apart_iff_not_claims (first second : Executable) (p : Parameter)
    (declared : p ∈ second.parameters) :
    (first.owner ≠ second.owner → ¬ first.Claims p) ∧
    (¬ first.Claims p →
      Site.testParameter first p = .error (.notAParameter p first) ∧
      (∀ parent, first.parameterSite parent p = .error (.notAParameter p first)) ∧
      ∀ q ∈ first.parameters, ∀ here there, second.SiteOf p here → first.SiteOf q there →
        here.nearestElement?.map Element.key ≠ there.nearestElement?.map Element.key ∧
        ∀ type other, Discriminator.byNearestElement.key here type ≠
          Discriminator.byNearestElement.key there other) ∧
    (first.Claims p →
      (∃ site, Site.testParameter first p = .ok site) ∧
      (∀ parent, ∃ site, first.parameterSite parent p = .ok site) ∧
      ∃ q ∈ first.parameters, ∀ here there, second.SiteOf p here → first.SiteOf q there →
        here.nearestElement?.map Element.key = there.nearestElement?.map Element.key ∧
        ∀ type, Discriminator.byNearestElement.key here type =
          Discriminator.byNearestElement.key there type) := by
  refine ⟨fun different claims => ?_, fun claims => ⟨?_, ?_, ?_⟩, fun claims => ⟨?_, ?_, ?_⟩⟩
  · have owner := (Executable.mem_parameters_iff.mp declared).1
    exact different (claims.1.symm.trans owner)
  · exact Executable.testParameter_of_not_claims claims
  · exact Executable.parameterSite_of_not_claims claims
  · intro q member here there siteOf otherSiteOf
    have apart : p.key ≠ q.key :=
      fun same => claims (Executable.claims_iff_exists.mpr ⟨q, member, same.symm⟩)
    constructor
    · rw [siteOf.nearestElement?, otherSiteOf.nearestElement?]
      simpa [Element.key] using apart
    · intro type other same
      exact apart ((Discriminator.key_byNearestElement_eq_iff siteOf otherSiteOf).mp same).2
  · exact ⟨_, Executable.testParameter_of_claims claims⟩
  · exact Executable.parameterSite_of_claims claims
  · rcases Executable.claims_iff_exists.mp claims with ⟨q, member, same⟩
    refine ⟨q, member, fun here there siteOf otherSiteOf => ⟨?_, fun type => ?_⟩⟩
    · rw [siteOf.nearestElement?, otherSiteOf.nearestElement?]
      simpa [Element.key] using same.symm
    · exact (Discriminator.key_byNearestElement_eq_iff siteOf otherSiteOf).mpr ⟨rfl, same.symm⟩

/--
Of two constructors that begin with the same parameter, annotated in one of them alone,
the shorter one claims the first parameter of the longer one and refuses the second one.
-/
theorem overload_claims_common_parameter :
    let text : ParameterDeclaration := { name := "text", type := .plain Class.string }
    let nullable : ParameterDeclaration := { text with annotations := [⟨"Nullable", []⟩] }
    let unit : ParameterDeclaration := { name := "unit", type := .plain Class.unit }
    let short : Executable := .constructor ⟨"K", { parameters := [text] }⟩
    let long : Executable := .constructor ⟨"K", { parameters := [nullable, unit] }⟩
    let first : Parameter := ⟨"K::new", 0, nullable⟩
    let second : Parameter := ⟨"K::new", 1, unit⟩
    short.key ≠ long.key ∧ first ∈ long.parameters ∧ second ∈ long.parameters ∧
    (∃ site, Site.testParameter short first = .ok site) ∧
    (∃ q ∈ short.parameters, ∀ here there, long.SiteOf first here → short.SiteOf q there →
      here.nearestElement?.map Element.key = there.nearestElement?.map Element.key ∧
      ∀ type, Discriminator.byNearestElement.key here type =
        Discriminator.byNearestElement.key there type) ∧
    Site.testParameter short second = .error (.notAParameter second short) := by
  intro text nullable unit short long first second
  have firstDeclared : first ∈ long.parameters := List.mem_cons_self
  have secondDeclared : second ∈ long.parameters := List.mem_cons_of_mem _ List.mem_cons_self
  have claims : short.Claims first := ⟨rfl, text, rfl, rfl, rfl⟩
  have refuses : ¬ short.Claims second := by
    rintro ⟨-, declaration, found, -⟩
    cases found
  have shared := (parameters_apart_iff_not_claims short long first firstDeclared).2.2 claims
  have apart := (parameters_apart_iff_not_claims short long second secondDeclared).2.1 refuses
  exact ⟨by decide, firstDeclared, secondDeclared, shared.1, shared.2.2, apart.1⟩

end TestData
