import TestData.Proofs.FieldInjection
import TestData.Proofs.Inheritance.Resolving
import TestData.Type.WellKnown

namespace TestData

/-!
# Types that bindings leave alone

Resolving takes a type apart and puts it together again.  A type in which nothing is bound comes
out as it was, with one exception: a generic array of nothing but a class is turned into the array
class, be its component a class from the start or only by then.  A parameter or field is therefore
requested as exactly the type it is declared with if that type mentions no bound variable and has no
such array in it.
-/

/-- An array with elements of the given key: of a class, the array class. -/
def TypeKey.arrayed : TypeKey → TypeKey
  | .plain name => .plain ("[" ++ name ++ "]")
  | component => .genericArray component

mutual

/-- The key with generic arrays of classes turned into array classes, from the inside out. -/
def TypeKey.collapsed : TypeKey → TypeKey
  | .plain name => .plain name
  | .parameterized raw arguments => .parameterized raw (TypeKey.collapsedAll arguments)
  | .wildcard upper lower => .wildcard (TypeKey.collapsedAll upper) (TypeKey.collapsedAll lower)
  | .var symbol => .var symbol
  | .genericArray component => component.collapsed.arrayed

def TypeKey.collapsedAll : List TypeKey → List TypeKey
  | [] => []
  | key :: keys => key.collapsed :: TypeKey.collapsedAll keys

end

@[simp]
theorem TypeKey.collapsedAll_eq_map (keys : List TypeKey) :
    TypeKey.collapsedAll keys = keys.map TypeKey.collapsed := by
  induction keys with
  | nil => rfl
  | cons key keys ih => rw [TypeKey.collapsedAll, ih, List.map_cons]

namespace TypeExpr

mutual

/-- Whether a generic array of nothing but a class occurs in a type. -/
def hasClassArray : TypeExpr → Bool
  | .plain _ => false
  | .parameterized _ arguments => anyHasClassArray arguments
  | .wildcard upper lower => anyHasClassArray upper || anyHasClassArray lower
  | .var .. => false
  | .genericArray component => component.class?.isSome || component.hasClassArray

def anyHasClassArray : List TypeExpr → Bool
  | [] => false
  | type :: types => type.hasClassArray || anyHasClassArray types

end

theorem anyHasClassArray_eq_false_iff {types : List TypeExpr} :
    anyHasClassArray types = false ↔ ∀ type ∈ types, type.hasClassArray = false := by
  induction types with
  | nil => exact ⟨fun _ => nofun, fun _ => rfl⟩
  | cons type types ih => rw [anyHasClassArray, Bool.or_eq_false_iff, ih, List.forall_mem_cons]

theorem key_arrayed (component : TypeExpr) : component.arrayed.key = component.key.arrayed := by
  cases component <;> rfl

theorem arrayed_eq_genericArray {component : TypeExpr} (noClass : component.class?.isSome = false) :
    component.arrayed = .genericArray component := by
  cases component with
  | plain c => cases noClass
  | parameterized | wildcard | var | genericArray => rfl

/-- Only a class has the key of a class. -/
theorem key_arrayed_eq_genericArray {key : TypeKey} {component : TypeExpr}
    (same : key.arrayed = .genericArray component.key) :
    key = component.key ∧ component.class?.isSome = false := by
  cases key with
  | plain name => cases same
  | parameterized | wildcard | var | genericArray =>
      have keys := TypeKey.genericArray.inj same
      refine ⟨keys, ?_⟩
      cases component with
      | plain c => cases keys
      | parameterized | wildcard | var | genericArray => rfl

/-- Collapsing leaves the keys of those types alone that have no array of a class in them. -/
theorem collapsed_key_eq_iff {type : TypeExpr} :
    type.key.collapsed = type.key ↔ type.hasClassArray = false := by
  have all {types : List TypeExpr}
      (each : ∀ type ∈ types, type.key.collapsed = type.key ↔ type.hasClassArray = false) :
      TypeKey.collapsedAll (keys types) = keys types ↔ anyHasClassArray types = false := by
    rw [TypeKey.collapsedAll_eq_map, keys_eq_map, List.map_map, List.map_inj_left,
      anyHasClassArray_eq_false_iff]
    exact forall₂_congr each
  induction type using descriptor_induction with
  | plain c above => exact ⟨fun _ => rfl, fun _ => rfl⟩
  | parameterized raw arguments above inside =>
      rw [key, TypeKey.collapsed, hasClassArray, ← all inside]
      exact ⟨fun same => (TypeKey.parameterized.inj same).2, congrArg _⟩
  | wildcard upper lower inUpper inLower =>
      rw [key, TypeKey.collapsed, hasClassArray, Bool.or_eq_false_iff, ← all inUpper, ← all inLower,
        TypeKey.wildcard.injEq]
  | var symbol bounds => exact ⟨fun _ => rfl, fun _ => rfl⟩
  | genericArray component inside =>
      -- It stays a generic array only if its component has come to no class.
      rw [key, TypeKey.collapsed, hasClassArray, Bool.or_eq_false_iff]
      constructor
      · intro same
        rcases key_arrayed_eq_genericArray same with ⟨keys, noClass⟩
        exact ⟨noClass, inside.mp keys⟩
      · rintro ⟨noClass, noneInside⟩
        rw [inside.mpr noneInside, ← key_arrayed, arrayed_eq_genericArray noClass, key]

end TypeExpr

namespace Bindings

open TypeExpr

variable {bindings : Bindings} {type : TypeExpr}

/-- None of the variables that occur in a type is bound. -/
def Spares (bindings : Bindings) (type : TypeExpr) : Prop :=
  ∀ v ∈ type.freeVariables, bindings.binding? v = none

/-- What stands for other variables plays no part: it is as if nothing were bound. -/
theorem resolve_of_spares (spares : bindings.Spares type) :
    bindings.resolve type = empty.resolve type := by
  apply resolve_congr
  exact spares

theorem key_resolve_empty (type : TypeExpr) : (empty.resolve type).key = type.key.collapsed := by
  have all {types : List TypeExpr}
      (each : ∀ type ∈ types, (empty.resolve type).key = type.key.collapsed) :
      keys (empty.resolveAll types) = TypeKey.collapsedAll (keys types) := by
    rw [resolveAll_eq_map, keys_eq_map, keys_eq_map, TypeKey.collapsedAll_eq_map, List.map_map,
      List.map_map]
    exact List.map_congr_left each
  induction type using descriptor_induction with
  | plain c above => rfl
  | parameterized raw arguments above inside =>
      rw [resolve, key, key, TypeKey.collapsed, all inside]
  | wildcard upper lower inUpper inLower =>
      rw [resolve, key, key, TypeKey.collapsed, all inUpper, all inLower]
  | var symbol bounds => rfl
  | genericArray component inside =>
      rw [resolve_genericArray, key_arrayed, inside]
      rfl

/-- What resolving makes of a type in which nothing is bound depends on the type alone. -/
theorem key_resolve_of_spares (spares : bindings.Spares type) :
    (bindings.resolve type).key = type.key.collapsed := by
  rw [resolve_of_spares spares, key_resolve_empty]

theorem normal_of_noClassArray (noClassArray : type.hasClassArray = false) : type.Normal := by
  have all {types : List TypeExpr} (none : anyHasClassArray types = false)
      (each : ∀ type ∈ types, type.hasClassArray = false → type.Normal) :
      empty.resolveAll types = types := by
    rw [resolveAll_eq_map]
    refine (List.map_congr_left fun type member => ?_).trans (List.map_id types)
    exact each type member (anyHasClassArray_eq_false_iff.mp none type member)
  induction type using descriptor_induction with
  | plain c above => rfl
  | parameterized raw arguments above inside =>
      rw [TypeExpr.Normal, resolve, all noClassArray inside]
  | wildcard upper lower inUpper inLower =>
      rcases Bool.or_eq_false_iff.mp noClassArray with ⟨noneAbove, noneBelow⟩
      rw [TypeExpr.Normal, resolve, all noneAbove inUpper, all noneBelow inLower]
  | var symbol bounds => rfl
  | genericArray component inside =>
      rcases Bool.or_eq_false_iff.mp noClassArray with ⟨noClass, noneInside⟩
      rw [TypeExpr.Normal, resolve_genericArray, inside noneInside, arrayed_eq_genericArray noClass]

/-- A type in which nothing is bound and no array of a class occurs is left as it is. -/
theorem resolve_eq_self (spares : bindings.Spares type)
    (noClassArray : type.hasClassArray = false) : bindings.resolve type = type :=
  (resolve_of_spares spares).trans (normal_of_noClassArray noClassArray)

theorem resolve_beq_iff (spares : bindings.Spares type) :
    (bindings.resolve type == type) = true ↔ type.hasClassArray = false := by
  rw [beq_iff_key_eq, key_resolve_of_spares spares, collapsed_key_eq_iff]

end Bindings

/-! ## Parameters and fields -/

/-- Arguments in front are requested first, and what they come to is put in front. -/
theorem Host.requestArguments_append (host : Host) (bindings : Bindings)
    (siteOf : Parameter → Except SiteError Site) (front rest : List Parameter) :
    host.requestArguments bindings siteOf (front ++ rest) = do
      let before ← host.requestArguments bindings siteOf front
      let behind ← host.requestArguments bindings siteOf rest
      return before ++ behind := by
  induction front with
  | nil => simp only [List.nil_append, requestArguments, pure_bind, bind_pure]
  | cons p front ih =>
      simp only [List.cons_append, requestArguments, ih, bind_assoc, pure_bind]

/-- Fields in front are filled first. -/
theorem Enhancer.fillFields_append_eq (host : Host) (matcher : Matcher Field) (bindings : Bindings)
    (site : Site) (type : TypeExpr) (target : Value) (front rest : List Field) :
    fillFields host matcher bindings site type target (front ++ rest) = (do
      fillFields host matcher bindings site type target front
      fillFields host matcher bindings site type target rest : Run Unit) := by
  induction front with
  | nil => simp only [List.nil_append, fillFields, pure_bind]
  | cons f front ih =>
      simp only [List.cons_append, fillFields, ih, bind_assoc]
      refine bind_congr fun chosen => ?_
      cases chosen with
      | false => rfl
      | true =>
          simp only [if_true, bind_assoc]
          refine bind_congr fun value => bind_congr fun outcome => ?_
          cases outcome <;> rfl

/--
Resolving a type in which nothing is bound gives the type with its generic arrays of classes turned
into array classes, whatever else is bound, so it gives the type itself exactly if there is no such
array in it.  A parameter or field that is declared with such a type is then requested as exactly
that type, whatever stands in front of it or behind it.
-/
theorem Bindings.resolve_of_unbound {bindings : Bindings} {type : TypeExpr}
    (unbound : ∀ v ∈ type.freeVariables, bindings.binding? v = none) :
    (bindings.resolve type).key = type.key.collapsed ∧
    ((bindings.resolve type == type) = true ↔ type.hasClassArray = false) ∧
    (type.hasClassArray = false → ∀ host : Host,
      (∀ siteOf front (p : Parameter) rest, p.type = type →
        host.requestArguments bindings siteOf (front ++ p :: rest) = do
          let before ← host.requestArguments bindings siteOf front
          let site ← Run.ofSite (siteOf p)
          let value ← host.request ⟨p.type, site⟩
          let behind ← host.requestArguments bindings siteOf rest
          return before ++ value :: behind) ∧
      ∀ matcher site owner target front (f : Field) rest, f.type = type →
        Enhancer.fillFields host matcher bindings site owner target (front ++ f :: rest) = do
          Enhancer.fillFields host matcher bindings site owner target front
          if ← Store.heed (matcher site f) then
            let value ← host.request ⟨f.type, site.injectedField f⟩
            match ← Store.carryOutSetter (f.assign target value) with
            | .ok () => Enhancer.fillFields host matcher bindings site owner target rest
            | .error message =>
                Run.fail (.produce owner (site.injectedField f)
                  ("cannot set " ++ f.display ++ ": " ++ message))
          else Enhancer.fillFields host matcher bindings site owner target rest) := by
  refine ⟨key_resolve_of_spares unbound, resolve_beq_iff unbound, fun noClassArray host => ?_⟩
  have itself := resolve_eq_self unbound noClassArray
  constructor
  · rintro siteOf front p rest rfl
    rw [Host.requestArguments_append, Host.requestArguments, itself]
    simp only [bind_assoc, pure_bind]
  · rintro matcher site owner target front f rest rfl
    have filled := Enhancer.fillFields_append_eq host matcher bindings site owner target front
      (f :: rest)
    rw [Enhancer.fillFields, itself] at filled
    exact filled

/-- A field of a bookcase, which keeps note of what is put in it. -/
def Field.ofBookcase (name : String) (type : TypeExpr) : Field where
  className := "Bookcase"
  declaration := { name, type, setter := some (Invoker.recordingSetter name) }

/-- Where `T` stands for a text and `U` for nothing, the books are requested as they are declared. -/
theorem Bindings.books_requested_as_declared :
    let t : TypeVariable := ⟨"Bookcase", "T"⟩
    let u : TypeVariable := ⟨"Reader", "U"⟩
    let bindings := empty.insert t (.plain .string)
    let books : TypeExpr := .genericArray (.parameterized .vec [.extending (.ofVariable u)])
    let fields := [Field.ofBookcase "label" (.ofVariable t), Field.ofBookcase "books" books]
    let bookcase : Value := .object 0 (.made "Bookcase" "new" [])
    (∀ v ∈ books.freeVariables, bindings.binding? v = none) ∧
    (bindings.resolve books == books) = true ∧
    ∃ after, Enhancer.fillFields Enhancer.writer .any bindings .unknown (.plain (.named "Bookcase"))
        bookcase fields { nextIdentity := 1 } = .ok () after ∧
      after.notesOf 0 = [⟨.set, "label", [.object 1 (.text "alloc::string::String")]⟩,
        ⟨.set, "books", [.object 2 (.text "alloc::vec::Vec<? extends U>[]")]⟩] := by
  intro t u bindings books fields bookcase
  have unbound : ∀ v ∈ books.freeVariables, bindings.binding? v = none := by
    have occurring : books.freeVariables = [u] := rfl
    rw [occurring]
    decide
  rcases resolve_of_unbound unbound with ⟨-, itself, asDeclared⟩
  have filled := (asDeclared rfl Enhancer.writer).2 .any .unknown (.plain (.named "Bookcase"))
    bookcase [Field.ofBookcase "label" (.ofVariable t)] (Field.ofBookcase "books" books) [] rfl
  exact ⟨unbound, itself.mpr rfl, _, congrFun filled { nextIdentity := 1 }, rfl⟩

/-- Nothing is bound in an array of letters, and yet the array class of letters is requested. -/
theorem Bindings.letters_collapsed :
    let letters : TypeExpr := .genericArray (.plain (.named "Letter"))
    let bookcase : Value := .object 0 (.made "Bookcase" "new" [])
    (∀ v ∈ letters.freeVariables, empty.binding? v = none) ∧
    (empty.resolve letters == letters) = false ∧
    letters.display = "Letter[]" ∧
    ∃ after, Enhancer.fillFields Enhancer.writer .any empty .unknown (.plain (.named "Bookcase"))
        bookcase [Field.ofBookcase "letters" letters] { nextIdentity := 1 } = .ok () after ∧
      after.notesOf 0 = [⟨.set, "letters", [.object 1 (.text "[Letter]")]⟩] := by
  intro letters bookcase
  have nothingBound : ∀ v ∈ letters.freeVariables, empty.binding? v = none := fun _ _ => rfl
  exact ⟨nothingBound, by decide, by decide, _, rfl, rfl⟩

end TestData
