import TestData.Proofs.Inheritance.Listing
import TestData.Strategy.Inject

namespace TestData

/-!
# Inherited members and stand-ins

A class that was not described yet when it was needed as a supertype is given by name alone, and
this stand-in is the same class as far as names go.  A hierarchy lists one descriptor for each
name, the one the walk comes to first.  If that is a stand-in, the walk passes over the class that
declares the members, and over all that stands above it: injection does not see these members.

Nothing is lost if the fullest descriptor comes first.  However many of its supertypes one takes,
in the order in which a class declares them, where they bring in a name they have to bring in what
is declared under this name and above.  For graphs in which a name has no supertypes but those of
its fullest descriptor this is also necessary.
-/

namespace Class

variable {root b c d e l : Class} {nearest roots seen found : List Class}

/-! ## Descriptors of one name -/

/-- A descriptor with the name of another one, with all its fields and with all its methods. -/
structure DeclaresAllOf (l d : Class) : Prop where
  named : l.name = d.name
  fields : d.fields ⊆ l.fields
  methods : d.methods ⊆ l.methods

namespace DeclaresAllOf

theorem refl (c : Class) : c.DeclaresAllOf c :=
  ⟨rfl, List.Subset.refl _, List.Subset.refl _⟩

theorem trans (first : c.DeclaresAllOf d) (second : d.DeclaresAllOf e) : c.DeclaresAllOf e where
  named := first.named.trans second.named
  fields := List.Subset.trans second.fields first.fields
  methods := List.Subset.trans second.methods first.methods

end DeclaresAllOf

/-- Among the classes there is one that declares all that the class declares. -/
def KeptIn (met : List Class) (d : Class) : Prop :=
  ∃ l ∈ met, l.DeclaresAllOf d

namespace KeptIn

theorem of_mem (member : d ∈ seen) : KeptIn seen d :=
  ⟨d, member, .refl d⟩

theorem mono (kept : KeptIn seen d) (among : seen ⊆ found) : KeptIn found d := by
  rcases kept with ⟨l, member, declares⟩
  exact ⟨l, among member, declares⟩

theorem of_declaresAllOf (kept : KeptIn seen l) (declares : l.DeclaresAllOf d) : KeptIn seen d := by
  rcases kept with ⟨first, member, alsoDeclares⟩
  exact ⟨first, member, alsoDeclares.trans declares⟩

end KeptIn

/-- The hierarchy lists, for all that stands above the class, what declares as much. -/
def KeepsMembers (c : Class) : Prop :=
  ∀ d, c.LeadsTo d → KeptIn c.hierarchy d

/-! ## What the first supertypes bring in -/

/-- The class itself, or one that some of its supertypes lead to. -/
def Brings (c : Class) (nearest : List Class) (l : Class) : Prop :=
  l = c ∨ ∃ a ∈ nearest, a.LeadsTo l

/--
However many of its supertypes one takes, in their order: if they bring in the name of a class
above, they bring in what declares as much as this class, and as each class above it.
-/
def FullestFirst (c : Class) : Prop :=
  ∀ nearest, nearest <+: c.rawSupertypes → ∀ l d, c.Brings nearest l → c.Extends d →
    l.name = d.name → ∀ e, d.LeadsTo e → ∃ m, c.Brings nearest m ∧ m.DeclaresAllOf e

/-! ## What a walk leaves behind -/

/-- The walk finds nothing but what it started with and what its classes lead to. -/
theorem mem_or_leads_of_mem_ascendEach (roots seen : List Class) :
    ∀ d ∈ ascendEach roots seen, d ∈ seen ∨ ∃ c ∈ roots, c.LeadsTo d := by
  induction roots, seen using walk_induction with
  | nil seen => exact fun d member => .inl member
  | met c roots seen known rest =>
      rw [ascendEach_of_met known]
      exact fun d member => (rest d member).imp_right List.exists_mem_cons_of_exists
  | enter c roots seen new above rest =>
      rw [ascendEach_of_new new]
      intro d member
      rcases rest d member with found | later
      · rcases above d found with met | ⟨b, declared, leads⟩
        · rcases List.mem_append.mp met with earlier | here
          · exact .inl earlier
          · exact .inr ⟨c, List.mem_cons_self, .inl (List.mem_singleton.mp here)⟩
        · exact .inr ⟨c, List.mem_cons_self, .further declared leads⟩
      · exact .inr (List.exists_mem_cons_of_exists later)

/-- Once a class has been entered and left, there is no more than what it leads to besides. -/
theorem mem_or_leads_of_mem_entered (c : Class) (seen : List Class) :
    ∀ d ∈ ascendEach c.rawSupertypes (seen ++ [c]), d ∈ seen ∨ c.LeadsTo d := by
  intro d found
  rcases mem_or_leads_of_mem_ascendEach c.rawSupertypes (seen ++ [c]) d found with
    met | ⟨b, declared, leads⟩
  · rcases List.mem_append.mp met with earlier | here
    · exact .inl earlier
    · exact .inr (.inl (List.mem_singleton.mp here))
  · exact .inr (.further declared leads)

/-- The names of the classes it goes to have been met in the end. -/
theorem exists_named_of_mem_roots (roots seen : List Class) :
    ∀ c ∈ roots, ∃ d ∈ ascendEach roots seen, d.name = c.name := by
  induction roots, seen using walk_induction with
  | nil seen => exact fun c member => nomatch member
  | met c roots seen known rest =>
      rw [ascendEach_of_met known]
      rcases known with ⟨d, met, named⟩
      exact List.forall_mem_cons.mpr
        ⟨⟨d, (prefix_ascendEach roots seen).subset met, named⟩, rest⟩
  | enter c roots seen new above rest =>
      rw [ascendEach_of_new new]
      have met : c ∈ ascendEach c.rawSupertypes (seen ++ [c]) :=
        (prefix_ascendEach _ _).subset (List.mem_append_right seen List.mem_cons_self)
      exact List.forall_mem_cons.mpr ⟨⟨c, (prefix_ascendEach _ _).subset met, rfl⟩, rest⟩

/-- So have the names of all supertypes of what it finds. -/
theorem exists_named_of_supertype (roots seen : List Class) :
    ∀ d ∈ ascendEach roots seen, d ∈ seen ∨
      ∀ b ∈ d.rawSupertypes, ∃ e ∈ ascendEach roots seen, e.name = b.name := by
  induction roots, seen using walk_induction with
  | nil seen => exact fun d member => .inl member
  | met c roots seen known rest =>
      rw [ascendEach_of_met known]
      exact rest
  | enter c roots seen new above rest =>
      rw [ascendEach_of_new new]
      have lasts : ascendEach c.rawSupertypes (seen ++ [c]) ⊆
          ascendEach roots (ascendEach c.rawSupertypes (seen ++ [c])) :=
        (prefix_ascendEach _ _).subset
      intro d member
      rcases rest d member with found | closed
      · rcases above d found with met | closed
        · rcases List.mem_append.mp met with earlier | here
          · exact .inl earlier
          · cases List.mem_singleton.mp here
            refine .inr fun b declared => ?_
            rcases exists_named_of_mem_roots c.rawSupertypes (seen ++ [c]) b declared with
              ⟨e, listed, named⟩
            exact ⟨e, lasts listed, named⟩
        · refine .inr fun b declared => ?_
          rcases closed b declared with ⟨e, listed, named⟩
          exact ⟨e, lasts listed, named⟩
      · exact .inr closed

/-! ## Nothing is lost if the fullest comes first -/

/--
The walk may come to a class: where it has met the name of a class that this leads to, it has met
what declares as much as that class, and as each class above it.
-/
def ReadyFor (seen : List Class) (c : Class) : Prop :=
  ∀ d, c.LeadsTo d → (∃ l ∈ seen, l.name = d.name) → ∀ e, d.LeadsTo e → KeptIn seen e

/--
However many of some classes one takes, in their order: if they bring in the name of a class that
some of them lead to, what declares as much as this class and as those above it has been met or is
brought in as well.
-/
def FullestAhead (seen roots : List Class) : Prop :=
  ∀ nearest, nearest <+: roots → ∀ l d, (∃ a ∈ nearest, a.LeadsTo l) →
    (∃ b ∈ roots, b.LeadsTo d) → l.name = d.name →
    ∀ e, d.LeadsTo e → KeptIn seen e ∨ ∃ m, (∃ a ∈ nearest, a.LeadsTo m) ∧ m.DeclaresAllOf e

namespace FullestFirst

/-- A supertype may be come to right behind the class if that could be come to. -/
theorem readyFor (first : c.FullestFirst) (ready : ReadyFor seen c)
    (declared : b ∈ c.rawSupertypes) : ReadyFor (seen ++ [c]) b := by
  rintro d leads ⟨l, met, named⟩ e further
  have above : c.Extends d := extends_iff.mpr ⟨b, declared, leads⟩
  rcases List.mem_append.mp met with earlier | here
  · exact (ready d (.inr above) ⟨l, earlier, named⟩ e further).mono (List.subset_append_left _ _)
  · cases List.mem_singleton.mp here
    rcases first [] List.nil_prefix c d (.inl rfl) above named e further with
      ⟨m, rfl | ⟨a, near, -⟩, declares⟩
    · exact ⟨m, List.mem_append_right _ List.mem_cons_self, declares⟩
    · cases near

/-- Once the class has been met its supertypes may be gone to in their order. -/
theorem fullestAhead (first : c.FullestFirst) (seen : List Class) :
    FullestAhead (seen ++ [c]) c.rawSupertypes := by
  intro nearest starts l d brings leads named e further
  rcases first nearest starts l d (.inr brings) (extends_iff.mpr leads) named e further with
    ⟨m, rfl | brought, declares⟩
  · exact .inl ⟨m, List.mem_append_right _ List.mem_cons_self, declares⟩
  · exact .inr ⟨m, brought, declares⟩

end FullestFirst

namespace FullestAhead

/-- What has been left is met, with what declares as much as all that it leads to. -/
theorem tail (ahead : FullestAhead seen (c :: roots)) (among : seen ⊆ found)
    (left : ∀ d, c.LeadsTo d → KeptIn found d) : FullestAhead found roots := by
  rintro nearest starts l d brings ⟨b, root, leads⟩ named e further
  rcases ahead (c :: nearest) ((List.prefix_cons_inj c).mpr starts) l d
      (List.exists_mem_cons_of_exists brings) ⟨b, List.mem_cons_of_mem c root, leads⟩ named e
      further with kept | ⟨m, ⟨a, near, brought⟩, declares⟩
  · exact .inl (kept.mono among)
  · rcases List.mem_cons.mp near with rfl | later
    · exact .inl ((left m brought).of_declaresAllOf declares)
    · exact .inr ⟨m, ⟨a, later, brought⟩, declares⟩

/-- The walk may come to another class when it has left the first one. -/
theorem readyFor (ahead : FullestAhead seen (c :: roots)) (root : b ∈ roots)
    (ready : ReadyFor seen b) (among : seen ⊆ found)
    (only : ∀ d ∈ found, d ∈ seen ∨ c.LeadsTo d)
    (left : ∀ d, c.LeadsTo d → KeptIn found d) : ReadyFor found b := by
  rintro d leads ⟨l, met, named⟩ e further
  rcases only l met with earlier | brought
  · exact (ready d leads ⟨l, earlier, named⟩ e further).mono among
  · rcases ahead [c] (List.prefix_append [c] roots) l d ⟨c, List.mem_cons_self, brought⟩
        ⟨b, List.mem_cons_of_mem c root, leads⟩ named e further with
      kept | ⟨m, ⟨a, near, alsoBrought⟩, declares⟩
    · exact kept.mono among
    · cases List.mem_singleton.mp near
      exact (left m alsoBrought).of_declaresAllOf declares

end FullestAhead

/--
By induction on the walk: what has been left is met with all that stands above, but for what is
declared elsewhere under the same name, and this is met by the time it is come to.
-/
theorem keptIn_ascendEach (first : ∀ c, root.LeadsTo c → c.FullestFirst)
    (below : ∀ c ∈ roots, root.LeadsTo c) (ready : ∀ c ∈ roots, ReadyFor seen c)
    (ahead : FullestAhead seen roots) :
    ∀ c ∈ roots, ∀ d, c.LeadsTo d → KeptIn (ascendEach roots seen) d := by
  induction roots, seen using walk_induction with
  | nil seen => exact fun c member => nomatch member
  | met c roots seen known rest =>
      rcases List.forall_mem_cons.mp below with ⟨-, belowRest⟩
      rcases List.forall_mem_cons.mp ready with ⟨readyFirst, readyRest⟩
      have left : ∀ d, c.LeadsTo d → KeptIn seen d := readyFirst c (.refl c) known
      have later := rest belowRest readyRest (ahead.tail (List.Subset.refl _) left)
      rw [ascendEach_of_met known]
      refine List.forall_mem_cons.mpr ⟨fun d leads => ?_, later⟩
      exact (left d leads).mono (prefix_ascendEach roots seen).subset
  | enter c roots seen new above rest =>
      rcases List.forall_mem_cons.mp below with ⟨belowFirst, belowRest⟩
      rcases List.forall_mem_cons.mp ready with ⟨readyFirst, readyRest⟩
      have fullest : c.FullestFirst := first c belowFirst
      have supertypes := above (fun b declared => belowFirst.trans (.further declared (.refl b)))
        (fun b => fullest.readyFor readyFirst) (fullest.fullestAhead seen)
      have lasts := (prefix_ascendEach c.rawSupertypes (seen ++ [c])).subset
      have among : seen ⊆ ascendEach c.rawSupertypes (seen ++ [c]) :=
        fun d met => lasts (List.mem_append_left _ met)
      -- All that the class leads to has been met when it is left, itself included.
      have left : ∀ d, c.LeadsTo d → KeptIn (ascendEach c.rawSupertypes (seen ++ [c])) d := by
        rintro d (rfl | further)
        · exact .of_mem (lasts (List.mem_append_right _ List.mem_cons_self))
        · rcases extends_iff.mp further with ⟨b, declared, leads⟩
          exact supertypes b declared d leads
      -- The other classes may still be come to: what the first one has brought in is kept.
      have readyLater : ∀ b ∈ roots, ReadyFor (ascendEach c.rawSupertypes (seen ++ [c])) b :=
        fun b root => ahead.readyFor root (readyRest b root) among
          (mem_or_leads_of_mem_entered c seen) left
      have later := rest belowRest readyLater (ahead.tail among left)
      rw [ascendEach_of_new new]
      refine List.forall_mem_cons.mpr ⟨fun d leads => ?_, later⟩
      exact (left d leads).mono (prefix_ascendEach roots _).subset

/-- Nothing is lost if the class and all above it bring in the fullest descriptors first. -/
theorem keepsMembers (first : ∀ b, c.LeadsTo b → b.FullestFirst) : c.KeepsMembers := by
  have ready : ReadyFor [] c := fun d leads known => nomatch known
  have ahead : FullestAhead [] [c] := by
    rintro nearest starts l d ⟨a, near, -⟩ ⟨b, here, leads⟩ named e further
    cases List.mem_singleton.mp here
    cases List.mem_singleton.mp (starts.subset near)
    exact .inr ⟨e, ⟨_, near, leads.trans further⟩, .refl e⟩
  exact keptIn_ascendEach first (List.forall_mem_singleton.mpr (.refl c))
    (List.forall_mem_singleton.mpr ready) ahead c List.mem_cons_self

/-! ## Where nothing is lost the fullest comes first -/

/--
What declares the members of another descriptor of its name declares supertypes of the same names
as well, and no class stands above one of its own name but as a mere stand-in.
-/
structure Coherent (root : Class) : Prop where
  supertypes {l d b : Class} (first : root.LeadsTo l) (second : root.LeadsTo d)
    (declares : l.DeclaresAllOf d) (declared : b ∈ d.rawSupertypes) :
    ∃ a ∈ l.rawSupertypes, a.name = b.name
  noReturn {c d : Class} (below : root.LeadsTo c) (above : c.Extends d) (named : d.name = c.name) :
    d.rawSupertypes = []

/-- All that the class itself and some of its supertypes have listed is brought in by them. -/
theorem brings_of_mem (found : l ∈ ascendEach nearest [c]) : c.Brings nearest l :=
  (mem_or_leads_of_mem_ascendEach nearest [c] l found).imp_left List.mem_singleton.mp

/-- What is listed under a name that has been met at the start of the hierarchy stands there. -/
theorem mem_of_named_in_start (starts : found <+: c.hierarchy) (listed : l ∈ c.hierarchy)
    (met : ∃ d ∈ found, d.name = l.name) : l ∈ found := by
  rcases met with ⟨d, member, named⟩
  have same : d = l :=
    List.inj_on_of_nodup_map (nodup_names_hierarchy c) (starts.subset member) listed named
  exact same ▸ member

/-- Where nothing is lost a name that has been met stands for supertypes that have been met too. -/
theorem Coherent.exists_named_of_supertype (coherent : root.Coherent) (below : root.LeadsTo c)
    (keeps : c.KeepsMembers) (starts : nearest <+: c.rawSupertypes) (above : c.Extends d)
    (met : ∃ l ∈ ascendEach nearest [c], l.name = d.name) (declared : b ∈ d.rawSupertypes) :
    ∃ l ∈ ascendEach nearest [c], l.name = b.name := by
  rcases met with ⟨first, member, named⟩
  rcases keeps d (.inr above) with ⟨l, listed, declares⟩
  have here : l ∈ ascendEach nearest [c] :=
    mem_of_named_in_start (ascendEach_prefix_hierarchy starts) listed
      ⟨first, member, named.trans declares.named.symm⟩
  rcases Class.exists_named_of_supertype nearest [c] l here with own | closed
  · cases List.mem_singleton.mp own
    have none : d.rawSupertypes = [] := coherent.noReturn below above declares.named.symm
    rw [none] at declared
    cases declared
  · have leads : c.LeadsTo l := by
      rcases brings_of_mem here with own | ⟨a, near, leads⟩
      · exact .inl own
      · exact .further (starts.subset near) leads
    rcases coherent.supertypes (below.trans leads) (below.trans (.inr above)) declares declared with
      ⟨a, alsoDeclared, alike⟩
    rcases closed a alsoDeclared with ⟨m, found, sameName⟩
    exact ⟨m, found, sameName.trans alike⟩

/-- By induction on the way up, all that a class leads to has been met by name if the class has. -/
theorem Coherent.exists_named_of_leads (coherent : root.Coherent) (below : root.LeadsTo c)
    (keeps : c.KeepsMembers) (starts : nearest <+: c.rawSupertypes) (leads : d.LeadsTo e)
    (above : c.Extends d) (met : ∃ l ∈ ascendEach nearest [c], l.name = d.name) :
    ∃ l ∈ ascendEach nearest [c], l.name = e.name := by
  rcases leads with rfl | further
  · exact met
  · induction further with
    | direct declared =>
        exact coherent.exists_named_of_supertype below keeps starts above met declared
    | further declared _ ih =>
        apply ih (above.trans (.direct declared))
        exact coherent.exists_named_of_supertype below keeps starts above met declared

/-- A class that loses nothing brings in the fullest descriptors first. -/
theorem Coherent.fullestFirst (coherent : root.Coherent) (below : root.LeadsTo c)
    (keeps : c.KeepsMembers) : c.FullestFirst := by
  intro nearest starts l d brings above named e further
  have metName : ∃ m ∈ ascendEach nearest [c], m.name = d.name := by
    rcases brings with rfl | ⟨a, near, leads⟩
    · exact ⟨l, (prefix_ascendEach _ _).subset List.mem_cons_self, named⟩
    · have direct : c.Extends a := .direct (starts.subset near)
      rw [← named]
      exact coherent.exists_named_of_leads below keeps starts leads direct
        (exists_named_of_mem_roots nearest [c] a near)
  have met := coherent.exists_named_of_leads below keeps starts further above metName
  rcases keeps e (.inr (above.leads_trans further)) with ⟨m, listed, declares⟩
  rcases met with ⟨first, member, sameName⟩
  have here : m ∈ ascendEach nearest [c] :=
    mem_of_named_in_start (ascendEach_prefix_hierarchy starts) listed
      ⟨first, member, sameName.trans declares.named.symm⟩
  exact ⟨m, brings_of_mem here, declares⟩

/-- What a class leads to lies in each collection that has all its supertypes. -/
theorem mem_of_leadsTo {classes : List Class} (closed : classes.flatMap rawSupertypes ⊆ classes)
    (member : c ∈ classes) (leads : c.LeadsTo d) : d ∈ classes := by
  rcases leads with rfl | above
  · exact member
  · induction above with
    | direct declared => exact closed (List.mem_flatMap.mpr ⟨_, member, declared⟩)
    | further declared _ ih => exact ih (closed (List.mem_flatMap.mpr ⟨_, member, declared⟩))

/-- A graph is coherent if no descriptor with supertypes shares its name with another one. -/
theorem Coherent.of_apart {classes : List Class}
    (closed : classes.flatMap rawSupertypes ⊆ classes) (member : root ∈ classes)
    (apart : ∀ c ∈ classes, ∀ d ∈ classes, c.name = d.name → c = d ∨ d.rawSupertypes = []) :
    root.Coherent where
  supertypes {l d b} first second declares declared := by
    rcases apart l (mem_of_leadsTo closed member first) d (mem_of_leadsTo closed member second)
      declares.named with rfl | none
    · exact ⟨b, declared, rfl⟩
    · rw [none] at declared
      cases declared
  noReturn {c d} below above named := by
    rcases apart c (mem_of_leadsTo closed member below) d
      (mem_of_leadsTo closed member (below.trans (.inr above))) named.symm with rfl | none
    · exact absurd above (not_extends_self c)
    · exact none

/-! ## What injection sees -/

namespace KeepsMembers

/-- Method injection sees every method of an instance that is declared somewhere above. -/
theorem mem_instanceMethods (keeps : c.KeepsMembers) (leads : c.LeadsTo d) {m : Method}
    (declared : m ∈ d.methods) (instances : m.isStatic = false) : m ∈ c.instanceMethods := by
  rcases keeps d leads with ⟨l, listed, declares⟩
  refine List.mem_flatMap.mpr ⟨l, listed, List.mem_filter.mpr ⟨declares.methods declared, ?_⟩⟩
  exact (Bool.not_eq_true' _).mpr instances

/-- Field injection sees every such field, unless the name is listed as that of an interface. -/
theorem mem_instanceFields (keeps : c.KeepsMembers) (leads : c.LeadsTo d)
    (classes : ∀ l ∈ c.hierarchy, l.name = d.name → l.isInterface = false) {f : Field}
    (declared : f ∈ d.fields) (instances : f.isStatic = false) : f ∈ c.instanceFields := by
  rcases keeps d leads with ⟨l, listed, declares⟩
  have ofClass : l ∈ c.hierarchy.filter fun above => !above.isInterface :=
    List.mem_filter.mpr ⟨listed, (Bool.not_eq_true' _).mpr (classes l listed declares.named)⟩
  refine List.mem_flatMap.mpr ⟨l, ofClass, List.mem_filter.mpr ⟨declares.fields declared, ?_⟩⟩
  exact (Bool.not_eq_true' _).mpr instances

end KeepsMembers

end Class

/-- Where a name stands for one descriptor, the fullest one always comes first. -/
theorem ClassFamily.fullestFirst (family : ClassFamily) {c : Class} (member : family.contains c) :
    c.FullestFirst := by
  intro nearest starts l d brings above named e further
  have above' : family.contains d := contains_of_leads member (.inr above)
  rcases brings with rfl | ⟨a, near, leads⟩
  · cases family.descriptor member above' named
    exact absurd above (Class.not_extends_self l)
  · have near' : family.contains a := family.closed member (starts.subset near)
    cases family.descriptor (contains_of_leads near' leads) above' named
    exact ⟨e, .inr ⟨a, near, leads.trans further⟩, .refl e⟩

namespace Class

/-! ## Accounts, in full and by name -/

/-- An account, as it is described in full. -/
def account : Class where
  name := "Account"
  kind := .interface
  methodDeclarations := [{ name := "setOwner", returnType := .plain (primitive "unit") }]

def insured : Class where
  name := "Insured"
  kind := .interface
  interfaces := [.plain account]

/-- A class that gives by name alone what its first interface has brought in with all methods. -/
def savings : Class where
  name := "Savings"
  kind := .concrete
  interfaces := [.plain insured, .plain (named "Account")]

/-- The same two interfaces in the other order. -/
def deposit : Class where
  name := "Deposit"
  kind := .concrete
  interfaces := [.plain (named "Account"), .plain insured]

theorem savings_fullestFirst : savings.FullestFirst := by
  have closed : [insured, named "Account", account].flatMap rawSupertypes ⊆
      [insured, named "Account", account] := List.cons_subset.mpr ⟨by simp, List.nil_subset _⟩
  have among : ∀ d, savings.Extends d → d ∈ [insured, named "Account", account] := by
    intro d above
    rcases extends_iff.mp above with ⟨b, declared, leads⟩
    have direct : b ∈ [insured, named "Account"] := declared
    exact mem_of_leadsTo closed (List.mem_append_left [account] direct) leads
  have insuredAbove : insured.LeadsTo account := .inr (.direct List.mem_cons_self)
  intro nearest starts l d brings above named e further
  cases nearest with
  | nil =>
      rcases brings with rfl | ⟨a, near, -⟩
      · have other : ∀ d ∈ [insured, Class.named "Account", account], d.name ≠ savings.name := by
          decide
        exact absurd named.symm (other d (among d above))
      · cases near
  | cons a rest =>
      have same : a = insured := (List.cons_prefix_cons.mp starts).1
      have bringsAccount : savings.Brings (a :: rest) account :=
        .inr ⟨a, List.mem_cons_self, same ▸ insuredAbove⟩
      have above := among e (above.leads_trans further)
      simp only [List.mem_cons, List.not_mem_nil, or_false] at above
      rcases above with rfl | rfl | rfl
      · exact ⟨insured, .inr ⟨a, List.mem_cons_self, .inl same.symm⟩, .refl insured⟩
      · exact ⟨account, bringsAccount, rfl, List.nil_subset _, List.nil_subset _⟩
      · exact ⟨account, bringsAccount, .refl account⟩

theorem savings_all_fullestFirst : ∀ c, savings.LeadsTo c → c.FullestFirst := by
  have closed : [savings, insured, named "Account", account].flatMap rawSupertypes ⊆
      [savings, insured, named "Account", account] := by
    show [insured, named "Account", account] ⊆ _
    simp
  let inFull : ClassFamily :=
    .ofList [insured, account] (List.subset_cons_self insured [account]) (by decide)
  let byName : ClassFamily := .ofList [named "Account"] (List.nil_subset _) (by decide)
  intro c leads
  have among := mem_of_leadsTo closed List.mem_cons_self leads
  simp only [List.mem_cons, List.not_mem_nil, or_false] at among
  rcases among with rfl | rfl | rfl | rfl
  · exact savings_fullestFirst
  · exact inFull.fullestFirst List.mem_cons_self
  · exact byName.fullestFirst List.mem_cons_self
  · exact inFull.fullestFirst (List.mem_cons_of_mem insured List.mem_cons_self)

theorem deposit_coherent : deposit.Coherent := by
  have closed : [deposit, insured, named "Account", account].flatMap rawSupertypes ⊆
      [deposit, insured, named "Account", account] := by
    show [named "Account", insured, account] ⊆ _
    simp
  have accounts : account.rawSupertypes = [] ∧ (named "Account").rawSupertypes = [] := ⟨rfl, rfl⟩
  apply Coherent.of_apart closed List.mem_cons_self
  simpa [deposit, insured, account, named] using accounts

theorem deposit_not_fullestFirst : ¬ deposit.FullestFirst := by
  intro first
  have starts : [named "Account"] <+: deposit.rawSupertypes := List.prefix_append _ [insured]
  have brings : deposit.Brings [named "Account"] (named "Account") :=
    .inr ⟨_, List.mem_cons_self, .refl _⟩
  have above : deposit.Extends account :=
    .further (List.mem_cons_of_mem _ List.mem_cons_self) (.direct List.mem_cons_self)
  rcases first _ starts _ account brings above rfl account (.refl account) with
    ⟨m, rfl | ⟨a, near, leads⟩, declares⟩
  · exact absurd declares.named (by decide)
  · cases List.mem_singleton.mp near
    have closed : [named "Account"].flatMap rawSupertypes ⊆ [named "Account"] := List.nil_subset _
    cases List.mem_singleton.mp (mem_of_leadsTo closed List.mem_cons_self leads)
    exact List.not_mem_nil (declares.methods List.mem_cons_self)

/-! ## When no inherited member is lost -/

/--
Hierarchies list, for all that stands above a class, a descriptor of its name that declares as
much, if the class and those above it bring in the fullest descriptors first.  In coherent graphs
each of these classes has to.
-/
theorem inherited_members_kept (root : Class) :
    ((∀ c, root.LeadsTo c → c.FullestFirst) → ∀ c, root.LeadsTo c → ∀ d, c.LeadsTo d →
      ∃ l ∈ c.hierarchy, l.name = d.name ∧ d.fields ⊆ l.fields ∧ d.methods ⊆ l.methods) ∧
    (root.Coherent → ∀ c, root.LeadsTo c → (∀ d, c.LeadsTo d →
      ∃ l ∈ c.hierarchy, l.name = d.name ∧ d.fields ⊆ l.fields ∧ d.methods ⊆ l.methods) →
      c.FullestFirst) := by
  constructor
  · intro first c below d leads
    have firstAbove : ∀ b, c.LeadsTo b → b.FullestFirst :=
      fun b above => first b (below.trans above)
    rcases keepsMembers firstAbove d leads with ⟨l, listed, named, fields, methods⟩
    exact ⟨l, listed, named, fields, methods⟩
  · intro coherent c below keeps
    apply coherent.fullestFirst below
    intro d leads
    rcases keeps d leads with ⟨l, listed, named, fields, methods⟩
    exact ⟨l, listed, named, fields, methods⟩

/--
Savings come to the full description of their account first and keep its setter.  A deposit comes to
the mere name first and loses it.
-/
theorem owner_kept_by_savings_and_lost_by_deposit :
    (∀ c, savings.LeadsTo c → c.FullestFirst) ∧
    (∃ l ∈ savings.hierarchy, l.name = account.name ∧ account.fields ⊆ l.fields ∧
      account.methods ⊆ l.methods) ∧
    deposit.Coherent ∧ ¬ deposit.FullestFirst ∧
    ¬ ∀ d, deposit.LeadsTo d →
      ∃ l ∈ deposit.hierarchy, l.name = d.name ∧ d.fields ⊆ l.fields ∧ d.methods ⊆ l.methods := by
  have above : savings.LeadsTo account :=
    .further List.mem_cons_self (.inr (.direct List.mem_cons_self))
  have kept := (inherited_members_kept savings).1 savings_all_fullestFirst savings (.refl savings)
    account above
  refine ⟨savings_all_fullestFirst, kept, deposit_coherent, deposit_not_fullestFirst, fun all => ?_⟩
  apply deposit_not_fullestFirst
  exact (inherited_members_kept deposit).2 deposit_coherent deposit (.refl deposit) all

end Class
end TestData
