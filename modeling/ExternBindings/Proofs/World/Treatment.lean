/-
**When a method is declared anew.**

* `World.IsInherited` — what the search for an inherited method finds: a method of an ancestor that
  answers to the same name and can be seen (`isInherited_of_visibleInherited?`);
* `World.IsNearest` — which one that is: only the first method that answers to the name is looked at
  (`nearestInherited?_eq_some_iff`);
* `treatment_eq_skipped_iff`, `treatment_eq_inherited_iff`, `treatment_eq_declared_iff`,
  `treatment_eq_redeclared_iff` — the whole condition of each treatment;
* `World.IsWritten` — a method of a type that is neither skipped nor left to an ancestor.
-/

import ExternBindings.World.Override

namespace ExternBindings

/-! ### Kinds of methods -/

theorem Method.isInstanceMember_iff {method : Method} :
    method.isInstanceMember = true ↔ method.isStatic = false ∧ method.isConstructor = false := by
  unfold isInstanceMember
  rw [Bool.and_eq_true, Bool.not_eq_true', Bool.not_eq_true']

theorem Method.isStaticMember_eq_false_iff {method : Method} :
    method.isStaticMember = false ↔
      method.isInstanceMember = true ∨ method.isConstructor = true := by
  unfold isStaticMember isInstanceMember
  cases method.isStatic <;> cases method.isConstructor <;> decide

namespace World

variable {world : World} {owner : TypeIndex} {method : Method}

theorem mem_methods_iff :
    method ∈ world.methods owner ↔
      ∃ decl, world.decl? owner = some decl ∧ method ∈ decl.methods := by
  unfold methods
  cases world.decl? owner <;> simp

/-! ### Inherited methods -/

/-- The method belongs to an ancestor, answers to the same name, with as many parameters where that
counts, and can be seen. -/
structure IsInherited (world : World) (owner : TypeIndex) (method : Method) (arity : ArityRule)
    (inherited : InheritedMethod) : Prop where
  ancestor : inherited.owner ∈ world.ancestors owner
  declared : inherited.method ∈ world.methods inherited.owner
  answers : answersTo method arity inherited.method = true
  visible : world.isVisible inherited.owner inherited.method = true

theorem isInherited_of_visibleInherited? {arity : ArityRule} {inherited : InheritedMethod}
    (found : world.visibleInherited? owner method arity = some inherited) :
    world.IsInherited owner method arity inherited := by
  obtain ⟨nearest, visible⟩ := Option.filter_eq_some_iff.mp found
  obtain ⟨pair, first, rfl⟩ := Option.map_eq_some_iff.mp nearest
  obtain ⟨ancestor, ancestorMember, methodMember⟩ :=
    List.mem_flatMap.mp (List.mem_of_find?_eq_some first)
  obtain ⟨candidate, candidateMember, rfl⟩ := List.mem_map.mp methodMember
  have answers : answersTo method arity candidate = true :=
    List.find?_some (p := fun pair : TypeIndex × Method => answersTo method arity pair.2) first
  exact ⟨ancestorMember, candidateMember, answers, visible⟩

/-- A method that answers to a name is no constructor and has that name. -/
theorem answersTo_iff {arity : ArityRule} {candidate : Method} :
    answersTo method arity candidate = true ↔
      candidate.isConstructor = false ∧ candidate.unqualifiedName = method.unqualifiedName ∧
        (arity = .any ∨ candidate.arity = method.arity) := by
  unfold answersTo
  simp [and_assoc]

theorem answersTo_exact_iff {candidate : Method} :
    answersTo method .exact candidate = true ↔
      candidate.isConstructor = false ∧ candidate.unqualifiedName = method.unqualifiedName ∧
        candidate.arity = method.arity := by
  rw [answersTo_iff]
  simp

theorem unqualifiedName_eq_of_answersTo {arity : ArityRule} {candidate : Method}
    (answers : answersTo method arity candidate = true) :
    candidate.unqualifiedName = method.unqualifiedName :=
  (answersTo_iff.mp answers).2.1

/-- The first of the inherited methods that answers to the name: no method of a nearer ancestor
does, and none in front of it in its own type. -/
structure IsNearest (world : World) (owner : TypeIndex) (method : Method) (arity : ArityRule)
    (inherited : InheritedMethod) : Prop where
  answers : answersTo method arity inherited.method = true
  first : ∃ nearer farther earlier later,
    world.ancestors owner = nearer ++ inherited.owner :: farther ∧
    world.methods inherited.owner = earlier ++ inherited.method :: later ∧
    (∀ ancestor ∈ nearer, ∀ candidate ∈ world.methods ancestor,
      answersTo method arity candidate = false) ∧
    ∀ candidate ∈ earlier, answersTo method arity candidate = false

theorem IsNearest.mem_ancestors {arity : ArityRule} {inherited : InheritedMethod}
    (nearest : world.IsNearest owner method arity inherited) :
    inherited.owner ∈ world.ancestors owner := by
  obtain ⟨nearer, farther, -, -, path, -⟩ := nearest.first
  rw [path]
  exact List.mem_append_right nearer List.mem_cons_self

/-- **The search for an inherited method finds the nearest one.** -/
theorem nearestInherited?_eq_some_iff {arity : ArityRule} {inherited : InheritedMethod} :
    world.nearestInherited? owner method arity = some inherited ↔
      world.IsNearest owner method arity inherited := by
  have found (ancestor : TypeIndex) : (((world.methods ancestor).map fun candidate =>
      (ancestor, candidate)).find? fun pair => answersTo method arity pair.2) =
        ((world.methods ancestor).find? (answersTo method arity)).map fun candidate =>
          (ancestor, candidate) := List.find?_map
  unfold nearestInherited? inheritedMethods
  simp only [List.find?_flatMap, found, Option.map_eq_some_iff, List.findSome?_eq_some_iff,
    Option.map_eq_none_iff, List.find?_eq_none, Bool.not_eq_true]
  constructor
  · rintro ⟨_, ⟨nearer, ancestor, farther, path, ⟨candidate, first, rfl⟩, missing⟩, rfl⟩
    obtain ⟨answers, earlier, later, split, before⟩ := List.find?_eq_some_iff_append.mp first
    refine ⟨answers, nearer, farther, earlier, later, path, split, missing, ?_⟩
    simpa using before
  · rintro ⟨answers, nearer, farther, earlier, later, path, split, missing, before⟩
    refine ⟨_, ⟨nearer, _, farther, path, ⟨_, ?_, rfl⟩, missing⟩, rfl⟩
    refine List.find?_eq_some_iff_append.mpr ⟨answers, earlier, later, split, ?_⟩
    simpa using before

theorem visibleInherited?_eq_some_iff {arity : ArityRule} {inherited : InheritedMethod} :
    world.visibleInherited? owner method arity = some inherited ↔
      world.IsNearest owner method arity inherited ∧
        world.isVisible inherited.owner inherited.method = true := by
  unfold visibleInherited?
  rw [Option.filter_eq_some_iff, nearestInherited?_eq_some_iff]

/-- Where an ancestor has a method that answers to the name, there is a nearest one. -/
theorem exists_isNearest {arity : ArityRule} {ancestor : TypeIndex} {candidate : Method}
    (related : ancestor ∈ world.ancestors owner) (declared : candidate ∈ world.methods ancestor)
    (answers : answersTo method arity candidate = true) :
    ∃ inherited, world.IsNearest owner method arity inherited := by
  have searched : (world.nearestInherited? owner method arity).isSome = true := by
    unfold nearestInherited?
    rw [Option.isSome_map, List.find?_isSome]
    exact ⟨(ancestor, candidate), List.mem_flatMap.mpr
      ⟨ancestor, related, List.mem_map_of_mem declared⟩, answers⟩
  obtain ⟨inherited, found⟩ := Option.isSome_iff_exists.mp searched
  exact ⟨inherited, nearestInherited?_eq_some_iff.mp found⟩

/-! ### Contracts -/

/-- Only a name that the type is asked for can be missing from an ancestor. -/
theorem isRequired_of_addsContract {ancestor : TypeIndex}
    (adds : world.addsContract owner method ancestor = true) :
    world.isRequired owner method = true := by
  unfold addsContract at adds
  simp only [List.any_eq_true, Bool.and_eq_true, decide_eq_true_eq] at adds
  obtain ⟨contract, member, -, required, declared, named⟩ := adds
  unfold isRequired requiredNames
  rw [decide_eq_true_eq]
  exact List.mem_flatMap.mpr ⟨contract, member, List.mem_map.mpr ⟨required, declared, named⟩⟩

/-! ### Treatments -/

/-- The method is one of the type, and the type writes it: it is neither skipped nor left to an
ancestor. -/
structure IsWritten (world : World) (index : TypeIndex) (method : Method) : Prop where
  declared : method ∈ world.methods index
  notSkipped : world.treatment index method ≠ .skipped
  notInherited : world.treatment index method ≠ .inherited

theorem treatment_eq_skipped_iff :
    world.treatment owner method = .skipped ↔ world.isDeclarable owner method = false := by
  unfold treatment
  cases declarable : world.isDeclarable owner method with
  | false => simp
  | true =>
    simp only [Bool.not_true, Bool.false_eq_true, if_false, reduceCtorEq, iff_false]
    split
    · simp
    · split
      · simp
      · split
        · simp
        · split <;> simp

/-- **A method is left to its ancestors** exactly if it is called on values, can be seen, and the
nearest inherited method of its name and number of parameters can be seen and is enough. -/
theorem treatment_eq_inherited_iff :
    world.treatment owner method = .inherited ↔
      world.isDeclarable owner method = true ∧ method.isInstanceMember = true ∧
        ∃ inherited, world.visibleInherited? owner method .exact = some inherited ∧
          world.addsContract owner method inherited.owner = false := by
  unfold treatment
  cases declarable : world.isDeclarable owner method with
  | false => simp
  | true =>
    cases called : method.isInstanceMember with
    | false => simp
    | true =>
      cases sameArity : world.visibleInherited? owner method .exact with
      | none =>
        simp only [Bool.not_true, Bool.false_eq_true, if_false, Option.none_or, Option.isSome_none,
          reduceCtorEq, false_and, exists_false, and_false, iff_false]
        split
        · simp
        · split <;> simp
      | some inherited =>
        cases adds : world.addsContract owner method inherited.owner <;> simp [adds]

theorem isSuperfluous_iff :
    world.isSuperfluous owner method = true ↔
      method.isInstanceMember = true ∧
        ∃ inherited, world.visibleInherited? owner method .exact = some inherited ∧
          world.addsContract owner method inherited.owner = false := by
  unfold isSuperfluous
  simp only [Bool.and_eq_true, Option.any_eq_true, Bool.not_eq_true']

/-- A method is left to its ancestors if it may be declared at all and is superfluous. -/
theorem treatment_eq_inherited_iff_isSuperfluous :
    world.treatment owner method = .inherited ↔
      world.isDeclarable owner method = true ∧ world.isSuperfluous owner method = true := by
  rw [treatment_eq_inherited_iff, isSuperfluous_iff]

/-- **A method is declared beside an inherited one** exactly if it is called on values, can be seen,
and a contract asks for its name that the type of the inherited method need not satisfy. A method
with as many parameters goes before one with another number. -/
theorem treatment_eq_redeclared_iff {inherited : InheritedMethod} :
    world.treatment owner method = .redeclared inherited ↔
      world.isDeclarable owner method = true ∧ method.isInstanceMember = true ∧
        (world.visibleInherited? owner method .exact).or
            (world.visibleInherited? owner method .any) = some inherited ∧
          world.addsContract owner method inherited.owner = true := by
  unfold treatment
  cases declarable : world.isDeclarable owner method with
  | false => simp
  | true =>
    cases called : method.isInstanceMember with
    | false => simp
    | true =>
      dsimp only
      cases nearest : (world.visibleInherited? owner method .exact).or
          (world.visibleInherited? owner method .any) with
      | none => simp
      | some found =>
        cases adds : world.addsContract owner method found.owner with
        | false =>
          have differs : found = inherited →
              world.addsContract owner method inherited.owner = false := fun same => same ▸ adds
          cases (world.visibleInherited? owner method .exact).isSome <;> simp_all
        | true =>
          simp only [Bool.not_true, Bool.false_eq_true, if_false, if_true, true_and, adds,
            Treatment.redeclared.injEq, Option.some.injEq]
          constructor
          · rintro rfl
            exact ⟨rfl, adds⟩
          · exact fun both => both.1

/-- **A method is declared like any other** exactly if it may be declared at all and, where it is
called on values, no inherited method with as many parameters can be seen, and none of its name whose
type need not satisfy a contract that asks for the name. -/
theorem treatment_eq_declared_iff :
    world.treatment owner method = .declared ↔
      world.isDeclarable owner method = true ∧
        (method.isInstanceMember = true →
          world.visibleInherited? owner method .exact = none ∧
            ∀ inherited, world.visibleInherited? owner method .any = some inherited →
              world.addsContract owner method inherited.owner = false) := by
  unfold treatment
  cases declarable : world.isDeclarable owner method with
  | false => simp
  | true =>
    cases called : method.isInstanceMember with
    | false => simp
    | true =>
      cases sameArity : world.visibleInherited? owner method .exact with
      | none =>
        cases anyArity : world.visibleInherited? owner method .any with
        | none => simp
        | some found => cases adds : world.addsContract owner method found.owner <;> simp [adds]
      | some found => cases adds : world.addsContract owner method found.owner <;> simp [adds]

/-- A method that is declared beside an inherited one is written. -/
theorem isWritten_of_redeclared {inherited : InheritedMethod}
    (declared : method ∈ world.methods owner)
    (became : world.treatment owner method = .redeclared inherited) :
    world.IsWritten owner method :=
  ⟨declared, by simp [became], by simp [became]⟩

/-- An inherited method that another one is declared beside is found by one of the searches. -/
theorem isInherited_of_treatment_eq_redeclared {inherited : InheritedMethod}
    (became : world.treatment owner method = .redeclared inherited) :
    ∃ arity, world.IsInherited owner method arity inherited := by
  obtain ⟨-, -, nearest, -⟩ := treatment_eq_redeclared_iff.mp became
  rcases Option.or_eq_some_iff.mp nearest with found | ⟨-, found⟩
  · exact ⟨.exact, isInherited_of_visibleInherited? found⟩
  · exact ⟨.any, isInherited_of_visibleInherited? found⟩

/-- Such a method belongs to the type that it is said to. -/
theorem mem_methods_of_treatment_eq_redeclared {inherited : InheritedMethod}
    (became : world.treatment owner method = .redeclared inherited) :
    inherited.method ∈ world.methods inherited.owner := by
  obtain ⟨arity, isInherited⟩ := isInherited_of_treatment_eq_redeclared became
  exact isInherited.declared

end World

end ExternBindings
