/-
**Names and methods in worlds that resemble each other.**

* `Resembles.flatName` — a known name has the same flat name in both worlds;
* `Resembles.isSuperfluous`, `Resembles.treatment` — the same becomes of the methods of a pair;
* `Resembles.mem_callableNames` — the same names can be called on the values of a pair.
-/

import ExternBindings.Proofs.World.Resemblance
import ExternBindings.World.Override

namespace ExternBindings

namespace World

/-- Inherited methods that say the same, and whose owners are paired. -/
structure SameInherited (paired : TypeIndex → TypeIndex → Prop)
    (inherited inheritedToo : InheritedMethod) : Prop where
  owner : paired inherited.owner inheritedToo.owner
  method : SameMethod inherited.method inheritedToo.method

/-- Treatments that say the same. -/
inductive SameTreatment (paired : TypeIndex → TypeIndex → Prop) : Treatment → Treatment → Prop
  | skipped : SameTreatment paired .skipped .skipped
  | inherited : SameTreatment paired .inherited .inherited
  | declared : SameTreatment paired .declared .declared
  | redeclared {ancestor ancestorToo : InheritedMethod} :
      SameInherited paired ancestor ancestorToo →
        SameTreatment paired (.redeclared ancestor) (.redeclared ancestorToo)

variable {world other : World} {paired : TypeIndex → TypeIndex → Prop}
  {known : QualifiedName → Prop}

namespace Resembles

variable {index twin : TypeIndex} {method methodToo : Method} {name : QualifiedName}

theorem answersTo_congr {arity : ArityRule} {candidate candidateToo : Method}
    (same : SameMethod method methodToo) (alike : SameMethod candidate candidateToo) :
    answersTo method arity candidate = answersTo methodToo arity candidateToo := by
  obtain ⟨span, rfl⟩ := same.exists_span
  obtain ⟨spanToo, rfl⟩ := alike.exists_span
  rfl

section Resembling

variable (resembles : world.Resembles other paired known)

include resembles

/-! ### Flat names -/

theorem declaredArity? (isKnown : known name) :
    world.declaredArity? name = other.declaredArity? name := by
  have looked := resembles.lookup? isKnown
  unfold World.declaredArity?
  generalize world.lookup? name = index? at looked
  generalize other.lookup? name = twin? at looked
  cases looked with
  | none => rfl
  | some pair =>
    obtain ⟨decl, declToo, found, foundToo, same⟩ := (resembles.twins pair).decl
    rw [Option.bind_some, Option.bind_some, found, foundToo]
    exact congrArg some (same.congr TypeDecl.genericCount)

theorem nameSegment (isKnown : known name) (arguments? : Option Nat) :
    world.nameSegment name arguments? = other.nameSegment name arguments? := by
  unfold World.nameSegment World.arityDigits
  rw [resembles.isShared isKnown, resembles.declaredArity? isKnown]

/-- **A known name has the same flat name in both worlds.** -/
theorem flatName (isKnown : known name) (arguments? : Option Nat) :
    world.flatName name arguments? = other.flatName name arguments? := by
  have owners : (name.owners.map fun outer => world.nameSegment outer none) =
      name.owners.map fun outer => other.nameSegment outer none :=
    List.map_congr_left fun outer member =>
      resembles.nameSegment (resembles.owner isKnown member) none
  unfold World.flatName
  rw [owners, resembles.nameSegment isKnown]

/-! ### Inherited methods -/

theorem inheritedMethods (pair : paired index twin) :
    List.Forall₂ (fun entry entryToo => paired entry.1 entryToo.1 ∧
      SameMethod entry.2 entryToo.2) (world.inheritedMethods index)
        (other.inheritedMethods twin) := by
  unfold World.inheritedMethods
  have ancestors := resembles.ancestors pair
  generalize world.ancestors index = path at ancestors
  generalize other.ancestors twin = pathToo at ancestors
  induction ancestors with
  | nil => exact .nil
  | cons ancestor _ hypothesis =>
    rw [List.flatMap_cons, List.flatMap_cons]
    refine List.rel_append (List.forall₂_map_left_iff.mpr ?_) hypothesis
    rw [List.forall₂_map_right_iff]
    exact (resembles.twins ancestor).methods.imp fun _ _ same => ⟨ancestor, same⟩

theorem requiredNames_of_mem (pair : paired index twin) {required : String}
    (member : required ∈ world.requiredNames index) : required ∈ other.requiredNames twin := by
  obtain ⟨contract, contractMember, named⟩ := List.mem_flatMap.mp member
  obtain ⟨method, methodMember, rfl⟩ := List.mem_map.mp named
  obtain ⟨contractToo, memberToo, contractPair⟩ := resembles.contracts_of_mem pair contractMember
  obtain ⟨methodToo, methodMemberToo, same⟩ :=
    exists_mem_of_forall₂ (resembles.twins contractPair).methods methodMember
  refine List.mem_flatMap.mpr ⟨contractToo, memberToo, List.mem_map.mpr ⟨methodToo, ?_, ?_⟩⟩
  · exact methodMemberToo
  · exact (same.congr Method.unqualifiedName).symm

theorem mem_requiredNames (pair : paired index twin) (required : String) :
    required ∈ world.requiredNames index ↔ required ∈ other.requiredNames twin :=
  ⟨resembles.requiredNames_of_mem pair, resembles.symm.requiredNames_of_mem pair⟩

theorem isRequired (pair : paired index twin) (same : SameMethod method methodToo) :
    world.isRequired index method = other.isRequired twin methodToo := by
  have names : method.unqualifiedName = methodToo.unqualifiedName :=
    same.congr Method.unqualifiedName
  unfold World.isRequired
  rw [names]
  exact decide_eq_decide.mpr (resembles.mem_requiredNames pair _)

theorem isVisible (pair : paired index twin) (same : SameMethod method methodToo) :
    world.isVisible index method = other.isVisible twin methodToo := by
  have isPublic : method.isPublic = methodToo.isPublic := same.congr Method.isPublic
  unfold World.isVisible
  rw [isPublic, resembles.isRequired pair same]

theorem nearestInherited? (pair : paired index twin) (same : SameMethod method methodToo)
    (arity : ArityRule) :
    Option.Rel (SameInherited paired) (world.nearestInherited? index method arity)
      (other.nearestInherited? twin methodToo arity) := by
  unfold World.nearestInherited?
  have inherited := resembles.inheritedMethods pair
  generalize world.inheritedMethods index = methods at inherited
  generalize other.inheritedMethods twin = methodsToo at inherited
  induction inherited with
  | nil => exact .none
  | @cons entry entryToo _ _ alike _ hypothesis =>
    obtain ⟨owner, candidate⟩ := entry
    obtain ⟨ownerToo, candidateToo⟩ := entryToo
    have answers := @answersTo_congr method methodToo arity candidate candidateToo same alike.2
    rw [List.find?_cons, List.find?_cons]
    dsimp only
    rw [answers]
    split
    · exact .some ⟨alike.1, alike.2⟩
    · exact hypothesis

theorem visibleInherited? (pair : paired index twin) (same : SameMethod method methodToo)
    (arity : ArityRule) :
    Option.Rel (SameInherited paired) (world.visibleInherited? index method arity)
      (other.visibleInherited? twin methodToo arity) := by
  have nearest := resembles.nearestInherited? pair same arity
  unfold World.visibleInherited?
  generalize world.nearestInherited? index method arity = found? at nearest
  generalize other.nearestInherited? twin methodToo arity = foundToo? at nearest
  cases nearest with
  | none => exact .none
  | some inherited =>
    rw [Option.filter_some, Option.filter_some,
      resembles.isVisible inherited.owner inherited.method]
    split
    · exact .some inherited
    · exact .none

/-! ### Treatment -/

theorem addsContract_of_eq_true (pair : paired index twin) (same : SameMethod method methodToo)
    {ancestor ancestorToo : TypeIndex} (ancestorPair : paired ancestor ancestorToo)
    (adds : world.addsContract index method ancestor = true) :
    other.addsContract twin methodToo ancestorToo = true := by
  simp only [World.addsContract, List.any_eq_true, Bool.and_eq_true, Bool.not_eq_true',
    List.contains_eq_mem, decide_eq_false_iff_not, decide_eq_true_eq] at adds ⊢
  obtain ⟨contract, member, fresh, required, requiredMember, named⟩ := adds
  obtain ⟨contractToo, memberToo, contractPair⟩ := resembles.contracts_of_mem pair member
  obtain ⟨requiredToo, requiredMemberToo, alike⟩ :=
    exists_mem_of_forall₂ (resembles.twins contractPair).methods requiredMember
  refine ⟨contractToo, memberToo, ?_, requiredToo, requiredMemberToo, ?_⟩
  · exact fun before => fresh ((resembles.mem_allContracts ancestorPair contractPair).mpr before)
  · have names : required.unqualifiedName = requiredToo.unqualifiedName :=
      alike.congr Method.unqualifiedName
    rw [← names, named]
    exact same.congr Method.unqualifiedName

theorem addsContract (pair : paired index twin) (same : SameMethod method methodToo)
    {ancestor ancestorToo : TypeIndex} (ancestorPair : paired ancestor ancestorToo) :
    world.addsContract index method ancestor = other.addsContract twin methodToo ancestorToo := by
  rw [Bool.eq_iff_iff]
  exact ⟨resembles.addsContract_of_eq_true pair same ancestorPair,
    resembles.symm.addsContract_of_eq_true pair (Eq.symm same) ancestorPair⟩

theorem isSuperfluous (pair : paired index twin) (same : SameMethod method methodToo) :
    world.isSuperfluous index method = other.isSuperfluous twin methodToo := by
  have isInstance : method.isInstanceMember = methodToo.isInstanceMember :=
    same.congr Method.isInstanceMember
  have visible := resembles.visibleInherited? pair same .exact
  unfold World.isSuperfluous
  rw [isInstance]
  generalize world.visibleInherited? index method .exact = found? at visible
  generalize other.visibleInherited? twin methodToo .exact = foundToo? at visible
  cases visible with
  | none => rfl
  | some inherited =>
    rw [Option.any_some, Option.any_some, resembles.addsContract pair same inherited.owner]

/-- **The same becomes of the methods of a pair.** -/
theorem treatment (pair : paired index twin) (same : SameMethod method methodToo) :
    SameTreatment paired (world.treatment index method) (other.treatment twin methodToo) := by
  have isInstance : method.isInstanceMember = methodToo.isInstanceMember :=
    same.congr Method.isInstanceMember
  have isCalled : method.isCalledByName = methodToo.isCalledByName :=
    same.congr Method.isCalledByName
  have sameArity := resembles.visibleInherited? pair same .exact
  have either := rel_or sameArity (resembles.visibleInherited? pair same .any)
  have found := isSome_eq_of_rel sameArity
  unfold World.treatment World.isDeclarable
  rw [isInstance, isCalled, resembles.isVisible pair same]
  split
  · exact .skipped
  · split
    · exact .declared
    · dsimp only
      rw [found]
      generalize (world.visibleInherited? index method .exact).or _ = ancestor? at either
      generalize (other.visibleInherited? twin methodToo .exact).or _ = ancestorToo? at either
      cases either with
      | none => exact .declared
      | some inherited =>
        dsimp only
        rw [resembles.addsContract pair same inherited.owner]
        split
        · exact .redeclared inherited
        · split
          · exact .inherited
          · exact .declared

/-! ### Names that can be called -/

theorem ownCallableNames (pair : paired index twin) :
    world.ownCallableNames index = other.ownCallableNames twin := by
  unfold World.ownCallableNames
  refine map_filter_eq_of_forall₂ (resembles.twins pair).methods (fun method methodToo same => ?_)
    fun method methodToo same => same.congr Method.unqualifiedName
  have callable := same.congr fun method =>
    method.isInstanceMember && method.isPublic && method.isCalledByName
  rw [resembles.isSuperfluous pair same]
  exact congrArg (· && _) callable

theorem callableNames_of_mem (pair : paired index twin) {called : String}
    (member : called ∈ world.callableNames index) : called ∈ other.callableNames twin := by
  obtain ⟨owner, ownerMember, named⟩ := List.mem_flatMap.mp member
  have exists_owner : ∃ ownerToo ∈ twin :: other.ancestors twin ++ other.allContracts twin,
      paired owner ownerToo := by
    rcases List.mem_append.mp ownerMember with lineage | contract
    · obtain ⟨ownerToo, memberToo, ownerPair⟩ :=
        exists_mem_of_forall₂ (.cons pair (resembles.ancestors pair)) lineage
      exact ⟨ownerToo, List.mem_append_left _ memberToo, ownerPair⟩
    · obtain ⟨ownerToo, memberToo, ownerPair⟩ := resembles.allContracts_of_mem pair contract
      exact ⟨ownerToo, List.mem_append_right _ memberToo, ownerPair⟩
  obtain ⟨ownerToo, memberToo, ownerPair⟩ := exists_owner
  rw [resembles.ownCallableNames ownerPair] at named
  exact List.mem_flatMap.mpr ⟨ownerToo, memberToo, named⟩

/-- **The same names can be called on the values of a pair.** -/
theorem mem_callableNames (pair : paired index twin) (called : String) :
    called ∈ world.callableNames index ↔ called ∈ other.callableNames twin :=
  ⟨resembles.callableNames_of_mem pair, resembles.symm.callableNames_of_mem pair⟩

end Resembling

end Resembles

end World

end ExternBindings
