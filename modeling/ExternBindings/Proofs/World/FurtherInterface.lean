/-
**One more interface.**

A type that names one more interface may have more contracts, and so may every type that leads to
it. The types it inherits from do not lead to it, as a rule; then they answer as before, and what
the type itself declares can only become more.

* `World.withInterface` — the world in which one type names one more interface;
  `World.GrowsAt` — what that changes: the interfaces of that type, and nothing else that contracts
  depend on (`growsAt_withInterface`);
* `GrowsAt.mem_allContracts_iff`, `GrowsAt.isVisible_eq`, `GrowsAt.visibleInherited?_eq` — a type
  that does not lead there has the contracts that it had, and the searches for inherited methods
  find what they found;
* `Treatment.RisesTo` — a treatment that keeps what was declared; `GrowsAt.risesTo` says how the
  treatment of each method changes;
* `World.further_interface_keeps` — so **one more interface takes no function away**.
-/

import ExternBindings.Proofs.Listing.Characters
import ExternBindings.Proofs.World.Modified
import ExternBindings.Proofs.World.Reachability
import ExternBindings.Proofs.World.Treatment

namespace ExternBindings

/-! ### Worlds with one more interface -/

/-- The declaration that names one more interface, behind the first `position` ones. -/
def TypeDecl.withInterface (decl : TypeDecl) (position : Nat) (reference : TypeReference) :
    TypeDecl :=
  { decl with
    interfaces := decl.interfaces.take position ++ reference :: decl.interfaces.drop position }

theorem TypeDecl.mem_interfaces_withInterface {decl : TypeDecl} {position : Nat}
    {reference other : TypeReference} :
    other ∈ (decl.withInterface position reference).interfaces ↔
      other = reference ∨ other ∈ decl.interfaces := by
  unfold withInterface
  dsimp only
  rw [List.mem_append, List.mem_cons, or_left_comm, ← List.mem_append, List.take_append_drop]

/-- The entry of the declaration that names one more interface. -/
def Entry.withInterface (entry : Entry) (position : Nat) (reference : TypeReference) : Entry :=
  { entry with decl := entry.decl.withInterface position reference }

/-! ### Treatments that keep what was declared -/

/-- How the treatment of a method may change without taking it away: what is declared stays so, but
perhaps beside an inherited method, and what is left to an ancestor may come back beside it. -/
inductive Treatment.RisesTo : Treatment → Treatment → Prop
  | skipped {treatment : Treatment} : RisesTo .skipped treatment
  | inherited : RisesTo .inherited .inherited
  | inheritedBeside {ancestor : InheritedMethod} : RisesTo .inherited (.redeclared ancestor)
  | declared : RisesTo .declared .declared
  | declaredBeside {ancestor : InheritedMethod} : RisesTo .declared (.redeclared ancestor)
  | redeclared {ancestor : InheritedMethod} : RisesTo (.redeclared ancestor) (.redeclared ancestor)

theorem Treatment.RisesTo.ne_skipped {before after : Treatment} (rises : before.RisesTo after)
    (notSkipped : before ≠ .skipped) : after ≠ .skipped := by
  cases rises <;> simp_all

theorem Treatment.RisesTo.ne_inherited {before after : Treatment} (rises : before.RisesTo after)
    (notSkipped : before ≠ .skipped) (notInherited : before ≠ .inherited) :
    after ≠ .inherited := by
  cases rises <;> simp_all

namespace World

/-- The world in which one type names one more interface. -/
def withInterface (world : World) (index : TypeIndex) (position : Nat)
    (reference : TypeReference) : World :=
  { entries := world.entries.modify index fun entry => entry.withInterface position reference }

section WithInterface

variable (world : World) (index : TypeIndex) (position : Nat) (reference : TypeReference)

theorem withInterface_eq : world.withInterface index position reference =
    world.modified index fun entry => entry.withInterface position reference :=
  rfl

theorem entry?_withInterface (type : TypeIndex) :
    entry? (world.withInterface index position reference) type =
      (world.entry? type).map fun entry =>
        if index = type then entry.withInterface position reference else entry :=
  entry?_modified type

theorem decl?_withInterface (type : TypeIndex) :
    (world.withInterface index position reference).decl? type =
      (world.decl? type).map fun decl =>
        if index = type then decl.withInterface position reference else decl := by
  unfold decl?
  rw [entry?_withInterface, Option.map_map, Option.map_map]
  congr 1
  funext entry
  exact apply_ite Entry.decl _ _ _

/-- The names of declarations are looked up as before. -/
theorem target?_withInterface :
    (world.withInterface index position reference).target? = world.target? := by
  rw [withInterface_eq]
  exact target?_modified fun _ => rfl

theorem base?_withInterface :
    (world.withInterface index position reference).base? = world.base? := by
  rw [withInterface_eq]
  exact base?_modified (fun _ => rfl) fun _ => rfl

theorem ancestors_withInterface (type : TypeIndex) :
    (world.withInterface index position reference).ancestors type = world.ancestors type := by
  rw [withInterface_eq]
  refine congrFun ?_ type
  exact ancestors_modified (fun _ => rfl) fun _ => rfl

theorem methods_withInterface (type : TypeIndex) :
    (world.withInterface index position reference).methods type = world.methods type := by
  rw [withInterface_eq]
  refine congrFun ?_ type
  exact methods_modified fun _ => rfl

theorem isPublicInterface_withInterface (type : TypeIndex) :
    (world.withInterface index position reference).isPublicInterface type =
      world.isPublicInterface type := by
  rw [withInterface_eq]
  refine congrFun ?_ type
  exact isPublicInterface_modified fun _ => rfl

theorem mem_implemented_withInterface {type other : TypeIndex} :
    other ∈ (world.withInterface index position reference).implemented type ↔
      other ∈ world.implemented type ∨
        index = type ∧ (world.decl? type).isSome = true ∧ world.target? reference = some other := by
  rw [mem_implemented, mem_implemented, decl?_withInterface, target?_withInterface]
  cases world.decl? type with
  | none => simp
  | some decl =>
    simp only [Option.map_some, Option.some.injEq, exists_eq_left', Option.isSome_some, true_and]
    by_cases same : index = type
    · rw [if_pos same, and_iff_right same]
      simp only [TypeDecl.mem_interfaces_withInterface, or_and_right, exists_or, exists_eq_left]
      exact or_comm
    · rw [if_neg same]
      simp only [same, false_and, or_false]

end WithInterface

/-! ### Growing in one place -/

/-- One type may have got more interfaces; all else that contracts depend on is as before. -/
structure GrowsAt (more world : World) (index : TypeIndex) : Prop where
  ancestors_eq : ∀ type, more.ancestors type = world.ancestors type
  base?_eq : more.base? = world.base?
  methods_eq : ∀ type, more.methods type = world.methods type
  isPublicInterface_eq : ∀ type, more.isPublicInterface type = world.isPublicInterface type
  subset : ∀ type, world.implemented type ⊆ more.implemented type
  subset_of_ne : ∀ type, type ≠ index → more.implemented type ⊆ world.implemented type

theorem growsAt_withInterface (world : World) (index : TypeIndex) (position : Nat)
    (reference : TypeReference) :
    (world.withInterface index position reference).GrowsAt world index where
  ancestors_eq := ancestors_withInterface world index position reference
  base?_eq := base?_withInterface world index position reference
  methods_eq := methods_withInterface world index position reference
  isPublicInterface_eq := isPublicInterface_withInterface world index position reference
  subset type other member := (mem_implemented_withInterface ..).mpr (Or.inl member)
  subset_of_ne type differs other member := by
    refine ((mem_implemented_withInterface ..).mp member).resolve_right ?_
    rintro ⟨rfl, -⟩
    exact differs rfl

/-- A type leads to another one along bases and interfaces. -/
def LeadsTo (world : World) : TypeIndex → TypeIndex → Prop :=
  Relation.ReflTransGen (IsLinked world.parents)

/-- More links lead to a node only through the place where they are. -/
theorem reachable_of_avoids {links more : TypeIndex → List TypeIndex} {index : TypeIndex}
    (only : ∀ node, node ≠ index → more node ⊆ links node) {start other : TypeIndex}
    (avoids : ¬ Relation.ReflTransGen (IsLinked links) start index)
    (path : Relation.ReflTransGen (IsLinked more) start other) :
    Relation.ReflTransGen (IsLinked links) start other := by
  induction path with
  | refl => exact .refl
  | @tail node other _ link hypothesis =>
    have differs : node ≠ index := by
      rintro rfl
      exact avoids hypothesis
    exact hypothesis.tail (only node differs link)

namespace GrowsAt

variable {more world : World} {index : TypeIndex} (grows : more.GrowsAt world index)

include grows

theorem parents_subset (type : TypeIndex) : world.parents type ⊆ more.parents type := by
  intro other member
  rw [mem_parents] at member ⊢
  rw [grows.base?_eq]
  exact member.imp_right fun implements => grows.subset type implements

theorem parents_subset_of_ne (type : TypeIndex) (differs : type ≠ index) :
    more.parents type ⊆ world.parents type := by
  intro other member
  rw [mem_parents] at member ⊢
  rw [← grows.base?_eq]
  exact member.imp_right fun implements => grows.subset_of_ne type differs implements

/-- No contract is lost. -/
theorem contracts_subset (type : TypeIndex) : world.contracts type ⊆ more.contracts type := by
  intro contract member
  rw [mem_contracts_iff] at member ⊢
  rw [grows.isPublicInterface_eq]
  obtain ⟨path, rest⟩ := member
  exact ⟨Relation.ReflTransGen.mono (fun type _ link => grows.subset type link) _ _ path, rest⟩

theorem isRequired_of_isRequired {owner : TypeIndex} {method : Method}
    (required : world.isRequired owner method = true) : more.isRequired owner method = true := by
  unfold isRequired requiredNames at required ⊢
  simp only [List.mem_flatMap, decide_eq_true_eq, grows.methods_eq] at required ⊢
  obtain ⟨contract, member, named⟩ := required
  exact ⟨contract, grows.contracts_subset owner member, named⟩

theorem isDeclarable_of_isDeclarable {owner : TypeIndex} {method : Method}
    (declarable : world.isDeclarable owner method = true) :
    more.isDeclarable owner method = true := by
  unfold isDeclarable isVisible at declarable ⊢
  rw [Bool.and_eq_true, Bool.or_eq_true] at declarable ⊢
  exact declarable.imp_right (Or.imp_right grows.isRequired_of_isRequired)

/-! ### Types that do not lead there -/

section Apart

variable {type : TypeIndex} (apart : ¬ world.LeadsTo type index)

include apart

theorem mem_contracts_iff {contract : TypeIndex} :
    contract ∈ more.contracts type ↔ contract ∈ world.contracts type := by
  refine ⟨fun member => ?_, fun member => grows.contracts_subset type member⟩
  rw [World.mem_contracts_iff] at member ⊢
  rw [← grows.isPublicInterface_eq]
  refine ⟨reachable_of_avoids grows.subset_of_ne (fun path => apart ?_) member.1, member.2⟩
  exact Relation.ReflTransGen.mono (fun _ _ => isLinked_parents_of_implemented) _ _ path

theorem mem_allContracts_iff {contract : TypeIndex} :
    contract ∈ more.allContracts type ↔ contract ∈ world.allContracts type := by
  rw [World.mem_allContracts_iff, World.mem_allContracts_iff, grows.isPublicInterface_eq]
  refine and_congr_left fun _ => ⟨reachable_of_avoids grows.parents_subset_of_ne apart, ?_⟩
  exact Relation.ReflTransGen.mono (fun type _ link => grows.parents_subset type link) _ _

theorem isVisible_eq (method : Method) :
    more.isVisible type method = world.isVisible type method := by
  have required : more.isRequired type method = world.isRequired type method := by
    rw [Bool.eq_iff_iff]
    unfold isRequired requiredNames
    simp only [List.mem_flatMap, decide_eq_true_eq, grows.methods_eq, grows.mem_contracts_iff apart]
  unfold isVisible
  rw [required]

end Apart

/-! ### Treatments -/

section Own

variable (apart : ∀ ancestor ∈ world.ancestors index, ¬ world.LeadsTo ancestor index)

include apart

/-- The search for an inherited method finds what it found. -/
theorem visibleInherited?_eq (method : Method) (arity : ArityRule) :
    more.visibleInherited? index method arity = world.visibleInherited? index method arity := by
  have nearest : more.nearestInherited? index method arity =
      world.nearestInherited? index method arity := by
    unfold nearestInherited? inheritedMethods
    simp only [grows.ancestors_eq, grows.methods_eq]
  unfold visibleInherited?
  rw [nearest]
  cases found : world.nearestInherited? index method arity with
  | none => rfl
  | some inherited =>
    have ancestor := (nearestInherited?_eq_some_iff.mp found).mem_ancestors
    rw [Option.filter_some, Option.filter_some, grows.isVisible_eq (apart _ ancestor)]

theorem addsContract_of_addsContract {method : Method} {ancestor : TypeIndex}
    (member : ancestor ∈ world.ancestors index)
    (adds : world.addsContract index method ancestor = true) :
    more.addsContract index method ancestor = true := by
  unfold addsContract at adds ⊢
  simp only [List.any_eq_true, Bool.and_eq_true, Bool.not_eq_true', List.contains_eq_mem,
    decide_eq_false_iff_not, grows.methods_eq, grows.mem_allContracts_iff (apart ancestor member)]
    at adds ⊢
  obtain ⟨contract, own, rest⟩ := adds
  exact ⟨contract, grows.contracts_subset index own, rest⟩

/-- A method that was left to an ancestor is left to it still, unless a contract has come that the
ancestor lacks. -/
theorem risesTo_of_inherited {method : Method}
    (became : world.treatment index method = .inherited) :
    Treatment.inherited.RisesTo (more.treatment index method) := by
  obtain ⟨declarable, onValues, inherited, found, -⟩ := treatment_eq_inherited_iff.mp became
  have declarable := grows.isDeclarable_of_isDeclarable declarable
  rw [← grows.visibleInherited?_eq apart] at found
  cases adds : more.addsContract index method inherited.owner with
  | false =>
    rw [treatment_eq_inherited_iff.mpr ⟨declarable, onValues, inherited, found, adds⟩]
    exact .inherited
  | true =>
    have first : (more.visibleInherited? index method .exact).or
        (more.visibleInherited? index method .any) = some inherited := by
      rw [found, Option.some_or]
    rw [treatment_eq_redeclared_iff.mpr ⟨declarable, onValues, first, adds⟩]
    exact .inheritedBeside

/-- A method that was declared is declared still, beside an inherited one if a contract has come that
the ancestor lacks. -/
theorem risesTo_of_declared {method : Method}
    (became : world.treatment index method = .declared) :
    Treatment.declared.RisesTo (more.treatment index method) := by
  obtain ⟨declarable, searched⟩ := treatment_eq_declared_iff.mp became
  have declarable := grows.isDeclarable_of_isDeclarable declarable
  by_cases beside : method.isInstanceMember = true ∧
      ∃ inherited, more.visibleInherited? index method .any = some inherited ∧
        more.addsContract index method inherited.owner = true
  · obtain ⟨onValues, inherited, found, adds⟩ := beside
    have first : (more.visibleInherited? index method .exact).or
        (more.visibleInherited? index method .any) = some inherited := by
      rw [grows.visibleInherited?_eq apart, (searched onValues).1, Option.none_or, found]
    rw [treatment_eq_redeclared_iff.mpr ⟨declarable, onValues, first, adds⟩]
    exact .declaredBeside
  · rw [treatment_eq_declared_iff.mpr ⟨declarable, fun onValues => ⟨?_, fun inherited found => ?_⟩⟩]
    · exact .declared
    · rw [grows.visibleInherited?_eq apart, (searched onValues).1]
    · exact Bool.eq_false_iff.mpr fun adds => beside ⟨onValues, inherited, found, adds⟩

/-- A method that was declared beside an inherited one still is, and beside the same one. -/
theorem treatment_eq_redeclared {method : Method} {inherited : InheritedMethod}
    (became : world.treatment index method = .redeclared inherited) :
    more.treatment index method = .redeclared inherited := by
  obtain ⟨declarable, onValues, first, adds⟩ := treatment_eq_redeclared_iff.mp became
  obtain ⟨arity, isInherited⟩ := isInherited_of_treatment_eq_redeclared became
  refine treatment_eq_redeclared_iff.mpr ⟨grows.isDeclarable_of_isDeclarable declarable, onValues,
    ?_, grows.addsContract_of_addsContract apart isInherited.ancestor adds⟩
  rw [grows.visibleInherited?_eq apart, grows.visibleInherited?_eq apart, first]

/-- **No method is treated worse.** Both searches for an inherited method find what they found, and
a contract that an ancestor lacked is still one that it lacks. -/
theorem risesTo (method : Method) :
    (world.treatment index method).RisesTo (more.treatment index method) := by
  cases became : world.treatment index method with
  | skipped => exact .skipped
  | inherited => exact grows.risesTo_of_inherited apart became
  | declared => exact grows.risesTo_of_declared apart became
  | redeclared inherited =>
    rw [grows.treatment_eq_redeclared apart became]
    exact .redeclared

end Own

end GrowsAt

/-! ### What is written -/

/-- A method of the type that is called on values, has this name and takes so many parameters is
written. -/
def Writes (world : World) (index : TypeIndex) (name : String) (arity : Nat) : Prop :=
  ∃ method, world.IsWritten index method ∧ method.isInstanceMember = true ∧
    method.unqualifiedName = name ∧ method.arity = arity

/-- **One more interface takes no function away.** If none of the ancestors of a type leads to it,
it may name any further interface at any place: its methods are declared as they were or beside an
inherited one, those that were declared beside one stay beside it, and those that were left to an
ancestor may come back. So each name is still written with each number of parameters. -/
theorem further_interface_keeps {world : World} {index : TypeIndex}
    (apart : ∀ ancestor ∈ world.ancestors index, ¬ world.LeadsTo ancestor index) (position : Nat)
    (reference : TypeReference) :
    (∀ method, (world.treatment index method).RisesTo
      ((world.withInterface index position reference).treatment index method)) ∧
    ∀ name arity, world.Writes index name arity →
      (world.withInterface index position reference).Writes index name arity := by
  have grows := growsAt_withInterface world index position reference
  have rises := grows.risesTo apart
  refine ⟨rises, ?_⟩
  rintro name arity ⟨method, isWritten, onValues, named, counted⟩
  refine ⟨method, ⟨?_, ?_, ?_⟩, onValues, named, counted⟩
  · rw [grows.methods_eq]
    exact isWritten.declared
  · exact (rises method).ne_skipped isWritten.notSkipped
  · exact (rises method).ne_inherited isWritten.notSkipped isWritten.notInherited

/-! ### A contract that is asked for later -/

/-- A class that overrides a method of its base, and an interface that asks for this method through
another one. -/
def overridingTexts : List String :=
  ["assembly a namespace \x7b public interface I \x7b public method M(): X \x7d " ++
      "public interface J implements I \x7b \x7d " ++
      "public class A \x7b public method M(): X public method N(): X \x7d " ++
      "public class B extends A \x7b public method M(): X public method N(x: X): X \x7d \x7d"]

/-- The types of the listing. -/
def overridingWorld : World :=
  World.ofAssemblies (overridingTexts.map Listing.assemblyOf)

/-- The reference to the interface that asks for the method through another one. -/
def askingReference : TypeReference :=
  .named { space := "", name := "J" }

theorem overridingWorld_facts :
    (∀ text ∈ overridingTexts, (Listing.readAssembly text).isOk = true) ∧
      overridingWorld.target? askingReference = some 1 ∧
      (∀ ancestor ∈ overridingWorld.ancestors 3,
        3 ∉ overridingWorld.reached overridingWorld.parents ancestor) ∧
      ((overridingWorld.methods 3).any fun method =>
        overridingWorld.isDeclarable 3 method && overridingWorld.isSuperfluous 3 method &&
          !(overridingWorld.withInterface 3 0 askingReference).isSuperfluous 3 method) = true ∧
      ((overridingWorld.methods 3).any fun method =>
        overridingWorld.isDeclarable 3 method && !overridingWorld.isSuperfluous 3 method &&
          method.isInstanceMember && method.unqualifiedName = "N" && method.arity = 1) = true := by
  unfold overridingWorld
  rw [Listing.forall_isOk_iff, Listing.map_assemblyOf_eq]
  unfold overridingTexts
  simp only [List.map_cons, List.map_nil, String.toList_append]
  repeat rw [String.toList_ofList]
  decide +kernel

/-- A type that leads nowhere near the other one, as the walk from it tells. -/
theorem not_leadsTo_of_notMem_reached {world : World} {index ancestor : TypeIndex}
    (notMet : index ∉ world.reached world.parents ancestor) : ¬ world.LeadsTo ancestor index :=
  fun path => notMet ((mem_reached_iff fun _ => parents_eq_nil).mpr path)

/-- The overriding method comes back beside the inherited one, and the overload stays. -/
theorem further_interface_keeps_overriding :
    overridingWorld.target? askingReference = some 1 ∧
      (∀ ancestor ∈ overridingWorld.ancestors 3, ¬ overridingWorld.LeadsTo ancestor 3) ∧
      (∃ method ∈ overridingWorld.methods 3, overridingWorld.treatment 3 method = .inherited ∧
        ∃ ancestor, (overridingWorld.withInterface 3 0 askingReference).treatment 3 method =
          .redeclared ancestor) ∧
      overridingWorld.Writes 3 "N" 1 ∧
      (overridingWorld.withInterface 3 0 askingReference).Writes 3 "N" 1 := by
  obtain ⟨-, resolved, notMet, overridden, overload⟩ := overridingWorld_facts
  have apart : ∀ ancestor ∈ overridingWorld.ancestors 3, ¬ overridingWorld.LeadsTo ancestor 3 :=
    fun ancestor member => not_leadsTo_of_notMem_reached (notMet ancestor member)
  obtain ⟨rises, keeps⟩ := further_interface_keeps apart 0 askingReference
  simp only [List.any_eq_true, Bool.and_eq_true, Bool.not_eq_true'] at overridden
  simp only [List.any_eq_true, Bool.and_eq_true, Bool.not_eq_true', decide_eq_true_eq] at overload
  obtain ⟨method, member, ⟨declarable, superfluous⟩, notSuperfluous⟩ := overridden
  have inherited : overridingWorld.treatment 3 method = .inherited :=
    treatment_eq_inherited_iff_isSuperfluous.mpr ⟨declarable, superfluous⟩
  obtain ⟨other, otherMember, ⟨⟨⟨shown, needed⟩, onValues⟩, named⟩, counted⟩ := overload
  have written : overridingWorld.Writes 3 "N" 1 := by
    refine ⟨other, ⟨otherMember, fun skipped => ?_, fun left => ?_⟩, onValues, named, counted⟩
    · rw [treatment_eq_skipped_iff, shown] at skipped
      cases skipped
    · rw [treatment_eq_inherited_iff_isSuperfluous, needed] at left
      cases left.2
  refine ⟨resolved, apart, ⟨method, member, inherited, ?_⟩, written, keeps "N" 1 written⟩
  have rise := rises method
  rw [inherited] at rise
  generalize after : (overridingWorld.withInterface 3 0 askingReference).treatment 3 method =
    treatment at rise
  cases rise with
  | inherited =>
    rw [treatment_eq_inherited_iff_isSuperfluous, notSuperfluous] at after
    cases after.2
  | inheritedBeside => exact ⟨_, rfl⟩

end World

end ExternBindings
