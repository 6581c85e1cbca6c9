/-
**The methods of a type in another order.**

The methods of one type may be listed in any order, while its properties and events keep naming the
same accessors. The type itself treats each of its methods as before, since it looks for inherited
ones among its ancestors only. Other types look at its methods one after the other if they inherit
from it, and take the first that answers to a name.

* `itemsAt` — a list in another order; `TypeDecl.reordered`, `World.reordered` — a declaration with
  its methods in that order, and the world with this declaration. Its properties and events have the
  accessors that they had (`TypeDecl.accessor?_reordered`);
* `World.IsReordered` — what that changes: the order of the methods of that type
  (`isReordered_reordered`);
* `IsReordered.treatment_eq` — a type that does not inherit from it treats every method as before;
* `IsReordered.mem_callableNames_iff` — and the names that its own methods must not have stay the
  same, if nothing that it inherits from or implements inherits from it in turn.
-/

import Mathlib.Data.List.Perm.Basic
import ExternBindings.Proofs.World.AncestralLine
import ExternBindings.Proofs.World.Modified
import ExternBindings.Proofs.World.Treatment

namespace ExternBindings

/-! ### Lists in another order -/

section Order

variable {α : Type} {items : List α} {order : List Nat}

/-- The items at these positions, in this order. -/
def itemsAt (items : List α) (order : List Nat) : List α :=
  order.filterMap fun position => items[position]?

/-- Where each position has an item, the items stand as the positions do. -/
theorem getElem?_itemsAt_of_forall_lt (inside : ∀ position ∈ order, position < items.length)
    (place : Nat) : (itemsAt items order)[place]? = order[place]?.bind (items[·]?) := by
  unfold itemsAt
  induction order generalizing place with
  | nil => rfl
  | cons position rest hypothesis =>
    rw [List.forall_mem_cons] at inside
    rw [List.filterMap_cons, List.getElem?_eq_getElem inside.1]
    cases place with
    | zero =>
      rw [List.getElem?_cons_zero, List.getElem?_cons_zero, Option.bind_some,
        List.getElem?_eq_getElem inside.1]
    | succ place =>
      rw [List.getElem?_cons_succ, List.getElem?_cons_succ]
      exact hypothesis inside.2 place

theorem itemsAt_range (items : List α) : itemsAt items (List.range items.length) = items := by
  refine List.ext_getElem? fun place => ?_
  rw [getElem?_itemsAt_of_forall_lt fun position member => List.mem_range.mp member]
  by_cases inside : place < items.length
  · rw [List.getElem?_range inside, Option.bind_some]
  · rw [List.getElem?_eq_none (by simpa using inside), Option.bind_none,
      List.getElem?_eq_none (Nat.not_lt.mp inside)]

/-- **All positions in another order give all items in another order.** -/
theorem itemsAt_perm (isOrder : order.Perm (List.range items.length)) :
    (itemsAt items order).Perm items := by
  have moved := isOrder.filterMap fun position => items[position]?
  exact moved.trans (List.Perm.of_eq (itemsAt_range items))

/-- Each item stands where its old position does. -/
theorem getElem?_itemsAt (isOrder : order.Perm (List.range items.length)) (position : Nat) :
    (itemsAt items order)[order.idxOf position]? = items[position]? := by
  have mem_iff : ∀ other, other ∈ order ↔ other < items.length :=
    fun other => isOrder.mem_iff.trans List.mem_range
  rw [getElem?_itemsAt_of_forall_lt fun other member => (mem_iff other).mp member]
  by_cases inside : position < items.length
  · rw [List.getElem?_idxOf ((mem_iff position).mpr inside), Option.bind_some]
  · rw [List.idxOf_eq_length fun member => inside ((mem_iff position).mp member),
      List.getElem?_eq_none (Nat.le_refl _), Option.bind_none,
      List.getElem?_eq_none (Nat.not_lt.mp inside)]

end Order

/-! ### Declarations -/

/-- The property whose accessors have moved. -/
def Property.renumbered (property : Property) (order : List Nat) : Property :=
  { property with
    getter? := property.getter?.map order.idxOf
    setter? := property.setter?.map order.idxOf }

/-- The event whose accessors have moved. -/
def Event.renumbered (event : Event) (order : List Nat) : Event :=
  { event with
    adder? := event.adder?.map order.idxOf
    remover? := event.remover?.map order.idxOf }

/-- The declaration with its methods in another order, and with the positions of accessors changed
accordingly. -/
def TypeDecl.reordered (decl : TypeDecl) (order : List Nat) : TypeDecl :=
  { decl with
    methods := itemsAt decl.methods order
    properties := decl.properties.map fun property => property.renumbered order
    events := decl.events.map fun event => event.renumbered order }

/-- **The positions that properties and events keep lead to the same accessors.** -/
theorem TypeDecl.accessor?_reordered {decl : TypeDecl} {order : List Nat}
    (isOrder : order.Perm (List.range decl.methods.length)) (position? : Option Nat) :
    (decl.reordered order).accessor? (position?.map order.idxOf) = decl.accessor? position? := by
  unfold accessor?
  rw [Option.bind_map]
  congr 1
  funext position
  exact getElem?_itemsAt isOrder position

/-- The entry of the declaration with its methods in another order. -/
def Entry.reordered (entry : Entry) (order : List Nat) : Entry :=
  { entry with decl := entry.decl.reordered order }

namespace World

/-- The world in which one type lists its methods in another order. -/
def reordered (world : World) (index : TypeIndex) (order : List Nat) : World :=
  world.modified index fun entry => entry.reordered order

theorem decl?_reordered {world : World} {index : TypeIndex} {decl : TypeDecl} (order : List Nat)
    (found : world.decl? index = some decl) :
    (world.reordered index order).decl? index = some (decl.reordered order) := by
  obtain ⟨entry, entryFound, rfl⟩ := Option.map_eq_some_iff.mp found
  unfold decl? reordered
  rw [entry?_modified, entryFound, Option.map_some, if_pos rfl]
  rfl

theorem flatName_reordered (world : World) (index : TypeIndex) (order : List Nat)
    (name : QualifiedName) (arguments? : Option Nat) :
    (world.reordered index order).flatName name arguments? = world.flatName name arguments? := by
  unfold reordered
  refine flatName_modified ?_ ?_ ?_ ?_ name arguments? <;> exact fun _ => rfl

/-- No type is one of its own ancestors, even if it inherits from itself. -/
theorem notMem_ancestors {world : World} (index : TypeIndex) : index ∉ world.ancestors index := by
  obtain ⟨-, -, unseen, -⟩ := climbs_iff.mp (climbs_ancestors world index)
  exact fun member => unseen index member (List.mem_singleton_self index)

/-- One type may list its methods in another order; all else that treatments depend on is as
before. -/
structure IsReordered (other world : World) (index : TypeIndex) : Prop where
  ancestors_eq : other.ancestors = world.ancestors
  contracts_eq : other.contracts = world.contracts
  allContracts_eq : other.allContracts = world.allContracts
  methods_perm : (other.methods index).Perm (world.methods index)
  methods_eq : ∀ type, index ≠ type → other.methods type = world.methods type

theorem isReordered_reordered {world : World} {index : TypeIndex} {decl : TypeDecl}
    {order : List Nat} (found : world.decl? index = some decl)
    (isOrder : order.Perm (List.range decl.methods.length)) :
    (world.reordered index order).IsReordered world index := by
  have base : (world.reordered index order).base? = world.base? :=
    base?_modified (fun _ => rfl) fun _ => rfl
  have implements : (world.reordered index order).implemented = world.implemented :=
    implemented_modified (fun _ => rfl) fun _ => rfl
  have publics : (world.reordered index order).isPublicInterface = world.isPublicInterface :=
    isPublicInterface_modified fun _ => rfl
  have parents : (world.reordered index order).parents = world.parents := by
    unfold World.parents
    rw [base, implements]
  have reaches : (world.reordered index order).interfacesReached = world.interfacesReached := by
    unfold interfacesReached reached linkCount
    rw [publics, reordered, indices_modified]
  refine ⟨ancestors_modified (fun _ => rfl) fun _ => rfl, ?_, ?_, ?_, fun type differs =>
    methods_modified_of_ne differs⟩
  · unfold contracts
    rw [reaches, implements]
  · unfold allContracts
    rw [reaches, parents]
  · unfold methods
    rw [decl?_reordered order found, found]
    exact itemsAt_perm isOrder

namespace IsReordered

variable {other world : World} {index type : TypeIndex} {method : Method}
  (isReordered : other.IsReordered world index)

include isReordered

/-- No type has got or lost a method. -/
theorem methods_perm_all (type : TypeIndex) : (other.methods type).Perm (world.methods type) := by
  by_cases same : index = type
  · exact same ▸ isReordered.methods_perm
  · exact List.Perm.of_eq (isReordered.methods_eq type same)

theorem mem_methods_iff : method ∈ other.methods type ↔ method ∈ world.methods type :=
  (isReordered.methods_perm_all type).mem_iff

/-! ### What does not depend on the order -/

theorem isRequired_eq (owner : TypeIndex) (method : Method) :
    other.isRequired owner method = world.isRequired owner method := by
  unfold isRequired requiredNames
  rw [isReordered.contracts_eq, decide_eq_decide]
  simp only [List.mem_flatMap, List.mem_map, isReordered.mem_methods_iff]

theorem isVisible_eq (owner : TypeIndex) (method : Method) :
    other.isVisible owner method = world.isVisible owner method := by
  unfold isVisible
  rw [isReordered.isRequired_eq]

theorem isDeclarable_eq (owner : TypeIndex) (method : Method) :
    other.isDeclarable owner method = world.isDeclarable owner method := by
  unfold isDeclarable
  rw [isReordered.isVisible_eq]

theorem addsContract_eq (owner : TypeIndex) (method : Method) (ancestor : TypeIndex) :
    other.addsContract owner method ancestor = world.addsContract owner method ancestor := by
  unfold addsContract
  rw [isReordered.contracts_eq, isReordered.allContracts_eq, Bool.eq_iff_iff]
  simp only [List.any_eq_true, Bool.and_eq_true, isReordered.mem_methods_iff]

/-! ### Types that do not inherit from it -/

section Apart

variable (apart : index ∉ world.ancestors type)

include apart

/-- The search for an inherited method finds what it found. -/
theorem visibleInherited?_eq (method : Method) (arity : ArityRule) :
    other.visibleInherited? type method arity = world.visibleInherited? type method arity := by
  have inherited : other.inheritedMethods type = world.inheritedMethods type := by
    unfold inheritedMethods
    rw [isReordered.ancestors_eq]
    refine List.flatMap_congr fun ancestor member => ?_
    rw [isReordered.methods_eq ancestor fun same => apart (same ▸ member)]
  unfold visibleInherited? nearestInherited?
  simp only [inherited, isReordered.isVisible_eq]

/-- **A type that does not inherit from it treats every method as before.** -/
theorem treatment_eq (method : Method) :
    other.treatment type method = world.treatment type method := by
  unfold treatment
  simp only [isReordered.isDeclarable_eq, isReordered.visibleInherited?_eq apart,
    isReordered.addsContract_eq]

theorem isSuperfluous_eq (method : Method) :
    other.isSuperfluous type method = world.isSuperfluous type method := by
  unfold isSuperfluous
  simp only [isReordered.visibleInherited?_eq apart, isReordered.addsContract_eq]

theorem mem_ownCallableNames_iff {name : String} :
    name ∈ other.ownCallableNames type ↔ name ∈ world.ownCallableNames type := by
  unfold ownCallableNames
  simp only [isReordered.isSuperfluous_eq apart]
  exact (((isReordered.methods_perm_all type).filter _).map _).mem_iff

end Apart

/-- **The names that can be called on a value of the type stay the same**, if nothing that it
inherits from or implements inherits from it in turn. -/
theorem mem_callableNames_iff
    (apart : ∀ owner ∈ world.ancestors index ++ world.allContracts index,
      index ∉ world.ancestors owner) {name : String} :
    name ∈ other.callableNames index ↔ name ∈ world.callableNames index := by
  unfold callableNames
  rw [isReordered.ancestors_eq, isReordered.allContracts_eq, List.mem_flatMap, List.mem_flatMap]
  refine exists_congr fun owner => and_congr_right fun member => ?_
  refine isReordered.mem_ownCallableNames_iff ?_
  rcases List.mem_cons.mp member with rfl | related
  · exact notMem_ancestors owner
  · exact apart owner related

end IsReordered

end World

end ExternBindings
