/-
**Properties and events keep the positions of their accessors.**

The accessors of a property or event become methods of the type that declares it, and the member keeps
a position in the list of methods for each of them (a *slot*). Members of other kinds give methods to
the same list.

* `TypeDecl.slots` — the positions that the properties and events of a type keep, each with what the
  member says of the method there; `AccessorSlot.IsServedBy` — the method is as the slot demands;
* `AreFilled` — the slots are those of the accessors in a stretch of the list of methods. It holds of
  the slots of one member (`areFilled_accessors`), and of members one behind the other;
* `TypeDecl.KeepsAccessors` — the positions kept are those of the accessors, each kept once;
* `keepsAccessors_of_holds` — this holds of every type of an assembly that was read.
-/

import ExternBindings.Proofs.Listing.Accessors
import ExternBindings.Proofs.Listing.ReadAssembly
import Mathlib.Data.List.Nodup

namespace ExternBindings

/-! ### Slots -/

/-- A position that a property or event keeps for an accessor. -/
structure AccessorSlot where
  kind : AccessorKind
  position : Nat
  member : String
  type : TypeReference
  input : List Parameter
  span : Span

/-- The slots of a member that keeps these positions. -/
def slotsOf (kept : List (AccessorKind × Option Nat)) (member : String) (type : TypeReference)
    (input : List Parameter) (span : Span) : List AccessorSlot :=
  kept.filterMap fun entry => entry.2.map fun position =>
    { kind := entry.1, position, member, type, input, span }

/-- The slots of a property. -/
def Property.slots (property : Property) : List AccessorSlot :=
  slotsOf [(.getter, property.getter?), (.setter, property.setter?)] property.name property.type
    property.indexParameters property.span

/-- The slots of an event. -/
def Event.slots (event : Event) : List AccessorSlot :=
  slotsOf [(.adder, event.adder?), (.remover, event.remover?)] event.name event.handler [] event.span

/-- The slots of all properties and events of a type. -/
def TypeDecl.slots (decl : TypeDecl) : List AccessorSlot :=
  decl.properties.flatMap Property.slots ++ decl.events.flatMap Event.slots

/-- The method is the accessor that the slot stands for: it is called like the member, with the word
of its kind behind the last dot, and takes and gives what an accessor of this kind has to. -/
structure AccessorSlot.IsServedBy (slot : AccessorSlot) (method : Method) : Prop where
  role : method.role = .accessor slot.kind
  name : ∃ front? own, '.' ∉ own.toList ∧ slot.member = Text.behind "." front? own ∧
    method.name = Text.behind "." front? (Listing.nameWord slot.kind ++ own)
  span : method.span = slot.span
  parameters : method.parameters =
    if slot.kind = .getter then slot.input
    else slot.input ++ [{ name := "value", type := slot.type }]
  returns : method.returns = if slot.kind = .getter then slot.type else .primitive .void

/-- Whether the method is an accessor of a property or event. -/
def Method.isAccessor (method : Method) : Bool :=
  match method.role with
  | .accessor _ => true
  | .ordinary | .operator | .constructor => false

theorem Method.isAccessor_iff {method : Method} :
    method.isAccessor = true ↔ ∃ kind, method.role = .accessor kind := by
  unfold Method.isAccessor
  cases method.role <;> simp

/-- The positions that the properties and events of the type keep are all different, they are those of
the methods that are accessors, and each of these is as the slot that keeps it demands. -/
structure TypeDecl.KeepsAccessors (decl : TypeDecl) : Prop where
  nodup : (decl.slots.map AccessorSlot.position).Nodup
  mem_positions_iff : ∀ position, position ∈ decl.slots.map AccessorSlot.position ↔
    ∃ method kind, decl.methods[position]? = some method ∧ method.role = .accessor kind
  served : ∀ slot ∈ decl.slots, ∃ method, decl.methods[slot.position]? = some method ∧
    slot.IsServedBy method

namespace Listing

/-! ### The name of an accessor -/

theorem accessorName_behind (word : String) (front? : Option String) {own : String}
    (plain : '.' ∉ own.toList) :
    accessorName word (Text.behind "." front? own) = Text.behind "." front? (word ++ own) := by
  cases front? with
  | none => exact accessorName_of_plain plain word
  | some front => exact accessorName_of_dotted front plain word

/-! ### Slots that are filled -/

/-- The slots are those of the accessors among the methods, each method with its position. -/
structure AreFilled (slots : List AccessorSlot) (methods : List (Method × Nat)) : Prop where
  positions : (slots.map AccessorSlot.position).Perm
    ((methods.filter fun entry => entry.1.isAccessor).map Prod.snd)
  served : ∀ slot ∈ slots, ∃ method, (method, slot.position) ∈ methods ∧ slot.IsServedBy method

namespace AreFilled

variable {slots others : List AccessorSlot} {methods further : List (Method × Nat)}

theorem append (filled : AreFilled slots methods) (filledToo : AreFilled others further) :
    AreFilled (slots ++ others) (methods ++ further) where
  positions := by
    rw [List.map_append, List.filter_append, List.map_append]
    exact filled.positions.append filledToo.positions
  served := by
    rw [List.forall_mem_append]
    constructor
    · intro slot member
      obtain ⟨method, found, serves⟩ := filled.served slot member
      exact ⟨method, List.mem_append_left _ found, serves⟩
    · intro slot member
      obtain ⟨method, found, serves⟩ := filledToo.served slot member
      exact ⟨method, List.mem_append_right _ found, serves⟩

theorem perm (filled : AreFilled slots methods) (same : others.Perm slots) :
    AreFilled others methods where
  positions := (same.map _).trans filled.positions
  served slot member := filled.served slot (same.mem_iff.mp member)

/-- Without slots there must be no accessors. -/
theorem nil (none : ∀ entry ∈ methods, entry.1.isAccessor = false) : AreFilled [] methods where
  positions := by
    rw [List.filter_eq_nil_iff.mpr fun entry member => by simp [none entry member]]
    exact List.Perm.nil
  served _ member := absurd member List.not_mem_nil

end AreFilled

/-! ### The accessors of one member -/

/-- What the accessors of a member of this kind do for it. -/
def AccessorOwner.kinds : AccessorOwner → List AccessorKind
  | property => [.getter, .setter]
  | event => [.adder, .remover]

theorem mem_kinds_of_kindFor? {owner : AccessorOwner} {word : AccessorWord} {kind : AccessorKind}
    (found : word.kindFor? owner = some kind) : kind ∈ owner.kinds := by
  cases owner <;> cases word <;> cases found <;> decide

theorem kindFor?_inj {owner : AccessorOwner} {first second : AccessorWord} {kind : AccessorKind}
    (found : first.kindFor? owner = some kind) (foundToo : second.kindFor? owner = some kind) :
    first = second := by
  cases owner <;> cases first <;> cases found <;> cases second <;> cases foundToo <;> rfl

/-! ### The slots of one member -/

/-- Among methods with different roles, the first one with a role is the only one. -/
theorem accessorPosition?_eq_some_iff {offset position : Nat} {kind : AccessorKind}
    {methods : List Method} (nodup : (methods.map Method.role).Nodup) :
    accessorPosition? offset kind methods = some position ↔
      ∃ method, (method, position) ∈ methods.zipIdx offset ∧ method.role = .accessor kind := by
  unfold accessorPosition?
  simp only [Option.map_eq_some_iff, List.findIdx?_eq_some_iff_getElem, decide_eq_true_eq,
    List.mk_mem_zipIdx_iff_le_and_getElem?_sub]
  constructor
  · rintro ⟨index, ⟨within, role, -⟩, rfl⟩
    refine ⟨methods[index], ⟨Nat.le_add_right _ _, ?_⟩, role⟩
    rw [Nat.add_sub_cancel_left, List.getElem?_eq_getElem within]
  · rintro ⟨method, ⟨enough, found⟩, role⟩
    obtain ⟨within, rfl⟩ := List.getElem?_eq_some_iff.mp found
    refine ⟨position - offset, ⟨within, role, fun earlier before same => ?_⟩, by omega⟩
    have sooner : earlier < methods.length := Nat.lt_trans before within
    have equal : (methods.map Method.role)[earlier]? =
        (methods.map Method.role)[position - offset]? := by
      rw [List.getElem?_map, List.getElem?_map, List.getElem?_eq_getElem sooner, found,
        Option.map_some, Option.map_some, same, role]
    have index := (List.getElem?_inj (by rwa [List.length_map]) nodup).mp equal
    omega

section Slots

variable {kinds : List AccessorKind} {methods : List Method} {offset : Nat} {name : String}
  {type : TypeReference} {input : List Parameter} {span : Span}

theorem mem_slotsOf {slot : AccessorSlot} :
    slot ∈ slotsOf (kinds.map fun kind => (kind, accessorPosition? offset kind methods)) name type
        input span ↔
      ∃ kind ∈ kinds, ∃ position, accessorPosition? offset kind methods = some position ∧
        slot = { kind, position, member := name, type, input, span } := by
  unfold slotsOf
  simp only [List.filterMap_map, List.mem_filterMap, Function.comp_apply, Option.map_eq_some_iff,
    @eq_comm _ slot]

/-- The slots are filled if each method serves a slot of one of the kinds, and no two the same. -/
theorem areFilled_slotsOf (apart : kinds.Nodup) (nodup : (methods.map Method.role).Nodup)
    (serves : ∀ method ∈ methods, ∃ kind ∈ kinds, ∀ position, AccessorSlot.IsServedBy
      { kind, position, member := name, type, input, span } method) :
    AreFilled
      (slotsOf (kinds.map fun kind => (kind, accessorPosition? offset kind methods)) name type input
        span) (methods.zipIdx offset) where
  positions := by
    have kept : (slotsOf (kinds.map fun kind => (kind, accessorPosition? offset kind methods)) name
        type input span).map AccessorSlot.position =
          kinds.filterMap fun kind => accessorPosition? offset kind methods := by
      simp [slotsOf, List.map_filterMap, List.filterMap_map, Function.comp_def]
    have all : (methods.zipIdx offset).filter (fun entry => entry.1.isAccessor) =
        methods.zipIdx offset := by
      rw [List.filter_eq_self]
      rintro ⟨method, position⟩ member
      obtain ⟨kind, -, served⟩ := serves method (List.fst_mem_of_mem_zipIdx member)
      exact Method.isAccessor_iff.mpr ⟨kind, (served position).role⟩
    have different : (kinds.filterMap fun kind => accessorPosition? offset kind methods).Nodup := by
      refine apart.filterMap fun first second position found foundToo => ?_
      obtain ⟨method, listed, role⟩ := (accessorPosition?_eq_some_iff nodup).mp found
      obtain ⟨other, listedToo, roleToo⟩ := (accessorPosition?_eq_some_iff nodup).mp foundToo
      rw [List.mk_mem_zipIdx_iff_le_and_getElem?_sub] at listed listedToo
      rw [listed.2, Option.some.injEq] at listedToo
      rw [listedToo.2, roleToo] at role
      exact (MethodRole.accessor.inj role).symm
    rw [kept, all]
    refine (List.perm_ext_iff_of_nodup different ?_).mpr fun position => ?_
    · rw [List.zipIdx_map_snd]
      exact List.nodup_range' _
    · simp only [List.mem_filterMap, accessorPosition?_eq_some_iff nodup, List.mem_map]
      constructor
      · rintro ⟨kind, -, method, listed, -⟩
        exact ⟨_, listed, rfl⟩
      · rintro ⟨⟨method, position⟩, listed, rfl⟩
        obtain ⟨kind, isKind, served⟩ := serves method (List.fst_mem_of_mem_zipIdx listed)
        exact ⟨kind, isKind, method, listed, (served position).role⟩
  served := by
    intro slot member
    obtain ⟨kind, -, position, found, rfl⟩ := mem_slotsOf.mp member
    obtain ⟨method, listed, role⟩ := (accessorPosition?_eq_some_iff nodup).mp found
    obtain ⟨other, -, served⟩ := serves method (List.fst_mem_of_mem_zipIdx listed)
    have same := (served position).role
    rw [role] at same
    cases MethodRole.accessor.inj same
    exact ⟨method, listed, served position⟩

end Slots

section Block

variable {owner : AccessorOwner} {member : MemberNode} {name : String} {type : TypeReference}
  {input : List Parameter} {accessors : List AccessorNode}

/-- Every method of an accessor is one, of a kind that its member can have. -/
theorem exists_of_mem_accessorMethods {method : Method}
    (declared : method ∈ accessorMethods owner member name type input accessors) :
    ∃ node, ∃ kind ∈ owner.kinds, method = accessorMethod member name type input node kind := by
  obtain ⟨node, -, found⟩ := List.mem_filterMap.mp declared
  obtain ⟨kind, isKind, rfl⟩ := Option.map_eq_some_iff.mp found
  exact ⟨node, kind, mem_kinds_of_kindFor? isKind, rfl⟩

/-- Accessors with different words do different things for their member. -/
theorem nodup_roles (nodup : (accessors.map AccessorNode.word).Nodup) :
    ((accessorMethods owner member name type input accessors).map Method.role).Nodup := by
  have roles : (accessorMethods owner member name type input accessors).map Method.role =
      ((accessors.map AccessorNode.word).filterMap (AccessorWord.kindFor? owner)).map
        MethodRole.accessor := by
    unfold accessorMethods
    rw [List.map_filterMap, List.filterMap_map, List.map_filterMap]
    simp only [Option.map_map, Function.comp_def]
    rfl
  rw [roles]
  refine List.Nodup.map (fun _ _ => MethodRole.accessor.inj) (nodup.filterMap ?_)
  exact fun first second kind found foundToo => kindFor?_inj found foundToo

/-- **The slots of a member are those of its accessors.** -/
theorem areFilled_accessors (offset : Nat) (nodup : (accessors.map AccessorNode.word).Nodup) :
    AreFilled
      (slotsOf (owner.kinds.map fun kind => (kind, accessorPosition? offset kind
        (accessorMethods owner member name type input accessors))) name type input member.span)
      ((accessorMethods owner member name type input accessors).zipIdx offset) := by
  have apart : owner.kinds.Nodup := by cases owner <;> decide
  refine areFilled_slotsOf apart (nodup_roles nodup) fun method declared => ?_
  obtain ⟨node, kind, isKind, rfl⟩ := exists_of_mem_accessorMethods declared
  obtain ⟨front?, own, plain, written⟩ := Text.exists_behind (by rfl : ".".toList = ['.']) name
  refine ⟨kind, isKind, fun position => ⟨rfl, ⟨front?, own, plain, written, ?_⟩, rfl, rfl, rfl⟩⟩
  rw [written]
  exact accessorName_behind _ front? plain

end Block

/-- The slots of what a member declares, if it is a property or event. -/
def MemberNode.slots (offset : Nat) (member : MemberNode) : List AccessorSlot :=
  (member.property? offset).toList.flatMap Property.slots ++
    (member.event? offset).toList.flatMap Event.slots

/-- **The slots of a member are those of its accessors**, whatever kind of member it is. -/
theorem areFilled_member (offset : Nat) {member : MemberNode} (unfaulty : member.fault? = none) :
    AreFilled (member.slots offset) (member.methods.zipIdx offset) := by
  obtain ⟨modifiers, body, span⟩ := member
  cases body with
  | field => exact AreFilled.nil fun _ none => absurd none List.not_mem_nil
  | property name type indexParameters accessors =>
    have proper := (@AccessorBlock.fault?_eq_none_iff ⟨.property, name, accessors⟩).mp unfaulty
    have filled := @areFilled_accessors .property ⟨modifiers, .property name type indexParameters
      accessors, span⟩ name type indexParameters accessors offset proper.nodup
    have slots : MemberNode.slots offset ⟨modifiers, .property name type indexParameters accessors,
        span⟩ = slotsOf _ name type indexParameters span ++ [] ++ [] := rfl
    rw [slots, List.append_nil, List.append_nil]
    exact filled
  | event name handler accessors =>
    have proper := (@AccessorBlock.fault?_eq_none_iff ⟨.event, name, accessors⟩).mp unfaulty
    have filled := @areFilled_accessors .event ⟨modifiers, .event name handler accessors, span⟩ name
      handler [] accessors offset proper.nodup
    have slots : MemberNode.slots offset ⟨modifiers, .event name handler accessors, span⟩ =
        slotsOf _ name handler [] span ++ [] := rfl
    rw [slots, List.append_nil]
    exact filled
  | constructor parameters =>
    refine AreFilled.nil fun entry member => ?_
    rw [List.mem_singleton.mp member]
    rfl
  | method name genericParameters parameters returns =>
    refine AreFilled.nil fun entry member => ?_
    rw [List.mem_singleton.mp member, Bool.eq_false_iff]
    intro serves
    obtain ⟨kind, role⟩ := Method.isAccessor_iff.mp serves
    have ordinary : (if Modifier.operator ∈ modifiers then MethodRole.operator else .ordinary) =
        .accessor kind := role
    split at ordinary <;> cases ordinary

/-! ### The slots of a type -/

/-- **Members one behind the other fill the slots of their type.** -/
theorem areFilled_members : ∀ (offset : Nat) {members : List MemberNode},
    (∀ member ∈ members, member.fault? = none) →
      AreFilled
        ((collectFrom MemberNode.property? offset members).flatMap Property.slots ++
          (collectFrom MemberNode.event? offset members).flatMap Event.slots)
        ((members.flatMap MemberNode.methods).zipIdx offset)
  | _, [], _ => AreFilled.nil fun _ none => absurd none List.not_mem_nil
  | offset, member :: rest, unfaulty => by
    rw [List.forall_mem_cons] at unfaulty
    have own := areFilled_member offset unfaulty.1
    have others := areFilled_members (offset + member.methods.length) unfaulty.2
    rw [List.flatMap_cons, List.zipIdx_append]
    refine (own.append others).perm ?_
    simp only [collectFrom, List.flatMap_append, MemberNode.slots, List.append_assoc]
    exact (List.perm_append_comm_assoc _ _ _).append_left _

/-- The declaration that a tree comes from has no fault, if its listing has none. -/
theorem exists_unfaulty {text : String} {file? : Option String} {assembly : Assembly}
    (read : readAssembly text file? = .ok assembly) {owner? : Option TypeDecl} {tree : TypeTree}
    (holds : assembly.Holds owner? tree) :
    ∃ node place, TypeNode.fault? node = none ∧ tree = node.tree place ∧
      ∀ own, (place own).name = own := by
  refine exists_node_of_holds read ?_ (fun _ _ node unfaulty inContent => ?_) holds
  · intro listing _ unfaulty block blockMember node nodeMember
    have unfaultyBlock := List.findSome?_eq_none_iff.mp unfaulty block blockMember
    exact List.findSome?_eq_none_iff.mp unfaultyBlock node nodeMember
  · exact faultIn?_eq_none_iff.mp unfaulty _ inContent

/-- The slots of a type are filled by its methods. -/
theorem areFilled_of_holds {text : String} {file? : Option String} {assembly : Assembly}
    (read : readAssembly text file? = .ok assembly) {owner? : Option TypeDecl} {tree : TypeTree}
    (holds : assembly.Holds owner? tree) :
    AreFilled tree.decl.slots tree.decl.methods.zipIdx := by
  obtain ⟨⟨header, content⟩, place, unfaulty, rfl, -⟩ := exists_unfaulty read holds
  have members : ∀ member ∈ content.filterMap Sum.getRight?, member.fault? = none :=
    fun _ inMembers => faultIn?_eq_none_iff.mp unfaulty _ (inr_mem_of_mem_members inMembers)
  exact areFilled_members 0 members

/-- A type whose slots are filled by its methods keeps its accessors. -/
theorem AreFilled.keepsAccessors {decl : TypeDecl}
    (filled : AreFilled decl.slots decl.methods.zipIdx) : decl.KeepsAccessors where
  nodup := by
    refine filled.positions.nodup_iff.mpr (List.Nodup.sublist (List.filter_sublist.map _) ?_)
    rw [List.zipIdx_map_snd]
    exact List.nodup_range' _
  mem_positions_iff position := by
    rw [filled.positions.mem_iff]
    simp only [List.mem_map, List.mem_filter, Prod.exists, exists_eq_right,
      List.mk_mem_zipIdx_iff_getElem?, Method.isAccessor_iff, exists_and_left]
  served slot member := by
    obtain ⟨method, found, serves⟩ := filled.served slot member
    exact ⟨method, List.mk_mem_zipIdx_iff_getElem?.mp found, serves⟩

/-- **The positions that properties and events keep are those of the accessors**, in every type of an
assembly that was read. -/
theorem keepsAccessors_of_holds {text : String} {file? : Option String} {assembly : Assembly}
    (read : readAssembly text file? = .ok assembly) {owner? : Option TypeDecl} {tree : TypeTree}
    (holds : assembly.Holds owner? tree) : tree.decl.KeepsAccessors :=
  (areFilled_of_holds read holds).keepsAccessors

/-- A type inside of another one, with a property that is set before it is got, an indexer and an event
among methods and a constructor. -/
def slotText : String :=
  "assembly a namespace N \x7b class O \x7b class I \x7b method M(): X " ++
    "property A.P : X \x7b set; get; \x7d ctor() event E : X \x7b remove; \x7d " ++
    "property Q : X[] [i : X] \x7b set; \x7d \x7d \x7d \x7d"

theorem slotText_facts :
    (readAssembly slotText).isOk = true ∧
      ∃ tree ∈ (assemblyOf slotText).types, ∃ child ∈ tree.inner,
        child.decl.slots.map (fun slot => (slot.kind, slot.position)) =
            [(.getter, 2), (.setter, 1), (.setter, 5), (.remover, 4)] ∧
          child.decl.methods.map Method.name =
            ["M", "A.set_P", "A.get_P", ".ctor", "remove_E", "set_Q"] := by
  rw [readAssembly_eq, assemblyOf_eq]
  unfold slotText
  simp only [String.toList_append]
  repeat rw [String.toList_ofList]
  decide +kernel

/-- The slots of a type inside of another one, and the methods that they are for. -/
theorem keepsAccessors_inner :
    ∃ assembly, readAssembly slotText = .ok assembly ∧
      ∃ owner tree, assembly.Holds (some owner) tree ∧
        tree.decl.slots.map (fun slot => (slot.kind, slot.position)) =
          [(.getter, 2), (.setter, 1), (.setter, 5), (.remover, 4)] ∧
        tree.decl.methods.map Method.name =
          ["M", "A.set_P", "A.get_P", ".ctor", "remove_E", "set_Q"] ∧
        tree.decl.KeepsAccessors := by
  obtain ⟨answered, tree, member, child, childMember, slots, methods⟩ := slotText_facts
  have read := readAssembly_assemblyOf answered
  have holds := Assembly.Holds.inner (Assembly.Holds.top member) childMember
  exact ⟨_, read, _, child, holds, slots, methods, keepsAccessors_of_holds read holds⟩

end Listing

end ExternBindings
