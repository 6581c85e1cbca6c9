/-
**Sound declarations.**

Everything behind the reading of a listing relies on what is shown here of the types that a listing
declares.

* `TypeReference.IsReadable` — a reference is read again from its own written form;
* `TypeDecl.IsSound` — names are spelled as their kind demands, an enumeration is sealed, a
  parameter that is written to is passed by reference, only constructors are called like
  constructors, and all references are readable;
* `isSound_decl` — a well-formed type declaration declares a sound type.
-/

import ExternBindings.Listing.Meaning
import ExternBindings.Proofs.Listing.RoundTrip
import ExternBindings.Proofs.Listing.WellFormed
import ExternBindings.Proofs.Metadata.Mentions

namespace ExternBindings

/-! ### Readable references -/

namespace TypeReference

/-- All names follow the rules, and each part is read again from its own written form, unless an array
in it has no dimension. -/
structure IsReadable (reference : TypeReference) : Prop where
  wellNamed : reference.IsWellNamed
  parts : ∀ part : TypeReference, part.IsPartOf reference →
    (Listing.readTypeReference part.text = .ok part ↔ 0 ∉ part.ranks)

theorem IsCanonical.isReadable {reference : TypeReference} (canonical : reference.IsCanonical) :
    reference.IsReadable where
  wellNamed := canonical.wellNamed
  parts _ isPart := Listing.readTypeReference_text_iff (canonical.part isPart)

end TypeReference

/-! ### Sound declarations -/

/-- The name is an identifier, the type is readable, and what is written to is passed by
reference. -/
structure Parameter.IsSound (parameter : Parameter) : Prop where
  name : isIdentifier parameter.name = true
  type : parameter.type.IsReadable
  byRef : parameter.isOut = true → ∃ element, parameter.type = .indirect .byRef element

/-- The name is an identifier and the type is readable. -/
structure Field.IsSound (field : Field) : Prop where
  name : isIdentifier field.name = true
  type : field.type.IsReadable

/-- The name is dotted, and the type and the parameters are as they should be. -/
structure Property.IsSound (property : Property) : Prop where
  name : isDottedName property.name = true
  type : property.type.IsReadable
  indexParameters : ∀ parameter ∈ property.indexParameters, parameter.IsSound

/-- The name is dotted and the type of handlers is readable. -/
structure Event.IsSound (event : Event) : Prop where
  name : isDottedName event.name = true
  handler : event.handler.IsReadable

/-- Constructors, and no other methods, are called `.ctor` or, if they are static, `.cctor`; they
have no type parameters and serve no property or event. All other names are dotted. -/
structure Method.IsSound (method : Method) : Prop where
  constructs : method.isConstructor = true ↔ method.name = ".ctor" ∨ method.name = ".cctor"
  ofType : method.isConstructor = true → (method.name = ".cctor" ↔ method.isStatic = true)
  notAccessor : method.isConstructor = true → ∀ kind, method.role ≠ .accessor kind
  notGeneric : method.isConstructor = true → method.genericParameters = []
  name : method.isConstructor = false → isDottedName method.name = true
  genericParameters : ∀ generic ∈ method.genericParameters, isIdentifier generic = true
  parameters : ∀ parameter ∈ method.parameters, parameter.IsSound
  returns : method.returns.IsReadable

/-- The type and its own members are as they should be. -/
structure TypeDecl.IsSound (decl : TypeDecl) : Prop where
  space : decl.name.space = "" ∨ isDottedName decl.name.space = true
  name : isIdentifier decl.name.name = true
  closed : decl.isEnum = true → decl.isSealed = true
  genericParameters : ∀ generic ∈ decl.genericParameters, isIdentifier generic = true
  base : ∀ base ∈ decl.base?, base.IsReadable
  interfaces : ∀ type ∈ decl.interfaces, type.IsReadable
  fields : ∀ field ∈ decl.fields, field.IsSound
  properties : ∀ property ∈ decl.properties, property.IsSound
  events : ∀ event ∈ decl.events, event.IsSound
  methods : ∀ method ∈ decl.methods, method.IsSound

/-- All references in a sound declaration are readable. -/
theorem TypeDecl.IsSound.isReadable {decl : TypeDecl} (sound : decl.IsSound) :
    ∀ reference ∈ decl.references, reference.IsReadable := by
  have parameters : ∀ {parameters : List Parameter}, (∀ parameter ∈ parameters, parameter.IsSound) →
      ∀ reference ∈ parameters.map Parameter.type, reference.IsReadable := by
    intro parameters sound reference member
    obtain ⟨parameter, parameterMember, rfl⟩ := List.mem_map.mp member
    exact (sound parameter parameterMember).type
  unfold TypeDecl.references
  simp only [List.forall_mem_append]
  refine ⟨⟨⟨⟨⟨?base, sound.interfaces⟩, ?fields⟩, ?properties⟩, ?events⟩, ?methods⟩
  case base => exact fun reference member => sound.base reference (Option.mem_toList.mp member)
  case fields =>
    intro reference member
    obtain ⟨field, fieldMember, rfl⟩ := List.mem_map.mp member
    exact (sound.fields field fieldMember).type
  case properties =>
    intro reference member
    obtain ⟨property, propertyMember, held⟩ := List.mem_flatMap.mp member
    have propertySound := sound.properties property propertyMember
    rcases List.mem_cons.mp held with rfl | held
    · exact propertySound.type
    · exact parameters propertySound.indexParameters reference held
  case events =>
    intro reference member
    obtain ⟨event, eventMember, rfl⟩ := List.mem_map.mp member
    exact (sound.events event eventMember).handler
  case methods =>
    intro reference member
    obtain ⟨method, methodMember, held⟩ := List.mem_flatMap.mp member
    have methodSound := sound.methods method methodMember
    rcases List.mem_append.mp held with held | held
    · exact parameters methodSound.parameters reference held
    · rw [List.mem_singleton.mp held]
      exact methodSound.returns

namespace Listing

/-! ### Names of methods -/

theorem isWord_append {front back : List Char} (spelled : isWord front = true)
    (chars : ∀ char ∈ back, isWordChar char = true) : isWord (front ++ back) = true := by
  cases front with
  | nil => cases spelled
  | cons first rest =>
    simp only [isWord, Bool.and_eq_true, List.all_eq_true] at spelled
    simp only [List.cons_append, isWord, List.all_append, Bool.and_eq_true, List.all_eq_true]
    exact ⟨spelled.1, spelled.2, chars⟩

theorem isIdentifier_nameWord {name : String} (identifier : isIdentifier name = true)
    (kind : AccessorKind) : isIdentifier (nameWord kind ++ name) = true := by
  obtain ⟨word, marker, spelled, marked, written⟩ := exists_word_marker identifier
  have start : isWord (nameWord kind).toList = true := by
    cases kind <;> decide
  have whole := isIdentifier_append
    (isWord_append start (forall_isWordChar_of_isWord spelled)) marked
  rwa [List.append_assoc, ← written, ← String.toList_append, String.ofList_toList] at whole

theorem accessorName_of_plain {name : String} (plain : '.' ∉ name.toList) (word : String) :
    accessorName word name = word ++ name := by
  unfold accessorName
  rw [Text.splitLast_eq_none_iff.mpr plain]

theorem accessorName_of_dotted (owner : String) {name : String} (plain : '.' ∉ name.toList)
    (word : String) : accessorName word (owner ++ "." ++ name) = owner ++ "." ++ (word ++ name) := by
  have written : (owner ++ "." ++ name).toList = owner.toList ++ '.' :: name.toList := by
    simp [String.toList_append]
  unfold accessorName
  rw [written, Text.splitLast_append owner.toList plain]
  simp [String.append_assoc]

/-- **The name of an accessor is dotted** like that of its property or event. -/
theorem isDottedName_accessorName {name : String} (dotted : isDottedName name = true)
    (kind : AccessorKind) : isDottedName (accessorName (nameWord kind) name) = true := by
  obtain ⟨parts, last, segments⟩ : ∃ parts last, Text.segments '.' name = parts ++ [last] :=
    ⟨_, _, (List.dropLast_concat_getLast (Text.segments_ne_nil '.' name)).symm⟩
  have spelled : ∀ part ∈ parts ++ [last], isIdentifier part = true := by
    rw [← segments]
    exact List.all_eq_true.mp dotted
  rw [List.forall_mem_append, List.forall_mem_singleton] at spelled
  have plain : '.' ∉ last.toList := not_mem_identifier spelled.2 (by decide)
  have renamed : ∀ part ∈ parts ++ [nameWord kind ++ last], isIdentifier part = true := by
    rw [List.forall_mem_append, List.forall_mem_singleton]
    exact ⟨spelled.1, isIdentifier_nameWord spelled.2 kind⟩
  have result : accessorName (nameWord kind) name =
      Text.join "." (parts ++ [nameWord kind ++ last]) := by
    rw [← Text.join_segments (by rfl : ".".toList = ['.']) name, segments]
    by_cases alone : parts = []
    · subst alone
      rw [List.nil_append, List.nil_append, Text.join_singleton, Text.join_singleton]
      exact accessorName_of_plain plain _
    · rw [Text.join_concat "." alone, Text.join_concat "." alone]
      exact accessorName_of_dotted _ plain _
  rw [result]
  exact isDottedName_join (List.append_ne_nil_of_right_ne_nil _ (List.cons_ne_nil _ _)) renamed

theorem ne_of_isDottedName {name other : String} (dotted : isDottedName name = true)
    (notDotted : isDottedName other = false) : name ≠ other := by
  rintro rfl
  rw [dotted] at notDotted
  cases notDotted

/-! ### Members -/

theorem isSound_parameter {parameter : Parameter} (wellFormed : parameter.IsWellFormed) :
    parameter.IsSound := by
  refine ⟨wellFormed.name, wellFormed.type.isReadable, fun isOut => ?_⟩
  have byRef := wellFormed.byRef isOut
  unfold Parameter.isByRef at byRef
  cases type : parameter.type with
  | indirect kind element =>
    cases kind with
    | byRef => exact ⟨element, rfl⟩
    | pointer =>
      rw [type] at byRef
      cases byRef
  | _ =>
    rw [type] at byRef
    cases byRef

theorem forall_isSound_parameter {parameters : List Parameter}
    (wellFormed : ∀ parameter ∈ parameters, parameter.IsWellFormed) :
    ∀ parameter ∈ parameters, parameter.IsSound :=
  fun parameter member => isSound_parameter (wellFormed parameter member)

/-- A method that is no constructor and has a dotted name is sound if its parts are. -/
theorem isSound_of_isDottedName {method : Method} (notConstructor : method.isConstructor = false)
    (dotted : isDottedName method.name = true)
    (generics : ∀ generic ∈ method.genericParameters, isIdentifier generic = true)
    (parameters : ∀ parameter ∈ method.parameters, parameter.IsSound)
    (returns : method.returns.IsReadable) : method.IsSound := by
  have contradicts {statement : Prop} (constructs : method.isConstructor = true) : statement := by
    rw [notConstructor] at constructs
    cases constructs
  refine ⟨⟨contradicts, ?_⟩, contradicts, contradicts, contradicts, fun _ => dotted, generics,
    parameters, returns⟩
  rintro (named | named)
  · exact absurd named (ne_of_isDottedName dotted (by decide))
  · exact absurd named (ne_of_isDottedName dotted (by decide))

theorem isReadable_void : (TypeReference.primitive .void).IsReadable :=
  (TypeReference.isCanonical_primitive .void).isReadable

/-- A constructor is sound if it is called as it should be and its parameters are sound. -/
theorem isSound_constructor {method : Method} (constructs : method.role = .constructor)
    (named : method.name = if method.isStatic then ".cctor" else ".ctor")
    (notGeneric : method.genericParameters = [])
    (parameters : ∀ parameter ∈ method.parameters, parameter.IsSound)
    (returns : method.returns = .primitive .void) : method.IsSound := by
  have isConstructor : method.isConstructor = true := decide_eq_true constructs
  refine ⟨⟨fun _ => ?_, fun _ => isConstructor⟩, fun _ => ?_, fun _ kind => ?_, fun _ => notGeneric,
    fun notConstructor => ?_, fun generic member => ?_, parameters, returns ▸ isReadable_void⟩
  · rw [named]
    cases method.isStatic <;> simp
  · rw [named]
    cases method.isStatic <;> simp
  · rw [constructs]
    exact MethodRole.noConfusion
  · rw [isConstructor] at notConstructor
    cases notConstructor
  · rw [notGeneric] at member
    cases member

theorem isSound_accessorMethod (member : MemberNode) {name : String}
    (dotted : isDottedName name = true) {type : TypeReference} (canonical : type.IsCanonical)
    {input : List Parameter} (sound : ∀ parameter ∈ input, parameter.IsSound)
    (node : AccessorNode) (kind : AccessorKind) :
    (accessorMethod member name type input node kind).IsSound := by
  have value : Parameter.IsSound { name := "value", type } :=
    ⟨(by decide : isIdentifier "value" = true), canonical.isReadable, fun isOut => nomatch isOut⟩
  refine isSound_of_isDottedName rfl (isDottedName_accessorName dotted kind)
    (fun generic member => absurd member List.not_mem_nil) ?_ ?_
  · show ∀ parameter ∈ if kind = .getter then input else input ++ [{ name := "value", type }], _
    split
    · exact sound
    · exact List.forall_mem_append.mpr ⟨sound, List.forall_mem_singleton.mpr value⟩
  · show (if kind = .getter then type else .primitive .void).IsReadable
    split
    · exact canonical.isReadable
    · exact isReadable_void

theorem forall_isSound_accessorMethods (owner : AccessorOwner) (member : MemberNode)
    {name : String} (dotted : isDottedName name = true) {type : TypeReference}
    (canonical : type.IsCanonical) {input : List Parameter}
    (sound : ∀ parameter ∈ input, parameter.IsSound) (accessors : List AccessorNode) :
    ∀ method ∈ accessorMethods owner member name type input accessors, method.IsSound := by
  intro method declared
  obtain ⟨node, -, found⟩ := List.mem_filterMap.mp declared
  obtain ⟨kind, -, rfl⟩ := Option.map_eq_some_iff.mp found
  exact isSound_accessorMethod member dotted canonical sound node kind

/-- **The methods that a member gives to its type are sound.** -/
theorem forall_isSound_methods {member : MemberNode} (wellFormed : member.body.IsWellFormed) :
    ∀ method ∈ member.methods, method.IsSound := by
  obtain ⟨modifiers, body, span⟩ := member
  cases body with
  | field name type => exact fun method declared => absurd declared List.not_mem_nil
  | property name type indexParameters accessors =>
    exact forall_isSound_accessorMethods .property _ wellFormed.1 wellFormed.2.1
      (forall_isSound_parameter wellFormed.2.2) accessors
  | event name handler accessors =>
    exact forall_isSound_accessorMethods .event _ wellFormed.1 wellFormed.2
      (fun parameter member => absurd member List.not_mem_nil) accessors
  | constructor parameters =>
    intro method declared
    rw [List.mem_singleton.mp declared]
    exact isSound_constructor rfl rfl rfl (forall_isSound_parameter wellFormed) rfl
  | method name genericParameters parameters returns =>
    intro method declared
    rw [List.mem_singleton.mp declared]
    refine isSound_of_isDottedName ?_ wellFormed.1 wellFormed.2.1
      (forall_isSound_parameter wellFormed.2.2.1) wellFormed.2.2.2.isReadable
    show decide ((if _ then MethodRole.operator else .ordinary) = .constructor) = false
    split <;> rfl

/-! ### Types -/

theorem exists_of_mem_collectFrom {α : Type} {choose : Nat → MemberNode → Option α} {value : α} :
    ∀ {members : List MemberNode} {offset : Nat}, value ∈ collectFrom choose offset members →
      ∃ member ∈ members, ∃ before, choose before member = some value
  | member :: rest, offset, collected => by
    rcases List.mem_append.mp collected with found | collected
    · exact ⟨member, List.mem_cons_self, offset, Option.mem_toList.mp found⟩
    · obtain ⟨other, otherMember, found⟩ := exists_of_mem_collectFrom collected
      exact ⟨other, List.mem_cons_of_mem _ otherMember, found⟩

/-- What is declared in a well-formed part of a listing is sound: fields, properties and events. -/
theorem isSound_field {member : MemberNode} (wellFormed : member.body.IsWellFormed) {field : Field}
    (found : member.field? = some field) : field.IsSound := by
  unfold MemberNode.field? at found
  split at found
  · next name type body =>
    rw [body] at wellFormed
    cases found
    exact ⟨wellFormed.1, wellFormed.2.isReadable⟩
  · cases found

theorem isSound_property {member : MemberNode} (wellFormed : member.body.IsWellFormed)
    {offset : Nat} {property : Property} (found : member.property? offset = some property) :
    property.IsSound := by
  unfold MemberNode.property? at found
  split at found
  · next name type indexParameters accessors body =>
    rw [body] at wellFormed
    cases found
    exact ⟨wellFormed.1, wellFormed.2.1.isReadable, forall_isSound_parameter wellFormed.2.2⟩
  · cases found

theorem isSound_event {member : MemberNode} (wellFormed : member.body.IsWellFormed)
    {offset : Nat} {event : Event} (found : member.event? offset = some event) : event.IsSound := by
  unfold MemberNode.event? at found
  split at found
  · next name handler accessors body =>
    rw [body] at wellFormed
    cases found
    exact ⟨wellFormed.1, wellFormed.2.isReadable⟩
  · cases found

/-- **A type with a well-formed header and well-formed members is sound.** -/
theorem isSound_decl {header : TypeHeader} (wellFormed : header.IsWellFormed)
    {name : QualifiedName} (named : name.IsWellNamed) {members : List MemberNode}
    (all : ∀ member ∈ members, member.body.IsWellFormed) : (header.decl name members).IsSound := by
  refine ⟨named.space, named.own, fun isEnum => ?_, wellFormed.genericParameters,
    fun base member => (wellFormed.base base member).isReadable,
    fun type member => (wellFormed.interfaces type member).isReadable,
    fun field declared => ?_, fun property declared => ?_, fun event declared => ?_,
    fun method declared => ?_⟩
  · have enumType : header.kind = .enumType := of_decide_eq_true isEnum
    exact decide_eq_true (Or.inr (Or.inr enumType))
  · obtain ⟨member, inMembers, found⟩ := List.mem_filterMap.mp declared
    exact isSound_field (all member inMembers) found
  · obtain ⟨member, inMembers, offset, found⟩ := exists_of_mem_collectFrom declared
    exact isSound_property (all member inMembers) found
  · obtain ⟨member, inMembers, offset, found⟩ := exists_of_mem_collectFrom declared
    exact isSound_event (all member inMembers) found
  · obtain ⟨member, inMembers, declared⟩ := List.mem_flatMap.mp declared
    exact forall_isSound_methods (all member inMembers) method declared

end Listing

end ExternBindings
