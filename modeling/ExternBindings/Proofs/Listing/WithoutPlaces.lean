/-
**The meaning of a listing does not depend on where things stand.**

* `ListingNode.withoutPlaces` — a listing as read, with the stretches of text of its declarations and
  accessors put aside;
* `fault?_withoutPlaces`, `assemblyFrom_withoutPlaces` — its first fault and its assembly are those
  of the listing itself, with their own stretches put aside.
-/

import ExternBindings.Listing.Meaning
import ExternBindings.Proofs.Metadata.WithoutSpans

namespace ExternBindings.Listing

/-! ### Declarations as read -/

/-- The accessor with its stretch of text put aside. -/
def AccessorNode.withoutPlace (node : AccessorNode) : AccessorNode :=
  { node with span := ⟨0, 0⟩ }

/-- The declaration with the stretches of text of its accessors put aside. -/
def MemberBody.withoutPlaces : MemberBody → MemberBody
  | .property name type indexParameters accessors =>
    .property name type indexParameters (accessors.map AccessorNode.withoutPlace)
  | .event name handler accessors => .event name handler (accessors.map AccessorNode.withoutPlace)
  | .field name type => .field name type
  | .constructor parameters => .constructor parameters
  | .method name genericParameters parameters returns =>
    .method name genericParameters parameters returns

/-- The member with all stretches of text put aside. -/
def MemberNode.withoutPlaces (member : MemberNode) : MemberNode :=
  { member with body := member.body.withoutPlaces, span := ⟨0, 0⟩ }

/-- The type itself with its stretch of text put aside. -/
def TypeHeader.withoutPlace (header : TypeHeader) : TypeHeader :=
  { header with span := ⟨0, 0⟩ }

mutual

/-- The type with all stretches of text put aside. -/
def TypeNode.withoutPlaces : TypeNode → TypeNode
  | .node header content => .node header.withoutPlace (contentWithoutPlaces content)

/-- What is declared inside of a type, with all stretches of text put aside. -/
def contentWithoutPlaces : List (TypeNode ⊕ MemberNode) → List (TypeNode ⊕ MemberNode)
  | [] => []
  | .inl type :: rest => .inl type.withoutPlaces :: contentWithoutPlaces rest
  | .inr member :: rest => .inr member.withoutPlaces :: contentWithoutPlaces rest

end

theorem contentWithoutPlaces_eq (content : List (TypeNode ⊕ MemberNode)) :
    contentWithoutPlaces content =
      content.map (Sum.map TypeNode.withoutPlaces MemberNode.withoutPlaces) := by
  induction content with
  | nil => rfl
  | cons item rest hypothesis =>
    cases item with
    | inl type => rw [contentWithoutPlaces, hypothesis, List.map_cons, Sum.map_inl]
    | inr member => rw [contentWithoutPlaces, hypothesis, List.map_cons, Sum.map_inr]

/-- The types of a stretch of a listing with all stretches of text put aside. -/
def NamespaceNode.withoutPlaces (block : NamespaceNode) : NamespaceNode :=
  { block with types := block.types.map TypeNode.withoutPlaces }

/-- The listing with all stretches of text put aside. -/
def ListingNode.withoutPlaces (node : ListingNode) : ListingNode :=
  { node with namespaces := node.namespaces.map NamespaceNode.withoutPlaces }

/-- The error with its place put aside. -/
def ListingError.withoutPlace : ListingError → ListingError
  | unexpected _ => .unexpected {}
  | trailing _ => .trailing ⟨0, 0⟩
  | duplicateAccessor member word _ => .duplicateAccessor member word ⟨0, 0⟩
  | invalidAccessor word owner _ => .invalidAccessor word owner ⟨0, 0⟩

/-! ### Faults -/

theorem accessorFault?_withoutPlace (owner : AccessorOwner) (member : String) :
    ∀ (seen : List AccessorWord) (nodes : List AccessorNode),
      accessorFault? owner member seen (nodes.map AccessorNode.withoutPlace) =
        (accessorFault? owner member seen nodes).map ListingError.withoutPlace
  | _, [] => rfl
  | seen, node :: rest => by
    have further := accessorFault?_withoutPlace owner member (node.word :: seen) rest
    simp only [List.map_cons, accessorFault?, AccessorNode.withoutPlace] at further ⊢
    split
    · rfl
    · split
      · rfl
      · exact further

@[simp]
theorem MemberNode.fault?_withoutPlaces (member : MemberNode) :
    member.withoutPlaces.fault? = member.fault?.map ListingError.withoutPlace := by
  obtain ⟨modifiers, body, span⟩ := member
  cases body with
  | property name => exact accessorFault?_withoutPlace .property name [] _
  | event name => exact accessorFault?_withoutPlace .event name [] _
  | field | constructor | method => rfl

mutual

theorem TypeNode.fault?_withoutPlaces : ∀ node : TypeNode,
    node.withoutPlaces.fault? = node.fault?.map ListingError.withoutPlace
  | .node _ content => by
    rw [TypeNode.withoutPlaces, TypeNode.fault?, TypeNode.fault?]
    exact faultIn?_withoutPlaces content

theorem faultIn?_withoutPlaces : ∀ content : List (TypeNode ⊕ MemberNode),
    faultIn? (contentWithoutPlaces content) = (faultIn? content).map ListingError.withoutPlace
  | [] => rfl
  | .inl type :: rest => by
    rw [contentWithoutPlaces, faultIn?, faultIn?, type.fault?_withoutPlaces,
      faultIn?_withoutPlaces rest, Option.map_or]
  | .inr member :: rest => by
    rw [contentWithoutPlaces, faultIn?, faultIn?, member.fault?_withoutPlaces,
      faultIn?_withoutPlaces rest, Option.map_or]

end

/-- What is found first in the images is the image of what is found first. -/
theorem findSome?_map_map {α β : Type} {image : α → α} {imageOf : β → β} {find : α → Option β}
    (commutes : ∀ item, find (image item) = (find item).map imageOf) (items : List α) :
    (items.map image).findSome? find = (items.findSome? find).map imageOf := by
  rw [List.findSome?_map, List.map_findSome?]
  exact congrFun (congrArg _ (funext commutes)) items

/-- **The first fault is the same one, whatever stands where.** -/
theorem ListingNode.fault?_withoutPlaces (node : ListingNode) :
    node.withoutPlaces.fault? = node.fault?.map ListingError.withoutPlace :=
  findSome?_map_map (fun block => findSome?_map_map TypeNode.fault?_withoutPlaces block.types)
    node.namespaces

/-! ### Members -/

@[simp]
theorem MemberNode.methods_withoutPlaces (member : MemberNode) :
    member.withoutPlaces.methods = member.methods.map Method.withoutSpan := by
  obtain ⟨modifiers, body, span⟩ := member
  cases body with
  | property | event =>
    simp only [MemberNode.methods, MemberNode.withoutPlaces, MemberBody.withoutPlaces,
      accessorMethods, List.filterMap_map, List.map_filterMap, Function.comp_def, Option.map_map]
    rfl
  | field | constructor | method => rfl

@[simp]
theorem accessorPosition?_withoutSpan (offset : Nat) (kind : AccessorKind)
    (methods : List Method) :
    accessorPosition? offset kind (methods.map Method.withoutSpan) =
      accessorPosition? offset kind methods := by
  unfold accessorPosition?
  rw [List.findIdx?_map]
  rfl

theorem MemberNode.field?_withoutPlaces (member : MemberNode) :
    member.withoutPlaces.field? = member.field?.map Field.withoutSpan := by
  obtain ⟨modifiers, body, span⟩ := member
  cases body <;> rfl

theorem MemberNode.property?_withoutPlaces (offset : Nat) (member : MemberNode) :
    member.withoutPlaces.property? offset =
      (member.property? offset).map Property.withoutSpan := by
  have methods := member.methods_withoutPlaces
  obtain ⟨modifiers, body, span⟩ := member
  cases body with
  | property =>
    simp only [MemberNode.property?, methods, accessorPosition?_withoutSpan]
    rfl
  | field | event | constructor | method => rfl

theorem MemberNode.event?_withoutPlaces (offset : Nat) (member : MemberNode) :
    member.withoutPlaces.event? offset = (member.event? offset).map Event.withoutSpan := by
  have methods := member.methods_withoutPlaces
  obtain ⟨modifiers, body, span⟩ := member
  cases body with
  | event =>
    simp only [MemberNode.event?, methods, accessorPosition?_withoutSpan]
    rfl
  | field | property | constructor | method => rfl

/-- What is collected from members without their places is collected from the members, if this
holds of each of them. -/
theorem collectFrom_withoutPlaces {α : Type} {choose : Nat → MemberNode → Option α} {image : α → α}
    (commutes : ∀ offset member,
      choose offset member.withoutPlaces = (choose offset member).map image) :
    ∀ (offset : Nat) (members : List MemberNode),
      collectFrom choose offset (members.map MemberNode.withoutPlaces) =
        (collectFrom choose offset members).map image
  | _, [] => rfl
  | offset, member :: rest => by
    rw [List.map_cons, collectFrom, collectFrom, List.map_append, commutes,
      member.methods_withoutPlaces, List.length_map, collectFrom_withoutPlaces commutes _ rest,
      Option.toList_map]

/-! ### Types -/

theorem TypeHeader.decl_withoutPlaces (header : TypeHeader) (name : QualifiedName)
    (members : List MemberNode) :
    header.withoutPlace.decl name (members.map MemberNode.withoutPlaces) =
      (header.decl name members).withoutSpans := by
  simp only [TypeHeader.decl, TypeHeader.withoutPlace, TypeDecl.withoutSpans,
    collectFrom_withoutPlaces MemberNode.property?_withoutPlaces,
    collectFrom_withoutPlaces MemberNode.event?_withoutPlaces, List.filterMap_map,
    List.map_filterMap, List.flatMap_map, List.map_flatMap, Function.comp_def,
    MemberNode.field?_withoutPlaces, MemberNode.methods_withoutPlaces]
  rfl

theorem getRight?_withoutPlaces (content : List (TypeNode ⊕ MemberNode)) :
    (contentWithoutPlaces content).filterMap Sum.getRight? =
      (content.filterMap Sum.getRight?).map MemberNode.withoutPlaces := by
  rw [contentWithoutPlaces_eq, List.filterMap_map, List.map_filterMap]
  congr 1
  funext item
  cases item <;> rfl

mutual

theorem TypeNode.tree_withoutPlaces : ∀ (place : String → QualifiedName) (node : TypeNode),
    node.withoutPlaces.tree place = (node.tree place).withoutSpans
  | place, .node header content => by
    simp only [TypeNode.withoutPlaces, TypeNode.tree, TypeTree.withoutSpans,
      getRight?_withoutPlaces, TypeHeader.decl_withoutPlaces]
    exact congrArg _ (treesIn_withoutPlaces (place header.name).inside content)

theorem treesIn_withoutPlaces : ∀ (place : String → QualifiedName)
    (content : List (TypeNode ⊕ MemberNode)),
    treesIn place (contentWithoutPlaces content) = withoutSpansIn (treesIn place content)
  | _, [] => rfl
  | place, .inl type :: rest => by
    rw [contentWithoutPlaces, treesIn, treesIn, withoutSpansIn, type.tree_withoutPlaces,
      treesIn_withoutPlaces place rest]
  | place, .inr member :: rest => by
    rw [contentWithoutPlaces, treesIn, treesIn, treesIn_withoutPlaces place rest]

end

/-- **The assembly is the same one, whatever stands where.** -/
theorem ListingNode.assemblyFrom_withoutPlaces (file? : Option String) (node : ListingNode) :
    node.withoutPlaces.assemblyFrom file? = (node.assemblyFrom file?).withoutSpans := by
  simp only [ListingNode.assemblyFrom, ListingNode.withoutPlaces, Assembly.withoutSpans,
    NamespaceNode.trees, NamespaceNode.withoutPlaces, List.flatMap_map, List.map_flatMap,
    List.map_map, Function.comp_def, TypeNode.tree_withoutPlaces]

end ExternBindings.Listing
