/-
**What a listing means.**

The declarations of a listing become declared types. Two things are settled on the way. First, an
accessor that its member cannot have, or has already, makes the whole listing an error, and the
first such accessor in the text is the one reported (`ListingNode.fault?`). Second, the accessors of
properties and events become methods of the type that declares them, in the order of the text, and
the property or event keeps their positions (`MemberNode.property?`, `MemberNode.event?`).

* `readAssembly` reads a text as an assembly.
-/

import ExternBindings.Listing.Grammar

namespace ExternBindings.Listing

/-! ### Accessors -/

/-- What an accessor of this word does for its member, if the member can have it. -/
def AccessorWord.kindFor? : AccessorOwner → AccessorWord → Option AccessorKind
  | .property, get => some .getter
  | .property, set => some .setter
  | .event, add => some .adder
  | .event, remove => some .remover
  | .property, add | .property, remove | .event, get | .event, set => none

/-- The word in front of the member's name in the name of an accessor method. -/
def nameWord : AccessorKind → String
  | .getter => "get_"
  | .setter => "set_"
  | .adder => "add_"
  | .remover => "remove_"

/-- The first accessor that the member cannot have, or has already; `seen` are the words so far. -/
def accessorFault? (owner : AccessorOwner) (member : String) (seen : List AccessorWord) :
    List AccessorNode → Option ListingError
  | [] => none
  | node :: rest =>
    if (node.word.kindFor? owner).isNone then some (.invalidAccessor node.word owner node.span)
    else if node.word ∈ seen then some (.duplicateAccessor member node.word node.span)
    else accessorFault? owner member (node.word :: seen) rest

/-- The first accessor of a member that it cannot have, or has already. -/
def MemberNode.fault? (member : MemberNode) : Option ListingError :=
  match member.body with
  | .property name _ _ accessors => accessorFault? .property name [] accessors
  | .event name _ accessors => accessorFault? .event name [] accessors
  | .field .. | .constructor .. | .method .. => none

/-- The method of an accessor. A word that the accessor lacks is taken over from its member; `input`
are the parameters that come before the new value. -/
def accessorMethod (member : MemberNode) (name : String) (type : TypeReference)
    (input : List Parameter) (node : AccessorNode) (kind : AccessorKind) : Method :=
  { name := accessorName (nameWord kind) name
    role := .accessor kind
    visibility :=
      (node.modifiers.visibility?.or (Modifiers.visibility? member.modifiers)).getD .owner
    isStatic := .static ∈ node.modifiers ++ member.modifiers
    isVirtual := .virtual ∈ node.modifiers ++ member.modifiers
    parameters := if kind = .getter then input else input ++ [{ name := "value", type }]
    returns := if kind = .getter then type else .primitive .void
    span := member.span }

/-- The methods of a member's accessors, in the order of the text. -/
def accessorMethods (owner : AccessorOwner) (member : MemberNode) (name : String)
    (type : TypeReference) (input : List Parameter) (accessors : List AccessorNode) :
    List Method :=
  accessors.filterMap fun node =>
    (node.word.kindFor? owner).map (accessorMethod member name type input node)

/-! ### Members -/

/-- The methods that a member gives to its type. -/
def MemberNode.methods (member : MemberNode) : List Method :=
  match member.body with
  | .field .. => []
  | .property name type indexParameters accessors =>
    accessorMethods .property member name type indexParameters accessors
  | .event name handler accessors => accessorMethods .event member name handler [] accessors
  | .constructor parameters =>
    let isStatic : Bool := .static ∈ member.modifiers
    [{ name := if isStatic then ".cctor" else ".ctor"
       role := .constructor
       visibility := member.modifiers.visibility?.getD .owner
       isStatic
       parameters
       span := member.span }]
  | .method name genericParameters parameters returns =>
    [{ name
       role := if .operator ∈ member.modifiers then .operator else .ordinary
       visibility := member.modifiers.visibility?.getD .owner
       isStatic := .static ∈ member.modifiers
       isVirtual := .virtual ∈ member.modifiers
       genericParameters
       parameters
       returns
       span := member.span }]

/-- The position of the first accessor of a kind among a member's methods; `offset` methods of the
type come before them. -/
def accessorPosition? (offset : Nat) (kind : AccessorKind) (methods : List Method) : Option Nat :=
  (methods.findIdx? fun method => method.role = .accessor kind).map (offset + ·)

/-- The field that a member declares. -/
def MemberNode.field? (member : MemberNode) : Option Field :=
  match member.body with
  | .field name type =>
    some {
      name
      type
      visibility := member.modifiers.visibility?.getD .owner
      isStatic := .static ∈ member.modifiers
      isSpecialName := .specialName ∈ member.modifiers
      span := member.span }
  | _ => none

/-- The property that a member declares; `offset` methods of the type come before its own. -/
def MemberNode.property? (offset : Nat) (member : MemberNode) : Option Property :=
  match member.body with
  | .property name type indexParameters _ =>
    some {
      name
      type
      getter? := accessorPosition? offset .getter member.methods
      setter? := accessorPosition? offset .setter member.methods
      indexParameters
      span := member.span }
  | _ => none

/-- The event that a member declares; `offset` methods of the type come before its own. -/
def MemberNode.event? (offset : Nat) (member : MemberNode) : Option Event :=
  match member.body with
  | .event name handler _ =>
    some {
      name
      handler
      adder? := accessorPosition? offset .adder member.methods
      remover? := accessorPosition? offset .remover member.methods
      span := member.span }
  | _ => none

/-- What `choose` finds in each member, given the number of methods that come before its own. -/
def collectFrom {α : Type} (choose : Nat → MemberNode → Option α) (offset : Nat) :
    List MemberNode → List α
  | [] => []
  | member :: rest =>
    (choose offset member).toList ++ collectFrom choose (offset + member.methods.length) rest

/-! ### Types -/

/-- The declared type of this name, with its own members. -/
def TypeHeader.decl (header : TypeHeader) (name : QualifiedName) (members : List MemberNode) :
    TypeDecl :=
  { name
    kind := header.kind
    visibility := header.modifiers.visibility?.getD .assembly
    isSealed :=
      .sealed ∈ header.modifiers ∨ .static ∈ header.modifiers ∨ header.kind = .enumType
    genericParameters := header.genericParameters
    base? := header.base?
    interfaces := header.interfaces
    fields := members.filterMap MemberNode.field?
    properties := collectFrom MemberNode.property? 0 members
    events := collectFrom MemberNode.event? 0 members
    methods := members.flatMap MemberNode.methods
    span := header.span }

mutual

/-- The first faulty accessor of a type, in the order of the text. -/
def TypeNode.fault? : TypeNode → Option ListingError
  | .node _ content => faultIn? content

/-- The first faulty accessor of what is declared inside of a type. -/
def faultIn? : List (TypeNode ⊕ MemberNode) → Option ListingError
  | [] => none
  | .inl type :: rest => type.fault?.or (faultIn? rest)
  | .inr member :: rest => member.fault?.or (faultIn? rest)

end

mutual

/-- The declared types of a type declaration; `place` gives the full name of a type that stands
there. -/
def TypeNode.tree (place : String → QualifiedName) : TypeNode → TypeTree
  | .node header content =>
    .node (header.decl (place header.name) (content.filterMap Sum.getRight?))
      (treesIn (place header.name).inside content)

/-- The declared types of the type declarations inside of a type. -/
def treesIn (place : String → QualifiedName) : List (TypeNode ⊕ MemberNode) → List TypeTree
  | [] => []
  | .inl type :: rest => type.tree place :: treesIn place rest
  | .inr _ :: rest => treesIn place rest

end

/-! ### Listings -/

/-- The first faulty accessor of a listing, in the order of the text. -/
def ListingNode.fault? (node : ListingNode) : Option ListingError :=
  node.namespaces.findSome? fun block => block.types.findSome? TypeNode.fault?

/-- The declared types of a stretch of a listing. -/
def NamespaceNode.trees (block : NamespaceNode) : List TypeTree :=
  block.types.map (TypeNode.tree fun name => { space := block.space, name })

/-- The assembly that a listing declares. -/
def ListingNode.assemblyFrom (file? : Option String) (node : ListingNode) : Assembly :=
  { name := node.assembly, file?, types := node.namespaces.flatMap NamespaceNode.trees }

/-- Reads a text as an assembly; `file?` tells where the text came from. -/
def readAssembly (text : String) (file? : Option String := none) : Except ListingError Assembly :=
  match readListing text with
  | .error error => .error error
  | .ok node =>
    match node.fault? with
    | some fault => .error fault
    | none => .ok (node.assemblyFrom file?)

end ExternBindings.Listing
