/-
**Declarations as they stand in a listing.**

These are the declarations of a listing as read, with their modifiers and accessors still in words.
What they mean is told elsewhere: a type without a visibility word is not public, an accessor takes
over the words of its property, and so on.

* `Modifiers`: what a run of modifier words says, the last visibility word winning;
* `MemberNode` and `TypeNode`: members and types, with everything in the order of the text.
-/

import ExternBindings.Listing.Error
import ExternBindings.Metadata.Assembly

namespace ExternBindings.Listing

/-- A word in front of a declaration. -/
inductive Modifier where
  | visibility (visibility : Visibility)
  | static
  | sealed
  | virtual
  | operator
  | specialName
  deriving DecidableEq

namespace Modifier

/-- The modifier words. -/
def words : List (String × Modifier) :=
  [("public", .visibility .everyone), ("private", .visibility .owner),
    ("protected", .visibility .heirs), ("internal", .visibility .assembly), ("static", .static),
    ("sealed", .sealed), ("virtual", .virtual), ("operator", .operator),
    ("specialname", .specialName)]

/-- The visibility that a word gives. -/
def visibility? : Modifier → Option Visibility
  | visibility given => some given
  | _ => none

end Modifier

/-- The modifiers of a declaration, in the order of the text. -/
abbrev Modifiers := List Modifier

/-- The visibility given by the last visibility word. -/
def Modifiers.visibility? (modifiers : Modifiers) : Option Visibility :=
  (modifiers.filterMap Modifier.visibility?).getLast?

/-- The words in front of a parameter that is passed by reference. -/
inductive ParameterMode where
  | out
  | ref
  deriving DecidableEq

/-- The parameter with this mode, name and type; a mode word makes it one that is passed by
reference. -/
def parameterOfMode (mode? : Option ParameterMode) (name : String) (type : TypeReference) :
    Parameter :=
  { name
    type := if mode?.isSome && !type.isByRef then .indirect .byRef type else type
    isOut := mode? = some .out }

/-- An accessor of a property or event. -/
structure AccessorNode where
  word : AccessorWord
  modifiers : Modifiers
  span : Span

/-- What a member declaration says apart from its modifiers. -/
inductive MemberBody where
  | field (name : String) (type : TypeReference)
  | property (name : String) (type : TypeReference) (indexParameters : List Parameter)
    (accessors : List AccessorNode)
  | event (name : String) (handler : TypeReference) (accessors : List AccessorNode)
  | constructor (parameters : List Parameter)
  | method (name : String) (genericParameters : List String) (parameters : List Parameter)
    (returns : TypeReference)

/-- A member declaration that is not a type. -/
structure MemberNode where
  modifiers : Modifiers
  body : MemberBody
  span : Span

/-- What a type declaration says about the type itself. -/
structure TypeHeader where
  modifiers : Modifiers
  kind : TypeKind
  name : String
  genericParameters : List String
  base? : Option TypeReference
  interfaces : List TypeReference
  span : Span

/-- A type declaration with what is declared inside of it, in the order of the text. -/
inductive TypeNode where
  | node (header : TypeHeader) (content : List (TypeNode ⊕ MemberNode))

/-- A stretch of a listing whose types share a namespace. -/
structure NamespaceNode where
  space : String
  types : List TypeNode

/-- A whole listing. -/
structure ListingNode where
  assembly : String
  namespaces : List NamespaceNode

end ExternBindings.Listing
