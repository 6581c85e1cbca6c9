/-
**Declared types and the assemblies that hold them.**

A type's own facts stand in a `TypeDecl`; the types declared inside of it hang below it in a
`TypeTree`. An assembly is a list of such trees.
-/

import ExternBindings.Metadata.Member

namespace ExternBindings

/-- The three kinds of declared types. -/
inductive TypeKind where
  | classType
  | interfaceType
  | enumType
  deriving DecidableEq

/-- A declared type by itself. -/
structure TypeDecl where
  name : QualifiedName
  kind : TypeKind
  visibility : Visibility := .everyone
  isSealed : Bool := false
  genericParameters : List String := []
  base? : Option TypeReference := none
  interfaces : List TypeReference := []
  fields : List Field := []
  properties : List Property := []
  events : List Event := []
  methods : List Method := []
  span : Span := ⟨0, 0⟩

namespace TypeDecl

/-- Whether the type is an interface. -/
def isInterface (decl : TypeDecl) : Bool :=
  decl.kind = .interfaceType

/-- Whether the type is an enumeration. -/
def isEnum (decl : TypeDecl) : Bool :=
  decl.kind = .enumType

/-- The number of type parameters. -/
def genericCount (decl : TypeDecl) : Nat :=
  decl.genericParameters.length

/-- The method at a position that a property or event keeps. -/
def accessor? (decl : TypeDecl) (position? : Option Nat) : Option Method :=
  position?.bind fun position => decl.methods[position]?

/-- The method by which values of a delegate type are called. -/
def invoke? (decl : TypeDecl) : Option Method :=
  decl.methods.find? fun method => method.name = "Invoke"

end TypeDecl

/-- A declared type with the types declared inside of it. -/
inductive TypeTree where
  | node (decl : TypeDecl) (inner : List TypeTree)

/-- The outermost declaration of a tree. -/
def TypeTree.decl : TypeTree → TypeDecl
  | node decl _ => decl

/-- The types declared directly inside of the outermost one. -/
def TypeTree.inner : TypeTree → List TypeTree
  | node _ inner => inner

/-- A listing as read: the types of one assembly. -/
structure Assembly where
  name : String
  file? : Option String := none
  types : List TypeTree

/-- The namespace of each top-level type, in order. -/
def Assembly.namespaces (assembly : Assembly) : List String :=
  assembly.types.map fun tree => tree.decl.name.space

end ExternBindings
