/-
**Members of declared types**: fields, properties, events and methods.

The accessors of a property or an event stand among the methods of its type; the property or event
keeps their positions in that list.

* `Method.unqualifiedName` is the name without the interface that an explicit implementation is
  qualified by; `accessorName` puts a word such as `get_` in front of that last part.
-/

import ExternBindings.Metadata.TypeReference

namespace ExternBindings

/-- A stretch of a text, as byte offsets of its two ends. -/
structure Span where
  start : Nat
  stop : Nat
  deriving DecidableEq

/-- The length of the stretch in bytes. -/
def Span.length (span : Span) : Nat :=
  span.stop - span.start

/-- Who may use a type or member. -/
inductive Visibility where
  | everyone
  | heirs
  | assembly
  | owner
  deriving DecidableEq

/-- Whether everyone may use it. -/
def Visibility.isPublic (visibility : Visibility) : Bool :=
  visibility = .everyone

/-- The name without the part up to its last dot. -/
def unqualified (name : String) : String :=
  Text.afterLast '.' name

/-- The name of an accessor: `word` goes in front of the part after the last dot. -/
def accessorName (word member : String) : String :=
  match Text.splitLast '.' member.toList with
  | some (owner, name) => String.ofList owner ++ "." ++ word ++ String.ofList name
  | none => word ++ member

/-- A parameter of a method or an indexer. -/
structure Parameter where
  name : String
  type : TypeReference
  isOut : Bool := false

/-- Whether the parameter is passed by reference. -/
def Parameter.isByRef (parameter : Parameter) : Bool :=
  parameter.type.isByRef

/-- What an accessor does for its property or event. -/
inductive AccessorKind where
  | getter
  | setter
  | adder
  | remover
  deriving DecidableEq

/-- What a method is for. -/
inductive MethodRole where
  | ordinary
  | operator
  | constructor
  | accessor (kind : AccessorKind)
  deriving DecidableEq

/-- A declared method. -/
structure Method where
  name : String
  role : MethodRole := .ordinary
  visibility : Visibility := .everyone
  isStatic : Bool := false
  isVirtual : Bool := false
  genericParameters : List String := []
  parameters : List Parameter := []
  returns : TypeReference := .primitive .void
  span : Span := ⟨0, 0⟩

namespace Method

/-- Whether everyone may call the method. -/
def isPublic (method : Method) : Bool :=
  method.visibility.isPublic

/-- Whether the method constructs values of its type. -/
def isConstructor (method : Method) : Bool :=
  method.role = .constructor

/-- Whether the method is called by its name: neither an accessor nor an operator. -/
def isCalledByName (method : Method) : Bool :=
  match method.role with
  | .ordinary | .constructor => true
  | .operator | .accessor _ => false

/-- Whether the method belongs to the type and not to its values; constructors do not count. -/
def isStaticMember (method : Method) : Bool :=
  method.isStatic && !method.isConstructor

/-- Whether the method is called on a value of its type. -/
def isInstanceMember (method : Method) : Bool :=
  !method.isStatic && !method.isConstructor

/-- The name without the interface it is qualified by. -/
def unqualifiedName (method : Method) : String :=
  unqualified method.name

/-- The number of parameters. -/
def arity (method : Method) : Nat :=
  method.parameters.length

end Method

/-- A declared field. -/
structure Field where
  name : String
  type : TypeReference
  visibility : Visibility
  isStatic : Bool
  isSpecialName : Bool
  span : Span

/-- A declared property; its accessors are positions in the method list of its type. -/
structure Property where
  name : String
  type : TypeReference
  getter? : Option Nat
  setter? : Option Nat
  indexParameters : List Parameter
  span : Span

/-- Whether the property takes parameters. -/
def Property.isIndexer (property : Property) : Bool :=
  !property.indexParameters.isEmpty

/-- A declared event; its accessors are positions in the method list of its type. -/
structure Event where
  name : String
  handler : TypeReference
  adder? : Option Nat
  remover? : Option Nat
  span : Span

end ExternBindings
