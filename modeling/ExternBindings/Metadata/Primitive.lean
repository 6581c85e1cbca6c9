/-
**The primitive types**, which every listing may name without declaring them.

* `Primitive.ofName?_qualifiedName`: every primitive is found again by its name.
-/

import ExternBindings.Metadata.QualifiedName

namespace ExternBindings

/-- A primitive type of the namespace `System`. -/
inductive Primitive where
  | void
  | object
  | string
  | boolean
  | char
  | sbyte
  | byte
  | int16
  | uint16
  | int32
  | uint32
  | int64
  | uint64
  | single
  | double
  | intPtr
  | uintPtr
  deriving DecidableEq

namespace Primitive

/-- All primitive types. -/
def all : List Primitive :=
  [void, object, string, boolean, char, sbyte, byte, int16, uint16, int32, uint32, int64, uint64,
    single, double, intPtr, uintPtr]

/-- The name within the namespace `System`. -/
def name : Primitive → String
  | void => "Void"
  | object => "Object"
  | string => "String"
  | boolean => "Boolean"
  | char => "Char"
  | sbyte => "SByte"
  | byte => "Byte"
  | int16 => "Int16"
  | uint16 => "UInt16"
  | int32 => "Int32"
  | uint32 => "UInt32"
  | int64 => "Int64"
  | uint64 => "UInt64"
  | single => "Single"
  | double => "Double"
  | intPtr => "IntPtr"
  | uintPtr => "UIntPtr"

/-- The name as that of a declared type. -/
def qualifiedName (kind : Primitive) : QualifiedName :=
  { space := "System", name := kind.name }

/-- The name with its namespace. -/
def fullName (kind : Primitive) : String :=
  "System." ++ kind.name

/-- The primitive type that a type name stands for. -/
def ofName? (name : QualifiedName) : Option Primitive :=
  all.find? fun kind => kind.qualifiedName = name

/-- The primitive type with this name in full. -/
def ofFullName? (full : String) : Option Primitive :=
  all.find? fun kind => kind.fullName = full

theorem ofName?_qualifiedName (kind : Primitive) : ofName? kind.qualifiedName = some kind := by
  cases kind <;> decide

end Primitive

end ExternBindings
