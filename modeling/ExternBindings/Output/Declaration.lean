/-
**Generated declarations and their text.**

A declared type turns into an enumeration, or into a class or interface that may have a companion
for its static methods. Each is a value of its own here; `Declaration.text` writes it.

* `ClassDeclaration.text`: the class itself, and right behind it the companion if there is one;
* `Declaration.identifiers`: the names that a declaration introduces.
-/

import ExternBindings.Output.FunctionGroup

namespace ExternBindings

/-- A line of text. -/
def line (parts : List String) : String :=
  Text.join "" parts ++ "\n"

/-- The word for something that belongs to the type and not to its values. -/
def staticWord (isStatic : Bool) : String :=
  if isStatic then "static " else ""

/-! ### Members -/

/-- An event in a generated declaration. -/
structure EventLine where
  isStatic : Bool
  name : String
  head : String
  argument : TypeExpr

/-- A field in a generated declaration. -/
structure FieldLine where
  isStatic : Bool
  name : String
  type : TypeExpr

/-- A property in a generated declaration. -/
structure PropertyLine where
  attributes : Attributes
  name : String
  isReadable : Bool
  isWritable : Bool
  type : TypeExpr

/-- The event as written. -/
def EventLine.text (event : EventLine) : String :=
  line ["  public ", staticWord event.isStatic, "var ", event.name, "(default,null) : ",
    (TypeExpr.applied event.head [event.argument]).text, ";"]

/-- The field as written. -/
def FieldLine.text (field : FieldLine) : String :=
  line ["  public ", staticWord field.isStatic, "var ", field.name, " : ", field.type.text, ";"]

/-- The word for whether a property may be used in one direction. -/
def accessWord (allowed : Bool) : String :=
  if allowed then "default" else "never"

/-- The directions that a property may be used in, unless it may be used in both. -/
def PropertyLine.access (property : PropertyLine) : String :=
  if property.isReadable && property.isWritable then ""
  else Text.join "" ["(", accessWord property.isReadable, ",", accessWord property.isWritable, ")"]

/-- The property as written. -/
def PropertyLine.text (property : PropertyLine) : String :=
  line ["  ", property.attributes.text, "var ", property.name, property.access, " : ",
    property.type.text, ";"]

/-- An overload as written. -/
def FunctionForm.overloadText (form : FunctionForm) : String :=
  line ["  @:overload(function", form.text, " \x7b\x7d)"]

/-- A function as written: an empty line, the overloads, and the principal form. -/
def FunctionGroup.text (group : FunctionGroup) : String :=
  match group.principal? with
  | none => ""
  | some principal =>
    "\n" ++ Text.join "" (group.overloads.map FunctionForm.overloadText) ++
      line ["  ", principal.attributes.text, "function ", group.name, principal.text, ";"]

/-- The line that ends a declaration, and the empty line behind it. -/
def closing : String :=
  "\x7d\n\n"

/-- The mark that tells which type a declaration stands for. -/
def runtimeMark (runtimeName : String) : String :=
  "@:native(\"" ++ runtimeName ++ "\")"

/-! ### Declarations -/

/-- A generated enumeration. -/
structure EnumDeclaration where
  runtimeName : String
  name : String
  storage : TypeExpr
  tags : List String

/-- The enumeration as written. -/
def EnumDeclaration.text (declaration : EnumDeclaration) : String :=
  line ["@:fakeEnum(", declaration.storage.text, ") ", runtimeMark declaration.runtimeName] ++
    line ["extern enum ", declaration.name, " \x7b"] ++
    Text.join "" (declaration.tags.map fun tag => line ["  ", tag, ";"]) ++ closing

/-- A generated class or interface. -/
structure ClassDeclaration where
  runtimeName : String
  isInterface : Bool
  isFinal : Bool
  name : String
  genericParameters : List String
  base? : Option TypeExpr
  interfaces : List TypeExpr
  events : List EventLine
  fields : List FieldLine
  properties : List PropertyLine
  methods : FunctionTable

namespace ClassDeclaration

variable (declaration : ClassDeclaration)

/-- The name of the companion. -/
def companionName : String :=
  declaration.name ++ "_Static"

/-- The type parameters as written. -/
def genericText : String :=
  if declaration.genericParameters.isEmpty then ""
  else "<" ++ Text.join "," declaration.genericParameters ++ ">"

/-- The base type and the interfaces as written. -/
def inheritanceText : String :=
  let relation := if declaration.isInterface then " extends " else " implements "
  (declaration.base?.elim "" fun base => " extends " ++ base.text) ++
    Text.join "" (declaration.interfaces.map fun type => relation ++ type.text)

/-- The members as written. -/
def membersText : String :=
  Text.join "" (declaration.events.map EventLine.text) ++
    Text.join "" (declaration.fields.map FieldLine.text) ++
    Text.join "" (declaration.properties.map PropertyLine.text) ++
    Text.join "" (declaration.methods.primary.map FunctionGroup.text)

/-- The class or interface as written, without its companion. -/
def ownText : String :=
  line [runtimeMark declaration.runtimeName, if declaration.isFinal then " @:final" else ""] ++
    line ["extern ", if declaration.isInterface then "interface " else "class ", declaration.name,
      declaration.genericText, declaration.inheritanceText, " \x7b"] ++
    declaration.membersText ++ closing

/-- The companion with these functions as written. -/
def companionText (functions : List FunctionGroup) : String :=
  line [runtimeMark declaration.runtimeName, " @:final"] ++
    line ["extern class ", declaration.companionName, " \x7b"] ++
    Text.join "" (functions.map FunctionGroup.text) ++ closing

/-- The class or interface as written, with its companion behind it. -/
def text : String :=
  declaration.ownText ++ declaration.methods.companion?.elim "" declaration.companionText

end ClassDeclaration

/-- What a declared type turns into. -/
inductive Declaration where
  | enumeration (declaration : EnumDeclaration)
  | classLike (declaration : ClassDeclaration)

namespace Declaration

/-- The declaration as written. -/
def text : Declaration → String
  | enumeration declaration => declaration.text
  | classLike declaration => declaration.text

/-- Whether the declaration has a companion. -/
def hasCompanion : Declaration → Bool
  | enumeration _ => false
  | classLike declaration => declaration.methods.companion?.isSome

/-- The names that the declaration introduces, that of the companion included. -/
def identifiers : Declaration → List String
  | enumeration declaration => [declaration.name]
  | classLike declaration =>
    declaration.name ::
      if declaration.methods.companion?.isSome then [declaration.companionName] else []

end Declaration

end ExternBindings
