/-
**From type references to type expressions.**

What a reference turns into depends on the types that are known and on the layout of packages (the
`Catalog`), on the place where the reference stands (the `Site`), and on whether an exact type is
asked for there (`Precision`).

* `Catalog.nameAt` names a declared type from a site: by its flat name inside of its own file,
  behind the name of its file elsewhere, and behind a package outside of its namespace;
* `Catalog.typeExpr` maps a reference. A type parameter of the method itself becomes `Dynamic`, as
  does a generic type applied to one, unless the type has a form without arguments.
-/

import ExternBindings.World.FlatName
import ExternBindings.Output.TypeExpr
import ExternBindings.Package

namespace ExternBindings

/-- How closely the type expression has to keep to the type that is referred to. -/
inductive Precision where
  /-- fields, properties, type arguments, array elements, base types and interfaces -/
  | exact
  /-- parameters and results -/
  | general
  deriving DecidableEq

/-- The place that a type expression is written at. -/
structure Site where
  space : String
  /-- the top-level type that the surrounding file is for -/
  home : QualifiedName
  /-- the type parameters of the surrounding method -/
  erased : List String := []

/-- Whether a reference is to a type parameter of the method at the site. -/
def Site.erases (site : Site) : TypeReference → Bool
  | .parameter .method name => site.erased.contains name
  | _ => false

/-- The site inside of a method with these type parameters. -/
def Site.insideMethod (site : Site) (generics : List String) : Site :=
  { site with erased := generics }

/-- The site of the file that is for this top-level type. -/
def Site.ofFile (name : QualifiedName) : Site :=
  { space := name.space, home := name }

/-- The known types and the packages that they go to. -/
structure Catalog where
  world : World
  layout : PackageLayout

/-- The catalog of a list of assemblies. -/
def Catalog.ofAssemblies (assemblies : List Assembly) (rules : PackageRules) : Catalog :=
  let world := World.ofAssemblies assemblies
  { world, layout := { rules, declared := world.namespaces } }

/-! ### Types with a name of their own -/

/-- Types with a name of their own where an exact type is asked for. -/
def exactNames : List (String × String) :=
  [("System.String", "String"), ("System.Boolean", "Bool"), ("System.Single", "Single"),
    ("System.Double", "Float"), ("System.Int32", "Int"), ("System.UInt32", "UInt"),
    ("System.Type", "cs.system.Type")]

/-- Types with a name of their own where values are passed. -/
def generalNames : List (String × String) :=
  [("System.Void", "Void"), ("System.Object", "Dynamic"), ("System.String", "String"),
    ("System.Boolean", "Bool"), ("System.Single", "Float"), ("System.Double", "Float"),
    ("System.SByte", "Int"), ("System.Int16", "Int"), ("System.Int32", "Int"),
    ("System.UInt16", "UInt"), ("System.UInt32", "UInt"), ("System.Type", "cs.system.Type")]

/-- The name of its own that a type has. -/
def ownName? (precision : Precision) (name : QualifiedName) : Option String :=
  let names := match precision with
    | .exact => exactNames
    | .general => generalNames
  (names.find? fun entry => entry.1 = name.text).map Prod.snd

/-- The form without arguments that stands for a generic type applied to one argument. -/
def bareForm? (definition : QualifiedName) (arguments : Nat) : Option QualifiedName :=
  if arguments ≠ 1 ∨ definition.isInner then none
  else if definition.space = "System.Collections.Generic" ∧
      (definition.bareName = "IEnumerable" ∨ definition.bareName = "IComparer") then
    some { space := "System.Collections", name := definition.bareName }
  else if definition.space = "System" ∧ definition.bareName = "IComparable" then
    some { space := "System", name := "IComparable" }
  else none

/-- The name of the type of arrays with so many dimensions. -/
def arrayHead (rank : Rank) : String :=
  if rank ≤ 1 then "cs.NativeArray" else "cs.NativeArray" ++ toString rank

namespace Catalog

variable (catalog : Catalog)

/-- The name by which a type, applied to so many arguments if a number is given, is known at a
site. -/
def nameAt (site : Site) (name : QualifiedName) (arguments? : Option Nat := none) : String :=
  let own := catalog.world.flatName name arguments?
  let qualification :=
    if name.space = site.space then "" else catalog.layout.qualification name.space
  if name.isInner then
    if name.outermost.text = site.home.text then own
    else qualification ++ catalog.world.flatName name.outermost ++ "." ++ own
  else qualification ++ own

/-- The expression for a type that is named without arguments. -/
def nameExpr (site : Site) (precision : Precision) (name : QualifiedName) : TypeExpr :=
  .named ((ownName? precision name).getD (catalog.nameAt site name))

/-- The expression for a generic type whose arguments are left out. -/
def bareExpr (site : Site) (definition : QualifiedName) (arguments : Nat) : TypeExpr :=
  .named (((bareForm? definition arguments).map fun bare => catalog.nameAt site bare).getD
    "Dynamic")

mutual

/-- The expression for a reference that stands at a site. -/
def typeExpr (site : Site) (precision : Precision) : TypeReference → TypeExpr
  | .parameter owner name =>
    if site.erases (.parameter owner name) then .named "Dynamic" else .parameter name
  | .indirect _ element => typeExpr site precision element
  | .array element rank =>
    if site.erases element then
      .named (catalog.nameAt site { space := "System", name := "Array" })
    else .applied (arrayHead rank) [typeExpr site .exact element]
  | .primitive kind => catalog.nameExpr site precision kind.qualifiedName
  | .named name => catalog.nameExpr site precision name
  | .instantiation definition arguments =>
    if arguments.any site.erases then
      catalog.bareExpr site definition arguments.length
    else
      .applied (catalog.nameAt site definition (some arguments.length))
        (argumentExprs site arguments)

/-- The expressions for type arguments. -/
def argumentExprs (site : Site) : List TypeReference → List TypeExpr
  | [] => []
  | head :: tail => typeExpr site .exact head :: argumentExprs site tail

end

end Catalog

end ExternBindings
