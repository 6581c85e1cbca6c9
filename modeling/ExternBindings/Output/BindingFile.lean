/-
**Binding files**: one for each public top-level type.

A binding file holds the declarations of its type and of the public types inside of it, inner ones
first.

* `World.declarationOrder` lists these types;
* `Catalog.bindingFile` is the file of one type, and `bindingFilesOf` lists those of some
  assemblies;
* `MayGiveFiles` tells what may come of it when the files are made side by side: if several of them
  fail, any of these failures.
-/

import ExternBindings.Output.Declaring

namespace ExternBindings

/-- A generated file. -/
structure BindingFile where
  /-- the written name of the type that the file is for -/
  subject : String
  package : String
  /-- the directories that the file is in -/
  directories : List String
  /-- the name of the file, without its extension -/
  stem : String
  declarations : List Declaration

namespace BindingFile

variable (file : BindingFile)

/-- Where the file goes below the output directory. -/
def path : String :=
  Text.join "/" (file.directories ++ [file.stem ++ ".hx"])

/-- The line that names the package, and the empty line behind it. -/
def header : String :=
  (if file.package.isEmpty then "package" else "package " ++ file.package) ++ ";\n\n"

/-- The text of the file. -/
def contents : String :=
  file.header ++ Text.join "" (file.declarations.map Declaration.text)

/-- The number of companions in the file. -/
def companions : Nat :=
  (file.declarations.filter Declaration.hasCompanion).length

end BindingFile

/-- Types that never get a file, since they have a name of their own wherever they are used. -/
def ownNamedTypes : List String :=
  ["System.Type", "System.String"]

namespace World

variable (world : World)

/-- A type and the public types inside of it, inner ones first, as far as those are nested less than
`limit` deep. What is declared inside of an enumeration does not count. -/
def declarationOrderWithin : Nat → TypeIndex → List TypeIndex
  | 0, _ => []
  | limit + 1, index =>
    let inner :=
      if (world.decl? index).any TypeDecl.isEnum then []
      else (world.publicInner index).flatMap (declarationOrderWithin limit)
    inner ++ [index]

/-- A type and the public types inside of it, inner ones first. -/
def declarationOrder (index : TypeIndex) : List TypeIndex :=
  world.declarationOrderWithin world.entries.length index

/-- Whether a type gets a file of its own. -/
def hasFile (index : TypeIndex) : Bool :=
  (world.entry? index).any fun entry =>
    entry.isTopLevel && entry.isPublic && !ownNamedTypes.contains entry.text

/-- The types with a file of their own. -/
def typesWithFile : List TypeIndex :=
  world.publicTopLevel.filter world.hasFile

end World

namespace Catalog

variable (catalog : Catalog)

/-- The declarations of types at a site, up to the first type that cannot be declared. -/
def declarations (site : Site) : List TypeIndex → Except MalformedType (List Declaration)
  | [] => .ok []
  | index :: rest => do
    let head ← match catalog.world.decl? index with
      | none => pure none
      | some decl => some <$> catalog.declaration site index decl
    return head.toList ++ (← declarations site rest)

/-- The file of a type, even of one that would not get a file. -/
def bindingFile (index : TypeIndex) (name : QualifiedName) : Except MalformedType BindingFile := do
  let declarations ← catalog.declarations (.ofFile name) (catalog.world.declarationOrder index)
  return {
    subject := name.text
    package := catalog.layout.packageFor name.space
    directories := (Text.segments '.' (Text.lowercase name.space)).filter (· ≠ "")
    stem := catalog.world.flatName name
    declarations }

/-- The files of types when they are made one after the other, up to the first one with a type that
cannot be declared. -/
def bindingFilesFor : List TypeIndex → Except MalformedType (List BindingFile)
  | [] => .ok []
  | index :: rest => do
    let head ← match catalog.world.decl? index with
      | none => pure none
      | some decl => some <$> catalog.bindingFile index decl.name
    return head.toList ++ (← bindingFilesFor rest)

/-- What may come of the files of types when they are made side by side. They are all there, in order,
or one of them failed; which failure is seen first is left open. -/
inductive MayGive (order : List TypeIndex) : Except MalformedType (List BindingFile) → Prop
  | files {files : List BindingFile} :
      catalog.bindingFilesFor order = .ok files → MayGive order (.ok files)
  | failure {index : TypeIndex} {decl : TypeDecl} {malformed : MalformedType} :
      index ∈ order → catalog.world.decl? index = some decl →
      catalog.bindingFile index decl.name = .error malformed → MayGive order (.error malformed)

end Catalog

/-- The files for the types that some assemblies declare, in the order of declaration. -/
def bindingFilesOf (assemblies : List Assembly) (rules : PackageRules) :
    Except MalformedType (List BindingFile) :=
  let catalog := Catalog.ofAssemblies assemblies rules
  catalog.bindingFilesFor catalog.world.typesWithFile

/-- What may come of the files for the types that some assemblies declare. -/
def MayGiveFiles (assemblies : List Assembly) (rules : PackageRules)
    (answer : Except MalformedType (List BindingFile)) : Prop :=
  let catalog := Catalog.ofAssemblies assemblies rules
  catalog.MayGive catalog.world.typesWithFile answer

end ExternBindings
