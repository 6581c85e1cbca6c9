/-
**Packages for namespaces.**

Every namespace becomes a package of the same name in lower case below a common first package. The
rules of a run change that for the namespaces that the given assemblies declare, and a root package
stays above the common one.

* `PackageLayout.packageFor` is the package of a namespace;
* `PackageLayout.qualification` is what goes in front of a name from it.
-/

import ExternBindings.Text.Lowercase
import ExternBindings.Text.Segments

namespace ExternBindings

/-- How namespaces become packages. -/
structure PackageRules where
  /-- takes the place of the common first package for declared namespaces -/
  replacement? : Option String := none
  /-- drops the common first package for declared namespaces -/
  skipsFirst : Bool := false
  /-- packages that do not go below the common first package -/
  rootPackages : List String := []

/-- The rules together with the namespaces that the assemblies declare. -/
structure PackageLayout where
  rules : PackageRules
  declared : List String

/-- The package that all others are in, unless the rules say otherwise. -/
def firstPackage : String :=
  "dotnet"

/-- The package of a lower-case name inside of another package; either may be missing. -/
def packageWithin (outer lowered : String) : String :=
  if outer.isEmpty then lowered
  else if lowered.isEmpty then outer
  else outer ++ "." ++ lowered

namespace PackageLayout

variable (layout : PackageLayout)

/-- The package of a namespace that the rules for declared namespaces do not apply to. -/
def commonPackage (lowered : String) : String :=
  if !lowered.isEmpty && (layout.rules.rootPackages.map Text.lowercase).contains lowered then
    lowered
  else packageWithin firstPackage lowered

/-- The package of a namespace; empty for the one without a name. -/
def packageFor (space : String) : String :=
  let lowered := Text.lowercase space
  if layout.declared.contains space then
    match layout.rules.replacement? with
    | some outer => packageWithin outer lowered
    | none => if layout.rules.skipsFirst then lowered else layout.commonPackage lowered
  else layout.commonPackage lowered

/-- The package of a namespace with a dot behind it, or nothing. -/
def qualification (space : String) : String :=
  let package := layout.packageFor space
  if package.isEmpty then "" else package ++ "."

end PackageLayout

end ExternBindings
