/-
**Base types and interfaces in a world.**

A type is linked to the declarations that its base and its interfaces resolve to.

* `World.ancestors` follows the bases, nearest first, and stops before it comes to a type again;
* `preorder` walks along links depth first: a type comes before what it is linked to, and each type
  is visited once;
* `World.contracts` are the public interfaces reached by interface links alone, and
  `World.allContracts` those reached by links of both kinds. Types that are not listed are
  walked through all the same.
-/

import ExternBindings.World.Basic

namespace ExternBindings

/-- The nodes met when the pending ones, and all that they are linked to, are visited in turn;
`seen` are those visited before. At most `limit` pending nodes are taken up. -/
def preorder (links : TypeIndex → List TypeIndex) :
    Nat → List TypeIndex → List TypeIndex → List TypeIndex
  | 0, _, seen => seen
  | _, [], seen => seen
  | limit + 1, node :: pending, seen =>
    if node ∈ seen then preorder links limit pending seen
    else preorder links limit (links node ++ pending) (seen ++ [node])

/-- The chain of nodes in which each is the next of the one before, up to the first one that was
seen; at most `limit` long. -/
def chain (next? : TypeIndex → Option TypeIndex) :
    Nat → List TypeIndex → TypeIndex → List TypeIndex
  | 0, _, _ => []
  | limit + 1, seen, node =>
    match next? node with
    | none => []
    | some next => if next ∈ seen then [] else next :: chain next? limit (next :: seen) next

namespace World

variable (world : World)

/-- The declaration that a type's base resolves to. -/
def base? (index : TypeIndex) : Option TypeIndex :=
  (world.decl? index).bind fun decl => decl.base?.bind world.target?

/-- The declarations that a type's interfaces resolve to, in order. -/
def implemented (index : TypeIndex) : List TypeIndex :=
  (world.decl? index).elim [] fun decl => decl.interfaces.filterMap world.target?

/-- The declarations that a type's base and interfaces resolve to, in order. -/
def parents (index : TypeIndex) : List TypeIndex :=
  (world.base? index).toList ++ world.implemented index

/-- The base of a type, the base of that one, and so on. -/
def ancestors (index : TypeIndex) : List TypeIndex :=
  chain world.base? world.entries.length [index] index

/-- The number of links that leave the types of the world. A walk that starts with one pending
node takes up at most one more node than there are links. -/
def linkCount (links : TypeIndex → List TypeIndex) : Nat :=
  (world.indices.flatMap links).length

/-- The types reached from `index` along links, itself the first. -/
def reached (links : TypeIndex → List TypeIndex) (index : TypeIndex) : List TypeIndex :=
  preorder links (world.linkCount links + 1) [index] []

/-- The public interfaces reached from `index` along links. -/
def interfacesReached (links : TypeIndex → List TypeIndex) (index : TypeIndex) : List TypeIndex :=
  (world.reached links index).filter fun other =>
    other ≠ index && world.isPublicInterface other

/-- The public interfaces that a type itself has to satisfy. -/
def contracts (index : TypeIndex) : List TypeIndex :=
  world.interfacesReached world.implemented index

/-- The public interfaces that a type or one of its ancestors has to satisfy. -/
def allContracts (index : TypeIndex) : List TypeIndex :=
  world.interfacesReached world.parents index

/-- The unqualified names of the methods that a type's contracts require. -/
def requiredNames (index : TypeIndex) : List String :=
  (world.contracts index).flatMap fun contract =>
    (world.methods contract).map Method.unqualifiedName

/-- The methods of a type's ancestors, nearest ancestor first, each with the type it belongs to. -/
def inheritedMethods (index : TypeIndex) : List (TypeIndex × Method) :=
  (world.ancestors index).flatMap fun ancestor =>
    (world.methods ancestor).map fun method => (ancestor, method)

end World

end ExternBindings
