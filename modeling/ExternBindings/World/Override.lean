/-
**Which methods are declared anew.**

The generated declarations know single inheritance and no explicit implementations, so a method
whose ancestor already declares it is written down again only for a contract that the ancestor does
not have to satisfy.

* `World.visibleInherited?` is the nearest inherited method of the same unqualified name, if it can
  be seen;
* `World.treatment` tells for a method of a type whether it is skipped, inherited, declared, or
  declared beside the ancestor's method;
* `World.callableNames` are the names that a static method of the type must not share.
-/

import ExternBindings.World.Hierarchy

namespace ExternBindings

/-- Whether a search for an inherited method compares the numbers of parameters. -/
inductive ArityRule where
  | exact
  | any
  deriving DecidableEq

/-- An inherited method with the type that declares it. -/
structure InheritedMethod where
  owner : TypeIndex
  method : Method

/-- What becomes of a method of a type that is declared. -/
inductive Treatment where
  /-- an accessor, an operator, or a method that nobody outside can see -/
  | skipped
  /-- declared by an ancestor already -/
  | inherited
  /-- declared like any other -/
  | declared
  /-- declared for a contract that the ancestor need not satisfy, beside the ancestor's method -/
  | redeclared (ancestor : InheritedMethod)

namespace World

variable (world : World)

/-- Whether a contract of the type requires a method of this unqualified name. -/
def isRequired (owner : TypeIndex) (method : Method) : Bool :=
  method.unqualifiedName ∈ world.requiredNames owner

/-- Whether the method can be seen from outside of the type that declares it. -/
def isVisible (owner : TypeIndex) (method : Method) : Bool :=
  method.isPublic || world.isRequired owner method

/-- Whether the method may be declared at all. -/
def isDeclarable (owner : TypeIndex) (method : Method) : Bool :=
  method.isCalledByName && world.isVisible owner method

/-- Whether an inherited method answers to the same name, with the same number of parameters where
that counts. -/
def answersTo (method : Method) (arity : ArityRule) (candidate : Method) : Bool :=
  !candidate.isConstructor && candidate.unqualifiedName = method.unqualifiedName &&
    (arity = .any || candidate.arity = method.arity)

/-- The nearest inherited method that answers to the same name. -/
def nearestInherited? (owner : TypeIndex) (method : Method) (arity : ArityRule) :
    Option InheritedMethod :=
  ((world.inheritedMethods owner).find? fun (_, candidate) =>
    answersTo method arity candidate).map fun (owner, method) => { owner, method }

/-- The nearest inherited method that answers to the same name, if it can be seen. -/
def visibleInherited? (owner : TypeIndex) (method : Method) (arity : ArityRule) :
    Option InheritedMethod :=
  (world.nearestInherited? owner method arity).filter fun ancestor =>
    world.isVisible ancestor.owner ancestor.method

/-- Whether a contract of `owner` that `ancestor` need not satisfy requires the method's name. -/
def addsContract (owner : TypeIndex) (method : Method) (ancestor : TypeIndex) : Bool :=
  let inherited := world.allContracts ancestor
  (world.contracts owner).any fun contract =>
    !inherited.contains contract &&
      (world.methods contract).any fun required => required.unqualifiedName = method.unqualifiedName

/-- Whether an inherited method with as many parameters makes the method superfluous. -/
def isSuperfluous (owner : TypeIndex) (method : Method) : Bool :=
  method.isInstanceMember &&
    (world.visibleInherited? owner method .exact).any fun ancestor =>
      !world.addsContract owner method ancestor.owner

/-- What becomes of a method of the type. -/
def treatment (owner : TypeIndex) (method : Method) : Treatment :=
  if !world.isDeclarable owner method then .skipped
  else if !method.isInstanceMember then .declared
  else
    let sameArity? := world.visibleInherited? owner method .exact
    match sameArity?.or (world.visibleInherited? owner method .any) with
    | none => .declared
    | some ancestor =>
      if world.addsContract owner method ancestor.owner then .redeclared ancestor
      else if sameArity?.isSome then .inherited
      else .declared

/-- The names of the methods that a type itself lets everyone call on its values. -/
def ownCallableNames (index : TypeIndex) : List String :=
  ((world.methods index).filter fun method =>
    method.isInstanceMember && method.isPublic && method.isCalledByName &&
      !world.isSuperfluous index method).map Method.unqualifiedName

/-- The names of the methods that can be called on a value of the type: its own, its ancestors' and
those of all its interfaces. -/
def callableNames (index : TypeIndex) : List String :=
  (index :: world.ancestors index ++ world.allContracts index).flatMap world.ownCallableNames

end World

end ExternBindings
