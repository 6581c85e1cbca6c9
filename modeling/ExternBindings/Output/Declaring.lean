/-
**From declared types to generated declarations.**

* `Catalog.declaration` is the declaration for one type at a site;
* `MalformedType` are the two ways in which a type cannot be declared: an enumeration without an
  instance field, and an event whose handler type cannot be called.
-/

import ExternBindings.Output.Declaration

namespace ExternBindings

/-- Why a type cannot be declared. -/
inductive TypeFlaw where
  /-- an enumeration has no field for its value -/
  | noStorage
  /-- the handler type of the event has no method to call it by -/
  | noInvoke (event : String)

/-- A type that cannot be declared, or that another one cannot be declared for. -/
structure MalformedType where
  /-- the written name of the type -/
  subject : String
  flaw : TypeFlaw

/-- The flaw in words. -/
def TypeFlaw.reason : TypeFlaw → String
  | noStorage => "enum has no instance storage field"
  | noInvoke event => "delegate used by event `" ++ event ++ "` has no Invoke method"

namespace Catalog

variable (catalog : Catalog)

/-! ### Events -/

/-- The parameter of a handler that an event passes on: the only one, or the second of two. -/
def handlerParameter? (invoke : Method) : Option Parameter :=
  match invoke.parameters with
  | [only] => some only
  | [_, second] => some second
  | _ => none

/-- The type that a type parameter of the handler stands for in a reference to the handler. -/
def instantiate (handler : TypeDecl) (reference argument : TypeReference) : TypeReference :=
  match argument, reference with
  | .parameter _ name, .instantiation _ arguments =>
    ((handler.genericParameters.findIdx? fun parameter => parameter = name).bind fun position =>
      arguments[position]?).getD argument
  | _, _ => argument

/-- The name of the handler type of events with so many handler parameters. -/
def eventHead (arity : Nat) : QualifiedName :=
  { space := "System", name := if arity = 1 then "NativeEvent1" else "NativeEvent" }

/-- The line for an event whose adder everyone may call, if its handler is known. -/
def eventFor? (site : Site) (event : Event) (adder : Method) :
    Except MalformedType (Option EventLine) :=
  match (catalog.world.target? event.handler).bind catalog.world.decl? with
  | none => .ok none
  | some handler =>
    match handler.invoke? with
    | none => .error { subject := handler.name.text, flaw := .noInvoke event.name }
    | some invoke =>
      .ok ((handlerParameter? invoke).map fun parameter =>
        { isStatic := adder.isStatic
          name := unqualified event.name
          head := catalog.nameAt site (eventHead invoke.arity)
          argument :=
            catalog.typeExpr site .general (instantiate handler event.handler parameter.type) })

/-- The lines for the events of a type, in order, up to the first one that cannot be declared. -/
def eventLines (site : Site) (decl : TypeDecl) : List Event → Except MalformedType (List EventLine)
  | [] => .ok []
  | event :: rest => do
    let line? ← match (decl.accessor? event.adder?).filter Method.isPublic with
      | none => pure none
      | some adder => catalog.eventFor? site event adder
    return line?.toList ++ (← eventLines site decl rest)

/-! ### Fields and properties -/

/-- The lines for the fields that everyone may use. -/
def fieldLines (site : Site) (decl : TypeDecl) : List FieldLine :=
  (decl.fields.filter fun field => field.visibility.isPublic).map fun field =>
    { isStatic := field.isStatic
      name := field.name
      type := catalog.typeExpr site .exact field.type }

/-- Whether there is nothing to declare for an accessor, since an ancestor has it or there is
none. -/
def isInherited (index : TypeIndex) (accessor? : Option Method) : Bool :=
  accessor?.all fun accessor => (catalog.world.visibleInherited? index accessor .any).isSome

/-- Whether everyone may call an accessor and no ancestor's accessor takes its place. -/
def isExposed (index : TypeIndex) (accessor? : Option Method) : Bool :=
  accessor?.any fun accessor =>
    accessor.isPublic && !catalog.world.isSuperfluous index accessor

/-- The line for a property, unless it is inherited or nobody may use it. -/
def propertyFor? (site : Site) (index : TypeIndex) (decl : TypeDecl) (property : Property) :
    Option PropertyLine :=
  let getter? := decl.accessor? property.getter?
  let setter? := decl.accessor? property.setter?
  if catalog.isInherited index getter? && catalog.isInherited index setter? then none
  else if !catalog.isExposed index getter? && !catalog.isExposed index setter? then none
  else
    (getter?.or setter?).map fun accessor =>
      { attributes := decl.attributes accessor false
        name := unqualified property.name
        isReadable := getter?.any Method.isPublic
        isWritable := setter?.any Method.isPublic
        type := catalog.typeExpr site .exact property.type }

/-- The lines for the properties without parameters. -/
def propertyLines (site : Site) (index : TypeIndex) (decl : TypeDecl) : List PropertyLine :=
  (decl.properties.filter fun property => !property.isIndexer).filterMap
    (catalog.propertyFor? site index decl)

/-! ### Declarations -/

/-- The interfaces to name: all but those known to be closed to others. -/
def interfaceExprs (site : Site) (decl : TypeDecl) : List TypeExpr :=
  (decl.interfaces.filter fun reference =>
    (catalog.world.target? reference).all catalog.world.isPublic).map
      (catalog.typeExpr site .exact)

/-- The declaration for an enumeration. -/
def enumDeclaration (site : Site) (decl : TypeDecl) : Except MalformedType EnumDeclaration :=
  match decl.fields.find? fun field => !field.isStatic with
  | none => .error { subject := decl.name.text, flaw := .noStorage }
  | some storage =>
    .ok
      { runtimeName := decl.name.familyKey
        name := catalog.world.flatName decl.name
        storage := catalog.typeExpr site .general storage.type
        tags := (decl.fields.filter fun field => field.isStatic && !field.isSpecialName).map
          Field.name }

/-- The declaration for a class or interface. -/
def classDeclaration (site : Site) (index : TypeIndex) (decl : TypeDecl) :
    Except MalformedType ClassDeclaration := do
  let events ← catalog.eventLines site decl decl.events
  return {
    runtimeName := decl.name.familyKey
    isInterface := decl.isInterface
    isFinal := decl.isSealed && !decl.isInterface
    name := catalog.world.flatName decl.name
    genericParameters := decl.genericParameters
    base? := decl.base?.map (catalog.typeExpr site .exact)
    interfaces := catalog.interfaceExprs site decl
    events
    fields := if decl.isInterface then [] else catalog.fieldLines site decl
    properties := if decl.isInterface then [] else catalog.propertyLines site index decl
    methods := catalog.functionsOf site index }

/-- The declaration for a type, without those declared inside of it. -/
def declaration (site : Site) (index : TypeIndex) (decl : TypeDecl) :
    Except MalformedType Declaration :=
  if decl.isEnum then Declaration.enumeration <$> catalog.enumDeclaration site decl
  else Declaration.classLike <$> catalog.classDeclaration site index decl

end Catalog

end ExternBindings
