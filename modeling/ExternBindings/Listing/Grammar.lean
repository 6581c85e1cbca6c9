/-
**The notation of listings.**

A listing names its assembly and then declares types, namespace by namespace. Each reading below
reads one construct. A member is tried as each kind of declaration in turn, its modifiers read anew
each time.

* `listing` reads all tokens of a text;
* `readListing` reads a text or tells what was expected in it.
-/

import ExternBindings.Listing.Declaration
import ExternBindings.Listing.TypeUse

namespace ExternBindings.Listing

open Reading

/-- A keyword under the name of its construct. -/
def named (construct : Construct) (text : String) : Reading Unit :=
  attempt construct (keyword text)

/-- The modifiers in front of a declaration, possibly none. -/
def modifiers : Reading Modifiers :=
  many (attempt .modifier (oneOf Modifier.words))

/-- The word for the kind of a type. -/
def typeKind : Reading TypeKind :=
  attempt .typeKind
    (oneOf [("class", .classType), ("interface", .interfaceType), ("enum", .enumType)])

/-- The word that starts an accessor. -/
def accessorWord : Reading AccessorWord :=
  attempt .accessorKind (oneOf [("get", .get), ("set", .set), ("add", .add), ("remove", .remove)])

/-- The word in front of a parameter that is passed by reference. -/
def parameterMode : Reading ParameterMode :=
  attempt .parameterMode (oneOf [("out", .out), ("ref", .ref)])

/-! ### Parameters -/

/-- A parameter. -/
def parameter : Reading Parameter :=
  attempt .parameter do
    let mode? ← maybe parameterMode
    let name ← identifier
    mark ':'
    return parameterOfMode mode? name (← typeReference)

/-- The parameters of a method, possibly none. -/
def parameterList : Reading (List Parameter) :=
  attempt .parameterList do
    mark '('
    let parameters ← maybe (separated ',' parameter)
    mark ')'
    return parameters.getD []

/-- The parameters of an indexer. -/
def indexParameters : Reading (List Parameter) :=
  attempt .indexParameters do
    mark '['
    let parameters ← separated ',' parameter
    mark ']'
    return parameters

/-- The names of type parameters. -/
def genericParameters : Reading (List String) :=
  attempt .genericParameters do
    mark '<'
    let names ← separated ',' identifier
    mark '>'
    return names

/-! ### Members -/

/-- One accessor. -/
def accessor : Reading AccessorNode :=
  attempt .accessorDeclaration do
    let start ← start
    let word ← accessorWord
    let modifiers ← modifiers
    mark ';'
    return { word, modifiers, span := { start, stop := ← edge } }

/-- The accessors of a property or event. -/
def accessorBlock : Reading (List AccessorNode) :=
  attempt .accessorBlock do
    mark '{'
    let accessors ← many accessor
    mark '}'
    return accessors

/-- A field. -/
def fieldDeclaration : Reading MemberNode :=
  attempt .fieldDeclaration do
    let start ← start
    let modifiers ← modifiers
    named .fieldKeyword "field"
    let name ← identifier
    mark ':'
    let use ← typeUse
    return { modifiers, body := .field name use.type, span := { start, stop := use.stop } }

/-- A property. -/
def propertyDeclaration : Reading MemberNode :=
  attempt .propertyDeclaration do
    let start ← start
    let modifiers ← modifiers
    named .propertyKeyword "property"
    let name ← dottedName
    mark ':'
    let type ← typeReference
    let parameters ← maybe indexParameters
    let accessors ← accessorBlock
    return {
      modifiers
      body := .property name type (parameters.getD []) accessors
      span := { start, stop := ← edge } }

/-- An event. -/
def eventDeclaration : Reading MemberNode :=
  attempt .eventDeclaration do
    let start ← start
    let modifiers ← modifiers
    named .eventKeyword "event"
    let name ← dottedName
    mark ':'
    let handler ← typeReference
    let accessors ← accessorBlock
    return { modifiers, body := .event name handler accessors, span := { start, stop := ← edge } }

/-- A constructor. -/
def constructorDeclaration : Reading MemberNode :=
  attempt .constructorDeclaration do
    let start ← start
    let modifiers ← modifiers
    named .constructorKeyword "ctor"
    let parameters ← parameterList
    return { modifiers, body := .constructor parameters, span := { start, stop := ← edge } }

/-- A method. -/
def methodDeclaration : Reading MemberNode :=
  attempt .methodDeclaration do
    let start ← start
    let modifiers ← modifiers
    named .methodKeyword "method"
    let name ← dottedName
    let generics ← maybe genericParameters
    let parameters ← parameterList
    mark ':'
    let use ← typeUse
    return {
      modifiers
      body := .method name (generics.getD []) parameters use.type
      span := { start, stop := use.stop } }

/-- A member that is not a type. -/
def memberDeclaration : Reading MemberNode :=
  fieldDeclaration <|> propertyDeclaration <|> eventDeclaration <|> constructorDeclaration <|>
    methodDeclaration

/-! ### Types -/

/-- The type that a type extends. -/
def extendsClause : Reading TypeReference :=
  attempt .extendsClause do
    named .extendsKeyword "extends"
    typeReference

/-- The interfaces that a type implements. -/
def implementsClause : Reading (List TypeReference) :=
  attempt .implementsClause do
    named .implementsKeyword "implements"
    separated ',' typeReference

/-- A type with types nested less than `limit` deep. -/
def typeDeclarationWithin : Nat → Reading TypeNode
  | 0 => fail
  | limit + 1 =>
    attempt .typeDeclaration do
      let start ← start
      let modifiers ← modifiers
      let kind ← typeKind
      let name ← identifier
      let generics ← maybe genericParameters
      let base? ← maybe extendsClause
      let interfaces ← maybe implementsClause
      mark '{'
      let content ← many
        ((do return .inl (← typeDeclarationWithin limit)) <|>
          (do return .inr (← memberDeclaration)))
      mark '}'
      let stop ← edge
      let header : TypeHeader :=
        { modifiers, kind, name, base?
          genericParameters := generics.getD []
          interfaces := interfaces.getD []
          span := { start, stop } }
      return .node header content

/-- A type. Types are never nested deeper than there are tokens. -/
def typeDeclaration : Reading TypeNode := fun tokens =>
  typeDeclarationWithin tokens.length tokens

/-! ### Listings -/

/-- The types of a namespace, which may go without a name. -/
def namespaceDeclaration : Reading NamespaceNode :=
  attempt .namespaceDeclaration do
    named .namespaceKeyword "namespace"
    let space? ← maybe dottedName
    mark '{'
    let types ← many typeDeclaration
    mark '}'
    return { space := space?.getD "", types }

/-- The name of the assembly. -/
def assemblyDeclaration : Reading String :=
  attempt .assemblyDeclaration do
    named .assemblyKeyword "assembly"
    dottedName

/-- A whole listing. -/
def listing : Reading ListingNode :=
  attemptAt edgeOf .listing do
    let assembly ← assemblyDeclaration
    let namespaces ← many namespaceDeclaration
    attempt .endOfText finish
    return { assembly, namespaces }

/-- Reads a text as a listing, or tells what was expected in it. -/
def readListing (text : String) : Except ListingError ListingNode :=
  let tokens := tokensOf text.toList
  match (listing tokens).value? with
  | some (node, _) => .ok node
  | none => .error (.unexpected (explain listing tokens))

end ExternBindings.Listing
