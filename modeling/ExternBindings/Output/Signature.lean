/-
**Signatures and attributes of generated methods.**

* `parameterWord` puts an underscore in front of a reserved word, which cannot name a parameter;
* `Catalog.signature` is the signature of a method at a site, with its own type parameters left out.
-/

import ExternBindings.Output.Catalog

namespace ExternBindings

/-- Words that cannot name a parameter. -/
def reservedWords : List String :=
  ["function", "class", "static", "var", "if", "else", "while", "do", "for", "break", "return",
    "continue", "extends", "implements", "import", "switch", "case", "default", "private",
    "public", "try", "catch", "new", "this", "throw", "extern", "enum", "in", "interface",
    "untyped", "cast", "override", "typedef", "dynamic", "package", "callback", "inline", "using"]

/-- Whether a word cannot name a parameter. -/
def isReserved (word : String) : Bool :=
  reservedWords.contains word

/-- The word that names a parameter. -/
def parameterWord (name : String) : String :=
  if isReserved name then "_" ++ name else name

/-- What callers of a generated method see of it. -/
structure Signature where
  parameters : List (String × TypeExpr)
  returns : TypeExpr

/-- A list of named types as written. -/
def parameterListText (parameters : List (String × TypeExpr)) : String :=
  Text.join ", " (parameters.map fun (name, type) => name ++ ":" ++ type.text)

/-- The signature as written. -/
def Signature.text (signature : Signature) : String :=
  "(" ++ parameterListText signature.parameters ++ ") : " ++ signature.returns.text

/-- The words in front of a generated method or variable. -/
structure Attributes where
  isPublic : Bool
  isStatic : Bool
  isOverride : Bool

/-- The attributes as written. -/
def Attributes.text (attributes : Attributes) : String :=
  (if attributes.isPublic then "public " else "") ++
    (if attributes.isStatic then "static " else "") ++
    (if attributes.isOverride then "override " else "")

/-- The attributes of a method of the type; interfaces do not say that their methods are public. -/
def TypeDecl.attributes (decl : TypeDecl) (method : Method) (isOverride : Bool) : Attributes :=
  { isPublic := method.isPublic && !decl.isInterface
    isStatic := method.isStatic
    isOverride := isOverride && method.isInstanceMember }

namespace Catalog

variable (catalog : Catalog)

/-- A parameter at a site. -/
def parameterExpr (site : Site) (parameter : Parameter) : String × TypeExpr :=
  let type := catalog.typeExpr site .general parameter.type
  (parameterWord parameter.name,
    if parameter.isOut then .applied "cs.Out" [type]
    else if parameter.isByRef then .applied "cs.Ref" [type]
    else type)

/-- Parameters at a site. -/
def parameterExprs (site : Site) (parameters : List Parameter) : List (String × TypeExpr) :=
  parameters.map (catalog.parameterExpr site)

/-- The signature of a method at a site. -/
def signature (site : Site) (method : Method) : Signature :=
  let inside := site.insideMethod method.genericParameters
  { parameters := catalog.parameterExprs inside method.parameters
    returns :=
      if method.isConstructor then .named "Void"
      else catalog.typeExpr inside .general method.returns }

end Catalog

end ExternBindings
