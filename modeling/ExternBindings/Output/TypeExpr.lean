/-
**Type expressions in generated declarations.**

A type expression is a type parameter left as it is, a name, or a name applied to arguments.

* `TypeExpr.text` writes an expression; `TypeExpr.parameters` lists the type parameters in it.
-/

import ExternBindings.Text.Segments

namespace ExternBindings

/-- A type in a generated declaration. -/
inductive TypeExpr where
  /-- a type parameter -/
  | parameter (name : String)
  /-- a type by its name -/
  | named (name : String)
  /-- a generic type applied to arguments -/
  | applied (head : String) (arguments : List TypeExpr)

namespace TypeExpr

mutual

/-- The expression as written. -/
def text : TypeExpr → String
  | parameter name => name
  | named name => name
  | applied head arguments => head ++ "<" ++ Text.join "," (texts arguments) ++ ">"

/-- Each expression as written. -/
def texts : List TypeExpr → List String
  | [] => []
  | head :: tail => head.text :: texts tail

end

mutual

/-- The type parameters in an expression, in order. -/
def parameters : TypeExpr → List String
  | parameter name => [name]
  | named _ => []
  | applied _ arguments => parametersOfAll arguments

/-- The type parameters in several expressions, in order. -/
def parametersOfAll : List TypeExpr → List String
  | [] => []
  | head :: tail => head.parameters ++ parametersOfAll tail

end

end TypeExpr

end ExternBindings
