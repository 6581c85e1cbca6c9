/-
**Function groups.**

A generated type has one function per name, with overloads beside it. Each method of a type drafts
some forms of a function (`Catalog.drafts`); the forms of one name are gathered and put in order
(`FunctionGroup.ofDraft`). Static methods may not share a name with methods that are called on a
value; where they would, all static methods go to a companion declaration (`Catalog.functionsOf`).

* `mem_inOrder`: putting forms in order loses none and adds none;
* the last form of a group is its principal one, the others are overloads.
-/

import ExternBindings.Output.Signature
import ExternBindings.World.Override

namespace ExternBindings

/-- One form of a generated function. -/
structure FunctionForm where
  attributes : Attributes
  signature : Signature
  /-- the method that the signature belongs to -/
  source : Method
  /-- whether it is an ancestor's signature, kept beside that of the overriding method -/
  isAncestral : Bool

/-- The number of parameters of the method that the form belongs to. -/
def FunctionForm.arity (form : FunctionForm) : Nat :=
  form.source.arity

/-- The signature as written. -/
def FunctionForm.text (form : FunctionForm) : String :=
  form.signature.text

/-- All forms of a generated function. -/
structure FunctionGroup where
  name : String
  forms : List FunctionForm

namespace FunctionGroup

/-- The form that the function itself is declared with. -/
def principal? (group : FunctionGroup) : Option FunctionForm :=
  group.forms.getLast?

/-- The forms beside the principal one. -/
def overloads (group : FunctionGroup) : List FunctionForm :=
  group.forms.dropLast

end FunctionGroup

/-! ### Order within a group -/

/-- Whether a form may stand before another: the one with more parameters goes first, and with
equally many the one whose signature comes first as text. -/
def FunctionForm.mayPrecede (first second : FunctionForm) : Bool :=
  second.arity < first.arity || (first.arity = second.arity && first.text ≤ second.text)

/-- The forms in order. Ancestral ones go first, and beside them the others keep the order of their
declarations. -/
def inOrder (forms : List FunctionForm) : List FunctionForm :=
  if forms.any FunctionForm.isAncestral then
    forms.filter FunctionForm.isAncestral ++ forms.filter fun form => !form.isAncestral
  else sortBy FunctionForm.mayPrecede forms

/-- Putting forms in order loses none and adds none. -/
theorem mem_inOrder {form : FunctionForm} {forms : List FunctionForm} :
    form ∈ inOrder forms ↔ form ∈ forms := by
  rw [inOrder]
  split
  · simp only [List.mem_append, List.mem_filter, Bool.not_eq_true']
    constructor
    · rintro (member | member) <;> exact member.1
    · intro member
      cases ancestral : form.isAncestral
      · exact Or.inr ⟨member, rfl⟩
      · exact Or.inl ⟨member, rfl⟩
  · exact (sortBy_perm _ _).mem_iff

/-- The overloads that say something new, each signature once; `seen` are those kept so far. An
overload with the principal signature is kept only if it is ancestral. -/
def distinctOverloads (principal : String) (seen : List String) :
    List FunctionForm → List FunctionForm
  | [] => []
  | form :: rest =>
    if (form.isAncestral || form.text ≠ principal) && !seen.contains form.text then
      form :: distinctOverloads principal (form.text :: seen) rest
    else distinctOverloads principal seen rest

/-- The group of the drafted forms of a name. -/
def FunctionGroup.ofDraft (name : String) (forms : List FunctionForm) : FunctionGroup :=
  let ordered := inOrder forms
  match ordered.getLast? with
  | none => { name, forms := [] }
  | some principal =>
    { name, forms := distinctOverloads principal.text [] ordered.dropLast ++ [principal] }

/-! ### Drafts -/

/-- What one method adds to the function of its name. -/
structure FormDraft where
  name : String
  isStatic : Bool
  forms : List FunctionForm

/-- The name of the function that constructs values. -/
def constructorName : String :=
  "new"

/-- The name under which a method of the type is declared. A static one of a generic type has the
type's parameters behind its name. -/
def TypeDecl.functionName (decl : TypeDecl) (method : Method) : String :=
  if method.isConstructor then constructorName
  else if method.isStatic && !decl.genericParameters.isEmpty then
    method.unqualifiedName ++ "<" ++ Text.join "," decl.genericParameters ++ ">"
  else method.unqualifiedName

/-- The groups of drafts, in the order of their names. -/
def groupsOf (drafts : List FormDraft) : List FunctionGroup :=
  (sortedDistinct (drafts.map FormDraft.name)).map fun name =>
    FunctionGroup.ofDraft name
      ((drafts.filter fun draft => draft.name = name).flatMap FormDraft.forms)

/-- The functions of a generated type and, if there has to be one, of its companion. -/
structure FunctionTable where
  primary : List FunctionGroup
  companion? : Option (List FunctionGroup)

namespace Catalog

variable (catalog : Catalog)

/-- What a method of a type adds to the function of its name. -/
def draft? (site : Site) (index : TypeIndex) (decl : TypeDecl) (method : Method) :
    Option FormDraft :=
  let draftBeside (ancestor? : Option Method) : FormDraft :=
    let attributes := decl.attributes method ancestor?.isSome
    let form (source : Method) (isAncestral : Bool) : FunctionForm :=
      { attributes, signature := catalog.signature site source, source, isAncestral }
    { name := decl.functionName method
      isStatic := method.isStaticMember
      forms := (ancestor?.map fun ancestor => form ancestor true).toList ++ [form method false] }
  match catalog.world.treatment index method with
  | .skipped | .inherited => none
  | .declared => some (draftBeside none)
  | .redeclared ancestor => some (draftBeside (some ancestor.method))

/-- What the methods of a type add to its functions, in the order of declaration. -/
def drafts (site : Site) (index : TypeIndex) : List FormDraft :=
  (catalog.world.decl? index).elim [] fun decl =>
    decl.methods.filterMap (catalog.draft? site index decl)

/-- The functions of a type at a site. -/
def functionsOf (site : Site) (index : TypeIndex) : FunctionTable :=
  let drafts := catalog.drafts site index
  let static := drafts.filter FormDraft.isStatic
  let instances := drafts.filter fun draft => !draft.isStatic
  let taken := catalog.world.callableNames index ++ instances.map FormDraft.name
  if static.any fun draft => taken.contains draft.name then
    { primary := groupsOf instances, companion? := some (groupsOf static) }
  else { primary := groupsOf drafts, companion? := none }

end Catalog

end ExternBindings
