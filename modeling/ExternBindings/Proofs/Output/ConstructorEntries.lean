/-
**What goes by the name of the function that constructs values.**

Constructors are declared as the function `new`. The name is not reserved for them: a method that is
called `new` itself is declared under the name it has, and so is the inherited method beside it.

* `Catalog.ownSources`, `Catalog.ancestralSources` — the methods whose forms are drafted for a name:
  those of the type, and the inherited ones that some of them are declared beside;
* `Catalog.ownSources_eq`, `Catalog.ancestralSources_eq` — which ones these are, for every name;
* `TypeDecl.functionName_eq_constructorName_iff` — which methods go by the name of constructors;
* `Catalog.constructor_entries` — **the forms of the function that constructs values are those of the
  public constructors, of the methods called `new`, and of the inherited methods beside them**. It
  leaves open what becomes of a constructor that is not public and whose name an interface asks for.

That there are such methods and constructors is `Catalog.exists_entry_not_constructor`.
-/

import Mathlib.Data.List.Basic
import ExternBindings.Proofs.Listing.Characters
import ExternBindings.Proofs.Output.FunctionForms
import ExternBindings.Proofs.World.Nesting

namespace ExternBindings

/-! ### Treatments -/

/-- Whether the method is written down in the type. -/
def Treatment.isWritten : Treatment → Bool
  | skipped | inherited => false
  | declared | redeclared _ => true

/-- The inherited method that the method is declared beside. -/
def Treatment.ancestor? : Treatment → Option Method
  | redeclared ancestor => some ancestor.method
  | skipped | inherited | declared => none

/-- A constructor is written down exactly if it can be seen. -/
theorem World.isWritten_treatment_of_isConstructor {world : World} {index : TypeIndex}
    {method : Method} (constructs : method.isConstructor = true) :
    (world.treatment index method).isWritten = world.isVisible index method := by
  have byName : method.isCalledByName = true := by
    unfold Method.isConstructor at constructs
    unfold Method.isCalledByName
    rw [of_decide_eq_true constructs]
  have notOnValues : method.isInstanceMember = false := by
    unfold Method.isInstanceMember
    rw [constructs, Bool.not_true, Bool.and_false]
  unfold World.treatment World.isDeclarable
  rw [byName, notOnValues, Bool.true_and]
  cases world.isVisible index method <;> rfl

/-! ### Names -/

/-- A name with type parameters behind it does not construct values. -/
theorem append_ne_constructorName (name parameters : String) :
    name ++ "<" ++ parameters ++ ">" ≠ constructorName := by
  intro same
  have letter := congrArg (fun text => text.toList.getLast?) same
  rw [String.toList_append, show (">" : String).toList = ['>'] from by decide,
    List.getLast?_concat] at letter
  revert letter
  decide

/-- **The methods that go by the name of constructors** are the constructors and the methods called
`new`, except for static ones of generic types. -/
theorem TypeDecl.functionName_eq_constructorName_iff {decl : TypeDecl} {method : Method} :
    decl.functionName method = constructorName ↔
      method.isConstructor = true ∨ method.unqualifiedName = constructorName ∧
        (method.isStatic = false ∨ decl.genericParameters.isEmpty = true) := by
  unfold functionName
  cases method.isConstructor with
  | true => simp
  | false =>
    cases method.isStatic <;> cases decl.genericParameters.isEmpty <;>
      simp [append_ne_constructorName]

namespace Catalog

variable {catalog : Catalog} {site : Site} {index : TypeIndex} {decl : TypeDecl} {name : String}

/-! ### The sources of a function -/

/-- The forms that are drafted for a name, in the order of declaration. -/
def draftedForms (catalog : Catalog) (site : Site) (index : TypeIndex) (name : String) :
    List FunctionForm :=
  ((catalog.drafts site index).filter fun draft => draft.name = name).flatMap FormDraft.forms

/-- The methods of the type whose own forms are drafted for a name. -/
def ownSources (catalog : Catalog) (site : Site) (index : TypeIndex) (name : String) :
    List Method :=
  ((catalog.draftedForms site index name).filter fun form => !form.isAncestral).map
    FunctionForm.source

/-- The inherited methods whose forms are drafted for a name. -/
def ancestralSources (catalog : Catalog) (site : Site) (index : TypeIndex) (name : String) :
    List Method :=
  ((catalog.draftedForms site index name).filter FunctionForm.isAncestral).map FunctionForm.source

theorem mem_draftedForms_iff {form : FunctionForm} :
    form ∈ catalog.draftedForms site index name ↔
      ∃ draft ∈ catalog.drafts site index, draft.name = name ∧ form ∈ draft.forms := by
  unfold draftedForms
  simp only [List.mem_flatMap, List.mem_filter, decide_eq_true_eq, and_assoc]

/-- The forms that a method adds to the function of a name. -/
def formsFor (catalog : Catalog) (site : Site) (index : TypeIndex) (decl : TypeDecl) (name : String)
    (method : Method) : List FunctionForm :=
  if decl.functionName method = name then
    (catalog.draft? site index decl method).elim [] FormDraft.forms
  else []

/-- **Each method adds its forms in its turn.** -/
theorem draftedForms_eq (found : catalog.world.decl? index = some decl) :
    catalog.draftedForms site index name =
      decl.methods.flatMap (catalog.formsFor site index decl name) := by
  unfold draftedForms drafts
  rw [found, Option.elim_some]
  induction decl.methods with
  | nil => rfl
  | cons method rest hypothesis =>
    rw [List.flatMap_cons, ← hypothesis, List.filterMap_cons]
    unfold formsFor
    cases drafted : catalog.draft? site index decl method with
    | none => simp
    | some draft =>
      dsimp only
      rw [List.filter_cons, (draft?_cases drafted).1]
      by_cases named : decl.functionName method = name <;> simp [named]

/-- What a method adds of its own. -/
theorem own_formsFor (method : Method) :
    ((catalog.formsFor site index decl name method).filter fun form => !form.isAncestral).map
        FunctionForm.source =
      [method].filter fun method =>
        decl.functionName method = name && (catalog.world.treatment index method).isWritten := by
  unfold formsFor draft?
  by_cases named : decl.functionName method = name <;>
    cases treated : catalog.world.treatment index method <;>
      simp [named, treated, Treatment.isWritten]

/-- What a method adds for the inherited one that it is declared beside. -/
theorem ancestral_formsFor (method : Method) :
    ((catalog.formsFor site index decl name method).filter FunctionForm.isAncestral).map
        FunctionForm.source =
      ([method].filter fun method => decl.functionName method = name).filterMap fun method =>
        (catalog.world.treatment index method).ancestor? := by
  unfold formsFor draft?
  by_cases named : decl.functionName method = name <;>
    cases treated : catalog.world.treatment index method <;>
      simp [named, treated, Treatment.ancestor?]

/-- **The own forms of a function are those of the methods of its name that are written.** -/
theorem ownSources_eq (found : catalog.world.decl? index = some decl) :
    catalog.ownSources site index name = decl.methods.filter fun method =>
      decl.functionName method = name && (catalog.world.treatment index method).isWritten := by
  unfold ownSources
  rw [draftedForms_eq found]
  induction decl.methods with
  | nil => rfl
  | cons method rest hypothesis =>
    rw [List.flatMap_cons, List.filter_append, List.map_append, hypothesis, own_formsFor,
      ← List.filter_append, List.singleton_append]

/-- **The ancestral forms of a function are those of the inherited methods that methods of its name
are declared beside.** -/
theorem ancestralSources_eq (found : catalog.world.decl? index = some decl) :
    catalog.ancestralSources site index name =
      (decl.methods.filter fun method => decl.functionName method = name).filterMap fun method =>
        (catalog.world.treatment index method).ancestor? := by
  unfold ancestralSources
  rw [draftedForms_eq found]
  induction decl.methods with
  | nil => rfl
  | cons method rest hypothesis =>
    rw [List.flatMap_cons, List.filter_append, List.map_append, hypothesis, ancestral_formsFor,
      ← List.filterMap_append, ← List.filter_append, List.singleton_append]

/-! ### The function that constructs values -/

/-- Whether the method belongs to the function that constructs values: it is a public constructor, or
it is written under the name `new` that it has. -/
def belongsToNew (catalog : Catalog) (index : TypeIndex) (decl : TypeDecl) (method : Method) :
    Bool :=
  if method.isConstructor then method.isPublic
  else method.unqualifiedName = constructorName &&
    (!method.isStatic || decl.genericParameters.isEmpty) &&
      (catalog.world.treatment index method).isWritten

/-- Whether the method is a constructor that only an interface asks for, by its name. -/
def isRequiredConstructor (catalog : Catalog) (index : TypeIndex) (method : Method) : Bool :=
  method.isConstructor && !method.isPublic && catalog.world.isRequired index method

theorem belongsToNew_eq {method : Method} :
    (!catalog.isRequiredConstructor index method &&
      (decide (decl.functionName method = constructorName) &&
        (catalog.world.treatment index method).isWritten)) =
      (catalog.belongsToNew index decl method) := by
  unfold isRequiredConstructor belongsToNew
  cases constructs : method.isConstructor with
  | true =>
    rw [functionName_eq_constructorName decl constructs,
      World.isWritten_treatment_of_isConstructor constructs, if_pos rfl, decide_eq_true rfl]
    unfold World.isVisible
    cases method.isPublic <;> cases catalog.world.isRequired index method <;> decide
  | false =>
    have named : decide (decl.functionName method = constructorName) =
        (decide (method.unqualifiedName = constructorName) &&
          (!method.isStatic || decl.genericParameters.isEmpty)) := by
      rw [Bool.eq_iff_iff]
      simp [TypeDecl.functionName_eq_constructorName_iff, constructs]
    rw [named]
    simp

/-- A method beside which an inherited one is declared belongs to the function that constructs values
exactly if it goes by its name, and the inherited one then goes by it too. -/
theorem belongsToNew_of_ancestor? (decl : TypeDecl) {method ancestor : Method}
    (beside : (catalog.world.treatment index method).ancestor? = some ancestor) :
    catalog.belongsToNew index decl method = decide (decl.functionName method = constructorName) ∧
      ancestor.isConstructor = false ∧ ancestor.unqualifiedName = method.unqualifiedName ∧
        decl.functionName method = method.unqualifiedName ∧
          ∃ owner ∈ catalog.world.ancestors index, ancestor ∈ catalog.world.methods owner := by
  cases became : catalog.world.treatment index method with
  | skipped | inherited | declared =>
    rw [became] at beside
    cases beside
  | redeclared inherited =>
    rw [became] at beside
    obtain rfl := Option.some.inj beside
    have onValues := (World.treatment_eq_redeclared_iff.mp became).2.1
    obtain ⟨notStatic, notConstructor⟩ := Method.isInstanceMember_iff.mp onValues
    obtain ⟨arity, isInherited⟩ := World.isInherited_of_treatment_eq_redeclared became
    obtain ⟨ordinary, sameName, -⟩ := World.answersTo_iff.mp isInherited.answers
    refine ⟨?_, ordinary, sameName, functionName_eq_unqualifiedName decl onValues, inherited.owner,
      isInherited.ancestor, isInherited.declared⟩
    rw [functionName_eq_unqualifiedName decl onValues]
    unfold belongsToNew
    rw [notConstructor, notStatic, became]
    simp [Treatment.isWritten]

/-- **What the function that constructs values is made of.** Constructors that only an interface asks
for apart, its own forms are those of the methods that belong to it, in the order of declaration; its
ancestral ones are those of the inherited methods beside such methods, and are called `new` as well.
All forms of that name in the functions of the type are among these. -/
theorem constructor_entries (site : Site) (found : catalog.world.decl? index = some decl) :
    (catalog.ownSources site index constructorName).filter
        (fun method => !catalog.isRequiredConstructor index method) =
      decl.methods.filter (catalog.belongsToNew index decl) ∧
    catalog.ancestralSources site index constructorName =
      (decl.methods.filter (catalog.belongsToNew index decl)).filterMap
        (fun method => (catalog.world.treatment index method).ancestor?) ∧
    (∀ method ∈ catalog.ancestralSources site index constructorName,
      method.isConstructor = false ∧ method.unqualifiedName = constructorName ∧
        ∃ owner ∈ catalog.world.ancestors index, method ∈ catalog.world.methods owner) ∧
    ∀ form, HasForm (catalog.functionsOf site index).groups constructorName form →
      form.source ∈ if form.isAncestral then catalog.ancestralSources site index constructorName
        else catalog.ownSources site index constructorName := by
  refine ⟨?_, ?_, fun ancestor member => ?_, fun form has => ?_⟩
  · rw [ownSources_eq found, List.filter_filter]
    simp only [belongsToNew_eq]
  · rw [ancestralSources_eq found, List.filterMap_filter, List.filterMap_filter]
    refine List.filterMap_congr fun method _ => ?_
    cases beside : (catalog.world.treatment index method).ancestor? with
    | none => simp
    | some ancestor => rw [(belongsToNew_of_ancestor? decl beside).1]
  · rw [ancestralSources_eq found, List.mem_filterMap] at member
    obtain ⟨method, member, beside⟩ := member
    obtain ⟨-, named⟩ := List.mem_filter.mp member
    obtain ⟨-, ordinary, sameName, ownName, declared⟩ := belongsToNew_of_ancestor? decl beside
    exact ⟨ordinary, sameName.trans (ownName.symm.trans (of_decide_eq_true named)), declared⟩
  · have drafted := mem_draftedForms_iff.mpr (exists_draft_of_hasForm_groups has)
    cases isAncestral : form.isAncestral with
    | true => exact List.mem_map_of_mem (List.mem_filter.mpr ⟨drafted, isAncestral⟩)
    | false =>
      exact List.mem_map_of_mem (List.mem_filter.mpr ⟨drafted, by rw [isAncestral]; rfl⟩)

/-! ### Entries of other methods -/

/-- A class that is asked for a constructor of its own and has a static method called `new`, and one
whose method called `new` is declared beside an inherited one. -/
def entryTexts : List String :=
  ["assembly a namespace \x7b public interface I \x7b public method ctor(): X \x7d " ++
      "public class A implements I \x7b ctor() public ctor(x: X) " ++
      "public static method new(): X \x7d \x7d",
    "assembly b namespace \x7b public interface J \x7b public method new(): X \x7d " ++
      "public class B \x7b public method new(): X \x7d " ++
      "public class C extends B implements J \x7b public ctor() public method new(): X \x7d \x7d"]

/-- The types of the listings. -/
def entryCatalog : Catalog :=
  Catalog.ofAssemblies (entryTexts.map Listing.assemblyOf) {}

/-- The name of a method, whether it is a constructor, and whether everyone may call it. -/
def entryOf (method : Method) : String × Bool × Bool :=
  (method.name, method.isConstructor, method.isPublic)

theorem entryCatalog_facts :
    (∀ text ∈ entryTexts, (Listing.readAssembly text).isOk = true) ∧
      (∃ group ∈ (entryCatalog.functionsOf (Site.ofFile { space := "", name := "A" }) 1).groups,
        group.name = constructorName ∧
          ∃ form ∈ group.forms, entryOf form.source = (".ctor", true, false)) ∧
      (∃ group ∈ (entryCatalog.functionsOf (Site.ofFile { space := "", name := "A" }) 1).groups,
        group.name = constructorName ∧
          ∃ form ∈ group.forms, entryOf form.source = ("new", false, true)) ∧
      ((entryCatalog.world.decl? 4).any fun decl =>
        (decl.methods.filter (entryCatalog.belongsToNew 4 decl)).map entryOf =
            [(".ctor", true, true), ("new", false, true)] ∧
          ((decl.methods.filter (entryCatalog.belongsToNew 4 decl)).filterMap fun method =>
            (entryCatalog.world.treatment 4 method).ancestor?).map entryOf =
              [("new", false, true)]) = true := by
  unfold entryCatalog
  rw [Listing.forall_isOk_iff, Listing.map_assemblyOf_eq]
  unfold entryTexts
  simp only [List.map_cons, List.map_nil, String.toList_append]
  repeat rw [String.toList_ofList]
  decide +kernel

/-- The forms beside a constructor are those of a method called `new` and of the inherited one. -/
theorem constructor_entries_beside :
    ∃ decl, entryCatalog.world.decl? 4 = some decl ∧ ∀ site,
      ((entryCatalog.ownSources site 4 constructorName).filter
          fun method => !entryCatalog.isRequiredConstructor 4 method).map entryOf =
        [(".ctor", true, true), ("new", false, true)] ∧
      (entryCatalog.ancestralSources site 4 constructorName).map entryOf =
        [("new", false, true)] := by
  obtain ⟨-, -, -, facts⟩ := entryCatalog_facts
  obtain ⟨decl, found, same⟩ := (Option.any_eq_true _ _).mp facts
  obtain ⟨own, ancestral⟩ := of_decide_eq_true same
  refine ⟨decl, found, fun site => ?_⟩
  obtain ⟨ownEntries, ancestralEntries, -⟩ := constructor_entries site found
  rw [ownEntries, ancestralEntries]
  exact ⟨own, ancestral⟩

/-- A method that constructs nothing, and a constructor that is not public, may be among the forms of
the function that constructs values. -/
theorem exists_entry_not_constructor :
    (∀ text ∈ entryTexts, (Listing.readAssembly text).isOk = true) ∧
      (∃ group ∈ (entryCatalog.functionsOf (Site.ofFile { space := "", name := "A" }) 1).groups,
        group.name = constructorName ∧
          ∃ form ∈ group.forms, entryOf form.source = (".ctor", true, false)) ∧
      ∃ group ∈ (entryCatalog.functionsOf (Site.ofFile { space := "", name := "A" }) 1).groups,
        group.name = constructorName ∧
          ∃ form ∈ group.forms, entryOf form.source = ("new", false, true) := by
  obtain ⟨answered, notPublic, ordinary, -⟩ := entryCatalog_facts
  exact ⟨answered, notPublic, ordinary⟩

end Catalog

end ExternBindings
