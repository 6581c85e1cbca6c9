/-
**What the line of a property says of its accessors.**

A property that is written at all can be used by everyone in one direction at least, and its line
tells in which ones. The words in front of it come from one of the accessors: the getter or, where
there is none, the setter.

* `propertyText` — a property line, put together from what it says;
* `Catalog.StatesAccessors` — the line says that the property is public, whether it is
  static, and in which directions everyone may use it;
* `Catalog.text_of_propertyFor?` — what the line of a property says in general;
* `Catalog.statesAccessors_iff` — **the line states the accessors exactly if the getter, where there
  is one, is public.** A property with a setter for everyone and a getter of its own is not said to
  be public (`Catalog.exists_line_not_public`).
-/

import ExternBindings.Proofs.Output.Properties

namespace ExternBindings

/-! ### Lines -/

/-- The line of a property, put together from what it says. -/
def propertyText (isPublic isStatic isReadable isWritable : Bool) (name type : String) : String :=
  (if isPublic then "  public " else "  ") ++ (if isStatic then "static var " else "var ") ++ name ++
    (if isReadable && isWritable then ""
      else if isReadable then "(default,never)"
      else if isWritable then "(never,default)"
      else "(never,never)") ++ " : " ++ type ++ ";\n"

theorem PropertyLine.text_eq {line : PropertyLine} (plain : line.attributes.isOverride = false) :
    line.text = propertyText line.attributes.isPublic line.attributes.isStatic line.isReadable
      line.isWritable line.name line.type.text := by
  unfold PropertyLine.text PropertyLine.access Attributes.text propertyText accessWord
  rw [plain, ← String.toList_inj]
  cases line.attributes.isPublic <;> cases line.attributes.isStatic <;> cases line.isReadable <;>
    cases line.isWritable <;> simp [ExternBindings.line, Text.join]

/-- The third letter tells whether a line says that its property is public. -/
theorem isPublic_of_propertyText {isPublic isStatic isReadable isWritable isPublicToo isStaticToo
    isReadableToo isWritableToo : Bool} {name type nameToo typeToo : String}
    (same : propertyText isPublic isStatic isReadable isWritable name type =
      propertyText isPublicToo isStaticToo isReadableToo isWritableToo nameToo typeToo) :
    isPublic = isPublicToo := by
  have letter := congrArg (fun text => text.toList[2]?) same
  revert letter
  unfold propertyText
  simp only [String.toList_append]
  cases isPublic <;> cases isPublicToo <;> cases isStatic <;> cases isStaticToo <;> simp

namespace Catalog

variable {catalog : Catalog} {site : Site} {index : TypeIndex} {decl : TypeDecl}
  {property : Property} {line : PropertyLine}

/-! ### Accessors -/

/-- The accessor that the words in front of a line come from. -/
def leading? (decl : TypeDecl) (property : Property) : Option Method :=
  (decl.accessor? property.getter?).or (decl.accessor? property.setter?)

/-- Whether the accessor at the position is there, and everyone may call it. -/
def isCallable (decl : TypeDecl) (position? : Option Nat) : Bool :=
  (decl.accessor? position?).any Method.isPublic

/-- The line of a property, with these words in front, and with the directions in which everyone may
use the property. -/
def accessText (catalog : Catalog) (site : Site) (decl : TypeDecl) (property : Property)
    (isPublic isStatic : Bool) : String :=
  propertyText isPublic isStatic (isCallable decl property.getter?)
    (isCallable decl property.setter?) (unqualified property.name)
    (catalog.typeExpr site .exact property.type).text

/-- **The line states the accessors of the property**: everyone may call one of them, and the line
says that the property is public, that it is static if all of them are and not if none is, and in
which directions everyone may use it. -/
structure StatesAccessors (catalog : Catalog) (site : Site) (decl : TypeDecl) (property : Property)
    (line : PropertyLine) : Prop where
  accessible : isCallable decl property.getter? = true ∨ isCallable decl property.setter? = true
  written : ∃ isStatic,
    (∀ agreed, (∀ accessor, IsAccessor decl property accessor → accessor.isStatic = agreed) →
      isStatic = agreed) ∧
    line.text = catalog.accessText site decl property true isStatic

theorem isAccessor_of_leading? {first : Method} (leading : leading? decl property = some first) :
    IsAccessor decl property first := by
  rcases Option.or_eq_some_iff.mp leading with getter | ⟨-, setter⟩
  · exact Or.inl getter
  · exact Or.inr setter

theorem isCallable_of_isExposed {position? : Option Nat}
    (exposed : catalog.isExposed index (decl.accessor? position?) = true) :
    isCallable decl position? = true := by
  unfold Catalog.isExposed at exposed
  rw [Option.any_eq_true] at exposed
  obtain ⟨accessor, found, isExposed⟩ := exposed
  unfold isCallable
  rw [found, Option.any_some]
  exact (Bool.and_eq_true _ _ ▸ isExposed).1

/-- A property with a line has an accessor for everyone, and the first of its accessors gives the
words in front of the line. -/
theorem text_of_propertyFor? (isClass : decl.isInterface = false)
    (lined : catalog.propertyFor? site index decl property = some line) :
    (isCallable decl property.getter? = true ∨ isCallable decl property.setter? = true) ∧
      ∃ first, leading? decl property = some first ∧
        line.text = catalog.accessText site decl property first.isPublic first.isStatic := by
  unfold propertyFor? at lined
  dsimp only at lined
  split at lined
  · cases lined
  · split at lined
    · cases lined
    · next hidden =>
      refine ⟨?_, ?_⟩
      · rw [← Bool.not_or, Bool.not_eq_true', Bool.not_eq_false, Bool.or_eq_true] at hidden
        exact hidden.imp isCallable_of_isExposed isCallable_of_isExposed
      · rw [Option.map_eq_some_iff] at lined
        obtain ⟨first, leading, rfl⟩ := lined
        refine ⟨first, leading, ?_⟩
        rw [PropertyLine.text_eq rfl]
        unfold accessText TypeDecl.attributes
        simp only [isClass, Bool.not_false, Bool.and_true]
        rfl

/-- **The line of a property states its accessors exactly if everyone may call the getter, where
there is one.** In general the getter or else the setter gives the words in front. -/
theorem statesAccessors_iff (isClass : decl.isInterface = false)
    (lined : catalog.propertyFor? site index decl property = some line) :
    (catalog.StatesAccessors site decl property line ↔
        ∀ getter, decl.accessor? property.getter? = some getter → getter.isPublic = true) ∧
      (isCallable decl property.getter? = true ∨ isCallable decl property.setter? = true) ∧
        ∃ first, leading? decl property = some first ∧
          line.text = catalog.accessText site decl property first.isPublic first.isStatic := by
  obtain ⟨accessible, first, leading, text⟩ := text_of_propertyFor? isClass lined
  refine ⟨⟨?_, fun forEveryone => ⟨accessible, first.isStatic, ?_, ?_⟩⟩, accessible, first,
    leading, text⟩
  · rintro ⟨-, isStatic, -, stated⟩ getter found
    have same : first = getter := by
      rw [leading?, found] at leading
      exact (Option.some.inj leading).symm
    rw [← same]
    exact isPublic_of_propertyText (text.symm.trans stated)
  · exact fun agreed agree => agree first (isAccessor_of_leading? leading)
  · have isPublic : first.isPublic = true := by
      rcases Option.or_eq_some_iff.mp leading with getter | ⟨missing, setter⟩
      · exact forEveryone first getter
      · unfold isCallable at accessible
        rw [missing, setter] at accessible
        exact accessible.resolve_left Bool.false_ne_true
    rw [text, isPublic]

/-! ### A line without the word -/

/-- A property that everyone may set and only its type may get, and one the other way around. -/
def lineTexts : List String :=
  ["assembly a namespace \x7b class A \x7b public property P: X \x7b get private; set; \x7d \x7d " ++
      "class B \x7b public static property Q: X \x7b get; set private; \x7d \x7d \x7d"]

/-- The types of the listing. -/
def lineCatalog : Catalog :=
  Catalog.ofAssemblies (lineTexts.map Listing.assemblyOf) {}

/-- The class has a property without parameters with this line, and everyone may call the getter, or
not. -/
def hasText (catalog : Catalog) (index : TypeIndex) (isReadable : Bool) (text : String) : Bool :=
  (catalog.world.decl? index).any fun decl => !decl.isInterface &&
    decl.properties.any fun property =>
      !property.isIndexer && (isCallable decl property.getter? == isReadable) &&
        (catalog.propertyFor? (.ofFile decl.name) index decl property).any fun line =>
          line.text = text

theorem lineCatalog_facts :
    (∀ text ∈ lineTexts, (Listing.readAssembly text).isOk = true) ∧
      lineCatalog.hasText 0 false "  var P(never,default) : X;\n" = true ∧
        lineCatalog.hasText 1 true "  public static var Q(default,never) : X;\n" = true := by
  unfold lineCatalog
  rw [Listing.forall_isOk_iff, Listing.map_assemblyOf_eq]
  unfold lineTexts
  simp only [List.map_cons, List.map_nil, String.toList_append]
  repeat rw [String.toList_ofList]
  decide +kernel

theorem exists_propertyFor?_of_hasText {isReadable : Bool} {text : String}
    (has : catalog.hasText index isReadable text = true) :
    ∃ decl property line, catalog.world.decl? index = some decl ∧ property ∈ decl.properties ∧
      decl.isInterface = false ∧ property.isIndexer = false ∧
        isCallable decl property.getter? = isReadable ∧
          catalog.propertyFor? (.ofFile decl.name) index decl property = some line ∧
            line.text = text := by
  unfold hasText at has
  simp only [Option.any_eq_true, List.any_eq_true, Bool.and_eq_true, Bool.not_eq_true',
    beq_iff_eq, decide_eq_true_eq] at has
  obtain ⟨decl, found, isClass, property, declared, ⟨plain, readable⟩, line, lined, same⟩ := has
  exact ⟨decl, property, line, found, declared, isClass, plain, readable, lined, same⟩

/-- The line of a property that everyone may get states its accessors. -/
theorem statesAccessors_iff_readable :
    ∃ decl property line, lineCatalog.world.decl? 1 = some decl ∧ property ∈ decl.properties ∧
      lineCatalog.StatesAccessors (.ofFile decl.name) decl property line ∧
        line.text = "  public static var Q(default,never) : X;\n" := by
  obtain ⟨decl, property, line, found, declared, isClass, -, readable, lined, text⟩ :=
    exists_propertyFor?_of_hasText lineCatalog_facts.2.2
  refine ⟨decl, property, line, found, declared, ?_, text⟩
  refine (statesAccessors_iff isClass lined).1.mpr fun getter isGetter => ?_
  rw [isCallable, isGetter, Option.any_some] at readable
  exact readable

/-- The line of a property that everyone may set does not say that it is public, if its getter is
not. -/
theorem exists_line_not_public :
    (∀ text ∈ lineTexts, (Listing.readAssembly text).isOk = true) ∧
      ∃ decl property line, lineCatalog.world.decl? 0 = some decl ∧ property ∈ decl.properties ∧
        decl.isInterface = false ∧ property.isIndexer = false ∧
          lineCatalog.propertyFor? (.ofFile decl.name) 0 decl property = some line ∧
            line.text = "  var P(never,default) : X;\n" ∧
              ¬ lineCatalog.StatesAccessors (.ofFile decl.name) decl property line := by
  obtain ⟨answered, has, -⟩ := lineCatalog_facts
  obtain ⟨decl, property, line, found, declared, isClass, plain, -, lined, text⟩ :=
    exists_propertyFor?_of_hasText has
  refine ⟨answered, decl, property, line, found, declared, isClass, plain, lined, text, ?_⟩
  rintro ⟨-, isStatic, -, stated⟩
  have unstated : line.text = propertyText false false false true "P" "X" := by
    rw [text]
    decide +kernel
  exact Bool.false_ne_true (isPublic_of_propertyText (unstated.symm.trans stated))

end Catalog

end ExternBindings
