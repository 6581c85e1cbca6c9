/-
**Generated declarations in catalogs that resemble each other.**

* `Catalog.NamesAlike` — known names are the same at every site of two catalogs. References and
  methods made of them turn into the same (`NamesAlike.typeExpr`, `NamesAlike.signature`);
* `Catalog.Resembles` — the worlds resemble each other, and the namespaces of known names have the
  same packages, so that known names are the same at every site (`Resembles.namesAlike`);
* `Resembles.functionsOf`, `Resembles.declaration` — and so do paired types, apart from stretches of
  text;
* `Resembles.bindingFile` — so a pair has the same file, as far as it is written and told of
  (`BindingFile.unit`).
-/

import ExternBindings.Output.BindingFile
import ExternBindings.Proofs.Output.WithoutSpans
import ExternBindings.Proofs.World.ResemblingMethods

namespace ExternBindings

/-- Both answers are the same error, or both are values that are related. -/
inductive SameAnswer {ε α : Type} (related : α → α → Prop) : Except ε α → Except ε α → Prop
  | error (error : ε) : SameAnswer related (.error error) (.error error)
  | ok {value other : α} : related value other → SameAnswer related (.ok value) (.ok other)

theorem SameAnswer.exists_ok {ε α : Type} {related : α → α → Prop} {value : α}
    {answer : Except ε α} (same : SameAnswer related (.ok value) answer) :
    ∃ other, answer = .ok other ∧ related value other := by
  cases same with
  | ok alike => exact ⟨_, rfl, alike⟩

theorem SameAnswer.bind {ε α β : Type} {related : α → α → Prop} {relatedToo : β → β → Prop}
    {first second : Except ε α} (same : SameAnswer related first second)
    {next nextToo : α → Except ε β}
    (onward : ∀ {value other}, related value other →
      SameAnswer relatedToo (next value) (nextToo other)) :
    SameAnswer relatedToo (first >>= next) (second >>= nextToo) := by
  cases same with
  | error flaw => exact .error flaw
  | ok alike => exact onward alike

/-! ### Declarations that say the same -/

section SameDecl

variable {decl declToo : TypeDecl} {method methodToo : Method}

theorem SameDecl.attributes (sameDecl : SameDecl decl declToo) (same : SameMethod method methodToo)
    (isOverride : Bool) :
    decl.attributes method isOverride = declToo.attributes methodToo isOverride := by
  obtain ⟨span, rfl⟩ := same.exists_span
  exact sameDecl.congr fun decl => decl.attributes method isOverride

theorem SameDecl.functionName (sameDecl : SameDecl decl declToo)
    (same : SameMethod method methodToo) :
    decl.functionName method = declToo.functionName methodToo := by
  obtain ⟨span, rfl⟩ := same.exists_span
  exact sameDecl.congr fun decl => decl.functionName method

theorem SameDecl.accessor? (same : SameDecl decl declToo) (position? : Option Nat) :
    Option.Rel SameMethod (decl.accessor? position?) (declToo.accessor? position?) := by
  unfold TypeDecl.accessor?
  cases position? with
  | none => exact .none
  | some position =>
    rw [Option.bind_some, Option.bind_some]
    have methods := same.methods
    generalize decl.methods = items at methods
    generalize declToo.methods = others at methods
    induction methods generalizing position with
    | nil => exact .none
    | cons head _ hypothesis =>
      cases position with
      | zero => exact .some head
      | succ position => exact hypothesis position

theorem SameDecl.invoke? (same : SameDecl decl declToo) :
    Option.Rel SameMethod decl.invoke? declToo.invoke? := by
  unfold TypeDecl.invoke?
  have methods := same.methods
  generalize decl.methods = items at methods
  generalize declToo.methods = others at methods
  induction methods with
  | nil => exact .none
  | @cons method methodToo _ _ head _ hypothesis =>
    have names : method.name = methodToo.name := head.congr Method.name
    rw [List.find?_cons, List.find?_cons, names]
    split
    · exact .some head
    · exact hypothesis

theorem any_isPublic {accessor? accessorToo? : Option Method}
    (alike : Option.Rel SameMethod accessor? accessorToo?) :
    accessor?.any Method.isPublic = accessorToo?.any Method.isPublic := by
  cases alike with
  | none => rfl
  | some same => exact same.congr Method.isPublic

theorem SameDecl.enumTags (same : SameDecl decl declToo) :
    (decl.fields.filter fun field => field.isStatic && !field.isSpecialName).map Field.name =
      (declToo.fields.filter fun field => field.isStatic && !field.isSpecialName).map
        Field.name := by
  have fields := forall₂_image_iff.mpr (same.congr TypeDecl.fields)
  exact map_filter_eq_of_forall₂ fields
    (fun _ _ alike => image_congr alike fun field => field.isStatic && !field.isSpecialName)
    fun _ _ alike => image_congr alike Field.name

theorem SameDecl.storage (same : SameDecl decl declToo) :
    (decl.fields.find? fun field => !field.isStatic).map Field.type =
      (declToo.fields.find? fun field => !field.isStatic).map Field.type := by
  have found := congrArg
    (fun fields : List Field => (fields.find? fun field => !field.isStatic).map Field.type)
    (same.congr TypeDecl.fields)
  simp only [TypeDecl.withoutSpans, List.find?_map, Option.map_map] at found
  exact found

end SameDecl

/-! ### Drafts that say the same -/

section SameDrafts

variable {drafts draftsToo : List FormDraft}

theorem groupsOf_congr
    (same : drafts.map FormDraft.withoutSpans = draftsToo.map FormDraft.withoutSpans) :
    (groupsOf drafts).map FunctionGroup.withoutSpans =
      (groupsOf draftsToo).map FunctionGroup.withoutSpans := by
  rw [← groupsOf_withoutSpans, same, groupsOf_withoutSpans]

/-- Choosing static or other drafts does not look at stretches of text. -/
theorem filter_congr
    (same : drafts.map FormDraft.withoutSpans = draftsToo.map FormDraft.withoutSpans)
    (chosen : Bool → Bool) :
    (drafts.filter fun draft => chosen draft.isStatic).map FormDraft.withoutSpans =
      (draftsToo.filter fun draft => chosen draft.isStatic).map FormDraft.withoutSpans := by
  have filtered : ∀ drafts : List FormDraft,
      (drafts.filter fun draft => chosen draft.isStatic).map FormDraft.withoutSpans =
        (drafts.map FormDraft.withoutSpans).filter fun draft => chosen draft.isStatic := by
    intro drafts
    rw [List.filter_map]
    rfl
  rw [filtered, filtered, same]

theorem names_congr
    (same : drafts.map FormDraft.withoutSpans = draftsToo.map FormDraft.withoutSpans) :
    drafts.map FormDraft.name = draftsToo.map FormDraft.name := by
  have names := congrArg (List.map FormDraft.name) same
  rwa [List.map_map, List.map_map] at names

theorem any_name_congr
    (same : drafts.map FormDraft.withoutSpans = draftsToo.map FormDraft.withoutSpans)
    (accepts : String → Bool) :
    (drafts.any fun draft => accepts draft.name) =
      draftsToo.any fun draft => accepts draft.name := by
  have names := congrArg (List.any · accepts) (names_congr same)
  rw [List.any_map, List.any_map] at names
  exact names

end SameDrafts

/-! ### What is written of a file -/

/-- What a run writes and tells of a file. -/
structure OutputUnit where
  subject : String
  package : String
  path : String
  contents : String
  companions : Nat

/-- What a run writes and tells of the file. -/
def BindingFile.unit (file : BindingFile) : OutputUnit :=
  { subject := file.subject
    package := file.package
    path := file.path
    contents := file.contents
    companions := file.companions }

/-- What is written of declarations does not show their stretches of text. -/
theorem written_eq {declarations declarationsToo : List Declaration}
    (same : declarations.map Declaration.withoutSpans =
      declarationsToo.map Declaration.withoutSpans) :
    declarations.map Declaration.text = declarationsToo.map Declaration.text ∧
      (declarations.filter Declaration.hasCompanion).length =
        (declarationsToo.filter Declaration.hasCompanion).length := by
  have texts := congrArg (List.map Declaration.text) same
  have companions := congrArg (List.countP Declaration.hasCompanion) same
  simp only [List.map_map, List.countP_map, Function.comp_def, Declaration.text_withoutSpans,
    Declaration.hasCompanion_withoutSpans] at texts companions
  rw [← List.countP_eq_length_filter, ← List.countP_eq_length_filter]
  exact ⟨texts, companions⟩

namespace Catalog

/-- The package of a namespace depends on the rules, and on whether it is a declared one. -/
theorem packageFor_congr {layout layoutToo : PackageLayout} (rules : layout.rules = layoutToo.rules)
    {space : String} (declared : space ∈ layout.declared ↔ space ∈ layoutToo.declared) :
    layout.packageFor space = layoutToo.packageFor space := by
  have same : layout.declared.contains space = layoutToo.declared.contains space := by
    rw [List.contains_eq_mem, List.contains_eq_mem]
    exact decide_eq_decide.mpr declared
  unfold PackageLayout.packageFor PackageLayout.commonPackage
  rw [same, rules]

/-! ### Names at sites -/

theorem isSystem_bareForm? {definition bare : QualifiedName} {arguments : Nat}
    (found : bareForm? definition arguments = some bare) : bare.isSystem = true := by
  unfold bareForm? at found
  split at found
  · cases found
  · split at found
    · next generic =>
      cases found
      rcases generic.2 with own | own <;> rw [own] <;> decide
    · split at found
      · cases found
        decide
      · cases found

/-- The names that are known are the same at every site in both catalogs, and those below `System` are
known. -/
structure NamesAlike (catalog other : Catalog) (known : QualifiedName → Prop) : Prop where
  system : ∀ {name : QualifiedName}, name.isSystem = true → known name
  nameAt : ∀ {name : QualifiedName}, known name → ∀ site arguments?,
    catalog.nameAt site name arguments? = other.nameAt site name arguments?

namespace NamesAlike

variable {catalog other : Catalog} {known : QualifiedName → Prop}

theorem nameExpr (alike : catalog.NamesAlike other known) {name : QualifiedName}
    (isKnown : known name) (site : Site) (precision : Precision) :
    catalog.nameExpr site precision name = other.nameExpr site precision name := by
  unfold Catalog.nameExpr
  rw [alike.nameAt isKnown]

theorem bareExpr (alike : catalog.NamesAlike other known) (site : Site)
    (definition : QualifiedName) (arguments : Nat) :
    catalog.bareExpr site definition arguments = other.bareExpr site definition arguments := by
  unfold Catalog.bareExpr
  cases found : bareForm? definition arguments with
  | none => rfl
  | some bare =>
    have isKnown := alike.system (isSystem_bareForm? found)
    rw [Option.map_some, Option.map_some, alike.nameAt isKnown]

theorem arrayAt (alike : catalog.NamesAlike other known) (site : Site) :
    catalog.nameAt site { space := "System", name := "Array" } =
      other.nameAt site { space := "System", name := "Array" } := by
  exact alike.nameAt (alike.system (by decide)) site none

mutual

/-- **A reference made of known names turns into the same expression.** -/
theorem typeExpr (alike : catalog.NamesAlike other known) (site : Site) :
    ∀ (precision : Precision) (reference : TypeReference), reference.IsMadeOf known →
      catalog.typeExpr site precision reference = other.typeExpr site precision reference
  | _, .parameter owner name, _ => by rw [Catalog.typeExpr, Catalog.typeExpr]
  | precision, .indirect _ element, madeOf => by
    rw [Catalog.typeExpr, Catalog.typeExpr, alike.typeExpr site precision element madeOf.value]
  | _, .array element rank, madeOf => by
    rw [Catalog.typeExpr, Catalog.typeExpr, alike.arrayAt,
      alike.typeExpr site .exact element madeOf.element]
  | precision, .primitive kind, _ => by
    have isKnown := alike.system kind.isSystem_qualifiedName
    rw [Catalog.typeExpr, Catalog.typeExpr, alike.nameExpr isKnown]
  | _, .named name, madeOf => by
    rw [Catalog.typeExpr, Catalog.typeExpr, alike.nameExpr madeOf.name]
  | _, .instantiation definition arguments, madeOf => by
    rw [Catalog.typeExpr, Catalog.typeExpr, alike.bareExpr, alike.nameAt madeOf.definition,
      alike.argumentExprs site arguments fun _ member => madeOf.argument member]

theorem argumentExprs (alike : catalog.NamesAlike other known) (site : Site) :
    ∀ references : List TypeReference, (∀ reference ∈ references, reference.IsMadeOf known) →
      catalog.argumentExprs site references = other.argumentExprs site references
  | [], _ => rfl
  | head :: tail, madeOf => by
    rw [List.forall_mem_cons] at madeOf
    rw [Catalog.argumentExprs, Catalog.argumentExprs, alike.typeExpr site .exact head madeOf.1,
      alike.argumentExprs site tail madeOf.2]

end

/-- A method made of known names has the same signature. -/
theorem signature (alike : catalog.NamesAlike other known) (site : Site) {method : Method}
    (madeOf : method.IsMadeOf known) :
    catalog.signature site method = other.signature site method := by
  have parameters (site : Site) : catalog.parameterExprs site method.parameters =
      other.parameterExprs site method.parameters := by
    unfold Catalog.parameterExprs Catalog.parameterExpr
    refine List.map_congr_left fun parameter member => ?_
    rw [alike.typeExpr site .general _ (madeOf.parameter member)]
  unfold Catalog.signature
  simp only [parameters, alike.typeExpr _ .general _ madeOf.returns]

end NamesAlike

/-! ### Catalogs that resemble each other -/

/-- The worlds resemble each other, packages are laid out alike for known names, and the files of
paired types list pairs. -/
structure Resembles (catalog other : Catalog) (paired : TypeIndex → TypeIndex → Prop)
    (known : QualifiedName → Prop) : Prop where
  world : catalog.world.Resembles other.world paired known
  packageFor : ∀ {name : QualifiedName}, known name →
    catalog.layout.packageFor name.space = other.layout.packageFor name.space
  order : ∀ {index twin}, paired index twin →
    List.Forall₂ paired (catalog.world.declarationOrder index) (other.world.declarationOrder twin)

namespace Resembles

variable {catalog other : Catalog} {paired : TypeIndex → TypeIndex → Prop}
  {known : QualifiedName → Prop}

theorem isSystem_eventHead (arity : Nat) : (eventHead arity).isSystem = true := by
  unfold eventHead
  split <;> decide

/-! ### Type expressions -/

/-- Known names are the same at every site. -/
theorem namesAlike (resembles : catalog.Resembles other paired known) :
    catalog.NamesAlike other known where
  system := resembles.world.system
  nameAt isKnown site arguments? := by
    unfold Catalog.nameAt PackageLayout.qualification
    rw [resembles.packageFor isKnown, resembles.world.flatName isKnown,
      resembles.world.flatName (resembles.world.outermost isKnown)]

/-- **A reference made of known names turns into the same expression.** -/
theorem typeExpr (resembles : catalog.Resembles other paired known) (site : Site)
    (precision : Precision) (reference : TypeReference) (madeOf : reference.IsMadeOf known) :
    catalog.typeExpr site precision reference = other.typeExpr site precision reference :=
  resembles.namesAlike.typeExpr site precision reference madeOf

/-! ### Handlers -/

section Handlers

variable {decl : TypeDecl} {reference argument : TypeReference} {method : Method}
  {parameter : Parameter}

/-- What a parameter of a handler stands for is made of known names if the handler and the reference
to it are. -/
theorem isMadeOf_instantiate (decl : TypeDecl) (madeOf : reference.IsMadeOf known)
    (argumentMadeOf : argument.IsMadeOf known) :
    (instantiate decl reference argument).IsMadeOf known := by
  unfold instantiate
  split
  · next owner name definition arguments =>
    generalize found : (Option.bind _ fun position : Nat => arguments[position]?) = stand?
    cases stand? with
    | none => exact argumentMadeOf
    | some stand =>
      obtain ⟨position, -, atPosition⟩ := Option.bind_eq_some_iff.mp found
      exact madeOf.argument (List.mem_of_getElem? atPosition)
  · exact argumentMadeOf

theorem mem_of_handlerParameter? (found : handlerParameter? method = some parameter) :
    parameter ∈ method.parameters := by
  unfold handlerParameter? at found
  split at found
  · next only same =>
    cases found
    rw [same]
    exact List.mem_cons_self
  · next first second same =>
    cases found
    rw [same]
    exact List.mem_cons_of_mem _ List.mem_cons_self
  · cases found

end Handlers

section Resembling

variable (resembles : catalog.Resembles other paired known) {index twin : TypeIndex}
  {decl declToo : TypeDecl} {method methodToo : Method}

include resembles

/-! ### Functions -/

theorem signature (site : Site) (madeOf : method.IsMadeOf known)
    (same : SameMethod method methodToo) :
    catalog.signature site method = other.signature site methodToo := by
  obtain ⟨span, rfl⟩ := same.exists_span
  exact resembles.namesAlike.signature site madeOf

/-- **Methods of a pair draft the same forms.** -/
theorem draft? (site : Site) (pair : paired index twin) (sameDecl : SameDecl decl declToo)
    (madeOf : method.IsMadeOf known) (same : SameMethod method methodToo) :
    (catalog.draft? site index decl method).map FormDraft.withoutSpans =
      (other.draft? site twin declToo methodToo).map FormDraft.withoutSpans := by
  have isStatic : method.isStaticMember = methodToo.isStaticMember :=
    same.congr Method.isStaticMember
  have source : method.withoutSpan = methodToo.withoutSpan := same
  have treated := resembles.world.treatment pair same
  unfold Catalog.draft?
  generalize became : catalog.world.treatment index method = treatment at treated
  generalize other.world.treatment twin methodToo = treatmentToo at treated
  cases treated with
  | skipped => rfl
  | inherited => rfl
  | declared =>
    simp only [Option.map_some, FormDraft.withoutSpans, Option.map_none, Option.toList_none,
      List.nil_append, List.map_cons, List.map_nil, FunctionForm.withoutSpan,
      sameDecl.functionName same, sameDecl.attributes same, resembles.signature site madeOf same,
      isStatic, source]
  | redeclared inherited =>
    have ancestor : SameMethod _ _ := inherited.method
    have ancestorSource := show Method.withoutSpan _ = Method.withoutSpan _ from inherited.method
    have ancestorMadeOf := resembles.world.isMadeOf_method inherited.owner
      (World.mem_methods_of_treatment_eq_redeclared became)
    simp only [Option.map_some, FormDraft.withoutSpans, Option.toList_some,
      List.cons_append, List.nil_append, List.map_cons, List.map_nil, FunctionForm.withoutSpan,
      sameDecl.functionName same, sameDecl.attributes same, resembles.signature site madeOf same,
      resembles.signature site ancestorMadeOf ancestor, isStatic, source, ancestorSource,
      Option.isSome_some]

theorem drafts (site : Site) (pair : paired index twin) :
    (catalog.drafts site index).map FormDraft.withoutSpans =
      (other.drafts site twin).map FormDraft.withoutSpans := by
  obtain ⟨decl, declToo, found, foundToo, same, madeOf⟩ := resembles.world.decl pair
  have methods := (List.forall₂_and_left _ _).mpr ⟨fun method => madeOf.method, same.methods⟩
  unfold Catalog.drafts
  rw [found, foundToo, Option.elim_some, Option.elim_some, List.map_filterMap, List.map_filterMap]
  exact filterMap_eq_of_forall₂ methods fun _ _ both =>
    resembles.draft? site pair same both.1 both.2

/-- **The functions of a pair are the same.** -/
theorem functionsOf (site : Site) (pair : paired index twin) :
    (catalog.functionsOf site index).withoutSpans = (other.functionsOf site twin).withoutSpans := by
  have same := resembles.drafts site pair
  unfold Catalog.functionsOf
  generalize catalog.drafts site index = drafts at same
  generalize other.drafts site twin = draftsToo at same
  have static : (drafts.filter FormDraft.isStatic).map _ =
      (draftsToo.filter FormDraft.isStatic).map _ :=
    filter_congr same id
  have instances := filter_congr same not
  have taken : ∀ name, (catalog.world.callableNames index ++
      (drafts.filter fun draft => !draft.isStatic).map FormDraft.name).contains name =
      (other.world.callableNames twin ++
        (draftsToo.filter fun draft => !draft.isStatic).map FormDraft.name).contains name := by
    intro name
    rw [List.contains_eq_mem, List.contains_eq_mem, names_congr instances]
    refine decide_eq_decide.mpr ?_
    rw [List.mem_append, List.mem_append, resembles.world.mem_callableNames pair]
  simp only [taken]
  rw [any_name_congr static]
  split
  · simp only [FunctionTable.withoutSpans, Option.map_some, groupsOf_congr instances,
      groupsOf_congr static]
  · simp only [FunctionTable.withoutSpans, groupsOf_congr same, Option.map_none]

/-! ### Events -/

theorem eventFor? (site : Site) {event eventToo : Event}
    (same : event.withoutSpan = eventToo.withoutSpan) (madeOf : event.handler.IsMadeOf known)
    {adder adderToo : Method} (sameAdder : SameMethod adder adderToo) :
    catalog.eventFor? site event adder = other.eventFor? site eventToo adderToo := by
  have isStatic : adder.isStatic = adderToo.isStatic := sameAdder.congr Method.isStatic
  have name : event.name = eventToo.name := image_congr same Event.name
  have handler : event.handler = eventToo.handler := image_congr same Event.handler
  have targets := resembles.world.target? madeOf
  unfold Catalog.eventFor?
  rw [name, ← handler, isStatic]
  generalize catalog.world.target? event.handler = target? at targets
  generalize other.world.target? event.handler = targetToo? at targets
  cases targets with
  | none => rfl
  | some pair =>
    obtain ⟨decl, declToo, found, foundToo, sameDecl, declMadeOf⟩ := resembles.world.decl pair
    rw [Option.bind_some, Option.bind_some, found, foundToo]
    have invokes := sameDecl.invoke?
    have text : decl.name.text = declToo.name.text := sameDecl.congr fun decl => decl.name.text
    have stands : ∀ argument, instantiate decl event.handler argument =
        instantiate declToo event.handler argument := fun argument =>
      sameDecl.congr fun decl => instantiate decl event.handler argument
    dsimp only
    rw [text]
    generalize called : decl.invoke? = invoke? at invokes
    generalize declToo.invoke? = invokeToo? at invokes
    cases invokes with
    | none => rfl
    | @some invoke _ sameInvoke =>
      have invokeMadeOf := declMadeOf.method (List.mem_of_find?_eq_some called)
      have head := resembles.world.system (isSystem_eventHead invoke.arity)
      obtain ⟨span, rfl⟩ := sameInvoke.exists_span
      have handled : handlerParameter? { invoke with span } = handlerParameter? invoke := rfl
      dsimp only
      rw [handled]
      cases passed : handlerParameter? invoke with
      | none => rfl
      | some parameter =>
        have argument := isMadeOf_instantiate decl madeOf
          (invokeMadeOf.parameter (mem_of_handlerParameter? passed))
        rw [Option.map_some, Option.map_some, ← stands, resembles.typeExpr site .general _ argument,
          resembles.namesAlike.nameAt head]
        rfl

theorem eventLines (site : Site) (same : SameDecl decl declToo) {events eventsToo : List Event}
    (sameEvents : List.Forall₂ (InvImage Eq Event.withoutSpan) events eventsToo)
    (madeOf : ∀ event ∈ events, event.handler.IsMadeOf known) :
    catalog.eventLines site decl events = other.eventLines site declToo eventsToo := by
  induction sameEvents with
  | nil => rfl
  | @cons event eventToo _ _ head _ hypothesis =>
    rw [List.forall_mem_cons] at madeOf
    have adder : event.adder? = eventToo.adder? := image_congr head Event.adder?
    have accessors := same.accessor? eventToo.adder?
    rw [Catalog.eventLines, Catalog.eventLines, hypothesis madeOf.2, adder]
    generalize decl.accessor? eventToo.adder? = accessor? at accessors
    generalize declToo.accessor? eventToo.adder? = accessorToo? at accessors
    cases accessors with
    | none => rfl
    | @some method methodToo sameAdder =>
      have isPublic : method.isPublic = methodToo.isPublic := sameAdder.congr Method.isPublic
      rw [Option.filter_some, Option.filter_some, isPublic]
      by_cases open_adder : methodToo.isPublic = true
      · rw [if_pos open_adder, if_pos open_adder]
        dsimp only
        rw [resembles.eventFor? site head madeOf.1 sameAdder]
      · rw [if_neg open_adder, if_neg open_adder]

/-! ### Fields and properties -/

theorem fieldLines (site : Site) (same : SameDecl decl declToo) (madeOf : decl.IsMadeOf known) :
    catalog.fieldLines site decl = other.fieldLines site declToo := by
  have fields := (List.forall₂_and_left _ _).mpr
    ⟨fun field => madeOf.field, forall₂_image_iff.mpr (same.congr TypeDecl.fields)⟩
  unfold Catalog.fieldLines
  refine map_filter_eq_of_forall₂ fields (fun field fieldToo both => ?_)
    fun field fieldToo both => ?_
  · exact image_congr both.2 fun field => field.visibility.isPublic
  · rw [resembles.typeExpr site .exact _ both.1]
    exact image_congr both.2 fun field =>
      FieldLine.mk field.isStatic field.name (other.typeExpr site .exact field.type)

theorem isInherited (pair : paired index twin) {accessor? accessorToo? : Option Method}
    (alike : Option.Rel SameMethod accessor? accessorToo?) :
    catalog.isInherited index accessor? = other.isInherited twin accessorToo? := by
  unfold Catalog.isInherited
  cases alike with
  | none => rfl
  | some same =>
    rw [Option.all_some, Option.all_some]
    exact isSome_eq_of_rel (resembles.world.visibleInherited? pair same .any)

theorem isExposed (pair : paired index twin) {accessor? accessorToo? : Option Method}
    (alike : Option.Rel SameMethod accessor? accessorToo?) :
    catalog.isExposed index accessor? = other.isExposed twin accessorToo? := by
  unfold Catalog.isExposed
  cases alike with
  | none => rfl
  | @some method methodToo same =>
    have isPublic : method.isPublic = methodToo.isPublic := same.congr Method.isPublic
    rw [Option.any_some, Option.any_some, isPublic, resembles.world.isSuperfluous pair same]

theorem propertyFor? (site : Site) (pair : paired index twin) (sameDecl : SameDecl decl declToo)
    {property propertyToo : Property} (same : property.withoutSpan = propertyToo.withoutSpan)
    (madeOf : property.type.IsMadeOf known) :
    catalog.propertyFor? site index decl property =
      other.propertyFor? site twin declToo propertyToo := by
  obtain ⟨name, type, getter?, setter?, indexParameters, span⟩ := property
  cases propertyToo
  cases same
  have getters := sameDecl.accessor? getter?
  have setters := sameDecl.accessor? setter?
  have either := rel_or getters setters
  unfold Catalog.propertyFor?
  dsimp only
  rw [resembles.isInherited pair getters, resembles.isInherited pair setters,
    resembles.isExposed pair getters, resembles.isExposed pair setters, any_isPublic getters,
    any_isPublic setters, resembles.typeExpr site .exact _ madeOf]
  generalize (decl.accessor? getter?).or _ = accessor? at either
  generalize (declToo.accessor? getter?).or _ = accessorToo? at either
  cases either with
  | none => rfl
  | some sameAccessor =>
    rw [Option.map_some, Option.map_some, sameDecl.attributes sameAccessor]

theorem propertyLines (site : Site) (pair : paired index twin) (same : SameDecl decl declToo)
    (madeOf : decl.IsMadeOf known) :
    catalog.propertyLines site index decl = other.propertyLines site twin declToo := by
  have properties := (List.forall₂_and_left _ _).mpr
    ⟨fun property => madeOf.property, forall₂_image_iff.mpr (same.congr TypeDecl.properties)⟩
  unfold Catalog.propertyLines
  rw [List.filterMap_filter, List.filterMap_filter]
  refine filterMap_eq_of_forall₂ properties fun property propertyToo both => ?_
  have isIndexer : property.isIndexer = propertyToo.isIndexer :=
    image_congr both.2 Property.isIndexer
  rw [isIndexer, resembles.propertyFor? site pair same both.2 both.1]

/-! ### Declarations -/

theorem interfaceExprs (site : Site) (same : SameDecl decl declToo) (madeOf : decl.IsMadeOf known) :
    catalog.interfaceExprs site decl = other.interfaceExprs site declToo := by
  have interfaces : decl.interfaces = declToo.interfaces := same.congr TypeDecl.interfaces
  have named : ∀ reference ∈ decl.interfaces,
      (catalog.world.target? reference).all catalog.world.isPublic =
        (other.world.target? reference).all other.world.isPublic := by
    intro reference member
    have targets := resembles.world.target? (madeOf.interface member)
    generalize catalog.world.target? reference = target? at targets
    generalize other.world.target? reference = targetToo? at targets
    cases targets with
    | none => rfl
    | some pair => exact (resembles.world.twins pair).isPublic
  unfold Catalog.interfaceExprs
  rw [← interfaces, List.filter_congr named]
  refine List.map_congr_left fun reference member => ?_
  exact resembles.typeExpr site .exact reference (madeOf.interface (List.mem_of_mem_filter member))

theorem enumDeclaration (site : Site) (same : SameDecl decl declToo)
    (madeOf : decl.IsMadeOf known) :
    catalog.enumDeclaration site decl = other.enumDeclaration site declToo := by
  have name : decl.name = declToo.name := same.congr TypeDecl.name
  have storage := same.storage
  unfold Catalog.enumDeclaration
  rw [same.enumTags, ← name, resembles.world.flatName madeOf.name]
  generalize held : (decl.fields.find? fun field => !field.isStatic) = field? at storage
  generalize (declToo.fields.find? fun field => !field.isStatic) = fieldToo? at storage
  cases field? with
  | none =>
    cases fieldToo? with
    | none => rfl
    | some fieldToo => cases storage
  | some field =>
    cases fieldToo? with
    | none => cases storage
    | some fieldToo =>
      have types : field.type = fieldToo.type := Option.some.inj storage
      have fieldMadeOf := madeOf.field (List.mem_of_find?_eq_some held)
      dsimp only
      rw [← types, resembles.typeExpr site .general _ fieldMadeOf]

theorem classDeclaration (site : Site) (pair : paired index twin) (same : SameDecl decl declToo)
    (madeOf : decl.IsMadeOf known) :
    SameAnswer (InvImage Eq ClassDeclaration.withoutSpans)
      (catalog.classDeclaration site index decl) (other.classDeclaration site twin declToo) := by
  have events := forall₂_image_iff.mpr (same.congr TypeDecl.events)
  have isInterface : decl.isInterface = declToo.isInterface := same.congr TypeDecl.isInterface
  have isSealed : decl.isSealed = declToo.isSealed := same.congr TypeDecl.isSealed
  have name : declToo.name = decl.name := (same.congr TypeDecl.name).symm
  have generics : decl.genericParameters = declToo.genericParameters :=
    same.congr TypeDecl.genericParameters
  have base : decl.base? = declToo.base? := same.congr TypeDecl.base?
  have baseExpr : decl.base?.map (catalog.typeExpr site .exact) =
      declToo.base?.map (other.typeExpr site .exact) := by
    rw [← base]
    cases named : decl.base? with
    | none => rfl
    | some reference =>
      rw [Option.map_some, Option.map_some,
        resembles.typeExpr site .exact reference (madeOf.base named)]
  unfold Catalog.classDeclaration
  rw [resembles.eventLines site same events fun _ => madeOf.event]
  cases other.eventLines site declToo declToo.events with
  | error flaw => exact .error flaw
  | ok lines =>
    refine .ok ?_
    simp only [InvImage, ClassDeclaration.withoutSpans, isInterface, isSealed, name,
      resembles.world.flatName madeOf.name, generics, baseExpr,
      resembles.interfaceExprs site same madeOf, resembles.fieldLines site same madeOf,
      resembles.propertyLines site pair same madeOf, resembles.functionsOf site pair]

/-- **A pair has the same declaration.** -/
theorem declaration (site : Site) (pair : paired index twin) (same : SameDecl decl declToo)
    (madeOf : decl.IsMadeOf known) :
    SameAnswer (InvImage Eq Declaration.withoutSpans) (catalog.declaration site index decl)
      (other.declaration site twin declToo) := by
  have isEnum : decl.isEnum = declToo.isEnum := same.congr TypeDecl.isEnum
  unfold Catalog.declaration
  rw [isEnum]
  split
  · rw [resembles.enumDeclaration site same madeOf]
    cases other.enumDeclaration site declToo with
    | error flaw => exact .error flaw
    | ok declaration => exact .ok rfl
  · rw [map_eq_pure_bind, map_eq_pure_bind]
    exact (resembles.classDeclaration site pair same madeOf).bind fun alike =>
      .ok (congrArg Declaration.classLike alike)

/-! ### Files -/

theorem declarations (site : Site) {order orderToo : List TypeIndex}
    (pairs : List.Forall₂ paired order orderToo) :
    SameAnswer (InvImage Eq (List.map Declaration.withoutSpans)) (catalog.declarations site order)
      (other.declarations site orderToo) := by
  induction pairs with
  | nil => exact .ok rfl
  | @cons index twin _ _ pair _ hypothesis =>
    obtain ⟨decl, declToo, found, foundToo, same, madeOf⟩ := resembles.world.decl pair
    have head := resembles.declaration site pair same madeOf
    rw [Catalog.declarations, Catalog.declarations, found, foundToo]
    dsimp only
    rw [bind_map_left, bind_map_left]
    exact head.bind fun headAlike => hypothesis.bind fun restAlike =>
      .ok (congrArg₂ List.cons headAlike restAlike)

/-- **A pair has the same file**, as far as it is written and told of. -/
theorem bindingFile (pair : paired index twin) (name : QualifiedName) (isKnown : known name) :
    SameAnswer (InvImage Eq BindingFile.unit) (catalog.bindingFile index name)
      (other.bindingFile twin name) := by
  have same := resembles.declarations (.ofFile name) (resembles.order pair)
  unfold Catalog.bindingFile
  rw [resembles.packageFor isKnown, resembles.world.flatName isKnown]
  refine same.bind fun alike => .ok ?_
  obtain ⟨texts, companions⟩ := written_eq alike
  simp only [InvImage, BindingFile.unit, BindingFile.path, BindingFile.contents,
    BindingFile.header, BindingFile.companions, texts, companions]

/-- **Paired types have the same files**, or neither list of them can be written. -/
theorem bindingFilesFor {order orderToo : List TypeIndex}
    (pairs : List.Forall₂ paired order orderToo) :
    SameAnswer (InvImage Eq (List.map BindingFile.unit)) (catalog.bindingFilesFor order)
      (other.bindingFilesFor orderToo) := by
  induction pairs with
  | nil => exact .ok rfl
  | @cons index twin _ _ pair _ hypothesis =>
    obtain ⟨decl, declToo, found, foundToo, same, madeOf⟩ := resembles.world.decl pair
    have name : declToo.name = decl.name := (same.congr TypeDecl.name).symm
    have head := resembles.bindingFile pair decl.name madeOf.name
    rw [Catalog.bindingFilesFor, Catalog.bindingFilesFor, found, foundToo]
    dsimp only
    rw [name, bind_map_left, bind_map_left]
    exact head.bind fun headAlike => hypothesis.bind fun restAlike =>
      .ok (congrArg₂ List.cons headAlike restAlike)

end Resembling

end Resembles

end Catalog

end ExternBindings
