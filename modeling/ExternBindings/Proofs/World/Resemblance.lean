/-
**Worlds that resemble each other.**

Two worlds resemble each other in some of their types when each of these has a counterpart that says
the same, and whatever their declarations name is found as counterparts in both worlds, or in
neither. Nothing is said about the other types of the two worlds.

* `World.Twins` — the types at two indices say the same; `World.Resembles` — counterparts are twins,
  and the names that are known from their declarations lead from counterparts to counterparts;
* `Resembles.target?`, `Resembles.ancestors`, `Resembles.mem_allContracts` — looking up, climbing and
  walking along links do as well.
-/

import ExternBindings.Proofs.Metadata.Mentions
import ExternBindings.Proofs.World.Ancestry
import ExternBindings.Proofs.World.FlatName
import ExternBindings.Proofs.World.Reachability
import ExternBindings.Proofs.World.Treatment

namespace ExternBindings

/-! ### Related answers -/

section Related

variable {α β γ : Type} {related : α → β → Prop}

theorem rel_of_forall {first? : Option α} {second? : Option β}
    (forth : ∀ value, first? = some value → ∃ other, second? = some other ∧ related value other)
    (back : ∀ other, second? = some other → first? ≠ none) : Option.Rel related first? second? := by
  cases first? with
  | none =>
    cases second? with
    | none => exact .none
    | some other => exact absurd rfl (back other rfl)
  | some value =>
    obtain ⟨other, found, alike⟩ := forth value rfl
    rw [found]
    exact .some alike

theorem forall₂_filterMap {choose : γ → Option α} {chooseToo : γ → Option β} {items : List γ}
    (alike : ∀ item ∈ items, Option.Rel related (choose item) (chooseToo item)) :
    List.Forall₂ related (items.filterMap choose) (items.filterMap chooseToo) := by
  induction items with
  | nil => exact .nil
  | cons item rest hypothesis =>
    rw [List.forall_mem_cons] at alike
    rw [List.filterMap_cons, List.filterMap_cons]
    have first := alike.1
    generalize choose item = value? at first
    generalize chooseToo item = other? at first
    cases first with
    | none => exact hypothesis alike.2
    | some same => exact .cons same (hypothesis alike.2)

theorem rel_or {first? firstElse? : Option α} {second? secondElse? : Option β}
    (alike : Option.Rel related first? second?)
    (otherwise : Option.Rel related firstElse? secondElse?) :
    Option.Rel related (first?.or firstElse?) (second?.or secondElse?) := by
  cases alike with
  | none => exact otherwise
  | some same => exact .some same

theorem isSome_eq_of_rel {first? : Option α} {second? : Option β}
    (alike : Option.Rel related first? second?) : first?.isSome = second?.isSome := by
  cases alike <;> rfl

theorem map_filter_eq_of_forall₂ {items : List α} {others : List β} {accepts : α → Bool}
    {acceptsToo : β → Bool} {image : α → γ} {imageToo : β → γ}
    (alike : List.Forall₂ related items others)
    (accepted : ∀ item other, related item other → accepts item = acceptsToo other)
    (images : ∀ item other, related item other → image item = imageToo other) :
    (items.filter accepts).map image = (others.filter acceptsToo).map imageToo := by
  induction alike with
  | nil => rfl
  | cons same _ hypothesis =>
    rw [List.filter_cons, List.filter_cons, accepted _ _ same]
    split
    · rw [List.map_cons, List.map_cons, images _ _ same, hypothesis]
    · exact hypothesis

theorem filterMap_eq_of_forall₂ {choose : α → Option γ} {chooseToo : β → Option γ}
    {items : List α} {others : List β} (alike : List.Forall₂ related items others)
    (chosen : ∀ item other, related item other → choose item = chooseToo other) :
    items.filterMap choose = others.filterMap chooseToo := by
  induction alike with
  | nil => rfl
  | cons same _ hypothesis =>
    rw [List.filterMap_cons, List.filterMap_cons, chosen _ _ same, hypothesis]

theorem exists_mem_of_forall₂ {items : List α} {others : List β}
    (alike : List.Forall₂ related items others) {item : α} (member : item ∈ items) :
    ∃ other ∈ others, related item other := by
  induction alike with
  | nil => cases member
  | cons same _ hypothesis =>
    rcases List.mem_cons.mp member with rfl | member
    · exact ⟨_, List.mem_cons_self, same⟩
    · obtain ⟨other, found, alike⟩ := hypothesis member
      exact ⟨other, List.mem_cons_of_mem _ found, alike⟩

theorem exists_getElem?_of_forall₂ {items : List α} {others : List β}
    (alike : List.Forall₂ related items others) {position : Nat} {item : α}
    (found : items[position]? = some item) :
    ∃ other, others[position]? = some other ∧ related item other := by
  induction alike generalizing position with
  | nil => cases found
  | @cons first second _ _ same _ hypothesis =>
    cases position with
    | zero =>
      obtain rfl : first = item := Option.some.inj found
      exact ⟨second, rfl, same⟩
    | succ position => exact hypothesis found

end Related

/-! ### Declarations that say the same -/

/-- The declarations are equal apart from their stretches of text. -/
def SameDecl (decl other : TypeDecl) : Prop :=
  decl.withoutSpans = other.withoutSpans

/-- The methods are equal apart from their stretches of text. -/
def SameMethod (method other : Method) : Prop :=
  method.withoutSpan = other.withoutSpan

/-- One of two such methods is the other one at another place. -/
theorem SameMethod.exists_span {method other : Method} (same : SameMethod method other) :
    ∃ span, other = { method with span } := by
  obtain ⟨name, role, visibility, isStatic, isVirtual, generics, parameters, returns, span⟩ := other
  cases method
  cases same
  exact ⟨span, rfl⟩

/-- Whatever does not look at stretches of text finds the same in both. -/
theorem SameMethod.congr {β : Type} {method other : Method} (same : SameMethod method other)
    (look : Method → β) : look method.withoutSpan = look other.withoutSpan :=
  congrArg look same

/-- Whatever does not look at stretches of text finds the same in both. -/
theorem SameDecl.congr {β : Type} {decl other : TypeDecl} (same : SameDecl decl other)
    (look : TypeDecl → β) : look decl.withoutSpans = look other.withoutSpans :=
  congrArg look same

theorem SameDecl.names {decl other : TypeDecl} (same : SameDecl decl other) :
    decl.names = other.names := by
  rw [← decl.names_withoutSpans, same.congr TypeDecl.names, other.names_withoutSpans]

theorem SameDecl.methods {decl other : TypeDecl} (same : SameDecl decl other) :
    List.Forall₂ SameMethod decl.methods other.methods :=
  forall₂_image_iff.mpr (same.congr TypeDecl.methods)

/-- What an entry says: its declaration, and whether it stands in a namespace. -/
def Entry.shape (entry : Entry) : TypeDecl × Bool :=
  (entry.decl.withoutSpans, entry.isTopLevel)

theorem Entry.text_eq_of_shape {entry other : Entry} (same : entry.shape = other.shape) :
    entry.text = other.text := by
  rw [entry.text_eq, other.text_eq]
  exact congrArg (fun shape : TypeDecl × Bool => shape.1.name.text) same

/-- Whether this is the well-formed name of a top-level type in `System` or a namespace inside of
it. -/
def QualifiedName.isSystem (name : QualifiedName) : Bool :=
  Text.beforeFirst '.' name.space = "System" && isDottedName name.space && name.enclosing.isEmpty &&
    isIdentifier name.name

theorem Primitive.isSystem_qualifiedName (kind : Primitive) :
    kind.qualifiedName.isSystem = true := by
  cases kind <;> decide

namespace World

/-- The types at the two indices say the same. -/
def Twins (world other : World) (index twin : TypeIndex) : Prop :=
  ∃ entry entryToo, world.entry? index = some entry ∧ other.entry? twin = some entryToo ∧
    entry.shape = entryToo.shape

variable {world other : World}

theorem Twins.symm {index twin : TypeIndex} (twins : Twins world other index twin) :
    Twins other world twin index := by
  obtain ⟨entry, entryToo, found, foundToo, same⟩ := twins
  exact ⟨entryToo, entry, foundToo, found, same.symm⟩

theorem Twins.decl {index twin : TypeIndex} (twins : Twins world other index twin) :
    ∃ decl declToo, world.decl? index = some decl ∧ other.decl? twin = some declToo ∧
      SameDecl decl declToo := by
  obtain ⟨entry, entryToo, found, foundToo, same⟩ := twins
  exact ⟨_, _, decl?_eq_some_decl found, decl?_eq_some_decl foundToo, congrArg Prod.fst same⟩

theorem Twins.methods {index twin : TypeIndex} (twins : Twins world other index twin) :
    List.Forall₂ SameMethod (world.methods index) (other.methods twin) := by
  obtain ⟨decl, declToo, found, foundToo, same⟩ := twins.decl
  unfold World.methods
  rw [found, foundToo]
  exact same.methods

theorem Twins.isPublic {index twin : TypeIndex} (twins : Twins world other index twin) :
    world.isPublic index = other.isPublic twin := by
  obtain ⟨entry, entryToo, found, foundToo, same⟩ := twins
  unfold World.isPublic
  rw [found, foundToo]
  exact congrArg (fun shape : TypeDecl × Bool => shape.1.visibility.isPublic) same

theorem Twins.isPublicInterface {index twin : TypeIndex} (twins : Twins world other index twin) :
    world.isPublicInterface index = other.isPublicInterface twin := by
  obtain ⟨entry, entryToo, found, foundToo, same⟩ := twins
  unfold World.isPublicInterface
  rw [found, foundToo]
  exact congrArg
    (fun shape : TypeDecl × Bool => shape.1.isInterface && shape.1.visibility.isPublic) same

/-! ### Resemblance -/

/-- The paired types are twins, and the names that are known lead to pairs in both worlds. All names
in the declarations of paired types are known, and those of `System`, which no declaration has to
mention. -/
structure Resembles (world other : World) (paired : TypeIndex → TypeIndex → Prop)
    (known : QualifiedName → Prop) : Prop where
  twins : ∀ {index twin}, paired index twin → Twins world other index twin
  eq_iff : ∀ {index twin indexToo twinToo}, paired index twin → paired indexToo twinToo →
    (index = indexToo ↔ twin = twinToo)
  madeOf : ∀ {index twin decl}, paired index twin → world.decl? index = some decl →
    decl.IsMadeOf known
  system : ∀ {name : QualifiedName}, name.isSystem = true → known name
  owner : ∀ {name outer : QualifiedName}, known name → outer ∈ name.owners → known outer
  lookup? : ∀ {name}, known name → Option.Rel paired (world.lookup? name) (other.lookup? name)
  isShared : ∀ {name : QualifiedName}, known name →
    world.isShared name.familyKey = other.isShared name.familyKey

namespace Resembles

variable {paired : TypeIndex → TypeIndex → Prop} {known : QualifiedName → Prop}
  {index twin contract contractToo : TypeIndex}

theorem symm (resembles : world.Resembles other paired known) :
    other.Resembles world (flip paired) known where
  twins pair := (resembles.twins pair).symm
  eq_iff pair pairToo := (resembles.eq_iff pair pairToo).symm
  madeOf pair found := by
    obtain ⟨decl, declToo, foundFirst, foundToo, same⟩ := (resembles.twins pair).decl
    rw [found, Option.some.injEq] at foundToo
    subst foundToo
    unfold TypeDecl.IsMadeOf
    rw [← same.names]
    exact resembles.madeOf pair foundFirst
  system := resembles.system
  owner := resembles.owner
  lookup? isKnown := by
    have looked := resembles.lookup? isKnown
    generalize world.lookup? _ = index? at looked
    generalize other.lookup? _ = twin? at looked
    cases looked with
    | none => exact .none
    | some pair => exact .some pair
  isShared isKnown := (resembles.isShared isKnown).symm

/-- A pair has declarations that say the same, with known names. -/
theorem decl (resembles : world.Resembles other paired known) (pair : paired index twin) :
    ∃ decl declToo, world.decl? index = some decl ∧ other.decl? twin = some declToo ∧
      SameDecl decl declToo ∧ decl.IsMadeOf known := by
  obtain ⟨decl, declToo, found, foundToo, same⟩ := (resembles.twins pair).decl
  exact ⟨decl, declToo, found, foundToo, same, resembles.madeOf pair found⟩

/-- All names in the methods of paired types are known. -/
theorem isMadeOf_method (resembles : world.Resembles other paired known) (pair : paired index twin)
    {method : Method} (member : method ∈ world.methods index) : method.IsMadeOf known := by
  obtain ⟨decl, found, declared⟩ := mem_methods_iff.mp member
  exact (resembles.madeOf pair found).method declared

/-- With a name, the one of the outermost type around it is known. -/
theorem outermost (resembles : world.Resembles other paired known) {name : QualifiedName}
    (isKnown : known name) : known name.outermost := by
  have around : name.outermost = name ∨ name.outermost ∈ name.owners := by
    obtain ⟨space, enclosing, own⟩ := name
    cases enclosing with
    | nil => exact Or.inl rfl
    | cons outer rest => exact Or.inr List.mem_cons_self
  rcases around with itself | member
  · rwa [itself]
  · exact resembles.owner isKnown member

theorem mem_iff (resembles : world.Resembles other paired known) {indices twins : List TypeIndex}
    (pairs : List.Forall₂ paired indices twins) (pair : paired index twin) :
    index ∈ indices ↔ twin ∈ twins := by
  induction pairs with
  | nil => simp
  | cons head _ hypothesis =>
    rw [List.mem_cons, List.mem_cons, hypothesis, resembles.eq_iff pair head]

/-! ### Links -/

theorem target? (resembles : world.Resembles other paired known) {reference : TypeReference}
    (madeOf : reference.IsMadeOf known) :
    Option.Rel paired (world.target? reference) (other.target? reference) := by
  unfold World.target?
  cases reference with
  | primitive kind => exact resembles.lookup? (resembles.system kind.isSystem_qualifiedName)
  | named name => exact resembles.lookup? madeOf.name
  | instantiation definition arguments => exact resembles.lookup? madeOf.definition
  | parameter => exact .none
  | array => exact .none
  | indirect => exact .none

theorem base? (resembles : world.Resembles other paired known) (pair : paired index twin) :
    Option.Rel paired (world.base? index) (other.base? twin) := by
  obtain ⟨decl, declToo, found, foundToo, same, madeOf⟩ := resembles.decl pair
  have bases : decl.base? = declToo.base? := same.congr TypeDecl.base?
  unfold World.base?
  rw [found, foundToo, Option.bind_some, Option.bind_some, ← bases]
  cases named : decl.base? with
  | none => exact .none
  | some reference => exact resembles.target? (madeOf.base named)

theorem implemented (resembles : world.Resembles other paired known) (pair : paired index twin) :
    List.Forall₂ paired (world.implemented index) (other.implemented twin) := by
  obtain ⟨decl, declToo, found, foundToo, same, madeOf⟩ := resembles.decl pair
  have interfaces : decl.interfaces = declToo.interfaces :=
    same.congr TypeDecl.interfaces
  unfold World.implemented
  rw [found, foundToo, Option.elim_some, Option.elim_some, ← interfaces]
  exact forall₂_filterMap fun reference member => resembles.target? (madeOf.interface member)

/-! ### Ancestors -/

theorem climbs (resembles : world.Resembles other paired known) {seen seenToo : List TypeIndex}
    {path pathToo : List TypeIndex} (pairs : List.Forall₂ paired seen seenToo)
    (pair : paired index twin) (climbs : Climbs world.base? seen index path)
    (climbsToo : Climbs other.base? seenToo twin pathToo) : List.Forall₂ paired path pathToo := by
  induction climbs generalizing seenToo twin pathToo with
  | stop blocked =>
    cases climbsToo with
    | stop => exact .nil
    | step linkToo freshToo =>
      have bases := resembles.base? pair
      rw [linkToo] at bases
      generalize link : world.base? _ = base? at bases
      cases bases with
      | some next => exact absurd ((resembles.mem_iff pairs next).mp (blocked _ link)) freshToo
  | step link fresh _ hypothesis =>
    have bases := resembles.base? pair
    rw [link] at bases
    cases climbsToo with
    | stop blockedToo =>
      generalize linkToo : other.base? twin = baseToo? at bases
      cases bases with
      | some next => exact absurd ((resembles.mem_iff pairs next).mpr (blockedToo _ linkToo)) fresh
    | step linkToo _ restToo =>
      rw [linkToo] at bases
      cases bases with
      | some next => exact .cons next (hypothesis (.cons next pairs) next restToo)

/-- **The ancestors of a pair are pairs**, in order. -/
theorem ancestors (resembles : world.Resembles other paired known) (pair : paired index twin) :
    List.Forall₂ paired (world.ancestors index) (other.ancestors twin) :=
  resembles.climbs (.cons pair .nil) pair (world.climbs_ancestors index)
    (other.climbs_ancestors twin)

/-! ### Contracts -/

theorem exists_linked_parents (resembles : world.Resembles other paired known) {next : TypeIndex}
    (pair : paired index twin) (linked : IsLinked world.parents index next) :
    ∃ nextToo, IsLinked other.parents twin nextToo ∧ paired next nextToo := by
  rcases mem_parents.mp linked with base | implements
  · have bases := resembles.base? pair
    rw [base] at bases
    generalize found : other.base? twin = baseToo? at bases
    cases bases with
    | some nextPair => exact ⟨_, mem_parents.mpr (Or.inl found), nextPair⟩
  · obtain ⟨nextToo, member, nextPair⟩ :=
      exists_mem_of_forall₂ (resembles.implemented pair) implements
    exact ⟨nextToo, mem_parents.mpr (Or.inr member), nextPair⟩

/-- Along links that lead from pairs to pairs, pairs are reached from a pair. -/
theorem exists_reachable {links linksToo : TypeIndex → List TypeIndex}
    (step : ∀ {index twin next}, paired index twin → IsLinked links index next →
      ∃ nextToo, IsLinked linksToo twin nextToo ∧ paired next nextToo)
    {reached : TypeIndex} (pair : paired index twin)
    (path : Relation.ReflTransGen (IsLinked links) index reached) :
    ∃ reachedToo, Relation.ReflTransGen (IsLinked linksToo) twin reachedToo ∧
      paired reached reachedToo := by
  induction path with
  | refl => exact ⟨twin, .refl, pair⟩
  | tail _ link hypothesis =>
    obtain ⟨middle, path, middlePair⟩ := hypothesis
    obtain ⟨last, linkToo, lastPair⟩ := step middlePair link
    exact ⟨last, path.tail linkToo, lastPair⟩

/-- So are the public interfaces reached along such links. -/
theorem interfacesReached_of_mem (resembles : world.Resembles other paired known)
    {links linksToo : TypeIndex → List TypeIndex}
    (inside : ∀ index, world.entries.length ≤ index → links index = [])
    (insideToo : ∀ index, other.entries.length ≤ index → linksToo index = [])
    (step : ∀ {index twin next}, paired index twin → IsLinked links index next →
      ∃ nextToo, IsLinked linksToo twin nextToo ∧ paired next nextToo)
    (pair : paired index twin) (member : contract ∈ world.interfacesReached links index) :
    ∃ contractToo ∈ other.interfacesReached linksToo twin, paired contract contractToo := by
  obtain ⟨path, different, isInterface⟩ := (mem_interfacesReached_iff inside).mp member
  obtain ⟨contractToo, pathToo, contractPair⟩ := exists_reachable step pair path
  refine ⟨contractToo, (mem_interfacesReached_iff insideToo).mpr ⟨pathToo, ?_, ?_⟩, contractPair⟩
  · exact fun same => different ((resembles.eq_iff contractPair pair).mpr same)
  · rw [← (resembles.twins contractPair).isPublicInterface, isInterface]

theorem contracts_of_mem (resembles : world.Resembles other paired known)
    (pair : paired index twin) (member : contract ∈ world.contracts index) :
    ∃ contractToo ∈ other.contracts twin, paired contract contractToo :=
  resembles.interfacesReached_of_mem (fun _ => implemented_eq_nil) (fun _ => implemented_eq_nil)
    (fun pair => exists_mem_of_forall₂ (resembles.implemented pair)) pair member

theorem allContracts_of_mem (resembles : world.Resembles other paired known)
    (pair : paired index twin) (member : contract ∈ world.allContracts index) :
    ∃ contractToo ∈ other.allContracts twin, paired contract contractToo :=
  resembles.interfacesReached_of_mem (fun _ => parents_eq_nil) (fun _ => parents_eq_nil)
    resembles.exists_linked_parents pair member

theorem mem_allContracts (resembles : world.Resembles other paired known)
    (pair : paired index twin) (contractPair : paired contract contractToo) :
    contract ∈ world.allContracts index ↔ contractToo ∈ other.allContracts twin := by
  constructor
  · intro member
    obtain ⟨again, memberToo, againPair⟩ := resembles.allContracts_of_mem pair member
    rwa [(resembles.eq_iff contractPair againPair).mp rfl]
  · intro member
    obtain ⟨again, memberToo, againPair⟩ := resembles.symm.allContracts_of_mem pair member
    rwa [(resembles.eq_iff contractPair againPair).mpr rfl]

end Resembles

end World

end ExternBindings
