/-
**What stands in a binding file.**

* `World.Declares` — the types that a file declares: its own one, and inside of a type that is no
  enumeration every public one; the order of the file lists these types
  (`IsOrdered.mem_declarationOrder_iff`), inner ones first (`IsOrdered.declarationOrder_eq`) and
  each of them once (`IsOrdered.nodup_declarationOrder`);
* `World.Declares.name` — their names are the one of the file or inside of it;
* `exists_declaration` — so each of them has its declaration in the file.
-/

import ExternBindings.Output.BindingFile
import ExternBindings.Proofs.World.FlatName
import ExternBindings.Proofs.World.LaidOut
import Mathlib.Data.List.Forall2
import Mathlib.Data.List.Nodup

namespace ExternBindings

/-! ### The outermost name -/

namespace QualifiedName

theorem outermost_eq_self {name : QualifiedName} (alone : name.enclosing = []) :
    name.outermost = name := by
  unfold outermost
  rw [alone]

theorem outermost_inside (outer : QualifiedName) (own : String) :
    (outer.inside own).outermost = outer.outermost := by
  obtain ⟨space, enclosing, name⟩ := outer
  cases enclosing <;> rfl

theorem isInner_inside (outer : QualifiedName) (own : String) :
    (outer.inside own).isInner = true := by
  unfold isInner inside
  cases outer.enclosing <;> rfl

end QualifiedName

/-! ### The types of a file -/

namespace World

variable {world : World}

/-- The file of `top` declares a type: `top` itself, or a public one that is declared directly
inside of such a type, unless that is an enumeration. -/
inductive Declares (world : World) (top : TypeIndex) : TypeIndex → Prop
  | self : Declares world top top
  | inner {owner index : TypeIndex} {entry : Entry} :
      Declares world top owner → (world.decl? owner).any TypeDecl.isEnum = false →
      world.entry? index = some entry → entry.owner? = some owner → entry.isPublic = true →
      Declares world top index

theorem mem_declarationOrderWithin_self (limit : Nat) (index : TypeIndex) :
    index ∈ world.declarationOrderWithin (limit + 1) index :=
  List.mem_append_right _ (List.mem_singleton.mpr rfl)

/-- One more level of nesting holds the types inside of those that were there. -/
theorem mem_declarationOrderWithin_inner {owner index : TypeIndex}
    (noEnum : (world.decl? owner).any TypeDecl.isEnum = false)
    (member : index ∈ world.publicInner owner) :
    ∀ {limit : Nat} {top : TypeIndex}, owner ∈ world.declarationOrderWithin limit top →
      index ∈ world.declarationOrderWithin (limit + 1) top
  | 0, _, held => absurd held List.not_mem_nil
  | limit + 1, top, held => by
    rw [declarationOrderWithin]
    refine List.mem_append_left _ ?_
    rcases List.mem_append.mp held with held | held
    · split at held
      · cases held
      · next open_top =>
        rw [if_neg open_top]
        obtain ⟨child, childMember, held⟩ := List.mem_flatMap.mp held
        exact List.mem_flatMap.mpr
          ⟨child, childMember, mem_declarationOrderWithin_inner noEnum member held⟩
    · obtain rfl := List.mem_singleton.mp held
      rw [if_neg (Bool.eq_false_iff.mp noEnum)]
      exact List.mem_flatMap.mpr ⟨index, member, mem_declarationOrderWithin_self limit index⟩

/-- What is listed for a type is declared wherever the type itself is. -/
theorem Declares.of_mem_within {top index : TypeIndex} :
    ∀ {limit : Nat} {root : TypeIndex}, world.Declares top root →
      index ∈ world.declarationOrderWithin limit root → world.Declares top index
  | 0, _, _, held => absurd held List.not_mem_nil
  | limit + 1, root, declares, held => by
    rw [declarationOrderWithin] at held
    rcases List.mem_append.mp held with held | held
    · split at held
      · cases held
      · next open_root =>
        obtain ⟨child, member, held⟩ := List.mem_flatMap.mp held
        obtain ⟨entry, found, belongs, isPublic⟩ := mem_publicInner.mp member
        exact .of_mem_within
          (.inner declares (Bool.eq_false_iff.mpr open_root) found belongs isPublic) held
    · obtain rfl := List.mem_singleton.mp held
      exact declares

theorem Declares.le (ordered : world.IsOrdered) {top index : TypeIndex}
    (declares : world.Declares top index) : top ≤ index := by
  induction declares with
  | self => exact Nat.le_refl _
  | inner _ _ found belongs _ hypothesis =>
    exact Nat.le_trans hypothesis (Nat.le_of_lt (ordered _ _ _ found belongs))

theorem Declares.exists_entry {top index : TypeIndex} {topEntry : Entry}
    (topFound : world.entry? top = some topEntry) (declares : world.Declares top index) :
    ∃ entry, world.entry? index = some entry := by
  cases declares with
  | self => exact ⟨topEntry, topFound⟩
  | inner _ _ found _ _ => exact ⟨_, found⟩

namespace IsOrdered

/-- A level of nesting more than there is room for changes nothing. -/
theorem declarationOrderWithin_succ (ordered : world.IsOrdered) :
    ∀ {limit index : Nat}, index < world.entries.length →
      world.entries.length ≤ limit + index →
      world.declarationOrderWithin (limit + 1) index = world.declarationOrderWithin limit index
  | 0, index, inRange, room => by omega
  | limit + 1, index, inRange, room => by
    rw [declarationOrderWithin, declarationOrderWithin]
    split
    · rfl
    · congr 1
      refine List.flatMap_congr fun child member => ?_
      obtain ⟨entry, found, belongs, -⟩ := mem_publicInner.mp member
      have behind : index < child := ordered child entry index found belongs
      exact ordered.declarationOrderWithin_succ (List.getElem?_eq_some_iff.mp found).1 (by omega)

/-- **The order of declaration**: the types inside of a type come before it, each of them with what
is inside of it; what is inside of an enumeration does not count. -/
theorem declarationOrder_eq (ordered : world.IsOrdered) {index : TypeIndex}
    (inRange : index < world.entries.length) :
    world.declarationOrder index =
      (if (world.decl? index).any TypeDecl.isEnum then []
        else (world.publicInner index).flatMap world.declarationOrder) ++ [index] := by
  have more := ordered.declarationOrderWithin_succ inRange (Nat.le_add_right _ _)
  unfold declarationOrder
  rw [← more, declarationOrderWithin]

/-- **The order of a file lists the types that the file declares.** -/
theorem mem_declarationOrder_iff (ordered : world.IsOrdered) {top index : TypeIndex}
    (inRange : top < world.entries.length) :
    index ∈ world.declarationOrder top ↔ world.Declares top index := by
  refine ⟨.of_mem_within .self, fun declares => ?_⟩
  induction declares with
  | self =>
    rw [ordered.declarationOrder_eq inRange]
    exact List.mem_append_right _ (List.mem_singleton.mpr rfl)
  | inner _ noEnum found belongs isPublic hypothesis =>
    have member := mem_publicInner.mpr ⟨_, found, belongs, isPublic⟩
    have held := mem_declarationOrderWithin_inner noEnum member hypothesis
    rwa [ordered.declarationOrderWithin_succ inRange (Nat.le_add_right _ _)] at held

end IsOrdered

/-! ### Each type once -/

/-- A type that a file declares is the file's own one, or the file declares the type around it. -/
theorem Declares.eq_or_owner {top owner index : TypeIndex} {entry : Entry}
    (declares : world.Declares top index) (found : world.entry? index = some entry)
    (belongs : entry.owner? = some owner) : index = top ∨ world.Declares top owner := by
  cases declares with
  | self => exact Or.inl rfl
  | inner outer _ foundToo belongsToo _ =>
    obtain rfl := Option.some.inj (found.symm.trans foundToo)
    obtain rfl := Option.some.inj (belongs.symm.trans belongsToo)
    exact Or.inr outer

/-- The types that declare a type are declared inside of each other. -/
theorem Declares.comparable {first second index : TypeIndex} (declares : world.Declares first index)
    (declaresToo : world.Declares second index) :
    world.Declares first second ∨ world.Declares second first := by
  induction declares with
  | self => exact Or.inr declaresToo
  | inner outer noEnum found belongs isPublic hypothesis =>
    rcases declaresToo.eq_or_owner found belongs with rfl | outerToo
    · exact Or.inl (.inner outer noEnum found belongs isPublic)
    · exact hypothesis outerToo

/-- A type does not declare another one that is declared in the same type. -/
theorem Declares.eq_of_owner_eq (ordered : world.IsOrdered) {owner first second : TypeIndex}
    {entry other : Entry} (found : world.entry? first = some entry)
    (belongs : entry.owner? = some owner) (foundToo : world.entry? second = some other)
    (belongsToo : other.owner? = some owner) (declares : world.Declares first second) :
    first = second := by
  rcases declares.eq_or_owner foundToo belongsToo with same | outer
  · exact same.symm
  · exact absurd (ordered first entry owner found belongs) (Nat.not_lt.mpr (outer.le ordered))

/-- **The order of a file lists each type once.** What two types inside of the same one declare is
not the same. -/
theorem IsOrdered.nodup_declarationOrder (ordered : world.IsOrdered) {index : TypeIndex}
    (inRange : index < world.entries.length) : (world.declarationOrder index).Nodup := by
  -- inner types stand behind the type, so there are fewer behind each of them
  induction room : world.entries.length - index using Nat.strongRecOn generalizing index with
  | ind room hypothesis =>
    have child {inner : TypeIndex} (member : inner ∈ world.publicInner index) :
        index < inner ∧ inner < world.entries.length := by
      obtain ⟨entry, found, belongs, -⟩ := mem_publicInner.mp member
      exact ⟨ordered inner entry index found belongs, (List.getElem?_eq_some_iff.mp found).1⟩
    have declared {inner other : TypeIndex} (member : inner ∈ world.publicInner index)
        (held : other ∈ world.declarationOrder inner) : world.Declares inner other :=
      (ordered.mem_declarationOrder_iff (child member).2).mp held
    rw [ordered.declarationOrder_eq inRange]
    split
    · exact List.nodup_singleton index
    · refine List.nodup_append.mpr ⟨List.nodup_flatMap.mpr ⟨fun inner member => ?_, ?_⟩,
        List.nodup_singleton index, ?_⟩
      · obtain ⟨behind, inRangeToo⟩ := child member
        exact hypothesis _ (room ▸ Nat.sub_lt_sub_left inRange behind) inRangeToo rfl
      · refine (List.nodup_range.filter _).pairwise_of_forall_ne ?_
        intro first member second memberToo different other held heldToo
        obtain ⟨entry, found, belongs, -⟩ := mem_publicInner.mp member
        obtain ⟨entryToo, foundToo, belongsToo, -⟩ := mem_publicInner.mp memberToo
        rcases (declared member held).comparable (declared memberToo heldToo) with inside | inside
        · exact different (inside.eq_of_owner_eq ordered found belongs foundToo belongsToo)
        · exact different (inside.eq_of_owner_eq ordered foundToo belongsToo found belongs).symm
      · intro other held last lastMember
        obtain ⟨inner, member, held⟩ := List.mem_flatMap.mp held
        have behind := Nat.lt_of_lt_of_le (child member).1 ((declared member held).le ordered)
        rw [List.mem_singleton.mp lastMember]
        exact Nat.ne_of_gt behind

/-- An owner stands in front of what it owns. -/
theorem IsNested.owner_lt (nested : world.IsNested) {owner index : TypeIndex} {entry : Entry}
    (found : world.entry? index = some entry) (belongs : entry.owner? = some owner) :
    owner < index ∧ ∃ ownerEntry, world.entry? owner = some ownerEntry ∧
      ownerEntry.decl.name.Holds entry.decl.name := by
  rcases nested index entry found with
    ⟨none, -⟩ | ⟨other, ownerEntry, earlier, ownerFound, same, holds⟩
  · rw [none] at belongs
    cases belongs
  · rw [same, Option.some.injEq] at belongs
    subst belongs
    exact ⟨earlier, ownerEntry, ownerFound, holds⟩

theorem IsNested.isOrdered (nested : world.IsNested) : world.IsOrdered :=
  fun _ _ _ found belongs => (nested.owner_lt found belongs).1

/-- **Every type that a file declares is in the order of the file.** -/
theorem Declares.mem_declarationOrder (nested : world.IsNested) {top index : TypeIndex}
    {entry : Entry} (declares : world.Declares top index)
    (found : world.entry? index = some entry) : index ∈ world.declarationOrder top := by
  have inRange : index < world.entries.length := (List.getElem?_eq_some_iff.mp found).1
  have atMost := declares.le nested.isOrdered
  exact (nested.isOrdered.mem_declarationOrder_iff (Nat.lt_of_le_of_lt atMost inRange)).mpr declares

/-- **The names in a file are the one of its own type or inside of it.** -/
theorem Declares.name (nested : world.IsNested) {top index : TypeIndex} {topEntry entry : Entry}
    (topFound : world.entry? top = some topEntry) (alone : topEntry.decl.name.enclosing = [])
    (declares : world.Declares top index) (found : world.entry? index = some entry) :
    (index = top ∨ entry.decl.name.isInner = true) ∧
      entry.decl.name.space = topEntry.decl.name.space ∧
      entry.decl.name.outermost = topEntry.decl.name := by
  induction declares generalizing entry with
  | self =>
    rw [topFound, Option.some.injEq] at found
    subst found
    exact ⟨Or.inl rfl, rfl, QualifiedName.outermost_eq_self alone⟩
  | @inner owner index other _ _ otherFound belongs _ hypothesis =>
    rw [otherFound, Option.some.injEq] at found
    subst found
    obtain ⟨-, ownerEntry, ownerFound, own, -, name⟩ := nested.owner_lt otherFound belongs
    obtain ⟨-, space, outermost⟩ := hypothesis ownerFound
    rw [name, QualifiedName.outermost_inside]
    exact ⟨Or.inr (QualifiedName.isInner_inside _ _), space, outermost⟩

end World

/-! ### Answers of a whole list -/

section Answers

variable {α β ε : Type}

theorem bind_eq_ok {first : Except ε α} {next : α → Except ε β} {answer : β} :
    first >>= next = .ok answer ↔ ∃ value, first = .ok value ∧ next value = .ok answer := by
  cases first with
  | error error =>
    show Except.error error = _ ↔ _
    simp
  | ok value =>
    show next value = _ ↔ _
    simp

theorem map_eq_ok {function : α → β} {first : Except ε α} {answer : β} :
    function <$> first = .ok answer ↔ ∃ value, first = .ok value ∧ function value = answer := by
  cases first with
  | error error =>
    show Except.error error = _ ↔ _
    simp
  | ok value =>
    show Except.ok (function value) = _ ↔ _
    simp

theorem exists_ok_of_isOk {answer : Except ε α} (answered : answer.isOk = true) :
    ∃ given, answer = .ok given := by
  cases answer with
  | error error => cases answered
  | ok given => exact ⟨given, rfl⟩

theorem exists_ok_of_map_toOption {function : α → β} {answer : Except ε α} {value : β}
    (known : answer.toOption.map function = some value) :
    ∃ given, answer = .ok given ∧ function given = value := by
  cases answer with
  | error error => cases known
  | ok given => exact ⟨given, rfl, Option.some.inj known⟩

end Answers

namespace Catalog

variable {catalog : Catalog}

theorem declarations_cons {site : Site} {head : TypeIndex} {rest : List TypeIndex}
    {answers : List Declaration} {decl : TypeDecl}
    (found : catalog.world.decl? head = some decl) :
    catalog.declarations site (head :: rest) = .ok answers ↔
      ∃ answer others, catalog.declaration site head decl = .ok answer ∧
        catalog.declarations site rest = .ok others ∧ answers = answer :: others := by
  rw [declarations, found]
  dsimp only
  rw [bind_eq_ok]
  simp only [map_eq_ok, bind_eq_ok]
  constructor
  · rintro ⟨_, ⟨answer, declared, rfl⟩, others, othersDeclared, whole⟩
    cases whole
    exact ⟨answer, others, declared, othersDeclared, rfl⟩
  · rintro ⟨answer, others, declared, othersDeclared, rfl⟩
    exact ⟨_, ⟨answer, declared, rfl⟩, others, othersDeclared, rfl⟩

theorem declarations_cons_none {site : Site} {head : TypeIndex} {rest : List TypeIndex}
    (absent : catalog.world.decl? head = none) :
    catalog.declarations site (head :: rest) = catalog.declarations site rest := by
  rw [declarations, absent]
  show (catalog.declarations site rest >>= fun others => pure ([] ++ others)) = _
  cases catalog.declarations site rest <;> rfl

theorem exists_declaration {site : Site} {index : TypeIndex} {decl : TypeDecl}
    (found : catalog.world.decl? index = some decl) :
    ∀ {order : List TypeIndex} {answers : List Declaration},
      catalog.declarations site order = .ok answers → index ∈ order →
      ∃ answer ∈ answers, catalog.declaration site index decl = .ok answer
  | [], _, _, member => absurd member List.not_mem_nil
  | head :: rest, answers, answered, member => by
    cases headFound : catalog.world.decl? head with
    | none =>
      rw [declarations_cons_none headFound] at answered
      refine exists_declaration found answered ((List.mem_cons.mp member).resolve_left ?_)
      rintro rfl
      rw [found] at headFound
      cases headFound
    | some headDecl =>
      obtain ⟨own, others, declared, othersDeclared, rfl⟩ :=
        (declarations_cons headFound).mp answered
      rcases List.mem_cons.mp member with rfl | member
      · rw [found, Option.some.injEq] at headFound
        subst headFound
        exact ⟨own, List.mem_cons_self, declared⟩
      · obtain ⟨answer, answerMember, same⟩ := exists_declaration found othersDeclared member
        exact ⟨answer, List.mem_cons_of_mem _ answerMember, same⟩

/-- The file of a type as it is put together. -/
theorem bindingFile_eq_ok {index : TypeIndex} {name : QualifiedName} {file : BindingFile} :
    catalog.bindingFile index name = .ok file ↔
      ∃ declarations,
        catalog.declarations (.ofFile name) (catalog.world.declarationOrder index) =
          .ok declarations ∧
        file =
          { subject := name.text
            package := catalog.layout.packageFor name.space
            directories := (Text.segments '.' (Text.lowercase name.space)).filter (· ≠ "")
            stem := catalog.world.flatName name
            declarations } := by
  unfold bindingFile
  rw [bind_eq_ok]
  constructor
  · rintro ⟨declarations, answered, whole⟩
    cases whole
    exact ⟨declarations, answered, rfl⟩
  · rintro ⟨declarations, answered, rfl⟩
    exact ⟨declarations, answered, rfl⟩

/-- The file is the one that is put together for the type at the index. -/
def IsFileOf (catalog : Catalog) (index : TypeIndex) (file : BindingFile) : Prop :=
  ∃ decl, catalog.world.decl? index = some decl ∧ catalog.bindingFile index decl.name = .ok file

theorem IsFileOf.subject_eq {index : TypeIndex} {entry : Entry} {file : BindingFile}
    (isFile : catalog.IsFileOf index file) (found : catalog.world.entry? index = some entry) :
    file.subject = entry.text := by
  obtain ⟨decl, declFound, written⟩ := isFile
  obtain rfl : entry.decl = decl :=
    Option.some.inj ((World.decl?_eq_some_decl found).symm.trans declFound)
  obtain ⟨_, -, rfl⟩ := bindingFile_eq_ok.mp written
  exact entry.text_eq.symm

/-- **Each file is that of the type at its position.** -/
theorem forall₂_isFileOf : ∀ {order : List TypeIndex} {files : List BindingFile},
    (∀ index ∈ order, ∃ decl, catalog.world.decl? index = some decl) →
    catalog.bindingFilesFor order = .ok files → List.Forall₂ catalog.IsFileOf order files
  | [], _, _, answered => by
    cases answered
    exact List.Forall₂.nil
  | head :: rest, files, known, answered => by
    rw [List.forall_mem_cons] at known
    obtain ⟨decl, found⟩ := known.1
    rw [bindingFilesFor, found] at answered
    dsimp only at answered
    rw [bind_eq_ok] at answered
    simp only [map_eq_ok, bind_eq_ok] at answered
    obtain ⟨_, ⟨file, written, rfl⟩, others, othersWritten, whole⟩ := answered
    cases whole
    exact List.Forall₂.cons ⟨decl, found, written⟩ (forall₂_isFileOf known.2 othersWritten)

/-- The files of types are put together if each of them is. -/
theorem bindingFilesFor_eq_ok {order : List TypeIndex} {files : List BindingFile}
    (aligned : List.Forall₂ catalog.IsFileOf order files) :
    catalog.bindingFilesFor order = .ok files := by
  induction aligned with
  | nil => rfl
  | cons head _ hypothesis =>
    obtain ⟨decl, found, written⟩ := head
    rw [bindingFilesFor, found, hypothesis]
    dsimp only
    rw [written]
    rfl

end Catalog

/-! ### Types with a file -/

theorem World.mem_typesWithFile {world : World} {index : TypeIndex} :
    index ∈ world.typesWithFile ↔
      ∃ entry, world.entry? index = some entry ∧ entry.isTopLevel = true ∧ entry.isPublic = true ∧
        ownNamedTypes.contains entry.text = false := by
  unfold typesWithFile publicTopLevel
  rw [List.mem_filter, mem_indicesWhere]
  constructor
  · rintro ⟨⟨entry, found, accepted⟩, chosen⟩
    unfold hasFile at chosen
    rw [found, Option.any_some] at chosen
    simp only [Bool.and_eq_true, Bool.not_eq_true'] at chosen
    exact ⟨entry, found, chosen.1.1, chosen.1.2, chosen.2⟩
  · rintro ⟨entry, found, top, isPublic, other⟩
    refine ⟨⟨entry, found, ?_⟩, ?_⟩
    · rw [top, isPublic, Bool.and_self]
    · unfold hasFile
      rw [found, Option.any_some, top, isPublic, other]
      rfl

theorem World.nodup_typesWithFile {world : World} : world.typesWithFile.Nodup :=
  (List.nodup_range.filter _).filter _

/-- The files of a run are those of the types with a file, in order. -/
theorem forall₂_isFileOf_bindingFilesOf {assemblies : List Assembly} {rules : PackageRules}
    {files : List BindingFile} (answered : bindingFilesOf assemblies rules = .ok files) :
    List.Forall₂ (Catalog.ofAssemblies assemblies rules).IsFileOf
      (World.ofAssemblies assemblies).typesWithFile files := by
  refine Catalog.forall₂_isFileOf (fun index member => ?_) answered
  obtain ⟨entry, found, -⟩ := World.mem_typesWithFile.mp member
  exact ⟨entry.decl, World.decl?_eq_some_decl found⟩

theorem exists_isFileOf {assemblies : List Assembly} {rules : PackageRules}
    {files : List BindingFile} (answered : bindingFilesOf assemblies rules = .ok files)
    {file : BindingFile} (member : file ∈ files) :
    ∃ index ∈ (World.ofAssemblies assemblies).typesWithFile,
      (Catalog.ofAssemblies assemblies rules).IsFileOf index file := by
  have aligned := forall₂_isFileOf_bindingFilesOf answered
  obtain ⟨position, inRange, rfl⟩ := List.getElem_of_mem member
  have inRangeToo := aligned.length_eq ▸ inRange
  exact ⟨_, List.getElem_mem inRangeToo, aligned.get inRangeToo inRange⟩

theorem exists_file {assemblies : List Assembly} {rules : PackageRules} {files : List BindingFile}
    (answered : bindingFilesOf assemblies rules = .ok files) {index : TypeIndex}
    (member : index ∈ (World.ofAssemblies assemblies).typesWithFile) :
    ∃ file ∈ files, (Catalog.ofAssemblies assemblies rules).IsFileOf index file := by
  have aligned := forall₂_isFileOf_bindingFilesOf answered
  obtain ⟨position, inRange, rfl⟩ := List.getElem_of_mem member
  have inRangeToo := aligned.length_eq ▸ inRange
  exact ⟨_, List.getElem_mem inRangeToo, aligned.get inRange inRangeToo⟩

end ExternBindings
