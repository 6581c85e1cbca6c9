/-
**The files of rearranged assemblies.**

* `Mirrors.unitFor?` — the type of a name has the same unit in catalogs that mirror each other;
* `subjectsOf` — the types that get a file, in the order of declaration;
* `bindingFilesOf_rearranged` — **moving whole types about rearranges the files**, each list in its
  own order of declaration, and changes nothing else.
-/

import ExternBindings.Proofs.Output.Files
import ExternBindings.Proofs.Output.Resembling
import ExternBindings.Proofs.World.Rearranged

namespace ExternBindings

/-! ### The order of a file -/

namespace World.Mirrors

variable {world other : World}

theorem declarationOrderWithin (mirrors : world.Mirrors other) (limit : Nat) {index twin : TypeIndex}
    (twins : Twins world other index twin) :
    List.Forall₂ (Twins world other) (world.declarationOrderWithin limit index)
      (other.declarationOrderWithin limit twin) := by
  induction limit generalizing index twin with
  | zero => exact .nil
  | succ limit hypothesis =>
    have isEnum : (world.decl? index).any TypeDecl.isEnum =
        (other.decl? twin).any TypeDecl.isEnum := by
      obtain ⟨decl, declToo, found, foundToo, same⟩ := twins.decl
      rw [found, foundToo]
      exact same.congr TypeDecl.isEnum
    rw [World.declarationOrderWithin, World.declarationOrderWithin, isEnum]
    refine List.rel_append ?_ (.cons twins .nil)
    split
    · exact .nil
    · exact List.rel_flatMap (mirrors.inner twins) fun _ _ inner => hypothesis inner

/-- **Files of twins hold twins**, in order. -/
theorem declarationOrder (mirrors : world.Mirrors other) {index twin : TypeIndex}
    (twins : Twins world other index twin) :
    List.Forall₂ (Twins world other) (world.declarationOrder index)
      (other.declarationOrder twin) := by
  unfold World.declarationOrder
  rw [mirrors.length_eq]
  exact mirrors.declarationOrderWithin _ twins

end World.Mirrors

/-! ### The unit of a type -/

namespace Catalog

/-- The unit of the type with this written name, if it can be declared. -/
def unitFor? (catalog : Catalog) (written : String) : Option OutputUnit :=
  (catalog.world.lookupText? written).bind fun index =>
    (catalog.world.decl? index).bind fun decl =>
      (catalog.bindingFile index decl.name).toOption.map BindingFile.unit

/-- The worlds mirror each other, and packages are laid out alike. -/
structure Mirrors (catalog other : Catalog) : Prop where
  world : catalog.world.Mirrors other.world
  rules : catalog.layout.rules = other.layout.rules
  declared : ∀ space, space ∈ catalog.layout.declared ↔ space ∈ other.layout.declared

namespace Mirrors

variable {catalog other : Catalog}

/-- **Catalogs that mirror each other resemble each other**, twin by twin. -/
theorem resembles (mirrors : catalog.Mirrors other) :
    catalog.Resembles other (catalog.world.Twins other.world) fun _ => True where
  world := mirrors.world.resembles
  packageFor _ := packageFor_congr mirrors.rules (mirrors.declared _)
  order := mirrors.world.declarationOrder

theorem unitFor? (mirrors : catalog.Mirrors other) (written : String) :
    catalog.unitFor? written = other.unitFor? written := by
  have looked := mirrors.world.lookupText? written
  unfold Catalog.unitFor?
  generalize catalog.world.lookupText? written = index? at looked
  generalize other.world.lookupText? written = twin? at looked
  cases looked with
  | none => rfl
  | some twins =>
    obtain ⟨decl, declToo, found, foundToo, same⟩ := twins.decl
    have name : decl.name = declToo.name := same.congr TypeDecl.name
    have files := mirrors.resembles.bindingFile twins declToo.name trivial
    rw [Option.bind_some, Option.bind_some, found, foundToo, Option.bind_some, Option.bind_some,
      name]
    generalize catalog.bindingFile _ _ = file at files
    generalize other.bindingFile _ _ = fileToo at files
    cases files with
    | error => rfl
    | ok alike => exact congrArg some alike

end Mirrors

/-! ### All files -/

variable {catalog : Catalog}

/-- The type at the index has this written name. -/
def IsNamed (catalog : Catalog) (index : TypeIndex) (written : String) : Prop :=
  ∃ entry, catalog.world.entry? index = some entry ∧ entry.text = written

theorem unitFor?_eq (unambiguous : catalog.world.IsUnambiguous) {index : TypeIndex} {entry : Entry}
    (found : catalog.world.entry? index = some entry) :
    catalog.unitFor? entry.text =
      (catalog.bindingFile index entry.decl.name).toOption.map BindingFile.unit := by
  unfold unitFor?
  rw [(World.lookupText?_eq_some_iff unambiguous).mpr ⟨entry, found, rfl⟩, Option.bind_some,
    World.decl?_eq_some_decl found, Option.bind_some]

/-- The files are those of the units of all types, or one type has no unit. -/
theorem bindingFilesFor_units (unambiguous : catalog.world.IsUnambiguous) {order : List TypeIndex}
    {names : List String} (named : List.Forall₂ catalog.IsNamed order names) :
    (∃ files, catalog.bindingFilesFor order = .ok files ∧
        names.map catalog.unitFor? = files.map fun file => some file.unit) ∨
      (catalog.bindingFilesFor order).isOk = false ∧ ∃ written ∈ names,
        catalog.unitFor? written = none := by
  induction named with
  | nil => exact Or.inl ⟨[], rfl, rfl⟩
  | cons head _ hypothesis =>
    obtain ⟨entry, found, rfl⟩ := head
    have unit := unitFor?_eq unambiguous found
    rw [bindingFilesFor, World.decl?_eq_some_decl found, List.map_cons, unit]
    dsimp only
    generalize catalog.bindingFile _ entry.decl.name = answer at unit
    cases answer with
    | error flaw => exact Or.inr ⟨rfl, entry.text, List.mem_cons_self, unit⟩
    | ok file =>
      rcases hypothesis with ⟨files, written, units⟩ | ⟨failed, name, member, missing⟩
      · rw [written, units]
        exact Or.inl ⟨file :: files, rfl, rfl⟩
      · right
        refine ⟨?_, name, List.mem_cons_of_mem _ member, missing⟩
        generalize catalog.bindingFilesFor _ = answer at failed
        cases answer with
        | error flaw => rfl
        | ok files => cases failed

end Catalog

/-! ### The order of declaration -/

/-- Whether the outermost type of a tree gets a file of its own. -/
def TypeTree.getsFile (tree : TypeTree) : Bool :=
  tree.decl.visibility.isPublic && !ownNamedTypes.contains tree.decl.name.text

/-- The written names of the types that get a file, in the order of declaration. -/
def subjectsOf (assemblies : List Assembly) : List String :=
  ((assemblies.flatMap Assembly.types).filter TypeTree.getsFile).map fun tree => tree.decl.name.text

theorem AreRearranged.subjects {first second : List Assembly}
    (rearranged : AreRearranged first second) : (subjectsOf first).Perm (subjectsOf second) := by
  have spoken : ∀ assemblies : List Assembly, subjectsOf assemblies =
      (((assemblies.flatMap Assembly.types).map TypeTree.withoutSpans).filter
        TypeTree.getsFile).map fun tree => tree.decl.name.text := by
    intro assemblies
    unfold subjectsOf
    rw [List.filter_map, List.map_map]
    simp only [Function.comp_def, TypeTree.getsFile, TypeTree.decl_withoutSpans]
    rfl
  rw [spoken, spoken]
  exact (rearranged.filter _).map _

/-- Whether the type of an entry gets a file of its own. -/
def Entry.getsFile (entry : Entry) : Bool :=
  entry.isTopLevel && entry.isPublic && !ownNamedTypes.contains entry.text

theorem World.typesWithFile_eq (world : World) :
    world.typesWithFile = world.indicesWhere Entry.getsFile := by
  unfold typesWithFile publicTopLevel indicesWhere
  rw [List.filter_filter]
  refine List.filter_congr fun index _ => ?_
  unfold hasFile
  cases world.entry? index with
  | none => rfl
  | some entry =>
    rw [Option.any_some, Option.any_some, Option.any_some, Entry.getsFile]
    cases entry.isTopLevel <;> cases entry.isPublic <;> simp

/-- The entries that get a file are named like the trees that do. -/
theorem LaidOut.texts {entries : List Entry} {trees : List TypeTree}
    (laidOut : LaidOut none 0 entries trees) :
    (entries.filter Entry.getsFile).map Entry.text =
      (trees.filter TypeTree.getsFile).map fun tree => tree.decl.name.text := by
  have declared : ∀ decls : List TypeDecl, decls = trees.map TypeTree.decl →
      (decls.filter fun decl => decl.visibility.isPublic &&
        !ownNamedTypes.contains decl.name.text).map (fun decl => decl.name.text) =
          (trees.filter TypeTree.getsFile).map fun tree => tree.decl.name.text := by
    rintro _ rfl
    rw [List.filter_map, List.map_map]
    rfl
  rw [← declared _ (laidOut.topDecls fun index same => nomatch same), List.filter_map,
    List.map_map, List.filter_filter]
  have chosen : Entry.getsFile = fun entry =>
      ((fun decl : TypeDecl => decl.visibility.isPublic &&
        !ownNamedTypes.contains decl.name.text) ∘ Entry.decl) entry && decide (entry.owner? = none) := by
    funext entry
    unfold Entry.getsFile Entry.isTopLevel Entry.isPublic
    rw [entry.text_eq, Function.comp_apply, Bool.and_assoc, Bool.and_comm]
    congr 1
    cases entry.owner? <;> rfl
  rw [chosen]
  exact List.map_congr_left fun entry _ => entry.text_eq

/-- The types with a file, by name. -/
theorem forall₂_isNamed (assemblies : List Assembly) (rules : PackageRules) :
    List.Forall₂ (Catalog.ofAssemblies assemblies rules).IsNamed
      (World.ofAssemblies assemblies).typesWithFile (subjectsOf assemblies) := by
  unfold subjectsOf
  rw [← (World.laidOut_ofAssemblies assemblies).texts, World.typesWithFile_eq,
    List.forall₂_map_right_iff]
  exact ((World.ofAssemblies assemblies).forall₂_indicesWhere _).imp
    fun _ entry found => ⟨entry, found, rfl⟩

/-- **Files are made exactly if every type that gets one has a unit.** -/
theorem isOk_bindingFilesOf_iff {assemblies : List Assembly}
    (unambiguous : (World.ofAssemblies assemblies).IsUnambiguous) (rules : PackageRules) :
    (bindingFilesOf assemblies rules).isOk = true ↔ ∀ written ∈ subjectsOf assemblies,
      (Catalog.ofAssemblies assemblies rules).unitFor? written ≠ none := by
  have named := forall₂_isNamed assemblies rules
  rcases Catalog.bindingFilesFor_units unambiguous named with
    ⟨files, answered, units⟩ | ⟨failed, written, member, missing⟩
  · have made : bindingFilesOf assemblies rules = .ok files := answered
    rw [made]
    refine iff_of_true rfl fun written member missing => ?_
    have absent := List.mem_map_of_mem (f := (Catalog.ofAssemblies assemblies rules).unitFor?) member
    rw [units, missing] at absent
    obtain ⟨file, -, impossible⟩ := List.mem_map.mp absent
    cases impossible
  · have notMade : (bindingFilesOf assemblies rules).isOk = false := failed
    rw [notMade]
    exact iff_of_false Bool.false_ne_true fun present => present written member missing

theorem map_unitFor?_eq {assemblies : List Assembly}
    (unambiguous : (World.ofAssemblies assemblies).IsUnambiguous) {rules : PackageRules}
    {files : List BindingFile} (answered : bindingFilesOf assemblies rules = .ok files) :
    (subjectsOf assemblies).map (Catalog.ofAssemblies assemblies rules).unitFor? =
      files.map fun file => some file.unit := by
  have named := forall₂_isNamed assemblies rules
  rcases Catalog.bindingFilesFor_units unambiguous named with
    ⟨others, answeredToo, units⟩ | ⟨failed, -⟩
  · have made : bindingFilesOf assemblies rules = .ok others := answeredToo
    rw [answered] at made
    cases made
    exact units
  · have notMade : (bindingFilesOf assemblies rules).isOk = false := failed
    rw [answered] at notMade
    cases notMade

/-- Each list of files follows its own order of declaration. -/
theorem map_subject_eq {assemblies : List Assembly} {rules : PackageRules} {files : List BindingFile}
    (answered : bindingFilesOf assemblies rules = .ok files) :
    files.map BindingFile.subject = subjectsOf assemblies := by
  have named := forall₂_isNamed assemblies rules
  have aligned := forall₂_isFileOf_bindingFilesOf answered
  generalize subjectsOf assemblies = names at named ⊢
  generalize (World.ofAssemblies assemblies).typesWithFile = order at named aligned
  clear answered
  induction aligned generalizing names with
  | nil =>
    cases named
    rfl
  | cons head _ hypothesis =>
    cases named with
    | cons name named =>
      obtain ⟨entry, found, rfl⟩ := name
      rw [List.map_cons, hypothesis _ named, head.subject_eq found]

/-! ### Rearranged assemblies -/

theorem World.namespaces_eq (world : World) :
    world.namespaces =
      ((world.entries.map Entry.shape).filter Prod.snd).map fun shape => shape.1.name.space := by
  unfold namespaces
  rw [List.filter_map, List.map_map]
  rfl

theorem Catalog.mirrors_ofAssemblies {first second : List Assembly}
    (rearranged : AreRearranged first second)
    (unambiguous : (World.ofAssemblies first).IsUnambiguous) (rules : PackageRules) :
    (ofAssemblies first rules).Mirrors (ofAssemblies second rules) where
  world := World.mirrors_ofAssemblies rearranged unambiguous
  rules := rfl
  declared space := by
    show space ∈ (World.ofAssemblies first).namespaces ↔
      space ∈ (World.ofAssemblies second).namespaces
    rw [World.namespaces_eq, World.namespaces_eq]
    exact ((rearranged.shapes.filter _).map _).mem_iff

/-- **Moving whole types about rearranges the files, and changes nothing else.** Files are made of
both lists of assemblies or of neither; then they have the same units, and each list of files follows
its own list of assemblies. -/
theorem bindingFilesOf_rearranged {first second : List Assembly}
    (rearranged : AreRearranged first second)
    (unambiguous : (World.ofAssemblies first).IsUnambiguous) (rules : PackageRules) :
    (bindingFilesOf first rules).isOk = (bindingFilesOf second rules).isOk ∧
      ∀ files others, bindingFilesOf first rules = .ok files →
        bindingFilesOf second rules = .ok others →
          (files.map BindingFile.unit).Perm (others.map BindingFile.unit) ∧
            files.map BindingFile.subject = subjectsOf first ∧
              others.map BindingFile.subject = subjectsOf second := by
  have unambiguousToo := unambiguous.of_shapes rearranged.shapes
  have sameUnits : (Catalog.ofAssemblies second rules).unitFor? =
      (Catalog.ofAssemblies first rules).unitFor? :=
    funext fun written =>
      ((Catalog.mirrors_ofAssemblies rearranged unambiguous rules).unitFor? written).symm
  constructor
  · rw [Bool.eq_iff_iff, isOk_bindingFilesOf_iff unambiguous, isOk_bindingFilesOf_iff unambiguousToo,
      sameUnits]
    simp only [rearranged.subjects.mem_iff]
  · intro files others answered answeredToo
    refine ⟨?_, map_subject_eq answered, map_subject_eq answeredToo⟩
    have units := (rearranged.subjects.map (Catalog.ofAssemblies first rules).unitFor?).filterMap id
    have unitsToo := map_unitFor?_eq unambiguousToo answeredToo
    rw [sameUnits] at unitsToo
    rw [map_unitFor?_eq unambiguous answered, unitsToo, List.filterMap_map,
      List.filterMap_map] at units
    rw [← List.filterMap_eq_map]
    exact units

/-- A public class `N.B` that stands at the given place, with a method `run`. -/
def sampleBase (span : Span) : TypeTree :=
  .node
    { name := { space := "N", name := "B" }, kind := .classType,
      methods := [{ name := "run", span }], span } []

/-- A public class `N.A` that extends `N.B`. -/
def sampleHeir : TypeTree :=
  .node
    { name := { space := "N", name := "A" }, kind := .classType,
      base? := some (.named { space := "N", name := "B" }) } []

/-- Both classes in one assembly, the heir first. -/
def sampleTogether : List Assembly :=
  [{ name := "both", types := [sampleHeir, sampleBase ⟨40, 60⟩] }]

/-- Each class in an assembly of its own, the base first. -/
def sampleApart : List Assembly :=
  [{ name := "base", types := [sampleBase ⟨10, 30⟩] }, { name := "heir", types := [sampleHeir] }]

theorem bindingFilesOf_rearranged_apart :
    AreRearranged sampleTogether sampleApart ∧ (World.ofAssemblies sampleTogether).IsUnambiguous ∧
      (bindingFilesOf sampleTogether {}).isOk = true ∧
      (bindingFilesOf sampleTogether {}).isOk = (bindingFilesOf sampleApart {}).isOk ∧
      ∀ files others, bindingFilesOf sampleTogether {} = .ok files →
        bindingFilesOf sampleApart {} = .ok others →
          (files.map BindingFile.unit).Perm (others.map BindingFile.unit) ∧
            files.map BindingFile.subject = ["N.A", "N.B"] ∧
              others.map BindingFile.subject = ["N.B", "N.A"] := by
  have rearranged : AreRearranged sampleTogether sampleApart := List.Perm.swap _ _ _
  have unambiguous : (World.ofAssemblies sampleTogether).IsUnambiguous := by
    show ((World.ofAssemblies sampleTogether).entries.map Entry.text).Nodup
    decide +kernel
  have outcome := bindingFilesOf_rearranged rearranged unambiguous {}
  have subjects : subjectsOf sampleTogether = ["N.A", "N.B"] := by decide +kernel
  have subjectsToo : subjectsOf sampleApart = ["N.B", "N.A"] := by decide +kernel
  rw [subjects, subjectsToo] at outcome
  exact ⟨rearranged, unambiguous, by decide +kernel, outcome⟩

end ExternBindings
