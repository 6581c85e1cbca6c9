/-
**The blocks of a file.**

Behind its header a file is made of blocks: the declarations of its types, each with its companion
right behind it.

* `BindingFile.blocks` — the blocks of a file. Its text is made of them (`contents_eq_blocks`), and it
  counts those that are companions (`companions_eq_blocks`);
* `Catalog.IsWrittenAs` — the blocks of a type: an enumeration is one block, a class or interface has
  a companion if its functions are shared out to one;
* `Catalog.declarations_eq_ok_iff` — the declarations of types are put together one by one;
* `World.Declares.isOpen` — everyone may use what a file of an open type declares;
* `files_are_in_postorder` — **each file is the postorder of its tree** (`Catalog.IsPostorderOf`), and
  the files are those of the outermost trees in order.
-/

import ExternBindings.Proofs.Listing.Characters
import ExternBindings.Proofs.Output.Postorder
import ExternBindings.Proofs.Text.Joined
import ExternBindings.Proofs.World.Enclosing

namespace ExternBindings

/-! ### Blocks -/

/-- A block of a file. -/
inductive Block where
  | enumeration (declaration : EnumDeclaration)
  /-- a class or interface without its companion -/
  | classLike (declaration : ClassDeclaration)
  /-- the companion of a class or interface, with these functions -/
  | companion (declaration : ClassDeclaration) (functions : List FunctionGroup)

namespace Block

/-- The block as written. -/
def text : Block → String
  | enumeration declaration => declaration.text
  | classLike declaration => declaration.ownText
  | companion declaration functions => declaration.companionText functions

def isCompanion : Block → Bool
  | companion _ _ => true
  | _ => false

end Block

namespace Declaration

/-- The blocks of a declaration. -/
def blocks : Declaration → List Block
  | enumeration declaration => [.enumeration declaration]
  | classLike declaration =>
    .classLike declaration ::
      (declaration.methods.companion?.map (Block.companion declaration)).toList

theorem blocks_classLike (declaration : ClassDeclaration) :
    (classLike declaration).blocks = .classLike declaration ::
      (declaration.methods.companion?.map (Block.companion declaration)).toList :=
  rfl

theorem toList_text (declaration : Declaration) :
    declaration.text.toList = (declaration.blocks.map Block.text).flatMap String.toList := by
  cases declaration with
  | enumeration declaration => exact (List.append_nil _).symm
  | classLike declaration =>
    have whole : (classLike declaration).text = declaration.ownText ++
        declaration.methods.companion?.elim "" declaration.companionText := rfl
    rw [whole, String.toList_append, blocks_classLike, List.map_cons, List.flatMap_cons]
    congr 1
    cases declaration.methods.companion? with
    | none => rfl
    | some functions => exact (List.append_nil _).symm

/-- A declaration has at most one companion. -/
theorem length_companions (declaration : Declaration) :
    (declaration.blocks.filter Block.isCompanion).length =
      if declaration.hasCompanion then 1 else 0 := by
  cases declaration with
  | enumeration declaration => rfl
  | classLike declaration =>
    have has : (classLike declaration).hasCompanion = declaration.methods.companion?.isSome := rfl
    rw [has, blocks_classLike]
    cases declaration.methods.companion? <;> rfl

end Declaration

/-- The line that names the package of a file. -/
def packageLine (package : String) : String :=
  line [if package.isEmpty then "package" else "package " ++ package, ";"]

namespace BindingFile

variable (file : BindingFile)

/-- The blocks of the file. -/
def blocks : List Block :=
  file.declarations.flatMap Declaration.blocks

theorem header_eq : file.header = packageLine file.package ++ "\n" := by
  apply String.toList_injective
  have ending : ";\n\n".toList = ";".toList ++ ("\n".toList ++ "\n".toList) := rfl
  unfold header packageLine line
  simp only [String.toList_append, Text.toList_join_empty, List.flatMap_cons, List.flatMap_nil,
    List.append_assoc, List.append_nil, ending]

/-- **A file is the line of its package, an empty line, and its blocks.** -/
theorem contents_eq_blocks :
    file.contents =
      packageLine file.package ++ "\n" ++ Text.join "" (file.blocks.map Block.text) := by
  apply String.toList_injective
  unfold contents
  rw [file.header_eq, String.toList_append, String.toList_append (t := Text.join _ _)]
  congr 1
  rw [Text.toList_join_empty, Text.toList_join_empty, blocks, List.map_flatMap, List.flatMap_assoc,
    List.flatMap_map]
  exact List.flatMap_congr fun declaration _ => declaration.toList_text

/-- **The number of companions is that of the blocks that are companions.** -/
theorem companions_eq_blocks :
    file.companions = (file.blocks.filter Block.isCompanion).length := by
  unfold companions blocks
  induction file.declarations with
  | nil => rfl
  | cons head rest hypothesis =>
    rw [List.flatMap_cons, List.filter_append, List.length_append, ← hypothesis,
      head.length_companions, List.filter_cons]
    split
    · rw [List.length_cons, Nat.add_comm]
    · rw [Nat.zero_add]

end BindingFile

/-! ### The blocks of a type -/

namespace Catalog

variable {catalog : Catalog} {site : Site} {type : TypeIndex × TypeDecl}

/-- What a type is written as at a site: an enumeration as one block, and a class or interface as one
block with its companion right behind it, exactly if its functions are shared out to a companion. -/
inductive IsWrittenAs (catalog : Catalog) (site : Site) (type : TypeIndex × TypeDecl) :
    List Block → Prop
  | enumeration {declaration : EnumDeclaration} : type.2.isEnum = true →
      catalog.enumDeclaration site type.2 = .ok declaration →
      IsWrittenAs catalog site type [.enumeration declaration]
  | alone {declaration : ClassDeclaration} : type.2.isEnum = false →
      catalog.classDeclaration site type.1 type.2 = .ok declaration →
      (catalog.functionsOf site type.1).companion? = none →
      IsWrittenAs catalog site type [.classLike declaration]
  | accompanied {declaration : ClassDeclaration} {functions : List FunctionGroup} :
      type.2.isEnum = false → catalog.classDeclaration site type.1 type.2 = .ok declaration →
      (catalog.functionsOf site type.1).companion? = some functions →
      IsWrittenAs catalog site type [.classLike declaration, .companion declaration functions]

theorem methods_eq {index : TypeIndex} {decl : TypeDecl} {declaration : ClassDeclaration}
    (declared : catalog.classDeclaration site index decl = .ok declaration) :
    declaration.methods = catalog.functionsOf site index := by
  unfold classDeclaration at declared
  obtain ⟨_, -, whole⟩ := bind_eq_ok.mp declared
  cases whole
  rfl

/-- **A type is written as the blocks of its declaration.** -/
theorem isWrittenAs_blocks {declaration : Declaration}
    (declared : catalog.declaration site type.1 type.2 = .ok declaration) :
    catalog.IsWrittenAs site type declaration.blocks := by
  unfold Catalog.declaration at declared
  split at declared
  · next isEnum =>
    obtain ⟨given, written, rfl⟩ := map_eq_ok.mp declared
    exact .enumeration isEnum written
  · next noEnum =>
    obtain ⟨given, written, rfl⟩ := map_eq_ok.mp declared
    have noEnum := Bool.eq_false_iff.mpr noEnum
    rw [Declaration.blocks_classLike, methods_eq written]
    cases shared : (catalog.functionsOf site type.1).companion? with
    | none => exact .alone noEnum written shared
    | some functions => exact .accompanied noEnum written shared

/-- Declarations are put together one by one. -/
theorem declarations_eq_ok_iff : ∀ {types : List (TypeIndex × TypeDecl)}
    {answers : List Declaration},
    (∀ type ∈ types, catalog.world.decl? type.1 = some type.2) →
      (catalog.declarations site (types.map Prod.fst) = .ok answers ↔
        List.Forall₂ (fun type answer => catalog.declaration site type.1 type.2 = .ok answer) types
          answers)
  | [], answers, _ => by
    rw [List.forall₂_nil_left_iff]
    exact ⟨fun answered => by cases answered; rfl, fun empty => by rw [empty]; rfl⟩
  | type :: rest, answers, known => by
    rw [List.forall_mem_cons] at known
    rw [List.map_cons, declarations_cons known.1, List.forall₂_cons_left_iff]
    simp only [declarations_eq_ok_iff known.2]

end Catalog

/-! ### Files in postorder -/

namespace World

variable {world : World} {top index : TypeIndex}

/-- Everyone may use what the file of an open type declares. -/
theorem Declares.isOpen (isOpen : world.IsOpen top) (declares : world.Declares top index) :
    world.IsOpen index := by
  induction declares with
  | self => exact isOpen
  | inner _ _ found belongs isPublic hypothesis =>
    exact ⟨(isPublic_eq found).trans isPublic,
      (forall_encloses_iff ⟨_, found, belongs⟩).mpr ⟨hypothesis.own, hypothesis.around⟩⟩

theorem isOpen_of_mem_typesWithFile (member : top ∈ world.typesWithFile) : world.IsOpen top := by
  obtain ⟨entry, found, isTop, isPublic, -⟩ := mem_typesWithFile.mp member
  exact ⟨(isPublic_eq found).trans isPublic,
    fun outer encloses => absurd encloses (not_encloses_of_isTopLevel found isTop outer)⟩

end World

/-- The file is that of a tree at its index: its types stand at their indices, each once, and everyone
may use them and all types around them; behind the line of the package and an empty line each of
them is written as its blocks. -/
structure Catalog.IsPostorderOf (catalog : Catalog) (file : BindingFile) (index : TypeIndex)
    (tree : TypeTree) : Prop where
  subject : file.subject = tree.decl.name.text
  package : file.package = catalog.layout.packageFor tree.decl.name.space
  found : ∀ type ∈ tree.postorder index, catalog.world.decl? type.1 = some type.2
  once : ((tree.postorder index).map Prod.fst).Nodup
  isOpen : ∀ type ∈ tree.postorder index, catalog.world.IsOpen type.1
  written : ∃ blocks,
    List.Forall₂ (catalog.IsWrittenAs (.ofFile tree.decl.name)) (tree.postorder index) blocks ∧
    file.contents =
      packageLine file.package ++ "\n" ++ Text.join "" (blocks.flatten.map Block.text) ∧
    file.companions = (blocks.flatten.filter Block.isCompanion).length

section Run

variable {assemblies : List Assembly} {rules : PackageRules} {files : List BindingFile}

theorem isPostorderOf_of_isFileOf {file : BindingFile} {index : TypeIndex} {tree : TypeTree}
    (stand : StandAt assemblies index tree.subtrees)
    (member : index ∈ (World.ofAssemblies assemblies).typesWithFile)
    (isFile : (Catalog.ofAssemblies assemblies rules).IsFileOf index file) :
    (Catalog.ofAssemblies assemblies rules).IsPostorderOf file index tree := by
  obtain ⟨decl, inner⟩ := tree
  have ordered := World.isOrdered_ofAssemblies assemblies
  have order := TypeTree.declarationOrder_eq _ stand
  have known := TypeTree.decl?_of_mem_postorder _ stand
  obtain ⟨entry, entryFound, -⟩ := World.mem_typesWithFile.mp member
  have inRange : index < (World.ofAssemblies assemblies).entries.length :=
    (List.getElem?_eq_some_iff.mp entryFound).1
  obtain ⟨other, found, written⟩ := isFile
  obtain rfl : decl = other := Option.some.inj (stand.decl?_eq.symm.trans found)
  obtain ⟨declarations, declared, rfl⟩ := Catalog.bindingFile_eq_ok.mp written
  rw [show (Catalog.ofAssemblies assemblies rules).world.declarationOrder index = _ from order,
    Catalog.declarations_eq_ok_iff known] at declared
  refine ⟨rfl, rfl, known, order ▸ ordered.nodup_declarationOrder inRange, fun type held => ?_,
    declarations.map Declaration.blocks, ?_, ?_, ?_⟩
  · have listed := List.mem_map_of_mem (f := Prod.fst) held
    rw [← order, ordered.mem_declarationOrder_iff inRange] at listed
    exact listed.isOpen (World.isOpen_of_mem_typesWithFile member)
  · exact List.forall₂_map_right_iff.mpr (declared.imp fun _ _ => Catalog.isWrittenAs_blocks)
  · rw [BindingFile.contents_eq_blocks]
    rfl
  · rw [BindingFile.companions_eq_blocks]
    rfl

/-- **Files are the postorders of the outermost trees.** There is one for each public type outside of
all types, apart from those with a name of their own. It declares that type and the public types
inside of it, each once and behind those inside of it, with its companion right behind it. -/
theorem files_are_in_postorder (answered : bindingFilesOf assemblies rules = .ok files) :
    List.Forall₂ (fun tree file =>
        (Catalog.ofAssemblies assemblies rules).IsPostorderOf file tree.1 tree.2)
      ((placed 0 (assemblies.flatMap Assembly.types)).filter fun tree => tree.2.getsFile) files := by
  have aligned := forall₂_isFileOf_bindingFilesOf answered
  have listed := World.typesWithFile_eq_placed assemblies
  rw [listed, List.forall₂_map_left_iff] at aligned
  have stands : ∀ tree ∈ (placed 0 (assemblies.flatMap Assembly.types)).filter fun tree =>
      tree.2.getsFile, StandAt assemblies tree.1 tree.2.subtrees ∧
        tree.1 ∈ (World.ofAssemblies assemblies).typesWithFile := by
    intro tree member
    refine ⟨(StandAt.all assemblies).of_mem_placed tree (List.mem_filter.mp member).1, ?_⟩
    rw [listed]
    exact List.mem_map_of_mem member
  refine ((List.forall₂_and_left _ _).mpr ⟨stands, aligned⟩).imp ?_
  rintro tree file ⟨⟨stand, member⟩, isFile⟩
  exact isPostorderOf_of_isFileOf stand member isFile

end Run

/-! ### Types inside of each other -/

/-- A type with types inside of it: an enumeration with another type in it, a type that is not public
with another one in it, one with a companion, and an interface. Besides there are a type that is not
public, and one that is. -/
def innerTypesText : String :=
  "assembly a namespace N \x7b public class A \x7b " ++
    "public enum E \x7b field v: X public class I \x7b \x7d \x7d " ++
    "class H \x7b public class P \x7b \x7d \x7d " ++
    "public class B \x7b public static method M(): X public method M(): X \x7d " ++
    "public interface J \x7b \x7d \x7d " ++
    "class K \x7b public class Q \x7b \x7d \x7d public class C \x7b \x7d \x7d"

/-- The types of the listing. -/
def innerTypesAssembly : Assembly :=
  Listing.assemblyOf innerTypesText

theorem innerTypesAssembly_facts :
    (Listing.readAssembly innerTypesText).isOk = true ∧
      (bindingFilesOf [innerTypesAssembly] {}).toOption.map (List.map BindingFile.companions) =
        some [1, 0] ∧
      (((placed 0 ([innerTypesAssembly].flatMap Assembly.types)).filter fun tree =>
          tree.2.getsFile).map fun tree =>
            (tree.2.postorder tree.1).map fun type => (type.1, type.2.name.text)) =
        [[(1, "N.A/E"), (5, "N.A/B"), (6, "N.A/J"), (0, "N.A")], [(9, "N.C")]] := by
  unfold innerTypesAssembly
  rw [Listing.readAssembly_eq, Listing.assemblyOf_eq]
  unfold innerTypesText
  simp only [String.toList_append]
  repeat rw [String.toList_ofList]
  decide +kernel

/-- The file of the type lists those inside of it, without those in an enumeration or in a type that
is not public, and has one companion. -/
theorem files_are_in_postorder_nested :
    ∃ files, bindingFilesOf [innerTypesAssembly] {} = .ok files ∧
      List.Forall₂ (fun tree file =>
          (Catalog.ofAssemblies [innerTypesAssembly] {}).IsPostorderOf file tree.1 tree.2)
        ((placed 0 ([innerTypesAssembly].flatMap Assembly.types)).filter fun tree => tree.2.getsFile)
        files ∧
      files.map BindingFile.companions = [1, 0] ∧
      (((placed 0 ([innerTypesAssembly].flatMap Assembly.types)).filter fun tree =>
          tree.2.getsFile).map fun tree =>
            (tree.2.postorder tree.1).map fun type => (type.1, type.2.name.text)) =
        [[(1, "N.A/E"), (5, "N.A/B"), (6, "N.A/J"), (0, "N.A")], [(9, "N.C")]] := by
  obtain ⟨-, companions, orders⟩ := innerTypesAssembly_facts
  obtain ⟨files, answered, counted⟩ := exists_ok_of_map_toOption companions
  exact ⟨files, answered, files_are_in_postorder answered, counted, orders⟩

end ExternBindings
