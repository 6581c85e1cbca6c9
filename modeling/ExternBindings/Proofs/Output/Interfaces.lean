/-
**Interfaces that are named, and interfaces that are declared.**

A declaration names the interfaces of its type, except those that are known to be closed to others.
Whether an interface is declared in some file depends on the types around it as well.

* `World.namedInterfaces` — the interfaces that are named (`Catalog.interfaces_eq`);
* `World.carriesInner` — the public types inside of a type are declared along with it: it is public
  itself, no enumeration, and has no name of its own;
* `World.exists_declares_iff` — **which types are declared in a file**: the public ones without a
  name of their own, if the types around them all carry what is inside of them;
* `interface_isDeclared_iff` — so that an interface that is named is declared exactly if the types
  around it carry what is inside of them. A clause does not look at these types
  (`exists_interface_not_declared`).
-/

import ExternBindings.Proofs.Listing.Characters
import ExternBindings.Proofs.Output.Files
import ExternBindings.Proofs.World.Enclosing

namespace ExternBindings

/-! ### Types that are declared in a file -/

namespace World

variable {world : World} {owner index : TypeIndex} {entry ownerEntry : Entry}

/-- Whether the public types inside of a type are declared along with it. -/
def carriesInner (world : World) (index : TypeIndex) : Bool :=
  (world.entry? index).any fun entry =>
    entry.isPublic && !entry.decl.isEnum && !ownNamedTypes.contains entry.text

theorem carriesInner_iff (found : world.entry? index = some entry) :
    world.carriesInner index = true ↔ entry.isPublic = true ∧
      (world.decl? index).any TypeDecl.isEnum = false ∧
      ownNamedTypes.contains entry.text = false := by
  unfold carriesInner
  rw [found, Option.any_some, decl?_eq_some_decl found, Option.any_some]
  simp only [Bool.and_eq_true, Bool.not_eq_true', and_assoc]

/-- The written name of an inner type has a slash, and no type with a name of its own has one. -/
theorem not_ownNamed_of_holds {outer : QualifiedName} (holds : outer.Holds entry.decl.name) :
    ownNamedTypes.contains entry.text = false := by
  obtain ⟨own, -, name⟩ := holds
  have slash : '/' ∈ entry.text.toList := by
    have joined := Text.join_concat "/" (List.append_ne_nil_of_right_ne_nil outer.enclosing
      (List.cons_ne_nil outer.name [])) own
    rw [entry.text_eq, name]
    unfold QualifiedName.text QualifiedName.inside
    rw [joined]
    simp [String.toList_append]
  have plain : ∀ text ∈ ownNamedTypes, '/' ∉ text.toList := by decide
  rw [List.contains_eq_mem, decide_eq_false_iff_not]
  exact fun member => plain entry.text member slash

/-- A file declares an inner type exactly if it declares the owner, unless that is an enumeration or
the type is not public. -/
theorem exists_declares_inner_iff (found : world.entry? index = some entry)
    (belongs : entry.owner? = some owner) :
    (∃ root ∈ world.typesWithFile, world.Declares root index) ↔
      entry.isPublic = true ∧ (world.decl? owner).any TypeDecl.isEnum = false ∧
        ∃ root ∈ world.typesWithFile, world.Declares root owner := by
  constructor
  · rintro ⟨root, member, declares⟩
    cases declares with
    | self =>
      obtain ⟨again, foundAgain, isTop, -⟩ := mem_typesWithFile.mp member
      obtain rfl := Option.some.inj (found.symm.trans foundAgain)
      rw [Entry.isTopLevel, belongs] at isTop
      cases isTop
    | inner outer noEnum foundAgain belongsAgain isPublic =>
      obtain rfl := Option.some.inj (found.symm.trans foundAgain)
      obtain rfl := Option.some.inj (belongs.symm.trans belongsAgain)
      exact ⟨isPublic, noEnum, root, member, outer⟩
  · rintro ⟨isPublic, noEnum, root, member, outer⟩
    exact ⟨root, member, .inner outer noEnum found belongs isPublic⟩

/-- A file declares a type that is not inner exactly if it is the file of that type. -/
theorem exists_declares_top_iff (found : world.entry? index = some entry)
    (alone : entry.owner? = none) :
    (∃ root ∈ world.typesWithFile, world.Declares root index) ↔ index ∈ world.typesWithFile := by
  constructor
  · rintro ⟨root, member, declares⟩
    cases declares with
    | self => exact member
    | inner _ _ foundAgain belongs _ =>
      rw [← Option.some.inj (found.symm.trans foundAgain), alone] at belongs
      cases belongs
  · exact fun member => ⟨index, member, .self⟩

/-- **A type is declared in a file exactly if it is public, has no name of its own, and the types
around it carry what is inside of them.** -/
theorem exists_declares_iff (nested : world.IsNested) (found : world.entry? index = some entry) :
    (∃ root ∈ world.typesWithFile, world.Declares root index) ↔
      entry.isPublic = true ∧ ownNamedTypes.contains entry.text = false ∧
        ∀ outer, world.Encloses outer index → world.carriesInner outer = true := by
  -- from the types inside of others to those around them
  induction index using Nat.strong_induction_on generalizing entry with
  | _ index hypothesis =>
    rcases nested index entry found with
      ⟨alone, -⟩ | ⟨owner, ownerEntry, earlier, ownerFound, belongs, holds⟩
    · have isTop : entry.isTopLevel = true := by
        rw [Entry.isTopLevel, alone]
        rfl
      have around : ∀ outer, world.Encloses outer index → world.carriesInner outer = true :=
        fun outer encloses => absurd encloses (not_encloses_of_isTopLevel found isTop outer)
      rw [exists_declares_top_iff found alone, mem_typesWithFile]
      simp only [found, Option.some.injEq, exists_eq_left', isTop, true_and, iff_true_intro around,
        and_true]
    · rw [exists_declares_inner_iff found belongs, hypothesis owner earlier ownerFound,
        forall_encloses_iff ⟨entry, found, belongs⟩, carriesInner_iff ownerFound,
        iff_true_intro (not_ownNamed_of_holds holds), true_and]
      simp only [and_assoc, and_left_comm]

end World

/-! ### Interfaces that are named -/

/-- The interfaces that the declaration for a type names. -/
def World.namedInterfaces (world : World) (decl : TypeDecl) : List TypeReference :=
  decl.interfaces.filter fun reference => (world.target? reference).all world.isPublic

namespace Catalog

variable {catalog : Catalog} {site : Site} {index : TypeIndex} {decl : TypeDecl}

/-- The interfaces in the declaration for a class are those that are named. -/
theorem interfaces_eq {answer : ClassDeclaration}
    (declared : catalog.declaration site index decl = .ok (.classLike answer)) :
    answer.interfaces =
      (catalog.world.namedInterfaces decl).map (catalog.typeExpr site .exact) := by
  unfold declaration at declared
  split at declared
  · obtain ⟨_, -, other⟩ := map_eq_ok.mp declared
    cases other
  · obtain ⟨given, written, same⟩ := map_eq_ok.mp declared
    cases same
    unfold classDeclaration at written
    obtain ⟨events, -, whole⟩ := bind_eq_ok.mp written
    cases whole
    rfl

/-- The file has this declaration for the type, which is its own type or inside of that. -/
structure DeclaresAs (catalog : Catalog) (file : BindingFile) (index : TypeIndex) (decl : TypeDecl)
    (answer : Declaration) : Prop where
  found : catalog.world.decl? index = some decl
  member : answer ∈ file.declarations
  origin : ∃ root ∈ catalog.world.typesWithFile, ∃ rootDecl,
    catalog.world.decl? root = some rootDecl ∧
      catalog.bindingFile root rootDecl.name = .ok file ∧ catalog.world.Declares root index ∧
      catalog.declaration (.ofFile rootDecl.name) index decl = .ok answer

/-- A file names an interface by this reference to the type at the index: its expression stands in the
declaration of a class, which names these interfaces and no other ones. -/
def NamesInterface (catalog : Catalog) (files : List BindingFile) (reference : TypeReference)
    (target : TypeIndex) : Prop :=
  ∃ file ∈ files, ∃ index decl answer, catalog.DeclaresAs file index decl (.classLike answer) ∧
    (∃ site, answer.interfaces =
      (catalog.world.namedInterfaces decl).map (catalog.typeExpr site .exact)) ∧
    reference ∈ catalog.world.namedInterfaces decl ∧ catalog.world.target? reference = some target

theorem NamesInterface.isPublic {files : List BindingFile} {reference : TypeReference}
    {target : TypeIndex} (names : catalog.NamesInterface files reference target) :
    catalog.world.isPublic target = true := by
  obtain ⟨_, _, _, decl, _, -, -, named, means⟩ := names
  have kept := (List.mem_filter.mp named).2
  rwa [means, Option.all_some] at kept

end Catalog

/-! ### The files of a run -/

section Run

variable {assemblies : List Assembly} {rules : PackageRules} {files : List BindingFile}
  (read : ∀ assembly ∈ assemblies, assembly.IsRead)
  (answered : bindingFilesOf assemblies rules = .ok files)

include read answered

/-- The files have the declaration for every type that they declare. -/
theorem exists_declaresAs {root index : TypeIndex} {decl : TypeDecl}
    (member : root ∈ (World.ofAssemblies assemblies).typesWithFile)
    (declares : (World.ofAssemblies assemblies).Declares root index)
    (found : (World.ofAssemblies assemblies).decl? index = some decl) :
    ∃ file ∈ files, ∃ answer,
      (Catalog.ofAssemblies assemblies rules).DeclaresAs file index decl answer := by
  obtain ⟨file, held, rootDecl, rootFound, written⟩ := exists_file answered member
  obtain ⟨declarations, ordered, whole⟩ := Catalog.bindingFile_eq_ok.mp written
  obtain ⟨entry, entryFound, -⟩ := World.decl?_eq_some found
  have listed := declares.mem_declarationOrder (World.isNested_ofAssemblies read) entryFound
  obtain ⟨answer, answerMember, declared⟩ := Catalog.exists_declaration found ordered listed
  rw [show declarations = file.declarations by rw [whole]] at answerMember
  exact ⟨file, held, answer, found, answerMember, root, member, rootDecl, rootFound, written,
    declares, declared⟩

/-- The declaration for a class that some file declares names all of its interfaces that are not
closed to others. -/
theorem namesInterface_of_declares {root index target : TypeIndex} {decl : TypeDecl}
    {reference : TypeReference}
    (member : root ∈ (World.ofAssemblies assemblies).typesWithFile)
    (declares : (World.ofAssemblies assemblies).Declares root index)
    (found : (World.ofAssemblies assemblies).decl? index = some decl) (noEnum : decl.isEnum = false)
    (named : reference ∈ (World.ofAssemblies assemblies).namedInterfaces decl)
    (means : (World.ofAssemblies assemblies).target? reference = some target) :
    (Catalog.ofAssemblies assemblies rules).NamesInterface files reference target := by
  obtain ⟨file, held, answer, declaresAs⟩ := exists_declaresAs read answered member declares found
  obtain ⟨_, -, _, -, -, -, declared⟩ := declaresAs.origin
  have written := declared
  unfold Catalog.declaration at written
  rw [noEnum, if_neg Bool.false_ne_true] at written
  obtain ⟨given, -, rfl⟩ := map_eq_ok.mp written
  exact ⟨file, held, index, decl, given, declaresAs, ⟨_, Catalog.interfaces_eq declared⟩, named,
    means⟩

/-- **An interface that is named is declared in a file exactly if the types around it carry what is
inside of them.** -/
theorem interface_isDeclared_iff {reference : TypeReference} {target : TypeIndex} {entry : Entry}
    (names : (Catalog.ofAssemblies assemblies rules).NamesInterface files reference target)
    (found : World.entry? (World.ofAssemblies assemblies) target = some entry)
    (other : ownNamedTypes.contains entry.text = false) :
    (∃ file ∈ files, ∃ answer,
      (Catalog.ofAssemblies assemblies rules).DeclaresAs file target entry.decl answer) ↔
    ∀ outer, (World.ofAssemblies assemblies).Encloses outer target →
      (World.ofAssemblies assemblies).carriesInner outer = true := by
  have isPublic : entry.isPublic = true := by
    have kept : (World.ofAssemblies assemblies).isPublic target = true := names.isPublic
    unfold World.isPublic at kept
    rwa [found, Option.any_some] at kept
  have declared_iff := World.exists_declares_iff (World.isNested_ofAssemblies read) found
  rw [isPublic, other] at declared_iff
  simp only [true_and] at declared_iff
  rw [← declared_iff]
  constructor
  · rintro ⟨file, -, answer, declaresAs⟩
    obtain ⟨root, member, _, -, -, declares, -⟩ := declaresAs.origin
    exact ⟨root, member, declares⟩
  · rintro ⟨root, member, declares⟩
    exact exists_declaresAs read answered member declares (World.decl?_eq_some_decl found)

end Run

/-! ### An interface inside of a type -/

/-- A class that implements an interface inside of another class, which is declared with the given
words. -/
def innerInterfaceText (outer : String) : String :=
  "assembly a namespace \x7b " ++ outer ++ " Outer \x7b public interface I \x7b \x7d \x7d " ++
    "public class C implements Outer/I \x7b \x7d \x7d"

/-- The assembly with the two classes. -/
def innerInterfaceAssembly (outer : String) : Assembly :=
  Listing.assemblyOf (innerInterfaceText outer)

/-- Whether the second class names the interface. -/
def namesInner (world : World) : Bool :=
  (world.decl? 2).any fun decl => !decl.isEnum && (world.namedInterfaces decl).any fun reference =>
    decide (world.target? reference = some 1)

/-- The written name of a type and the type that it is declared in. -/
def Entry.textAndOwner (entry : Entry) : String × Option TypeIndex :=
  (entry.text, entry.owner?)

theorem innerInterface_facts :
    ∀ outer ∈ ["public class", "class"],
      (Listing.readAssembly (innerInterfaceText outer)).isOk = true ∧
      (bindingFilesOf [innerInterfaceAssembly outer] {}).isOk = true ∧
      2 ∈ (World.ofAssemblies [innerInterfaceAssembly outer]).typesWithFile ∧
      namesInner (World.ofAssemblies [innerInterfaceAssembly outer]) = true ∧
      (World.ofAssemblies [innerInterfaceAssembly outer]).entries.map Entry.textAndOwner =
        [("Outer", none), ("Outer/I", some 0), ("C", none)] ∧
      ((World.ofAssemblies [innerInterfaceAssembly outer]).carriesInner 0 = true ↔
        outer = "public class") := by
  unfold innerInterfaceAssembly
  simp only [Listing.readAssembly_eq, Listing.assemblyOf_eq]
  unfold innerInterfaceText
  simp only [String.toList_append, List.forall_mem_cons]
  repeat rw [String.toList_ofList]
  decide +kernel

section InnerInterface

variable {outer : String} (chosen : outer ∈ ["public class", "class"])

include chosen

theorem isRead_innerInterface : ∀ assembly ∈ [innerInterfaceAssembly outer], assembly.IsRead :=
  List.forall_mem_singleton.mpr (Listing.isRead_assemblyOf (innerInterface_facts outer chosen).1)

theorem innerInterface_isNamed :
    ∃ files reference, bindingFilesOf [innerInterfaceAssembly outer] {} = .ok files ∧
      (Catalog.ofAssemblies [innerInterfaceAssembly outer] {}).NamesInterface files reference 1 := by
  obtain ⟨-, answered, member, named, -, -⟩ := innerInterface_facts outer chosen
  obtain ⟨files, run⟩ := exists_ok_of_isOk answered
  obtain ⟨decl, found, named⟩ := Option.any_eq_true _ _ |>.mp named
  rw [Bool.and_eq_true, Bool.not_eq_true', List.any_eq_true] at named
  obtain ⟨noEnum, reference, kept, means⟩ := named
  exact ⟨files, reference, run, namesInterface_of_declares (isRead_innerInterface chosen) run
    member .self found noEnum kept (of_decide_eq_true means)⟩

theorem innerInterface_entry :
    ∃ entry, World.entry? (World.ofAssemblies [innerInterfaceAssembly outer]) 1 = some entry ∧
      entry.text = "Outer/I" ∧ (World.ofAssemblies [innerInterfaceAssembly outer]).Owns 0 1 ∧
      ∀ around, ¬ (World.ofAssemblies [innerInterfaceAssembly outer]).Encloses around 0 := by
  obtain ⟨-, -, -, -, places, -⟩ := innerInterface_facts outer chosen
  have at_index (index : Nat) :
      (World.entry? (World.ofAssemblies [innerInterfaceAssembly outer]) index).map Entry.textAndOwner =
        _ := (List.getElem?_map).symm.trans (congrArg (·[index]?) places)
  obtain ⟨entry, found, place⟩ := Option.map_eq_some_iff.mp (at_index 1)
  obtain ⟨top, topFound, topPlace⟩ := Option.map_eq_some_iff.mp (at_index 0)
  obtain ⟨text, belongs⟩ := Prod.mk.inj place
  have isTop : top.isTopLevel = true := by
    rw [Entry.isTopLevel, (Prod.mk.inj topPlace).2]
    rfl
  exact ⟨entry, found, text, ⟨entry, found, belongs⟩,
    World.not_encloses_of_isTopLevel topFound isTop⟩

end InnerInterface

/-- An interface inside of a public class is declared. -/
theorem interface_isDeclared_iff_inner :
    ∃ files decl, bindingFilesOf [innerInterfaceAssembly "public class"] {} = .ok files ∧
      (World.ofAssemblies [innerInterfaceAssembly "public class"]).decl? 1 = some decl ∧
      ∃ file ∈ files, ∃ answer,
        (Catalog.ofAssemblies [innerInterfaceAssembly "public class"] {}).DeclaresAs file 1 decl
          answer := by
  have chosen : "public class" ∈ ["public class", "class"] := by decide
  obtain ⟨files, reference, run, names⟩ := innerInterface_isNamed chosen
  obtain ⟨entry, found, text, owns, topmost⟩ := innerInterface_entry chosen
  have other : ownNamedTypes.contains entry.text = false := by
    rw [text]
    decide
  have carries := (innerInterface_facts _ chosen).2.2.2.2.2.mpr rfl
  exact ⟨files, entry.decl, run, World.decl?_eq_some_decl found,
    (interface_isDeclared_iff (isRead_innerInterface chosen) run names found other).mpr
      ((World.forall_encloses_iff owns).mpr
        ⟨carries, fun outer encloses => absurd encloses (topmost outer)⟩)⟩

/-- **A declaration may name an interface that no file declares**: one inside of a class that is not
public. -/
theorem exists_interface_not_declared :
    (Listing.readAssembly (innerInterfaceText "class")).isOk = true ∧
      (World.ofAssemblies [innerInterfaceAssembly "class"]).IsUnambiguous ∧
      ∃ files reference decl, bindingFilesOf [innerInterfaceAssembly "class"] {} = .ok files ∧
        (Catalog.ofAssemblies [innerInterfaceAssembly "class"] {}).NamesInterface files reference 1 ∧
        (World.ofAssemblies [innerInterfaceAssembly "class"]).decl? 1 = some decl ∧
        decl.name.text = "Outer/I" ∧
        ¬ ∃ file ∈ files, ∃ answer,
          (Catalog.ofAssemblies [innerInterfaceAssembly "class"] {}).DeclaresAs file 1 decl
            answer := by
  have chosen : "class" ∈ ["public class", "class"] := by decide
  obtain ⟨answered, -, -, -, places, carries⟩ := innerInterface_facts _ chosen
  obtain ⟨files, reference, run, names⟩ := innerInterface_isNamed chosen
  obtain ⟨entry, found, text, owns, -⟩ := innerInterface_entry chosen
  have unambiguous : (World.ofAssemblies [innerInterfaceAssembly "class"]).IsUnambiguous := by
    have texts : (World.ofAssemblies [innerInterfaceAssembly "class"]).entries.map Entry.text =
        ["Outer", "Outer/I", "C"] := by
      have firsts := congrArg (List.map Prod.fst) places
      rw [List.map_map] at firsts
      exact firsts
    unfold World.IsUnambiguous
    rw [texts]
    decide
  refine ⟨answered, unambiguous, files, reference, entry.decl, run, names,
    World.decl?_eq_some_decl found, entry.text_eq ▸ text, ?_⟩
  rintro ⟨file, -, answer, declaresAs⟩
  obtain ⟨root, member, -, -, -, declares, -⟩ := declaresAs.origin
  -- the class around the interface carries nothing
  have around := ((World.exists_declares_iff
    (World.isNested_ofAssemblies (isRead_innerInterface chosen)) found).mp
      ⟨root, member, declares⟩).2.2
  exact absurd (carries.mp (around 0 (.single owns))) (by decide)

end ExternBindings
