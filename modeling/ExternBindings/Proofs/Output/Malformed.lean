/-
**When no binding files can be written.**

* `World.IsMalformed` — the two flaws that a declared type can have: an enumeration without a field
  for its values, and an event that everyone may handle by values that nobody can call;
* `World.flaw?` — the flaw that is found first in a type (`flaw?_eq_some`, `exists_flaw?`);
* `failure?_bindingFile` — the file of a type fails at the first flaw in the order in which types are
  declared; `mayGive_error_iff` — the files of several types may fail for each of them that does;
* **`bindingFilesOf_fails_iff`** — whatever comes of the files of some assemblies, it is a failure
  exactly for a flaw in some type that a file would declare.
-/

import ExternBindings.Proofs.Listing.Characters
import ExternBindings.Proofs.Output.Files

namespace ExternBindings

/-! ### Failures of answers -/

section Failures

variable {α β γ ε : Type}

/-- Why there is no answer, if there is none. -/
def failure? : Except ε α → Option ε
  | .error error => some error
  | .ok _ => none

theorem failure?_eq_some {answer : Except ε α} {error : ε} :
    failure? answer = some error ↔ answer = .error error := by
  cases answer <;> simp [failure?]

@[simp]
theorem failure?_map (function : α → β) (answer : Except ε α) :
    failure? (function <$> answer) = failure? answer := by
  cases answer <;> rfl

/-- Of two answers that are needed one after the other, the first failure counts. -/
theorem failure?_join (first : Except ε α) (second : Except ε β) (join : α → β → γ) :
    failure? (first >>= fun value => second >>= fun other => pure (join value other)) =
      (failure? first).or (failure? second) := by
  cases first <;> cases second <;> rfl

theorem findSome?_cons_eq_or (function : α → Option β) (head : α) (rest : List α) :
    (head :: rest).findSome? function = (function head).or (rest.findSome? function) := by
  rw [List.findSome?_cons]
  cases function head <;> rfl

end Failures

/-! ### Flaws of declared types -/

namespace World

variable {world : World} {index : TypeIndex} {malformed : MalformedType}

/-- The declared type at the index cannot be declared to others because of this malformed type. -/
inductive IsMalformed (world : World) (index : TypeIndex) : MalformedType → Prop
  /-- an enumeration all of whose fields are static -/
  | storage {decl : TypeDecl} :
      world.decl? index = some decl → decl.isEnum = true →
      (∀ field ∈ decl.fields, field.isStatic = true) →
      IsMalformed world index { subject := decl.name.text, flaw := .noStorage }
  /-- an event with a public adder and a declared handler type without a method `Invoke` -/
  | handler {decl handler : TypeDecl} {event : Event} {adder : Method} {target : TypeIndex} :
      world.decl? index = some decl → decl.isEnum = false → event ∈ decl.events →
      decl.accessor? event.adder? = some adder → adder.isPublic = true →
      world.target? event.handler = some target → world.decl? target = some handler →
      (∀ method ∈ handler.methods, method.name ≠ "Invoke") →
      IsMalformed world index { subject := handler.name.text, flaw := .noInvoke event.name }

/-- The flaw of an event of a type, if there is one. -/
def eventFlaw? (world : World) (decl : TypeDecl) (event : Event) : Option MalformedType :=
  ((decl.accessor? event.adder?).filter Method.isPublic).bind fun _ =>
    ((world.target? event.handler).bind world.decl?).bind fun handler =>
      if handler.invoke?.isNone then
        some { subject := handler.name.text, flaw := .noInvoke event.name }
      else none

/-- The flaw of a type that is found first: that of the first event that has one. -/
def flawOf? (world : World) (decl : TypeDecl) : Option MalformedType :=
  if decl.isEnum then
    if decl.fields.all Field.isStatic then
      some { subject := decl.name.text, flaw := .noStorage }
    else none
  else decl.events.findSome? (world.eventFlaw? decl)

/-- The flaw that is found first in the type at the index. -/
def flaw? (world : World) (index : TypeIndex) : Option MalformedType :=
  (world.decl? index).bind world.flawOf?

theorem invoke?_isNone {handler : TypeDecl} :
    handler.invoke?.isNone = true ↔ ∀ method ∈ handler.methods, method.name ≠ "Invoke" := by
  unfold TypeDecl.invoke?
  rw [Option.isNone_iff_eq_none, List.find?_eq_none]
  simp only [decide_eq_true_eq, ne_eq]

theorem eventFlaw?_eq_some {decl : TypeDecl} {event : Event} :
    world.eventFlaw? decl event = some malformed ↔
      ∃ adder target handler, decl.accessor? event.adder? = some adder ∧ adder.isPublic = true ∧
        world.target? event.handler = some target ∧ world.decl? target = some handler ∧
        (∀ method ∈ handler.methods, method.name ≠ "Invoke") ∧
        malformed = { subject := handler.name.text, flaw := .noInvoke event.name } := by
  unfold eventFlaw?
  simp only [Option.bind_eq_some_iff, Option.filter_eq_some_iff]
  constructor
  · rintro ⟨adder, ⟨added, isPublic⟩, handler, ⟨target, named, found⟩, flawed⟩
    split at flawed
    · next silent =>
      cases flawed
      exact ⟨adder, target, handler, added, isPublic, named, found, invoke?_isNone.mp silent, rfl⟩
    · cases flawed
  · rintro ⟨adder, target, handler, added, isPublic, named, found, silent, rfl⟩
    exact ⟨adder, ⟨added, isPublic⟩, handler, ⟨target, named, found⟩,
      if_pos (invoke?_isNone.mpr silent)⟩

/-- What is found first is a flaw. -/
theorem isMalformed_of_flaw? (flawed : world.flaw? index = some malformed) :
    world.IsMalformed index malformed := by
  obtain ⟨decl, found, flawed⟩ := Option.bind_eq_some_iff.mp flawed
  unfold flawOf? at flawed
  split at flawed
  · next isEnum =>
    split at flawed
    · next bare =>
      cases flawed
      exact .storage found isEnum (List.all_eq_true.mp bare)
    · cases flawed
  · next noEnum =>
    obtain ⟨event, member, flawed⟩ := List.exists_of_findSome?_eq_some flawed
    obtain ⟨adder, target, handler, added, isPublic, named, handlerFound, silent, rfl⟩ :=
      eventFlaw?_eq_some.mp flawed
    exact .handler found (Bool.eq_false_iff.mpr noEnum) member added isPublic named handlerFound
      silent

/-- Where there is a flaw, one is found. -/
theorem IsMalformed.exists_flaw? (flawed : world.IsMalformed index malformed) :
    ∃ first, world.flaw? index = some first := by
  cases flawed with
  | @storage decl found isEnum bare =>
    refine ⟨⟨decl.name.text, .noStorage⟩, Option.bind_eq_some_iff.mpr ⟨_, found, ?_⟩⟩
    unfold flawOf?
    rw [if_pos isEnum, if_pos (List.all_eq_true.mpr bare)]
  | @handler decl handler event adder target found noEnum member added isPublic named handlerFound
      silent =>
    have flawed := eventFlaw?_eq_some.mpr
      ⟨adder, target, handler, added, isPublic, named, handlerFound, silent, rfl⟩
    have some_event : (decl.events.findSome? (world.eventFlaw? decl)).isSome = true :=
      List.findSome?_isSome_iff.mpr ⟨event, member, by rw [flawed]; rfl⟩
    obtain ⟨first, firstFound⟩ := Option.isSome_iff_exists.mp some_event
    refine ⟨first, Option.bind_eq_some_iff.mpr ⟨decl, found, ?_⟩⟩
    unfold flawOf?
    rwa [if_neg (Bool.eq_false_iff.mp noEnum)]

/-- The file of the type would declare a type with a flaw. -/
def IsAffected (world : World) (top : TypeIndex) : Prop :=
  ∃ index malformed, world.Declares top index ∧ world.IsMalformed index malformed

/-- The flaw that is found first in the file of a type. -/
def fileFlaw? (world : World) (top : TypeIndex) : Option MalformedType :=
  (world.declarationOrder top).findSome? world.flaw?

namespace IsOrdered

variable {top : TypeIndex}

theorem declares_of_fileFlaw? (ordered : world.IsOrdered) (inRange : top < world.entries.length)
    (flawed : world.fileFlaw? top = some malformed) :
    ∃ index, world.Declares top index ∧ world.IsMalformed index malformed := by
  obtain ⟨index, member, flawed⟩ := List.exists_of_findSome?_eq_some flawed
  exact ⟨index, (ordered.mem_declarationOrder_iff inRange).mp member, isMalformed_of_flaw? flawed⟩

theorem exists_fileFlaw?_iff (ordered : world.IsOrdered) (inRange : top < world.entries.length) :
    (∃ malformed, world.fileFlaw? top = some malformed) ↔ world.IsAffected top := by
  constructor
  · rintro ⟨malformed, flawed⟩
    obtain ⟨index, declares, flawed⟩ := ordered.declares_of_fileFlaw? inRange flawed
    exact ⟨index, malformed, declares, flawed⟩
  · rintro ⟨index, malformed, declares, flawed⟩
    obtain ⟨first, found⟩ := flawed.exists_flaw?
    have member := (ordered.mem_declarationOrder_iff inRange).mpr declares
    exact Option.isSome_iff_exists.mp
      (List.findSome?_isSome_iff.mpr ⟨index, member, by rw [found]; rfl⟩)

end IsOrdered

end World

/-! ### Failures of declarations and files -/

namespace Catalog

variable {catalog : Catalog} {site : Site}

theorem failure?_eventFor? (event : Event) (adder : Method) :
    failure? (catalog.eventFor? site event adder) =
      ((catalog.world.target? event.handler).bind catalog.world.decl?).bind fun handler =>
        if handler.invoke?.isNone then
          some { subject := handler.name.text, flaw := .noInvoke event.name }
        else none := by
  unfold eventFor?
  split
  · next unknown => rw [unknown]; rfl
  · next handler known =>
    rw [known, Option.bind_some]
    split
    · next silent => rw [silent]; rfl
    · next invoke called => rw [called]; rfl

theorem failure?_eventLines (decl : TypeDecl) (events : List Event) :
    failure? (catalog.eventLines site decl events) =
      events.findSome? (catalog.world.eventFlaw? decl) := by
  induction events with
  | nil => rfl
  | cons event rest hypothesis =>
    rw [eventLines, findSome?_cons_eq_or, ← hypothesis]
    cases adds : (decl.accessor? event.adder?).filter Method.isPublic with
    | none =>
      have flawless : catalog.world.eventFlaw? decl event = none := by
        unfold World.eventFlaw?
        rw [adds, Option.bind_none]
      rw [flawless]
      exact failure?_join _ _ _
    | some adder =>
      have flaw : failure? (catalog.eventFor? site event adder) =
          catalog.world.eventFlaw? decl event := by
        unfold World.eventFlaw?
        rw [adds, failure?_eventFor?, Option.bind_some]
      rw [← flaw]
      exact failure?_join _ _ _

theorem failure?_enumDeclaration (decl : TypeDecl) :
    failure? (catalog.enumDeclaration site decl) =
      if decl.fields.all Field.isStatic then
        some { subject := decl.name.text, flaw := .noStorage }
      else none := by
  unfold enumDeclaration
  split
  · next bare =>
    have all : decl.fields.all Field.isStatic = true := by
      simpa using bare
    rw [if_pos all]
    rfl
  · next storage found =>
    have notAll : ¬ decl.fields.all Field.isStatic = true := fun all => by
      have isStatic := List.all_eq_true.mp all storage (List.mem_of_find?_eq_some found)
      have isOwn := List.find?_some found
      rw [isStatic] at isOwn
      cases isOwn
    rw [if_neg notAll]
    rfl

theorem failure?_classDeclaration (index : TypeIndex) (decl : TypeDecl) :
    failure? (catalog.classDeclaration site index decl) =
      decl.events.findSome? (catalog.world.eventFlaw? decl) := by
  have lines : failure? (catalog.eventLines site decl decl.events) = _ := failure?_eventLines _ _
  rw [← lines]
  unfold classDeclaration
  cases catalog.eventLines site decl decl.events <;> rfl

/-- **A type cannot be declared exactly for its flaw.** -/
theorem failure?_declaration (index : TypeIndex) (decl : TypeDecl) :
    failure? (catalog.declaration site index decl) = catalog.world.flawOf? decl := by
  unfold declaration World.flawOf?
  split
  · rw [failure?_map, failure?_enumDeclaration]
  · rw [failure?_map, failure?_classDeclaration]

theorem failure?_declarations (order : List TypeIndex) :
    failure? (catalog.declarations site order) = order.findSome? catalog.world.flaw? := by
  induction order with
  | nil => rfl
  | cons index rest hypothesis =>
    rw [declarations, findSome?_cons_eq_or, ← hypothesis]
    unfold World.flaw?
    cases catalog.world.decl? index with
    | none => exact failure?_join _ _ _
    | some decl =>
      have head : failure? (some <$> catalog.declaration site index decl) =
          catalog.world.flawOf? decl := by
        rw [failure?_map, failure?_declaration]
      rw [Option.bind_some, ← head]
      exact failure?_join _ _ _

theorem failure?_bindingFile (index : TypeIndex) (name : QualifiedName) :
    failure? (catalog.bindingFile index name) = catalog.world.fileFlaw? index := by
  have inOrder : failure? (catalog.declarations (.ofFile name) (catalog.world.declarationOrder index)) =
      catalog.world.fileFlaw? index := failure?_declarations _
  rw [← inOrder]
  unfold bindingFile
  cases catalog.declarations (.ofFile name) (catalog.world.declarationOrder index) <;> rfl

theorem failure?_bindingFilesFor {order : List TypeIndex}
    (known : ∀ index ∈ order, ∃ decl, catalog.world.decl? index = some decl) :
    failure? (catalog.bindingFilesFor order) = order.findSome? catalog.world.fileFlaw? := by
  induction order with
  | nil => rfl
  | cons index rest hypothesis =>
    rw [List.forall_mem_cons] at known
    obtain ⟨decl, found⟩ := known.1
    have head : failure? (some <$> catalog.bindingFile index decl.name) =
        catalog.world.fileFlaw? index := by
      rw [failure?_map, failure?_bindingFile]
    rw [bindingFilesFor, findSome?_cons_eq_or, ← hypothesis known.2, found, ← head]
    exact failure?_join _ _ _

section MayGive

variable {order : List TypeIndex}
  (known : ∀ index ∈ order, ∃ decl, catalog.world.decl? index = some decl)

include known

/-- **Any file that fails may be the one that is told of.** -/
theorem mayGive_error_iff {malformed : MalformedType} :
    catalog.MayGive order (.error malformed) ↔
      ∃ index ∈ order, catalog.world.fileFlaw? index = some malformed := by
  constructor
  · rintro (_ | ⟨member, found, failed⟩)
    rw [← failure?_eq_some, failure?_bindingFile] at failed
    exact ⟨_, member, failed⟩
  · rintro ⟨index, member, flawed⟩
    obtain ⟨decl, found⟩ := known index member
    rw [← failure?_bindingFile index decl.name, failure?_eq_some] at flawed
    exact .failure member found flawed

/-- If there are files, none of them fails. -/
theorem fileFlaw?_of_mayGive_ok {files : List BindingFile} (gives : catalog.MayGive order (.ok files)) :
    ∀ index ∈ order, catalog.world.fileFlaw? index = none := by
  obtain ⟨answered⟩ := gives
  have failure := failure?_bindingFilesFor known
  rw [answered] at failure
  exact List.findSome?_eq_none_iff.mp failure.symm

/-- To make the files one after the other is one way to make them. -/
theorem mayGive_bindingFilesFor : catalog.MayGive order (catalog.bindingFilesFor order) := by
  cases answered : catalog.bindingFilesFor order with
  | ok files => exact .files answered
  | error malformed =>
    have failure := failure?_bindingFilesFor known
    rw [answered] at failure
    exact (mayGive_error_iff known).mpr (List.exists_of_findSome?_eq_some failure.symm)

end MayGive

end Catalog

theorem World.lt_length_of_mem_typesWithFile {world : World} {top : TypeIndex}
    (member : top ∈ world.typesWithFile) : top < world.entries.length := by
  obtain ⟨entry, found, -⟩ := mem_typesWithFile.mp member
  exact (List.getElem?_eq_some_iff.mp found).1

theorem World.exists_decl_of_mem_typesWithFile {world : World} :
    ∀ index ∈ world.typesWithFile, ∃ decl, world.decl? index = some decl := by
  intro index member
  obtain ⟨entry, found, -⟩ := mem_typesWithFile.mp member
  exact ⟨entry.decl, decl?_eq_some_decl found⟩

/-- **The files of assemblies fail exactly for a malformed type that one of them would declare**,
in whatever order they are made. Every failure names such a type; and if only one file is affected,
then it is the first flaw in the order in which types are declared in that file. -/
theorem bindingFilesOf_fails_iff (assemblies : List Assembly) (rules : PackageRules) :
    let world := World.ofAssemblies assemblies
    MayGiveFiles assemblies rules (bindingFilesOf assemblies rules) ∧
    ∀ answer, MayGiveFiles assemblies rules answer →
      ((∃ malformed, answer = .error malformed) ↔
        ∃ top ∈ world.typesWithFile, world.IsAffected top) ∧
      ∀ malformed, answer = .error malformed →
        (∃ top ∈ world.typesWithFile, ∃ index,
          world.Declares top index ∧ world.IsMalformed index malformed) ∧
        ∀ top ∈ world.typesWithFile,
          (∀ other ∈ world.typesWithFile, world.IsAffected other → other = top) →
          (world.declarationOrder top).findSome? world.flaw? = some malformed := by
  intro world
  have ordered : world.IsOrdered := World.isOrdered_ofAssemblies assemblies
  have known : ∀ index ∈ world.typesWithFile, ∃ decl, world.decl? index = some decl :=
    World.exists_decl_of_mem_typesWithFile
  have flawed_iff {top : TypeIndex} (member : top ∈ world.typesWithFile) :
      (∃ malformed, world.fileFlaw? top = some malformed) ↔ world.IsAffected top :=
    ordered.exists_fileFlaw?_iff (World.lt_length_of_mem_typesWithFile member)
  refine ⟨Catalog.mayGive_bindingFilesFor known, fun answer gives => ?_⟩
  cases answer with
  | ok files =>
    have flawless : ∀ top ∈ world.typesWithFile, world.fileFlaw? top = none :=
      Catalog.fileFlaw?_of_mayGive_ok known gives
    refine ⟨iff_of_false (fun ⟨_, failed⟩ => nomatch failed) ?_, fun _ failed => nomatch failed⟩
    rintro ⟨top, member, affected⟩
    obtain ⟨malformed, flawed⟩ := (flawed_iff member).mpr affected
    rw [flawless top member] at flawed
    cases flawed
  | error malformed =>
    obtain ⟨top, member, flawed⟩ : ∃ top ∈ world.typesWithFile,
        world.fileFlaw? top = some malformed := (Catalog.mayGive_error_iff known).mp gives
    have affected := (flawed_iff member).mp ⟨malformed, flawed⟩
    refine ⟨iff_of_true ⟨malformed, rfl⟩ ⟨top, member, affected⟩, fun other same => ?_⟩
    cases same
    refine ⟨⟨top, member, ?_⟩, fun only _ alone => ?_⟩
    · exact ordered.declares_of_fileFlaw? (World.lt_length_of_mem_typesWithFile member) flawed
    · obtain rfl := alone top member affected
      exact flawed

/-- Two flaws in the only file: of an event whose handler cannot be called, and of an enumeration
behind it. -/
def towerText : String :=
  "assembly n namespace N \x7b class Bell \x7b \x7d public class Tower \x7b " ++
    "public class Room \x7b public event Rang : N.Bell \x7b add; remove; \x7d \x7d " ++
    "public enum Hour \x7b public static field One : N.Tower/Hour \x7d \x7d \x7d"

theorem towerText_facts :
    (World.ofAssemblies [Listing.assemblyOf towerText]).typesWithFile = [1] ∧
      (failure? (bindingFilesOf [Listing.assemblyOf towerText] {})).map MalformedType.subject =
        some "N.Bell" := by
  rw [Listing.assemblyOf_eq]
  unfold towerText
  simp only [String.toList_append]
  repeat rw [String.toList_ofList]
  decide +kernel

theorem bindingFilesOf_fails_iff_tower :
    ∃ malformed, bindingFilesOf [Listing.assemblyOf towerText] {} = .error malformed ∧
      MayGiveFiles [Listing.assemblyOf towerText] {} (.error malformed) ∧
      malformed.subject = "N.Bell" ∧
      (∃ index, (World.ofAssemblies [Listing.assemblyOf towerText]).Declares 1 index ∧
        (World.ofAssemblies [Listing.assemblyOf towerText]).IsMalformed index malformed) ∧
      ((World.ofAssemblies [Listing.assemblyOf towerText]).declarationOrder 1).findSome?
        (World.ofAssemblies [Listing.assemblyOf towerText]).flaw? = some malformed := by
  obtain ⟨only, fails⟩ := towerText_facts
  obtain ⟨malformed, failed, subject⟩ := Option.map_eq_some_iff.mp fails
  rw [failure?_eq_some] at failed
  obtain ⟨gives, answers⟩ := bindingFilesOf_fails_iff [Listing.assemblyOf towerText] {}
  rw [failed] at gives
  obtain ⟨⟨top, member, flawed⟩, first⟩ := (answers _ gives).2 malformed rfl
  rw [only, List.mem_singleton] at member
  subst member
  refine ⟨malformed, failed, gives, subject, flawed, first 1 ?_ fun other member _ => ?_⟩
  · rw [only]
    exact List.mem_singleton.mpr rfl
  · rwa [only, List.mem_singleton] at member

end ExternBindings
