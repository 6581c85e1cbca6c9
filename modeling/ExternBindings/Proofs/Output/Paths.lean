/-
**Where binding files go.**

* `fileStem_path` — the path of a file shows the name of the file: it stands behind the last slash
  and in front of the last dot there;
* `join_path_eq_iff` — two paths agree only if they have the same directories and the same name;
* `World.emittedName` — the name of a type in the output, told from the declarations alone; a file
  has that of its type (`World.flatName_eq_emittedName`);
* `World.KeepsApart` — no two types with a file share their namespace in lower case and their
  emitted name: **exactly then the files of a run have different paths.** Nothing in the rules for
  names demands it, and three types may well end up in two files.
-/

import ExternBindings.Proofs.Listing.Characters
import ExternBindings.Proofs.Output.Files
import ExternBindings.Proofs.Text.Lowercase
import Mathlib.Data.List.Nodup

namespace ExternBindings

/-- The name of the file at a path, without its extension. -/
def fileStem (path : String) : String :=
  match Text.splitLast '.' (Text.afterLast '/' path).toList with
  | some (stem, _) => String.ofList stem
  | none => Text.afterLast '/' path

theorem afterLast_join {parts : List String} {last : String} (plain : '/' ∉ last.toList) :
    Text.afterLast '/' (Text.join "/" (parts ++ [last])) = last := by
  obtain ⟨front, joined, ends⟩ := Text.exists_join_concat "/" parts last
  unfold Text.afterLast
  rw [joined]
  rcases ends with rfl | ⟨before, rfl⟩
  · rw [String.empty_append, Text.splitLast_eq_none_iff.mpr plain]
  · have cut := Text.splitLast_append before.toList plain
    have written : (before ++ "/" ++ last).toList = before.toList ++ '/' :: last.toList := by
      rw [String.toList_append, String.toList_append, List.append_assoc]
      rfl
    rw [written, cut]
    exact String.ofList_toList

/-- **The path of a file shows the name of the file.** -/
theorem fileStem_path {file : BindingFile} (plain : '/' ∉ file.stem.toList) :
    fileStem file.path = file.stem := by
  have written : (file.stem ++ ".hx").toList = file.stem.toList ++ '.' :: ['h', 'x'] :=
    String.toList_append
  have noSlash : '/' ∉ (file.stem ++ ".hx").toList := by
    rw [written, List.mem_append, not_or]
    exact ⟨plain, by decide⟩
  unfold fileStem BindingFile.path
  rw [afterLast_join noSlash, written, Text.splitLast_append file.stem.toList (by decide)]
  exact String.ofList_toList

/-! ### Paths that agree -/

/-- The directories that the file of a type in this namespace is in. -/
def directoriesOf (space : String) : List String :=
  (Text.segments '.' (Text.lowercase space)).filter (· ≠ "")

theorem directoriesOf_empty : directoriesOf "" = [] := by
  decide

theorem directoriesOf_dotted {space : String} (dotted : isDottedName space = true) :
    directoriesOf space = Text.segments '.' (Text.lowercase space) := by
  unfold directoriesOf
  refine List.filter_eq_self.mpr fun part member => ?_
  rw [decide_eq_true_eq]
  exact (Text.forall_mem_segments_lowercase dotted part member).1

section Directories

variable {space : String} (spelled : space = "" ∨ isDottedName space = true)

include spelled

theorem join_directoriesOf : Text.join "." (directoriesOf space) = Text.lowercase space := by
  rcases spelled with rfl | dotted
  · rw [directoriesOf_empty]
    decide
  · rw [directoriesOf_dotted dotted]
    exact Text.join_segments rfl _

/-- The directories that a file is in have names without a dot or slash. -/
theorem forall_mem_directoriesOf :
    ∀ part ∈ directoriesOf space, part ≠ "" ∧ ∀ char ∈ part.toList, isNameChar char = true := by
  rcases spelled with rfl | dotted
  · rw [directoriesOf_empty]
    simp
  · rw [directoriesOf_dotted dotted]
    exact Text.forall_mem_segments_lowercase dotted

theorem not_mem_directoriesOf : ∀ part ∈ directoriesOf space, '/' ∉ part.toList := by
  intro part member slash
  exact absurd ((forall_mem_directoriesOf spelled part member).2 '/' slash) (by decide)

end Directories

theorem directoriesOf_eq_iff {space other : String}
    (spelled : space = "" ∨ isDottedName space = true)
    (spelledToo : other = "" ∨ isDottedName other = true) :
    directoriesOf space = directoriesOf other ↔ Text.lowercase space = Text.lowercase other := by
  constructor
  · intro same
    rw [← join_directoriesOf spelled, ← join_directoriesOf spelledToo, same]
  · intro same
    unfold directoriesOf
    rw [same]

/-- The segments of a path are the directories and the name of the file. -/
theorem segments_path {directories : List String} {name : String}
    (plain : ∀ part ∈ directories, '/' ∉ part.toList) (namePlain : '/' ∉ name.toList) :
    Text.segments '/' (Text.join "/" (directories ++ [name ++ ".hx"])) =
      directories ++ [name ++ ".hx"] := by
  have single : "/".toList = ['/'] := rfl
  refine Text.segments_join single (List.append_ne_nil_of_right_ne_nil _ (by simp)) ?_
  rw [List.forall_mem_append, List.forall_mem_singleton]
  refine ⟨plain, ?_⟩
  rw [String.toList_append, List.mem_append, not_or]
  exact ⟨namePlain, by decide⟩

/-- **Paths agree only if directories and name do.** -/
theorem join_path_eq_iff {first second : List String} {stem other : String}
    (plain : ∀ part ∈ first, '/' ∉ part.toList) (plainToo : ∀ part ∈ second, '/' ∉ part.toList)
    (stemPlain : '/' ∉ stem.toList) (otherPlain : '/' ∉ other.toList) :
    Text.join "/" (first ++ [stem ++ ".hx"]) = Text.join "/" (second ++ [other ++ ".hx"]) ↔
      first = second ∧ stem = other := by
  constructor
  · intro same
    have cut := congrArg (Text.segments '/') same
    rw [segments_path plain stemPlain, segments_path plainToo otherPlain] at cut
    obtain ⟨directories, stems⟩ := List.append_inj' cut rfl
    refine ⟨directories, ?_⟩
    rw [List.cons.injEq] at stems
    have written := congrArg String.toList stems.1
    rw [String.toList_append, String.toList_append] at written
    exact String.toList_injective (List.append_cancel_right written)
  · rintro ⟨rfl, rfl⟩
    rfl

/-! ### Emitted names -/

namespace World

variable {world : World}

/-- Whether another public type has the same dotted name once arity markers are left out. -/
def hasSibling (world : World) (index : TypeIndex) (key : String) : Bool :=
  world.indices.any fun other =>
    other ≠ index && (world.entry? other).any fun entry => entry.isPublic && entry.familyKey = key

/-- The name of a type in the output, without those of the types around it: its name without the arity
marker, and the number of its parameters if it has some and a sibling. -/
def emittedName (world : World) (index : TypeIndex) (entry : Entry) : String :=
  entry.decl.name.bareName ++
    if entry.decl.genericCount ≠ 0 ∧ world.hasSibling index entry.familyKey = true then
      toString entry.decl.genericCount
    else ""

theorem mem_family {key : String} {index : TypeIndex} :
    index ∈ world.family key ↔
      ∃ entry, world.entry? index = some entry ∧ entry.isPublic = true ∧ entry.familyKey = key := by
  unfold family
  simp only [mem_indicesWhere, Bool.and_eq_true, decide_eq_true_eq]

theorem hasSibling_eq_true {index : TypeIndex} {key : String} :
    world.hasSibling index key = true ↔ ∃ other ∈ world.family key, other ≠ index := by
  unfold hasSibling indices
  simp only [mem_family, List.any_eq_true, List.mem_range, Bool.and_eq_true, decide_eq_true_eq,
    Option.any_eq_true]
  constructor
  · rintro ⟨other, -, different, entry, found, isPublic, same⟩
    exact ⟨other, ⟨entry, found, isPublic, same⟩, different⟩
  · rintro ⟨other, ⟨entry, found, isPublic, same⟩, different⟩
    exact ⟨other, (List.getElem?_eq_some_iff.mp found).1, different, entry, found, isPublic, same⟩

/-- A list without repetitions has a second member exactly if it is longer than one. -/
theorem one_lt_length_iff {members : List TypeIndex} (distinct : members.Nodup) {index : TypeIndex}
    (member : index ∈ members) :
    1 < members.length ↔ ∃ other ∈ members, other ≠ index := by
  have shorter := List.length_erase_of_mem member
  have others (other : TypeIndex) : other ∈ members.erase index ↔
      other ≠ index ∧ other ∈ members := distinct.mem_erase_iff
  constructor
  · intro longer
    obtain ⟨other, held⟩ := List.exists_mem_of_length_pos (l := members.erase index) (by omega)
    exact ⟨other, ((others other).mp held).2, ((others other).mp held).1⟩
  · rintro ⟨other, held, different⟩
    have positive := List.length_pos_of_mem ((others other).mpr ⟨different, held⟩)
    omega

theorem isShared_eq_hasSibling {index : TypeIndex} {entry : Entry}
    (found : world.entry? index = some entry) (isPublic : entry.isPublic = true) :
    world.isShared entry.familyKey = world.hasSibling index entry.familyKey := by
  have distinct : (world.family entry.familyKey).Nodup := List.nodup_range.filter _
  have member := mem_family.mpr ⟨entry, found, isPublic, rfl⟩
  rw [Bool.eq_iff_iff, hasSibling_eq_true]
  unfold isShared
  rw [decide_eq_true_eq]
  exact one_lt_length_iff distinct member

/-- **The part of a flat name that stands for a public type is the emitted name of the type.** -/
theorem nameSegment_eq_emittedName (unambiguous : world.IsUnambiguous) {index : TypeIndex}
    {entry : Entry} (found : world.entry? index = some entry) (isPublic : entry.isPublic = true) :
    world.nameSegment entry.decl.name none = world.emittedName index entry := by
  unfold nameSegment emittedName arityDigits
  rw [declaredArity?_eq_some unambiguous (decl?_eq_some_decl found), ← entry.familyKey_eq,
    isShared_eq_hasSibling found isPublic]
  congr 1
  cases world.hasSibling index entry.familyKey with
  | false => simp
  | true =>
    cases entry.decl.genericCount with
    | zero => rfl
    | succ count => simp

/-- **The flat name of a public top-level type is its emitted name.** -/
theorem flatName_eq_emittedName (unambiguous : world.IsUnambiguous) {index : TypeIndex}
    {entry : Entry} (found : world.entry? index = some entry) (isPublic : entry.isPublic = true)
    (alone : entry.decl.name.enclosing = []) :
    world.flatName entry.decl.name = world.emittedName index entry := by
  have single : world.flatName entry.decl.name = world.nameSegment entry.decl.name none := by
    unfold flatName QualifiedName.owners
    rw [alone]
    rfl
  rw [single, nameSegment_eq_emittedName unambiguous found isPublic]

/-- The path that the file of a top-level type gets. -/
def emittedPath (world : World) (index : TypeIndex) (entry : Entry) : String :=
  Text.join "/" (directoriesOf entry.decl.name.space ++ [world.emittedName index entry ++ ".hx"])

theorem mem_emittedName {index : TypeIndex} {entry : Entry} {char : Char}
    (member : char ∈ (world.emittedName index entry).toList) :
    char ∈ entry.decl.name.bareName.toList ∨ char.isDigit = true := by
  unfold emittedName at member
  rw [String.toList_append, List.mem_append] at member
  refine member.imp_right fun member => ?_
  split at member
  · exact forall_mem_toString _ char member
  · cases member

theorem not_mem_emittedName {index : TypeIndex} {entry : Entry}
    (identifier : isIdentifier entry.decl.name.name = true) :
    '/' ∉ (world.emittedName index entry).toList := by
  intro slash
  have wordChar : Listing.isWordChar '/' = true := by
    rcases mem_emittedName slash with slash | slash
    · exact forall_isWordChar_of_isWord (isWord_bareName identifier) '/' slash
    · exact isDigit_isWordChar slash
  exact absurd wordChar (by decide)

theorem emittedPath_eq_iff {first second : TypeIndex} {entry other : Entry}
    (named : entry.decl.name.IsWellNamed) (namedToo : other.decl.name.IsWellNamed) :
    world.emittedPath first entry = world.emittedPath second other ↔
      Text.lowercase entry.decl.name.space = Text.lowercase other.decl.name.space ∧
        world.emittedName first entry = world.emittedName second other := by
  unfold emittedPath
  rw [join_path_eq_iff (not_mem_directoriesOf named.space) (not_mem_directoriesOf namedToo.space)
    (not_mem_emittedName named.own) (not_mem_emittedName namedToo.own),
    directoriesOf_eq_iff named.space namedToo.space]

/-- No two types with a file share their namespace in lower case and their emitted name. -/
def KeepsApart (world : World) : Prop :=
  ∀ first ∈ world.typesWithFile, ∀ second ∈ world.typesWithFile, first ≠ second →
    ∀ entry other, world.entry? first = some entry → world.entry? second = some other →
      Text.lowercase entry.decl.name.space = Text.lowercase other.decl.name.space →
      world.emittedName first entry ≠ world.emittedName second other

/-- Types with a file are kept apart exactly if their paths differ. -/
theorem keepsApart_iff (nested : world.IsNested) :
    world.KeepsApart ↔
      (world.typesWithFile.map fun index =>
        (world.entry? index).elim "" (world.emittedPath index)).Nodup := by
  rw [List.nodup_map_iff_inj_on nodup_typesWithFile]
  have known {index : TypeIndex} (member : index ∈ world.typesWithFile) :
      ∃ entry, world.entry? index = some entry := by
    obtain ⟨entry, found, -⟩ := mem_typesWithFile.mp member
    exact ⟨entry, found⟩
  constructor
  · intro apart first member second memberToo same
    obtain ⟨entry, found⟩ := known member
    obtain ⟨other, foundToo⟩ := known memberToo
    rw [found, foundToo, Option.elim_some, Option.elim_some,
      emittedPath_eq_iff (nested.isWellNamed found) (nested.isWellNamed foundToo)] at same
    by_contra different
    exact apart first member second memberToo different entry other found foundToo same.1 same.2
  · intro injective first member second memberToo different entry other found foundToo space name
    refine different (injective first member second memberToo ?_)
    rw [found, foundToo, Option.elim_some, Option.elim_some]
    exact (emittedPath_eq_iff (nested.isWellNamed found) (nested.isWellNamed foundToo)).mpr
      ⟨space, name⟩

end World

/-! ### The files of a run -/

/-- The directories and the name of the file of a type. -/
theorem Catalog.IsFileOf.path_parts {catalog : Catalog} {index : TypeIndex} {entry : Entry}
    {file : BindingFile} (isFile : catalog.IsFileOf index file)
    (found : catalog.world.entry? index = some entry) :
    file.directories = directoriesOf entry.decl.name.space ∧
      file.stem = catalog.world.flatName entry.decl.name := by
  obtain ⟨decl, declFound, written⟩ := isFile
  obtain rfl : entry.decl = decl :=
    Option.some.inj ((World.decl?_eq_some_decl found).symm.trans declFound)
  obtain ⟨declarations, -, rfl⟩ := Catalog.bindingFile_eq_ok.mp written
  exact ⟨rfl, rfl⟩

section Run

variable {catalog : Catalog} (nested : catalog.world.IsNested)
  (unambiguous : catalog.world.IsUnambiguous)

include nested unambiguous

theorem path_eq_emittedPath {index : TypeIndex} {file : BindingFile}
    (member : index ∈ catalog.world.typesWithFile) (isFile : catalog.IsFileOf index file) :
    file.path = (catalog.world.entry? index).elim "" (catalog.world.emittedPath index) := by
  obtain ⟨entry, found, isTop, isPublic, -⟩ := World.mem_typesWithFile.mp member
  obtain ⟨directories, stem⟩ := isFile.path_parts found
  have alone := (nested.isTopLevel found isTop).alone
  rw [World.flatName_eq_emittedName unambiguous found isPublic alone] at stem
  unfold BindingFile.path World.emittedPath
  rw [found, Option.elim_some, directories, stem]

theorem map_path_eq {files : List BindingFile}
    (aligned : List.Forall₂ catalog.IsFileOf catalog.world.typesWithFile files) :
    files.map BindingFile.path = catalog.world.typesWithFile.map fun index =>
      (catalog.world.entry? index).elim "" (catalog.world.emittedPath index) := by
  refine List.ext_getElem ?_ fun position inRange inRangeToo => ?_
  · rw [List.length_map, List.length_map, aligned.length_eq]
  · rw [List.getElem_map, List.getElem_map]
    rw [List.length_map] at inRange inRangeToo
    exact path_eq_emittedPath nested unambiguous (List.getElem_mem inRangeToo)
      (aligned.get inRangeToo inRange)

end Run

/-- **The files of a run have different paths exactly if the types with a file are kept apart.** -/
theorem nodup_paths_iff_keepsApart {assemblies : List Assembly} {rules : PackageRules}
    {files : List BindingFile} (read : ∀ assembly ∈ assemblies, assembly.IsRead)
    (unambiguous : (World.ofAssemblies assemblies).IsUnambiguous)
    (answered : bindingFilesOf assemblies rules = .ok files) :
    (files.map BindingFile.path).Nodup ↔ (World.ofAssemblies assemblies).KeepsApart := by
  have nested := World.isNested_ofAssemblies read
  have aligned := forall₂_isFileOf_bindingFilesOf answered
  rw [map_path_eq nested unambiguous aligned]
  exact (World.keepsApart_iff nested).symm

/-! ### Two runs -/

/-- The paths of the files of a run, if all types can be declared. -/
def pathsOf? (assemblies : List Assembly) (rules : PackageRules) : Option (List String) :=
  (bindingFilesOf assemblies rules).toOption.map fun files => files.map BindingFile.path

theorem exists_of_pathsOf? {assemblies : List Assembly} {rules : PackageRules}
    {paths : List String} (written : pathsOf? assemblies rules = some paths) :
    ∃ files, bindingFilesOf assemblies rules = .ok files ∧ files.map BindingFile.path = paths :=
  exists_ok_of_map_toOption written

/-- Two types that only their parameters set apart. -/
def pairText : String :=
  "assembly n namespace N \x7b public class List \x7b \x7d public class List\x601<T> \x7b \x7d \x7d"

/-- Three types, one of which is called what another one of them is emitted as. -/
def tripleText : String :=
  "assembly n namespace N \x7b public class List \x7b \x7d public class List\x601<T> \x7b \x7d " ++
    "public class List1 \x7b \x7d \x7d"

theorem pairText_facts :
    (Listing.readAssembly pairText).isOk = true ∧
    ((World.ofAssemblies [Listing.assemblyOf pairText]).entries.map Entry.text).Nodup ∧
    pathsOf? [Listing.assemblyOf pairText] {} = some ["n/List.hx", "n/List1.hx"] := by
  rw [Listing.readAssembly_eq, Listing.assemblyOf_eq]
  unfold pairText
  rw [String.toList_ofList]
  decide +kernel

/-- Where it holds, files have different paths. -/
theorem nodup_paths_iff_keepsApart_pair :
    (World.ofAssemblies [Listing.assemblyOf pairText]).KeepsApart := by
  obtain ⟨answered, unambiguous, written⟩ := pairText_facts
  obtain ⟨files, run, paths⟩ := exists_of_pathsOf? written
  refine (nodup_paths_iff_keepsApart ?_ unambiguous run).mp ?_
  · exact List.forall_mem_singleton.mpr (Listing.isRead_assemblyOf answered)
  · rw [paths]
    decide

theorem tripleText_facts :
    (Listing.readAssembly tripleText).isOk = true ∧
    ((World.ofAssemblies [Listing.assemblyOf tripleText]).entries.map Entry.text).Nodup ∧
    pathsOf? [Listing.assemblyOf tripleText] {} =
      some ["n/List.hx", "n/List1.hx", "n/List1.hx"] := by
  rw [Listing.readAssembly_eq, Listing.assemblyOf_eq]
  unfold tripleText
  simp only [String.toList_append]
  repeat rw [String.toList_ofList]
  decide +kernel

/-- **Two files of one run may have the same path.** -/
theorem paths_overlap :
    (∀ assembly ∈ [Listing.assemblyOf tripleText], assembly.IsRead) ∧
    (World.ofAssemblies [Listing.assemblyOf tripleText]).IsUnambiguous ∧
    ∃ files, bindingFilesOf [Listing.assemblyOf tripleText] {} = .ok files ∧
      files.map BindingFile.path = ["n/List.hx", "n/List1.hx", "n/List1.hx"] ∧
      ¬ (files.map BindingFile.path).Nodup := by
  obtain ⟨answered, unambiguous, written⟩ := tripleText_facts
  obtain ⟨files, run, paths⟩ := exists_of_pathsOf? written
  refine ⟨?_, unambiguous, files, run, paths, ?_⟩
  · exact List.forall_mem_singleton.mpr (Listing.isRead_assemblyOf answered)
  · rw [paths]
    decide

end ExternBindings
