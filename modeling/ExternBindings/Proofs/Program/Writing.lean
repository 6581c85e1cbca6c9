/-
**Writing files below a directory.**

* `FileText.IsPlain` — the path of a file is made of names, so that it goes to a location of its own
  below the directory (`FileText.placeBelow`);
* `onVolume_writeFile` — what writing one file does to a volume, and `onVolume_writeEach` — by
  induction what writing several does: **a first part of the files is written, all of them if there
  is no fault**, and nothing else is new but directories that lie around them;
* `onVolume_writeEach_again` — where all the files are placed, they are written again without a
  fault, and no directory is made.
-/

import ExternBindings.Program.Run
import ExternBindings.Proofs.Files.Differing
import ExternBindings.Proofs.Program.Loading

namespace ExternBindings

open Files Files.Volume

/-! ### Where files go -/

/-- All segments of the path are names. -/
def FileText.IsPlain (file : FileText) : Prop :=
  ∀ segment ∈ Text.segments '/' file.path, IsPlainName segment

/-- Where a file goes whose path is told from a directory at `base`. -/
def FileText.placeBelow (base : Location) (file : FileText) : Location :=
  base ++ Text.segments '/' file.path

/-- What is written for files whose paths are told from a directory at `base`. -/
def textsBelow (base : Location) (files : List FileText) : List (Location × String) :=
  files.map fun file => (file.placeBelow base, file.contents)

/-- The path of a directory that a file joined to the directory lies in, at some depth. -/
def FileText.LiesWithin (directory : String) (file : FileText) (outer : String) : Prop :=
  Relation.TransGen LiesIn (joinPath directory file.path) outer

/-- The file joined to the directory leads below `base`, and the directory that it lies in is
there. -/
structure FileText.IsPlaced (directory : String) (base : Location) (volume : Volume)
    (file : FileText) : Prop where
  located : volume.locate (joinPath directory file.path) = .ok (file.placeBelow base)
  nameable : IsNameable (file.placeBelow base)
  outer : ∀ parent, parentPath? (joinPath directory file.path) = some parent →
    volume.HasDirectory parent

variable {directory : String} {base : Location} {volume later : Volume} {file : FileText}
  {files : List FileText}

theorem lookup_textsBelow_eq_none {location : Location} :
    (textsBelow base files).reverse.lookup location = none ↔
      ∀ file ∈ files, file.placeBelow base ≠ location := by
  rw [List.lookup_eq_none_iff]
  unfold textsBelow
  rw [← List.map_reverse, List.forall_mem_map]
  refine ⟨fun unequal file member same => ?_, fun apart file member => ?_⟩
  · exact bne_iff_ne.mp (unequal file (List.mem_reverse.mpr member)) same.symm
  · exact bne_iff_ne.mpr (apart file (List.mem_reverse.mp member)).symm

/-- There is a file where files were written. -/
theorem item?_placeBelow_ne {made : String → Prop}
    (differs : Differs (textsBelow base files) made volume later) (member : file ∈ files) :
    later.item? (file.placeBelow base) ≠ some .directory := by
  intro isDirectory
  cases held : (textsBelow base files).reverse.lookup (file.placeBelow base) with
  | some text =>
    rw [differs.texts _ text held] at isDirectory
    cases isDirectory
  | none => exact lookup_textsBelow_eq_none.mp held file member rfl

theorem FileText.IsPlaced.keep (placed : file.IsPlaced directory base volume)
    (keeps : volume.Keeps later) : file.IsPlaced directory base later where
  located := keeps.locate placed.located
  nameable := placed.nameable
  outer parent found := keeps.hasDirectory (placed.outer parent found)

/-- Files go to one location only if they have one path. -/
theorem FileText.placeBelow_eq_iff {other : FileText} :
    file.placeBelow base = other.placeBelow base ↔ file.path = other.path := by
  unfold placeBelow
  rw [List.append_cancel_left_eq]
  constructor
  · intro same
    have joined := congrArg (Text.join "/") same
    rwa [Text.join_segments rfl, Text.join_segments rfl] at joined
  · intro same
    rw [same]

/-! ### Single operations -/

theorem onVolume_createDirectories (path : String) (volume : Volume) :
    onVolume (orFail path (FileAccess.createDirectories path : StateM Volume _)) volume =
      ((volume.createDirectories path).1.mapError (.unwritable path),
        (volume.createDirectories path).2) := by
  unfold orFail
  rw [onVolume_bind, onVolume_lift]
  have ran : (FileAccess.createDirectories path : StateM Volume _).run volume =
      volume.createDirectories path := rfl
  rw [ran]
  rcases volume.createDirectories path with ⟨fault | done, later⟩ <;> rfl

theorem onVolume_writeText (path contents : String) (volume : Volume) :
    onVolume (orFail path (FileAccess.writeText path contents : StateM Volume _)) volume =
      match volume.write path (.text contents) with
      | .ok changed => (.ok (), changed)
      | .error fault => (.error (.unwritable path fault), volume) := by
  unfold orFail
  rw [onVolume_bind, onVolume_lift]
  have ran : (FileAccess.writeText path contents : StateM Volume _).run volume =
      (afterChange (volume.write path (.text contents))).run volume := rfl
  rw [ran]
  cases volume.write path (.text contents) <;> rfl

theorem onVolume_writeFile_eq (directory : String) (file : FileText) (volume : Volume) :
    onVolume (writeFile directory file) volume =
      match (parentPath? (joinPath directory file.path)).elim (.ok (), volume)
          fun parent => ((volume.createDirectories parent).1.mapError (RunFailure.unwritable parent),
            (volume.createDirectories parent).2) with
      | (.error failure, changed) => (.error failure, changed)
      | (.ok (), changed) =>
        match changed.write (joinPath directory file.path) (.text file.contents) with
        | .ok later => (.ok (joinPath directory file.path), later)
        | .error fault => (.error (.unwritable (joinPath directory file.path) fault), changed) := by
  have written (changed : Volume) :
      onVolume (do
        orFail (joinPath directory file.path)
          (FileAccess.writeText (joinPath directory file.path) file.contents : StateM Volume _)
        return joinPath directory file.path) changed =
      match changed.write (joinPath directory file.path) (.text file.contents) with
      | .ok later => (.ok (joinPath directory file.path), later)
      | .error fault => (.error (.unwritable (joinPath directory file.path) fault), changed) := by
    rw [onVolume_bind, onVolume_writeText]
    cases changed.write (joinPath directory file.path) (.text file.contents) <;> rfl
  unfold writeFile
  dsimp only
  cases parentPath? (joinPath directory file.path) with
  | none => exact written volume
  | some parent =>
    dsimp only [Option.elim_some]
    rw [onVolume_bind, onVolume_createDirectories]
    rcases volume.createDirectories parent with ⟨fault | done, changed⟩
    · rfl
    · exact written changed

/-- What comes before a file is written: the directory that it lies in is made. -/
theorem outer_differs {answer : Except RunFailure Unit} {changed : Volume}
    (ran : ((parentPath? (joinPath directory file.path)).elim (.ok (), volume)
      fun parent => ((volume.createDirectories parent).1.mapError (RunFailure.unwritable parent),
        (volume.createDirectories parent).2)) = (answer, changed)) :
    Differs [] (file.LiesWithin directory) volume changed ∧
      (∀ failure, answer = .error failure → ∃ path fault, failure = .unwritable path fault) ∧
      (answer = .ok () → ∀ parent, parentPath? (joinPath directory file.path) = some parent →
        changed.HasDirectory parent) := by
  cases found : parentPath? (joinPath directory file.path) with
  | none =>
    rw [found] at ran
    cases ran
    exact ⟨.refl, fun failure failed => (by cases failed), fun _ parent absent => (by cases absent)⟩
  | some parent =>
    rw [found, Option.elim_some] at ran
    rcases made : volume.createDirectories parent with ⟨outcome, after⟩
    rw [made] at ran
    obtain ⟨differs, there⟩ := createDirectories_differs made
    have around : Differs [] (file.LiesWithin directory) volume after :=
      differs.mono fun outer within => Relation.TransGen.head' found within
    cases outcome with
    | error fault =>
      cases ran
      refine ⟨around, fun failure failed => ?_, fun done => (by cases done)⟩
      cases failed
      exact ⟨parent, fault, rfl⟩
    | ok done =>
      cases ran
      refine ⟨around, fun failure failed => (by cases failed), fun _ other same => ?_⟩
      cases same
      exact there rfl

section Below

variable (present : directory ≠ "")

include present

/-- A plain path leads to the place of its file, if it leads anywhere. -/
theorem FileText.IsPlain.located (plain : file.IsPlain) (below : volume.locate directory = .ok base)
    {location : Location}
    (located : volume.locateUnslashed (joinPath directory file.path) = .ok location) :
    location = file.placeBelow base ∧
      volume.locate (joinPath directory file.path) = .ok (file.placeBelow base) := by
  obtain ⟨front, name, whole, isName⟩ := exists_segments_concat present plain
  rw [locateUnslashed_eq_locate whole isName] at located
  obtain rfl := locate_joinPath present plain below located
  exact ⟨rfl, located⟩

/-- **Writing one file**: either there is a fault, and nothing but directories around the file is
new, or the file is placed and holds its text. -/
theorem onVolume_writeFile (plain : file.IsPlain) (below : volume.locate directory = .ok base)
    {result : Except RunFailure String}
    (ran : onVolume (writeFile directory file) volume = (result, later)) :
    (∃ path fault, result = .error (.unwritable path fault)) ∧
        Differs [] (file.LiesWithin directory) volume later ∨
      result = .ok (joinPath directory file.path) ∧
        Differs (textsBelow base [file]) (file.LiesWithin directory) volume later ∧
        file.IsPlaced directory base later := by
  rw [onVolume_writeFile_eq] at ran
  generalize opened : (parentPath? (joinPath directory file.path)).elim _ _ = outcome at ran
  obtain ⟨answer, changed⟩ := outcome
  obtain ⟨around, fails, outer⟩ := outer_differs opened
  cases answer with
  | error failure =>
    cases ran
    obtain ⟨path, fault, rfl⟩ := fails failure rfl
    exact Or.inl ⟨⟨path, fault, rfl⟩, around⟩
  | ok done =>
    dsimp only at ran
    cases written : changed.write (joinPath directory file.path) (.text file.contents) with
    | error fault =>
      rw [written] at ran
      cases ran
      exact Or.inl ⟨⟨_, fault, rfl⟩, around⟩
    | ok after =>
      rw [written] at ran
      cases ran
      obtain ⟨location, located, -, nameable, free, rfl⟩ := write_eq_ok.mp written
      obtain ⟨rfl, leads⟩ := plain.located present (around.keeps.locate below) located
      have puts : Differs (textsBelow base [file]) (file.LiesWithin directory) changed _ :=
        differs_put free
      refine Or.inr ⟨rfl, around.append puts, puts.keeps.locate leads, nameable,
        fun parent found => ?_⟩
      exact puts.keeps.hasDirectory (outer rfl parent found)

/-- **Writing several files**: a first part of them is written, all of them if there is no fault, and
nothing else is new but directories around the files. -/
theorem onVolume_writeEach (plain : ∀ file ∈ files, file.IsPlain) :
    ∀ {volume later : Volume} {result : Except RunFailure (List String)},
      volume.locate directory = .ok base →
      onVolume (writeEach directory files) volume = (result, later) →
      ∃ written rest, files = written ++ rest ∧
        Differs (textsBelow base written)
          (fun outer => ∃ file ∈ files, file.LiesWithin directory outer)
          volume later ∧
        (∀ file ∈ written, file.IsPlaced directory base later) ∧
        (result = .ok (files.map fun file => joinPath directory file.path) ∧ rest = [] ∨
          ∃ path fault, result = .error (.unwritable path fault)) := by
  induction files with
  | nil =>
    intro volume later result _ ran
    cases ran
    exact ⟨[], [], rfl, .refl, fun _ member => absurd member List.not_mem_nil, Or.inl ⟨rfl, rfl⟩⟩
  | cons file files hypothesis =>
    rw [List.forall_mem_cons] at plain
    intro volume later result below ran
    rw [writeEach, onVolume_bind] at ran
    rcases headRan : onVolume (writeFile directory file) volume with ⟨answer, changed⟩
    rw [headRan] at ran
    have around {texts : List (Location × String)} {before after : Volume}
        (differs : Differs texts (file.LiesWithin directory) before after) :
        Differs texts (fun outer => ∃ other ∈ file :: files, other.LiesWithin directory outer)
          before after :=
      differs.mono fun outer within => ⟨file, List.mem_cons_self, within⟩
    rcases onVolume_writeFile present plain.1 below headRan with
      ⟨⟨path, fault, rfl⟩, differs⟩ | ⟨rfl, differs, placed⟩
    · cases ran
      exact ⟨[], file :: files, rfl, around differs, fun _ member => absurd member List.not_mem_nil,
        Or.inr ⟨path, fault, rfl⟩⟩
    · dsimp only at ran
      rw [onVolume_bind] at ran
      rcases tailRan : onVolume (writeEach directory files) changed with ⟨answer, after⟩
      rw [tailRan] at ran
      obtain ⟨written, rest, whole, onward, placedToo, outcome⟩ :=
        hypothesis plain.2 (differs.keeps.locate below) tailRan
      have all : Differs (textsBelow base (file :: written))
          (fun outer => ∃ other ∈ file :: files, other.LiesWithin directory outer) volume after := by
        refine (around differs).append (onward.mono fun outer ⟨other, member, within⟩ => ?_)
        exact ⟨other, List.mem_cons_of_mem _ member, within⟩
      have allPlaced : ∀ other ∈ file :: written, other.IsPlaced directory base after :=
        List.forall_mem_cons.mpr ⟨placed.keep onward.keeps, placedToo⟩
      rcases outcome with ⟨rfl, rfl⟩ | ⟨path, fault, rfl⟩
      · cases ran
        exact ⟨file :: written, [], by rw [whole, List.cons_append], all, allPlaced,
          Or.inl ⟨rfl, rfl⟩⟩
      · cases ran
        exact ⟨file :: written, rest, by rw [whole, List.cons_append], all, allPlaced,
          Or.inr ⟨path, fault, rfl⟩⟩

/-- **Writing below a directory that is made first.** -/
theorem onVolume_writeFiles (plain : ∀ file ∈ files, file.IsPlain)
    {result : Except RunFailure (List String)}
    (ran : onVolume (writeFiles directory files) volume = (result, later)) :
    ∃ base written rest, files = written ++ rest ∧
      Differs (textsBelow base written)
        (fun outer => IsWithin directory outer ∨ ∃ file ∈ files, file.LiesWithin directory outer)
        volume later ∧
      (∀ file ∈ written, file.IsPlaced directory base later) ∧
      (result = .ok (files.map fun file => joinPath directory file.path) ∧ rest = [] ∧
          later.isDirectory directory = true ∨
        ∃ path fault, result = .error (.unwritable path fault)) := by
  unfold writeFiles at ran
  rw [onVolume_bind, onVolume_createDirectories] at ran
  rcases made : volume.createDirectories directory with ⟨outcome, changed⟩
  rw [made] at ran
  obtain ⟨differs, there⟩ := createDirectories_differs made
  have around : Differs [] (fun outer => IsWithin directory outer ∨
      ∃ file ∈ files, file.LiesWithin directory outer) volume changed :=
    differs.mono fun outer within => Or.inl within
  cases outcome with
  | error fault =>
    cases ran
    exact ⟨[], [], files, rfl, around, fun _ member => absurd member List.not_mem_nil,
      Or.inr ⟨directory, fault, rfl⟩⟩
  | ok done =>
    have isDirectory := (there rfl).resolve_left present
    obtain ⟨base, below, -, -⟩ := isDirectory_iff.mp isDirectory
    obtain ⟨written, rest, whole, onward, placed, ends⟩ :=
      onVolume_writeEach present plain below ran
    refine ⟨base, written, rest, whole, around.append (onward.mono fun _ within => Or.inr within),
      placed, ?_⟩
    rcases ends with ⟨answered, all⟩ | failed
    · exact Or.inl ⟨answered, all, onward.keeps.isDirectory isDirectory⟩
    · exact Or.inr failed

/-! ### Files that are there -/

/-- Where a file is placed, only its text changes. -/
theorem onVolume_writeFile_again (plain : file.IsPlain)
    (placed : file.IsPlaced directory base volume)
    (free : volume.item? (file.placeBelow base) ≠ some .directory) :
    onVolume (writeFile directory file) volume =
      (.ok (joinPath directory file.path),
        volume.put (file.placeBelow base) (.text file.contents)) := by
  have opened : ((parentPath? (joinPath directory file.path)).elim (.ok (), volume)
      fun parent => ((volume.createDirectories parent).1.mapError (RunFailure.unwritable parent),
        (volume.createDirectories parent).2)) = (.ok (), volume) := by
    cases found : parentPath? (joinPath directory file.path) with
    | none => rfl
    | some parent =>
      rw [Option.elim_some, createDirectories_of_hasDirectory (placed.outer parent found)]
      rfl
  obtain ⟨front, name, whole, isName⟩ := exists_segments_concat present plain
  have written : volume.write (joinPath directory file.path) (.text file.contents) =
      .ok (volume.put (file.placeBelow base) (.text file.contents)) :=
    write_eq_ok.mpr ⟨_, locateUnslashed_of_locate placed.located, getLast?_ne_slash whole isName,
      placed.nameable, free, rfl⟩
  rw [onVolume_writeFile_eq, opened]
  dsimp only
  rw [written]

/-- **Where all files are placed, they can be written again**, and no directory is made. -/
theorem onVolume_writeEach_again (plain : ∀ file ∈ files, file.IsPlain) :
    ∀ {volume : Volume}, (∀ file ∈ files, file.IsPlaced directory base volume ∧
        volume.item? (file.placeBelow base) ≠ some .directory) →
      ∃ later, onVolume (writeEach directory files) volume =
          (.ok (files.map fun file => joinPath directory file.path), later) ∧
        Differs (textsBelow base files) (fun _ => False) volume later := by
  induction files with
  | nil => exact fun _ => ⟨_, rfl, .refl⟩
  | cons file files hypothesis =>
    rw [List.forall_mem_cons] at plain
    intro volume there
    rw [List.forall_mem_cons] at there
    obtain ⟨⟨placed, free⟩, others⟩ := there
    have puts : Differs (textsBelow base [file]) (fun _ => False) volume _ := differs_put free
    obtain ⟨later, ran, onward⟩ := hypothesis plain.2 fun other member => by
      refine ⟨(others other member).1.keep puts.keeps, fun isDirectory => ?_⟩
      cases found : (textsBelow base [file]).reverse.lookup (other.placeBelow base) with
      | some text =>
        rw [puts.texts _ _ found] at isDirectory
        cases isDirectory
      | none => exact (others other member).2 ((puts.item?_eq found).symm.trans isDirectory)
    refine ⟨later, ?_, puts.append onward⟩
    rw [writeEach, onVolume_bind, onVolume_writeFile_again present plain.1 placed free]
    dsimp only
    rw [onVolume_bind, ran]
    rfl

theorem onVolume_writeFiles_again (plain : ∀ file ∈ files, file.IsPlain)
    (isDirectory : volume.isDirectory directory = true)
    (there : ∀ file ∈ files, file.IsPlaced directory base volume ∧
      volume.item? (file.placeBelow base) ≠ some .directory) :
    ∃ later, onVolume (writeFiles directory files) volume =
        (.ok (files.map fun file => joinPath directory file.path), later) ∧
      Differs (textsBelow base files) (fun _ => False) volume later := by
  obtain ⟨later, ran, differs⟩ := onVolume_writeEach_again present plain there
  refine ⟨later, ?_, differs⟩
  unfold writeFiles
  rw [onVolume_bind, onVolume_createDirectories,
    createDirectories_of_hasDirectory (Or.inr isDirectory)]
  exact ran

end Below

end ExternBindings
