/-
**Running twice.**

* `Volume.PassesThrough` — the locations that a path passes on its way;
* `Differs.follow_back` — a path that passes none of the new directories led to the same location
  before them;
* `Loader.Resolves.after` — so what is written elsewhere does not change what a name resolves to, nor
  what is made of the assemblies (`RunOptions.Makes.after`);
* `execute_again` — **a run that wrote no assembly that it could read, and made no directory on the
  way to one, can be repeated: it answers the same and changes nothing any more.**
-/

import ExternBindings.Proofs.Program.Effect

namespace ExternBindings

open Files Files.Volume

/-! ### Paths and new directories -/

namespace Files.Volume

/-- The path passes through the location: segments at its front lead there, and a segment behind
them means something. -/
def PassesThrough (volume : Volume) (path : String) (location : Location) : Prop :=
  ∃ front behind, Text.segments '/' path = front ++ behind ∧
    (∃ segment ∈ behind, ¬ IsNeutral segment) ∧ volume.locateThrough path front = .ok location

variable {volume later : Volume} {path : String} {written : List (Location × String)}
  {made : String → Prop}

/-- A directory that is there later was there before, or it is new. -/
theorem Differs.directory_back (differs : Differs written made volume later) {location : Location}
    (found : later.item? location = some .directory) :
    volume.item? location = some .directory ∨ volume.item? location = none := by
  cases held : written.reverse.lookup location with
  | some text =>
    rw [differs.texts location text held] at found
    cases found
  | none =>
    rcases differs.others location held with same | ⟨missing, -⟩
    · exact Or.inl (same.symm.trans found)
    · exact Or.inr missing

/-- **A path to a file that passes no new directory led to the same location before.** -/
theorem Differs.follow_back (differs : Differs written made volume later)
    (passes : ∀ location, volume.item? location = none → later.item? location = some .directory →
      ¬ later.PassesThrough path location)
    {there : Location} (noDirectory : later.item? there ≠ some .directory)
    {front rest : List String} (whole : Text.segments '/' path = front ++ rest) {here : Location}
    (located : later.locateThrough path front = .ok here)
    (followed : later.follow here rest = .ok there) : volume.follow here rest = .ok there := by
  induction rest generalizing front here with
  | nil => exact followed
  | cons segment rest hypothesis =>
    obtain ⟨next, stepped, onward⟩ := follow_cons_eq_ok.mp followed
    obtain ⟨nameable, isDirectory, same⟩ := step_eq_ok.mp stepped
    have wasDirectory : volume.item? here = some .directory := by
      refine (differs.directory_back isDirectory).resolve_right fun missing => ?_
      refine passes here missing isDirectory ⟨front, segment :: rest, whole, ?_, located⟩
      by_contra neutral
      push Not at neutral
      rw [follow_neutral neutral followed] at noDirectory
      exact noDirectory isDirectory
    refine follow_cons_eq_ok.mpr ⟨next, step_eq_ok.mpr ⟨nameable, wasDirectory, same⟩, ?_⟩
    have longer : Text.segments '/' path = (front ++ [segment]) ++ rest := by
      rw [whole, List.append_assoc, List.singleton_append]
    refine hypothesis longer ?_ onward
    obtain ⟨sound, followedFront⟩ := locateThrough_eq_ok.mp located
    refine locateThrough_eq_ok.mpr ⟨sound, follow_append_eq_ok.mpr ⟨here, followedFront, ?_⟩⟩
    exact follow_cons_eq_ok.mpr ⟨next, stepped, rfl⟩

section Unwritten

variable (differs : Differs written made volume later)
  (unwritten : ∀ location, later.locate path = .ok location →
    written.reverse.lookup location = none)

include differs unwritten

/-- What was found at a path is found there later. -/
theorem Differs.item_after {location : Location} (located : volume.locate path = .ok location)
    {item : Item} (found : volume.item? location = some item) :
    later.item? location = some item := by
  rcases differs.others location (unwritten location (differs.keeps.locate located)) with
    same | ⟨missing, -⟩
  · exact same.trans found
  · rw [found] at missing
    cases missing

theorem Differs.readText_after {text : String} (read : volume.readText path = .ok text) :
    later.readText path = .ok text := by
  obtain ⟨location, located, nameable, found⟩ := readText_eq_ok.mp read
  exact readText_eq_ok.mpr ⟨location, differs.keeps.locate located, nameable,
    differs.item_after unwritten located found⟩

theorem Differs.pathExists_after (present : volume.pathExists path = true) :
    later.pathExists path = true := by
  obtain ⟨location, item, located, nameable, found⟩ := pathExists_iff.mp present
  exact pathExists_iff.mpr ⟨location, item, differs.keeps.locate located, nameable,
    differs.item_after unwritten located found⟩

/-- **A path leads to a file later exactly if it did before.** -/
theorem Differs.isFile_after (passes : ∀ location, volume.item? location = none →
      later.item? location = some .directory → ¬ later.PassesThrough path location) :
    later.isFile path = volume.isFile path := by
  rw [Bool.eq_iff_iff, isFile_iff, isFile_iff]
  constructor
  · rintro ⟨location, item, located, nameable, found, isFile⟩
    have noDirectory : later.item? location ≠ some .directory := by
      rw [found]
      rintro ⟨⟩
      cases isFile
    obtain ⟨sound, followed⟩ := locateThrough_eq_ok.mp located
    have before := differs.follow_back passes noDirectory (List.nil_append _).symm
      (locateThrough_eq_ok.mpr ⟨sound, rfl⟩) followed
    rw [differs.keeps.startOf_eq] at before
    refine ⟨location, item, locateThrough_eq_ok.mpr ⟨sound, before⟩, nameable, ?_, isFile⟩
    rcases differs.others location (unwritten location located) with same | ⟨-, isDirectory, -⟩
    · exact same.symm.trans found
    · exact absurd isDirectory noDirectory
  · rintro ⟨location, item, located, nameable, found, isFile⟩
    exact ⟨location, item, differs.keeps.locate located, nameable,
      differs.item_after unwritten located found, isFile⟩

end Unwritten

end Files.Volume

/-! ### Names that resolve as before -/

/-- The paths at which an assembly of the name is looked for. -/
inductive Loader.Probes (loader : Loader) (name : String) : String → Prop
  | absolute : isAbsolute name = true → Probes loader name name
  | searched {directory : String} : isAbsolute name = false → directory ∈ loader.directories →
      Probes loader name (joinPath directory name)

section Apart

variable {volume later : Volume} {written : List (Location × String)} {made : String → Prop}
  {loader : Loader} {name : String} (differs : Differs written made volume later)
  (unwritten : ∀ path, loader.Probes name path → ∀ location, later.locate path = .ok location →
    written.reverse.lookup location = none)

include differs unwritten

/-- A name resolves to the same path when nothing is written where it is looked for. -/
theorem Loader.Resolves.after (passes : ∀ path, loader.Probes name path → ∀ location,
      volume.item? location = none → later.item? location = some .directory →
      ¬ later.PassesThrough path location)
    {path : String} (resolves : loader.Resolves volume name path) :
    loader.Resolves later name path ∧ loader.Probes name path := by
  cases resolves with
  | absolute absolute present =>
    have probes : loader.Probes name name := .absolute absolute
    exact ⟨.absolute absolute (differs.pathExists_after (unwritten name probes) present), probes⟩
  | @searched before behind directory relative whole isFile others =>
    have probes {other : String} (member : other ∈ loader.directories) :
        loader.Probes name (joinPath other name) := .searched relative member
    have same {other : String} (member : other ∈ loader.directories) :
        later.isFile (joinPath other name) = volume.isFile (joinPath other name) :=
      differs.isFile_after (unwritten _ (probes member)) (passes _ (probes member))
    have member : directory ∈ loader.directories := by
      rw [whole]
      exact List.mem_append_right _ List.mem_cons_self
    refine ⟨.searched relative whole ((same member).trans isFile) fun other otherMember => ?_,
      probes member⟩
    have memberToo : other ∈ loader.directories := by
      rw [whole]
      exact List.mem_append_right _ (List.mem_cons_of_mem _ otherMember)
    exact (same memberToo).trans (others other otherMember)

theorem Loader.Loads.after (passes : ∀ path, loader.Probes name path → ∀ location,
      volume.item? location = none → later.item? location = some .directory →
      ¬ later.PassesThrough path location)
    {assembly : Assembly} (loads : loader.Loads volume name assembly) :
    loader.Loads later name assembly := by
  obtain ⟨path, text, resolves, read, meaning⟩ := loads
  obtain ⟨resolvesAfter, probes⟩ := resolves.after differs unwritten passes
  exact ⟨path, text, resolvesAfter, differs.readText_after (unwritten path probes) read, meaning⟩

end Apart

/-- **What was made of the assemblies is made of them again** when nothing is written where they are
looked for. -/
theorem RunOptions.Makes.after {options : RunOptions} {volume later : Volume} {directory : String}
    {assemblies : List Assembly} {bindings : List BindingFile}
    (makes : options.Makes volume directory assemblies bindings)
    {written : List (Location × String)} {made : String → Prop}
    (differs : Differs written made volume later)
    (unwritten : ∀ name ∈ options.assemblies, ∀ path, options.loader.Probes name path →
      ∀ location, later.locate path = .ok location → written.reverse.lookup location = none)
    (passes : ∀ name ∈ options.assemblies, ∀ path, options.loader.Probes name path →
      ∀ location, volume.item? location = none → later.item? location = some .directory →
        ¬ later.PassesThrough path location) :
    options.Makes later directory assemblies bindings := by
  refine ⟨makes.asked, ?_, makes.made⟩
  obtain ⟨lengths, loaded⟩ := List.forall₂_iff_zip.mp makes.loaded
  refine List.forall₂_iff_zip.mpr ⟨lengths, fun {name assembly} pair => ?_⟩
  have member := (List.of_mem_zip pair).1
  exact (loaded pair).after differs (unwritten name member) (passes name member)

/-! ### The second run -/

/-- **A run can be repeated** if no path at which it looks for an assembly leads to a file that it
wrote or passes through a directory that it made: then it answers the same, and everything is as it
was after the first time. -/
theorem execute_again {options : RunOptions} {volume later : Volume} {summary : Summary}
    (ran : onVolume options.execute volume = (.ok summary, later))
    (unwritten : ∀ name ∈ options.assemblies, ∀ path, options.loader.Probes name path →
      ∀ file ∈ summary.files, ∀ location, later.locate file = .ok location →
        later.locate path ≠ .ok location)
    (passes : ∀ name ∈ options.assemblies, ∀ path, options.loader.Probes name path →
      ∀ location, volume.item? location = none → later.item? location = some .directory →
        ¬ later.PassesThrough path location) :
    ∃ final, onVolume options.execute later = (.ok summary, final) ∧
      final.workingDirectory = later.workingDirectory ∧
      ∀ location, final.item? location = later.item? location := by
  rcases options.exists_makes_or_fails volume with
    ⟨directory, assemblies, bindings, makes⟩ | ⟨failure, -, failed⟩
  · rw [makes.onVolume_execute] at ran
    rcases wrote : onVolume (writeFiles directory (bindings.map BindingFile.toFileText)) volume with
      ⟨answer, after⟩
    rw [wrote] at ran
    have present := outputDirectory_ne_empty makes.asked
    obtain ⟨base, written, rest, whole, differs, placed, ends⟩ :=
      onVolume_writeFiles present makes.isPlain wrote
    rcases ends with ⟨rfl, rfl, isDirectory⟩ | ⟨path, fault, rfl⟩
    · cases ran
      rw [List.append_nil] at whole
      subst whole
      have makesAgain : options.Makes later directory assemblies bindings := by
        refine makes.after differs (fun name member path probes location located => ?_) passes
        refine lookup_textsBelow_eq_none.mpr ?_
        rintro file fileMember rfl
        exact unwritten name member path probes _ (List.mem_map_of_mem fileMember) _
          (placed file fileMember).located located
      obtain ⟨final, wroteAgain, differsAgain⟩ :=
        onVolume_writeFiles_again present makes.isPlain isDirectory fun file member =>
          ⟨placed file member, item?_placeBelow_ne differs member⟩
      refine ⟨final, ?_, differsAgain.keeps.start, fun location => ?_⟩
      · rw [makesAgain.onVolume_execute, wroteAgain]
      · cases held : (textsBelow base (bindings.map BindingFile.toFileText)).reverse.lookup
            location with
        | some text => rw [differsAgain.texts location text held, differs.texts location text held]
        | none => exact differsAgain.item?_eq held
    · cases ran
  · rw [failed] at ran
    cases ran

/-- Where the paths of a run lead after it: the one that is read, as far as it goes, and those that
are written. -/
theorem listVolume_paths :
    let later := (onVolume listOptions.execute listVolume).2
    (later.locateThrough "in/n.txt" []).toOption = some [] ∧
      (later.locateThrough "in/n.txt" ["in"]).toOption = some ["in"] ∧
      (later.locate "in/n.txt").toOption = some ["in", "n.txt"] ∧
      (later.locate "out/hx/n/List.hx").toOption = some ["out", "hx", "n", "List.hx"] ∧
      (later.locate "out/hx/n/List1.hx").toOption = some ["out", "hx", "n", "List1.hx"] := by
  decide +kernel

theorem execute_again_list :
    ∃ summary later final, onVolume listOptions.execute listVolume = (.ok summary, later) ∧
      summary.files = ["out/hx/n/List.hx", "out/hx/n/List1.hx"] ∧
      onVolume listOptions.execute later = (.ok summary, final) ∧
      final.workingDirectory = later.workingDirectory ∧
      ∀ location, final.item? location = later.item? location := by
  have facts := listOptions_facts
  obtain ⟨start, outer, read, first, second⟩ := listVolume_paths
  rcases ran : onVolume listOptions.execute listVolume with ⟨failure | summary, later⟩
  · rw [ran] at facts
    cases facts
  rw [ran] at facts start outer read first second
  have files : summary.files = ["out/hx/n/List.hx", "out/hx/n/List1.hx"] := Option.some.inj facts
  have only {name path : String} (member : name ∈ listOptions.assemblies)
      (probes : listOptions.loader.Probes name path) : path = "in/n.txt" := by
    obtain rfl := List.mem_singleton.mp member
    cases probes with
    | absolute absolute => cases absolute
    | searched _ directory =>
      rw [List.mem_singleton.mp directory]
      rfl
  have leads {result : Except FileFault Location} {location other : Location}
      (known : result.toOption = some other) (located : result = .ok location) :
      location = other := by
    rw [located] at known
    exact Option.some.inj known
  obtain ⟨final, again, same, items⟩ := execute_again ran
    (fun name member path probes file fileMember location located locatedToo => by
      obtain rfl := only member probes
      obtain rfl := leads read locatedToo
      rw [files] at fileMember
      rcases List.mem_cons.mp fileMember with rfl | fileMember
      · exact absurd (leads first located) (by decide)
      · rw [List.mem_singleton.mp fileMember] at located
        exact absurd (leads second located) (by decide))
    (fun name member path probes location missing _ passes => by
      obtain rfl := only member probes
      obtain ⟨front, behind, whole, ⟨segment, segmentMember, -⟩, located⟩ := passes
      have cut : Text.segments '/' "in/n.txt" = ["in", "n.txt"] := by decide
      rw [cut] at whole
      rcases front with - | ⟨head, - | ⟨next, rest⟩⟩
      · rw [leads start located] at missing
        cases missing
      · obtain ⟨rfl, -⟩ := List.cons.inj whole
        rw [leads outer located] at missing
        cases missing
      · have ends := (List.cons.inj (List.cons.inj whole).2).2
        rw [(List.append_eq_nil_iff.mp ends.symm).2] at segmentMember
        cases segmentMember)
  exact ⟨summary, later, final, rfl, files, again, same, items⟩

end ExternBindings
