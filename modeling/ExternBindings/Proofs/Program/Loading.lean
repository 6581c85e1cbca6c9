/-
**Loading reads a volume and changes nothing.**

* `onVolume` — a program over files, run on a volume in memory;
* `Loader.Resolves` — where an assembly is found: at its absolute path, or in the last search
  directory that holds a file of its name; `Loader.Loads` — what is read there;
* `onVolume_loadEach` — loading leaves the volume as it was, and **it answers with assemblies
  exactly if they are what the names resolve to, in order.**
-/

import ExternBindings.Files.Volume
import ExternBindings.Program.Loading
import ExternBindings.Proofs.Output.Files
import ExternBindings.Proofs.World.Nesting

namespace ExternBindings

open Files

/-! ### Programs on a volume -/

section OnVolume

variable {α β ε : Type}

/-- The answer of a program over files on a volume, and the volume that it leaves. -/
def onVolume (program : ExceptT ε (StateM Volume) α) (volume : Volume) : Except ε α × Volume :=
  program.run.run volume

theorem onVolume_pure (value : α) (volume : Volume) :
    onVolume (pure value : ExceptT ε (StateM Volume) α) volume = (.ok value, volume) :=
  rfl

theorem onVolume_bind (program : ExceptT ε (StateM Volume) α)
    (next : α → ExceptT ε (StateM Volume) β) (volume : Volume) :
    onVolume (program >>= next) volume =
      match onVolume program volume with
      | (.ok value, later) => onVolume (next value) later
      | (.error error, later) => (.error error, later) := by
  unfold onVolume
  rw [ExceptT.run_bind, StateT.run_bind]
  rcases program.run.run volume with ⟨answer | answer, later⟩ <;> rfl

theorem onVolume_lift (operation : StateM Volume α) (volume : Volume) :
    onVolume (liftM operation : ExceptT ε (StateM Volume) α) volume =
      (.ok (operation.run volume).1, (operation.run volume).2) :=
  rfl

theorem onVolume_throw (error : ε) (volume : Volume) :
    onVolume (throw error : ExceptT ε (StateM Volume) α) volume = (.error error, volume) :=
  rfl

theorem onVolume_adapt {ε' : Type} (convert : ε → ε') (program : ExceptT ε (StateM Volume) α)
    (volume : Volume) :
    onVolume (program.adapt convert) volume =
      ((onVolume program volume).1.mapError convert, (onVolume program volume).2) := by
  unfold onVolume
  show (Except.mapError convert <$> program.run).run volume = _
  rw [StateT.run_map]
  rcases program.run.run volume with ⟨answer, later⟩
  rfl

end OnVolume

namespace Loader

/-- Where an assembly is found: at its absolute path if that leads anywhere, or in the last search
directory with a file of its name. -/
inductive Resolves (loader : Loader) (volume : Volume) (name : String) : String → Prop
  | absolute : isAbsolute name = true → volume.pathExists name = true →
      Resolves loader volume name name
  | searched {before behind : List String} {directory : String} :
      isAbsolute name = false → loader.directories = before ++ directory :: behind →
      volume.isFile (joinPath directory name) = true →
      (∀ later ∈ behind, volume.isFile (joinPath later name) = false) →
      Resolves loader volume name (joinPath directory name)

/-- The assembly is what the listing says that the name resolves to. -/
def Loads (loader : Loader) (volume : Volume) (name : String) (assembly : Assembly) : Prop :=
  ∃ path text, loader.Resolves volume name path ∧ volume.readText path = .ok text ∧
    Listing.readAssembly text (some path) = .ok assembly

theorem Loads.isRead {loader : Loader} {volume : Volume} {name : String} {assembly : Assembly}
    (loads : loader.Loads volume name assembly) : assembly.IsRead := by
  obtain ⟨path, text, -, -, read⟩ := loads
  exact ⟨text, some path, read⟩

variable {loader : Loader} {volume : Volume}

theorem filesAmong_run (paths : List String) :
    (filesAmong paths : StateM Volume (List String)).run volume =
      (paths.filter volume.isFile, volume) := by
  induction paths with
  | nil => rfl
  | cons path rest hypothesis =>
    show (match (filesAmong rest : StateM Volume (List String)).run volume with
      | (others, later) =>
        ((if volume.isFile path then path :: others else others : List String), later)) = _
    rw [hypothesis, List.filter_cons]

/-- The last one that is accepted, with all that is behind it. -/
theorem getLast?_filter_eq_some {α : Type} {accepts : α → Bool} {items : List α} {last : α} :
    (items.filter accepts).getLast? = some last ↔
      ∃ before behind, items = before ++ last :: behind ∧ accepts last = true ∧
        ∀ item ∈ behind, accepts item = false := by
  rw [List.getLast?_eq_some_iff]
  constructor
  · rintro ⟨front, whole⟩
    obtain ⟨before, rest, rfl, -, ends⟩ := List.filter_eq_append_iff.mp whole
    obtain ⟨skipped, behind, rfl, -, accepted, refused⟩ := List.filter_eq_cons_iff.mp ends
    refine ⟨before ++ skipped, behind, (List.append_assoc _ _ _).symm, accepted, ?_⟩
    simpa using List.filter_eq_nil_iff.mp refused
  · rintro ⟨before, behind, rfl, accepted, refused⟩
    refine ⟨before.filter accepts, ?_⟩
    rw [List.filter_append, List.filter_cons_of_pos accepted,
      List.filter_eq_nil_iff.mpr fun item member => Bool.eq_false_iff.mp (refused item member)]

theorem resolves_relative {name path : String} (relative : isAbsolute name = false) :
    loader.Resolves volume name path ↔
      ((loader.directories.map fun directory => joinPath directory name).filter
        volume.isFile).getLast? = some path := by
  rw [getLast?_filter_eq_some]
  constructor
  · intro resolves
    cases resolves with
    | absolute absolute => exact absurd absolute (Bool.eq_false_iff.mp relative)
    | @searched before behind directory _ whole isFile none =>
      refine ⟨before.map fun directory => joinPath directory name, behind.map _, ?_, isFile,
        List.forall_mem_map.mpr none⟩
      rw [whole, List.map_append, List.map_cons]
  · rintro ⟨before, behind, whole, isFile, none⟩
    obtain ⟨first, rest, directories, rfl, ends⟩ := List.map_eq_append_iff.mp whole
    obtain ⟨directory, last, rfl, rfl, rfl⟩ := List.map_eq_cons_iff.mp ends
    exact .searched relative directories isFile (List.forall_mem_map.mp none)

theorem onVolume_find (name : String) :
    (onVolume (loader.find name) volume).2 = volume ∧
      ∀ path, (onVolume (loader.find name) volume).1 = .ok path ↔
        loader.Resolves volume name path := by
  unfold find
  split
  · next absolute =>
    rw [onVolume_bind, onVolume_lift]
    show (onVolume (if volume.pathExists name then pure name else _) volume).2 = volume ∧ ∀ path,
      (onVolume (if volume.pathExists name then pure name else _) volume).1 = .ok path ↔ _
    have only {path : String} (resolves : loader.Resolves volume name path) :
        path = name ∧ volume.pathExists name = true := by
      cases resolves with
      | absolute _ present => exact ⟨rfl, present⟩
      | searched relative => exact absurd absolute (Bool.eq_false_iff.mp relative)
    split
    · next present =>
      refine ⟨rfl, fun path => ⟨fun answered => ?_, fun resolves => ?_⟩⟩
      · cases answered
        exact .absolute absolute present
      · rw [(only resolves).1]
        rfl
    · next missing =>
      refine ⟨rfl, fun path => ⟨fun answered => ?_, fun resolves => ?_⟩⟩
      · cases answered
      · exact absurd (only resolves).2 missing
  · next relative =>
    rw [Bool.not_eq_true] at relative
    rw [onVolume_bind, onVolume_lift, filesAmong_run]
    simp only [resolves_relative relative]
    split
    · next path found =>
      rw [onVolume_pure, found]
      exact ⟨rfl, fun other => by simp⟩
    · next none =>
      rw [onVolume_throw, none]
      exact ⟨rfl, fun other => by simp⟩

/-- Loading an assembly leaves the volume as it was, and answers with what the name resolves to. -/
theorem onVolume_load (name : String) :
    (onVolume (loader.load name) volume).2 = volume ∧
      ∀ assembly, (onVolume (loader.load name) volume).1 = .ok assembly ↔
        loader.Loads volume name assembly := by
  obtain ⟨same, resolved⟩ := @onVolume_find loader volume name
  unfold load Loads
  simp only [← resolved]
  rw [onVolume_bind]
  clear resolved
  generalize onVolume (loader.find name) volume = found at same ⊢
  obtain ⟨failure | path, later⟩ := found
  · exact ⟨same, fun assembly => by simp⟩
  · obtain rfl : later = volume := same
    dsimp only
    rw [onVolume_bind, onVolume_lift]
    have read : ((FileAccess.readText path : StateM Volume _).run later) =
        (later.readText path, later) := rfl
    rw [read]
    dsimp only
    cases reading : later.readText path with
    | error fault => exact ⟨rfl, fun assembly => by simp [onVolume_throw, reading]⟩
    | ok text =>
      dsimp only
      cases meaning : Listing.readAssembly text (some path) with
      | error error => exact ⟨rfl, fun assembly => by simp [onVolume_throw, reading, meaning]⟩
      | ok assembly => exact ⟨rfl, fun other => by simp [onVolume_pure, reading, meaning]⟩

/-- **Loading leaves the volume as it was, and answers with what the names resolve to, in order.** -/
theorem onVolume_loadEach (names : List String) :
    (onVolume (loader.loadEach names) volume).2 = volume ∧
      ∀ assemblies, (onVolume (loader.loadEach names) volume).1 = .ok assemblies ↔
        List.Forall₂ (loader.Loads volume) names assemblies := by
  induction names with
  | nil =>
    refine ⟨rfl, fun assemblies => ?_⟩
    rw [List.forall₂_nil_left_iff, loadEach, onVolume_pure]
    simp [eq_comm]
  | cons name rest hypothesis =>
    obtain ⟨sameHead, loaded⟩ := @onVolume_load loader volume name
    obtain ⟨same, others⟩ := hypothesis
    simp only [List.forall₂_cons_left_iff, ← loaded, ← others]
    rw [loadEach, onVolume_bind]
    clear loaded others
    generalize onVolume (loader.load name) volume = head at sameHead ⊢
    obtain ⟨failure | assembly, later⟩ := head
    · exact ⟨sameHead, fun assemblies => by simp⟩
    · obtain rfl : later = volume := sameHead
      dsimp only
      rw [onVolume_bind]
      generalize onVolume (loader.loadEach rest) later = tail at same ⊢
      obtain ⟨failure | assemblies, later⟩ := tail
      · exact ⟨same, fun assemblies => by simp⟩
      · exact ⟨same, fun others => by simp [onVolume_pure, eq_comm]⟩

end Loader

end ExternBindings
