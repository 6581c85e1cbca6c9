/-
**The world**: all types declared by a list of assemblies.

Each declared type has an entry, and its position in the list of entries is its index. Assemblies
come in order, and each type comes right before the types declared inside of it.

* `World.lookup?` finds the last entry of a name, so that a later declaration shadows an earlier
  one; `World.target?` finds the declaration that a reference names;
* `lastIndex?_eq_some_iff` says which position that is.
-/

import ExternBindings.Metadata.Assembly

namespace ExternBindings

/-- The position of a declared type in its world. -/
abbrev TypeIndex := Nat

/-- A declared type in its world. Its written name and its family key are kept at hand. -/
structure Entry where
  decl : TypeDecl
  /-- the position of its assembly -/
  assembly : Nat
  /-- the type that it is declared in -/
  owner? : Option TypeIndex
  text : String := decl.name.text
  familyKey : String := decl.name.familyKey
  text_eq : text = decl.name.text := by rfl
  familyKey_eq : familyKey = decl.name.familyKey := by rfl

/-- Whether everyone may use the type. -/
def Entry.isPublic (entry : Entry) : Bool :=
  entry.decl.visibility.isPublic

/-- Whether the type is declared in a namespace and not in another type. -/
def Entry.isTopLevel (entry : Entry) : Bool :=
  entry.owner?.isNone

/-! ### The last position -/

/-- The position of the last item that is accepted. -/
def lastIndex? {α : Type} (accepts : α → Bool) : List α → Option Nat
  | [] => none
  | head :: tail =>
    match lastIndex? accepts tail with
    | some position => some (position + 1)
    | none => if accepts head then some 0 else none

theorem lastIndex?_eq_none_iff {α : Type} {accepts : α → Bool} {items : List α} :
    lastIndex? accepts items = none ↔ ∀ item ∈ items, accepts item = false := by
  induction items with
  | nil => simp [lastIndex?]
  | cons head tail hypothesis =>
    rw [lastIndex?]
    cases found : lastIndex? accepts tail with
    | none =>
      have none_in_tail := hypothesis.1 found
      by_cases here : accepts head = true
      · simp [here]
      · simp only [Bool.not_eq_true] at here
        simpa [here] using none_in_tail
    | some position =>
      have in_tail : ¬ ∀ item ∈ tail, accepts item = false := fun none_in_tail => by
        simp [hypothesis.2 none_in_tail] at found
      simp only [List.mem_cons, forall_eq_or_imp, reduceCtorEq, false_iff, not_and]
      exact fun _ => in_tail

/-- A change that no search can see moves no position. -/
theorem lastIndex?_modify {α : Type} {accepts : α → Bool} {change : α → α}
    (blind : ∀ item, accepts (change item) = accepts item) (items : List α) (index : Nat) :
    lastIndex? accepts (items.modify index change) = lastIndex? accepts items := by
  induction items generalizing index with
  | nil => rw [List.modify_nil]
  | cons head tail hypothesis =>
    cases index with
    | zero => rw [List.modify_zero_cons, lastIndex?, lastIndex?, blind]
    | succ index => rw [List.modify_succ_cons, lastIndex?, lastIndex?, hypothesis]

/-- **The last position is accepted, and no later one is.** -/
theorem lastIndex?_eq_some_iff {α : Type} {accepts : α → Bool} {items : List α} {position : Nat} :
    lastIndex? accepts items = some position ↔
      (∃ item, items[position]? = some item ∧ accepts item = true) ∧
        ∀ later item, position < later → items[later]? = some item → accepts item = false := by
  induction items generalizing position with
  | nil => simp [lastIndex?]
  | cons head tail hypothesis =>
    rw [lastIndex?]
    cases found : lastIndex? accepts tail with
    | none =>
      have none_in_tail := lastIndex?_eq_none_iff.1 found
      cases position with
      | zero =>
        constructor
        · intro taken
          by_cases here : accepts head = true
          · refine ⟨⟨head, by simp, here⟩, fun later item after at_later => ?_⟩
            obtain ⟨before, rfl⟩ := Nat.exists_eq_succ_of_ne_zero (Nat.ne_of_gt after)
            exact none_in_tail item (List.mem_of_getElem? (by simpa using at_later))
          · simp [here] at taken
        · rintro ⟨⟨item, at_zero, accepted⟩, -⟩
          simp only [List.getElem?_cons_zero, Option.some.injEq] at at_zero
          simp [at_zero, accepted]
      | succ position =>
        constructor
        · intro taken
          simp at taken
        · rintro ⟨⟨item, at_position, accepted⟩, -⟩
          have refused := none_in_tail item (List.mem_of_getElem? (by simpa using at_position))
          simp [refused] at accepted
    | some last =>
      have facts := hypothesis.1 found
      simp only [Option.some.injEq]
      constructor
      · rintro rfl
        refine ⟨by simpa using facts.1, fun later item after at_later => ?_⟩
        obtain ⟨before, rfl⟩ :=
          Nat.exists_eq_succ_of_ne_zero (Nat.ne_of_gt (Nat.zero_lt_of_lt after))
        exact facts.2 before item (by omega) (by simpa using at_later)
      · rintro ⟨⟨item, at_position, accepted⟩, none_later⟩
        cases position with
        | zero =>
          obtain ⟨other, at_last, other_accepted⟩ := facts.1
          have refused := none_later (last + 1) other (by omega) (by simpa using at_last)
          simp [refused] at other_accepted
        | succ position =>
          have same := hypothesis.2 ⟨⟨item, by simpa using at_position, accepted⟩,
            fun later other after at_later =>
              none_later (later + 1) other (by omega) (by simpa using at_later)⟩
          rw [found] at same
          simpa using same

/-! ### Entries of declared types -/

mutual

/-- The entries of a type and of those declared inside of it, when its own index is `first`. -/
def TypeTree.entries (assembly : Nat) (owner? : Option TypeIndex) (first : TypeIndex) :
    TypeTree → List Entry
  | .node decl inner =>
    { decl, assembly, owner? } :: entriesOfTrees assembly (some first) (first + 1) inner

/-- The entries of several types, when the first of them has the index `first`. -/
def entriesOfTrees (assembly : Nat) (owner? : Option TypeIndex) (first : TypeIndex) :
    List TypeTree → List Entry
  | [] => []
  | tree :: rest =>
    let own := tree.entries assembly owner? first
    own ++ entriesOfTrees assembly owner? (first + own.length) rest

end

/-- The entries of assemblies, the first of which has the position `assembly`, when the first type
has the index `first`. -/
def entriesOfAssemblies (assembly : Nat) (first : TypeIndex) : List Assembly → List Entry
  | [] => []
  | head :: rest =>
    let own := entriesOfTrees assembly none first head.types
    own ++ entriesOfAssemblies (assembly + 1) (first + own.length) rest

/-- All declared types that are known. -/
structure World where
  entries : List Entry

namespace World

/-- The types that a list of assemblies declares. -/
def ofAssemblies (assemblies : List Assembly) : World :=
  { entries := entriesOfAssemblies 0 0 assemblies }

variable (world : World)

/-- The indices of all types. -/
def indices : List TypeIndex :=
  List.range world.entries.length

/-- The entry at an index. -/
def entry? (index : TypeIndex) : Option Entry :=
  world.entries[index]?

/-- The declaration at an index. -/
def decl? (index : TypeIndex) : Option TypeDecl :=
  (world.entry? index).map Entry.decl

/-- The methods that a type declares. -/
def methods (index : TypeIndex) : List Method :=
  (world.decl? index).elim [] TypeDecl.methods

/-- Whether everyone may use a type. -/
def isPublic (index : TypeIndex) : Bool :=
  (world.entry? index).any Entry.isPublic

/-- Whether a type is an interface that everyone may use. -/
def isPublicInterface (index : TypeIndex) : Bool :=
  (world.entry? index).any fun entry => entry.decl.isInterface && entry.isPublic

/-- The namespace of each top-level type, in order. -/
def namespaces : List String :=
  (world.entries.filter Entry.isTopLevel).map fun entry => entry.decl.name.space

/-- The last declared type with this written name. -/
def lookupText? (written : String) : Option TypeIndex :=
  lastIndex? (fun entry : Entry => entry.text = written) world.entries

/-- The last declared type of this name. -/
def lookup? (name : QualifiedName) : Option TypeIndex :=
  world.lookupText? name.text

/-- The declared type that a reference names. -/
def target? (reference : TypeReference) : Option TypeIndex :=
  reference.qualifiedName?.bind world.lookup?

/-- The indices of the entries that are accepted. -/
def indicesWhere (accepts : Entry → Bool) : List TypeIndex :=
  world.indices.filter fun index => (world.entry? index).any accepts

/-- The top-level types that everyone may use. -/
def publicTopLevel : List TypeIndex :=
  world.indicesWhere fun entry => entry.isTopLevel && entry.isPublic

/-- The types that everyone may use among those declared directly inside of `index`. -/
def publicInner (index : TypeIndex) : List TypeIndex :=
  world.indicesWhere fun entry => entry.owner? = some index && entry.isPublic

end World

end ExternBindings
