/-
**References to types**, as they stand in the declarations that use them.

A reference names a type; it never holds the declaration. `TypeReference.text` writes it in listing
notation.

* `Rank` counts the dimensions of an array in a word, so that very many of them wrap around;
* `TypeReference.ofName`: a name of a primitive type is always referred to as that primitive.
-/

import ExternBindings.Metadata.Primitive

namespace ExternBindings

/-- Whether a type parameter belongs to a type or to a method. -/
inductive ParameterOwner where
  | type
  | method
  deriving DecidableEq

/-- How a value is reached: by reference or through a pointer. -/
inductive Indirection where
  | byRef
  | pointer
  deriving DecidableEq

/-- A number of dimensions, in a word of 32 bits. -/
abbrev Rank := UInt32

namespace Rank

instance : Coe Nat Rank := ⟨UInt32.ofNat⟩

instance : Coe Rank Nat := ⟨UInt32.toNat⟩

/-- The rank of an array with so many commas between its brackets. Behind the largest word the count
goes on with zero. -/
def ofCommas (commas : Nat) : Rank :=
  UInt32.ofNat commas + 1

/-- The number of commas that are written for a rank, which is the same for no dimension as for one. -/
def commas (rank : Rank) : Nat :=
  rank.toNat - 1

@[simp]
theorem toNat_ofCommas (commas : Nat) : (ofCommas commas).toNat = (commas + 1) % UInt32.size := by
  rw [ofCommas, UInt32.toNat_add, UInt32.toNat_ofNat', UInt32.toNat_one, Nat.mod_add_mod]

theorem ofCommas_commas (rank : Rank) : ofCommas rank.commas = if rank = 0 then 1 else rank := by
  split
  · next none =>
    subst none
    rfl
  · next some =>
    have positive : 0 < rank.toNat :=
      Nat.pos_of_ne_zero fun zero => some (UInt32.toNat_inj.mp zero)
    rw [← UInt32.toNat_inj, toNat_ofCommas, commas, Nat.sub_add_cancel positive]
    exact Nat.mod_eq_of_lt rank.toNat_lt

end Rank

/-- A use of a type. -/
inductive TypeReference where
  /-- a primitive type -/
  | primitive (kind : Primitive)
  /-- a type parameter of the surrounding type or method -/
  | parameter (owner : ParameterOwner) (name : String)
  /-- an array with `rank` dimensions -/
  | array (element : TypeReference) (rank : Rank)
  /-- a reference or pointer to a value -/
  | indirect (kind : Indirection) (element : TypeReference)
  /-- a generic type applied to arguments -/
  | instantiation (definition : QualifiedName) (arguments : List TypeReference)
  /-- a declared type -/
  | named (name : QualifiedName)

namespace TypeReference

/-- The reference to the type of this name. -/
def ofName (name : QualifiedName) : TypeReference :=
  match Primitive.ofName? name with
  | some kind => .primitive kind
  | none => .named name

/-- The reference to the type with this dotted name. -/
def ofDotted (full : String) : TypeReference :=
  match Primitive.ofFullName? full with
  | some kind => .primitive kind
  | none => .named (QualifiedName.ofDotted full)

/-- The name of the type referred to, for a reference that names one. -/
def qualifiedName? : TypeReference → Option QualifiedName
  | primitive kind => some kind.qualifiedName
  | named name => some name
  | instantiation definition _ => some definition
  | parameter .. | array .. | indirect .. => none

/-- Whether the value is passed by reference. -/
def isByRef : TypeReference → Bool
  | indirect .byRef _ => true
  | _ => false

/-- The commas between the brackets of an array of `rank` dimensions. -/
def rankCommas (rank : Rank) : String :=
  String.ofList (List.replicate rank.commas ',')

mutual

/-- The reference in listing notation. -/
def text : TypeReference → String
  | primitive kind => kind.fullName
  | parameter .type name => "!" ++ name
  | parameter .method name => "!!" ++ name
  | array element rank => element.text ++ "[" ++ rankCommas rank ++ "]"
  | indirect .byRef element => element.text ++ "&"
  | indirect .pointer element => element.text ++ "*"
  | instantiation definition arguments =>
    definition.text ++ "<" ++ Text.join ", " (texts arguments) ++ ">"
  | named name => name.text

/-- Each reference in listing notation. -/
def texts : List TypeReference → List String
  | [] => []
  | head :: tail => head.text :: texts tail

end

theorem texts_eq_map (references : List TypeReference) :
    texts references = references.map text := by
  induction references with
  | nil => rfl
  | cons head tail hypothesis => simp [texts, hypothesis]

end TypeReference

end ExternBindings
