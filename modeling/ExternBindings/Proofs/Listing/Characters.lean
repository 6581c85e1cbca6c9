/-
**Reading from characters.**

A listing is read from the characters of its text. Where these are written out, what the text
declares can be computed without decoding the text again.

* `Listing.readCharacters` — the assembly that some characters declare;
* `Listing.readAssembly_eq`, `Listing.assemblyOf_eq` — reading a text is reading its characters.
-/

import ExternBindings.Proofs.World.Nesting

namespace ExternBindings.Listing

/-- Reads characters as an assembly. -/
def readCharacters (text : List Char) : Except ListingError Assembly :=
  match (listing (tokensOf text)).value? with
  | none => .error (.unexpected (Reading.explain listing (tokensOf text)))
  | some (node, _) =>
    match node.fault? with
    | some fault => .error fault
    | none => .ok (node.assemblyFrom none)

/-- The assembly that characters declare; empty for those of no listing. -/
def declaredBy (text : List Char) : Assembly :=
  (readCharacters text).toOption.getD { name := "", types := [] }

theorem readAssembly_eq (text : String) : readAssembly text = readCharacters text.toList := by
  unfold readAssembly readListing readCharacters
  dsimp only
  cases (listing (tokensOf text.toList)).value? <;> rfl

theorem assemblyOf_eq (text : String) : assemblyOf text = declaredBy text.toList := by
  unfold assemblyOf declaredBy
  rw [readAssembly_eq]

theorem map_assemblyOf_eq (texts : List String) :
    texts.map assemblyOf = (texts.map String.toList).map declaredBy := by
  induction texts with
  | nil => rfl
  | cons head tail hypothesis =>
    rw [List.map_cons, List.map_cons, List.map_cons, hypothesis, assemblyOf_eq]

theorem forall_isOk_iff (texts : List String) :
    (∀ text ∈ texts, (readAssembly text).isOk = true) ↔
      ∀ text ∈ texts.map String.toList, (readCharacters text).isOk = true := by
  rw [List.forall_mem_map]
  simp only [readAssembly_eq]

end ExternBindings.Listing
