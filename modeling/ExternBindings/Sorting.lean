/-
**Sorting that keeps ties in place.**

`sortBy` is insertion sort by a test that says whether one item may stand before another; items
that may stand either way keep the order they came in. `sortedDistinct` lists a set of texts.

* `sortBy_perm`: sorting rearranges;
* `mem_sortedDistinct`: the listed texts are exactly the given ones;
* `sortedDistinct_pairwise`: they are listed in strictly ascending order.
-/

namespace ExternBindings

/-- Puts an item in front of the first one that it may precede. -/
def insertBy {α : Type} (mayPrecede : α → α → Bool) (item : α) : List α → List α
  | [] => [item]
  | head :: tail =>
    if mayPrecede item head then item :: head :: tail
    else head :: insertBy mayPrecede item tail

/-- Sorts by `mayPrecede`; ties keep their order. -/
def sortBy {α : Type} (mayPrecede : α → α → Bool) (items : List α) : List α :=
  items.foldr (insertBy mayPrecede) []

theorem insertBy_perm {α : Type} (mayPrecede : α → α → Bool) (item : α) (items : List α) :
    (insertBy mayPrecede item items).Perm (item :: items) := by
  induction items with
  | nil => exact List.Perm.refl _
  | cons head tail hypothesis =>
    rw [insertBy]
    split
    · exact List.Perm.refl _
    · exact (hypothesis.cons head).trans (List.Perm.swap item head tail)

theorem sortBy_perm {α : Type} (mayPrecede : α → α → Bool) (items : List α) :
    (sortBy mayPrecede items).Perm items := by
  induction items with
  | nil => exact List.Perm.refl _
  | cons head tail hypothesis =>
    exact (insertBy_perm mayPrecede head _).trans (hypothesis.cons head)

/-- Puts a text in its place in an ascending list, unless it is already there. -/
def insertDistinct (text : String) : List String → List String
  | [] => [text]
  | head :: tail =>
    if text < head then text :: head :: tail
    else if text = head then head :: tail
    else head :: insertDistinct text tail

/-- The given texts in ascending order of code points, each once. -/
def sortedDistinct (texts : List String) : List String :=
  texts.foldr insertDistinct []

theorem mem_insertDistinct {text other : String} {texts : List String} :
    other ∈ insertDistinct text texts ↔ other = text ∨ other ∈ texts := by
  induction texts with
  | nil => simp [insertDistinct]
  | cons head tail hypothesis =>
    rw [insertDistinct]
    split
    · simp
    · split
      · next equal => simp [equal]
      · simp [hypothesis, or_left_comm]

theorem mem_sortedDistinct {text : String} {texts : List String} :
    text ∈ sortedDistinct texts ↔ text ∈ texts := by
  induction texts with
  | nil => simp [sortedDistinct]
  | cons head tail hypothesis =>
    show text ∈ insertDistinct head (sortedDistinct tail) ↔ _
    rw [mem_insertDistinct, hypothesis, List.mem_cons]

theorem insertDistinct_pairwise (text : String) {texts : List String}
    (ascending : texts.Pairwise (· < ·)) : (insertDistinct text texts).Pairwise (· < ·) := by
  induction texts with
  | nil => simp [insertDistinct]
  | cons head tail hypothesis =>
    have parts := List.pairwise_cons.1 ascending
    rw [insertDistinct]
    split
    · next before =>
      refine List.pairwise_cons.2 ⟨fun other member => ?_, ascending⟩
      rcases List.mem_cons.1 member with rfl | member
      · exact before
      · exact String.lt_trans before (parts.1 other member)
    · split
      · exact ascending
      · next notBefore different =>
        refine List.pairwise_cons.2 ⟨fun other member => ?_, hypothesis parts.2⟩
        rcases mem_insertDistinct.1 member with rfl | member
        · have weak : head ≤ other := String.not_lt.1 notBefore
          exact Classical.byContradiction fun notAfter =>
            different (String.le_antisymm (String.not_lt.1 notAfter) weak)
        · exact parts.1 other member

/-- **The listed texts ascend strictly**, so each stands there once. -/
theorem sortedDistinct_pairwise (texts : List String) :
    (sortedDistinct texts).Pairwise (· < ·) := by
  induction texts with
  | nil => simp [sortedDistinct]
  | cons head tail hypothesis => exact insertDistinct_pairwise head hypothesis

end ExternBindings
