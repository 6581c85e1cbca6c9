/-
**Bodies: what stands in braces, one thing behind the other.**

* `IsGap` — between two places of a text there is nothing but layout; `Fills` — spans stand one
  behind the other between two places, with nothing but layout around them;
* `Body` — a stretch in braces that is filled by spans;
* `Reaches` — a span reaches over what was read; `fills_of_reads_many` — the spans of what a
  repetition takes fill the text from where it starts to where it ends.
-/

import ExternBindings.Proofs.Listing.Answers
import ExternBindings.Proofs.Listing.Stretch

namespace ExternBindings

/-- The second stretch starts where the first one ends or behind, and the first one is not empty. -/
def Span.Precedes (first second : Span) : Prop :=
  first.start < first.stop ∧ first.stop ≤ second.start

/-- No place is in both stretches. -/
def Span.IsDisjointFrom (first second : Span) : Prop :=
  ∀ place, first.start ≤ place → place < first.stop →
    ¬ (second.start ≤ place ∧ place < second.stop)

theorem Span.IsDisjointFrom.symm {first second : Span} (apart : first.IsDisjointFrom second) :
    second.IsDisjointFrom first :=
  fun place starts stops inside => apart place inside.1 inside.2 ⟨starts, stops⟩

theorem Span.Precedes.isDisjointFrom {first second : Span} (precedes : first.Precedes second) :
    first.IsDisjointFrom second := by
  intro place _ stops inside
  have ordered := precedes.2
  omega

namespace Listing

open Reading

/-! ### Gaps -/

/-- Between the two places of the text there is nothing but layout. -/
def IsGap (text : List Char) (place stop : Nat) : Prop :=
  ∃ gap, IsStretch text { start := place, stop } gap ∧ IsAllLayout gap

/-- The spans stand in the text one behind the other, with nothing but layout in front of, between
and behind them. -/
def Fills (text : List Char) : Nat → List Span → Nat → Prop
  | place, [], stop => IsGap text place stop
  | place, span :: spans, stop =>
    IsGap text place span.start ∧ span.start < span.stop ∧ Fills text span.stop spans stop

/-- A stretch of a text in braces, by the places of these, with the spans of what is inside. -/
structure Body where
  opening : Nat
  spans : List Span
  closing : Nat

/-- The braces stand there, and the spans fill what is between them. -/
structure Body.IsIn (body : Body) (text : List Char) : Prop where
  opens : IsStretch text { start := body.opening, stop := body.opening + 1 } ['\x7b']
  fills : Fills text (body.opening + 1) body.spans body.closing
  closes : IsStretch text { start := body.closing, stop := body.closing + 1 } ['\x7d']

variable {text : List Char}

theorem IsStretch.start_le_stop {span : Span} {written : List Char}
    (stretch : IsStretch text span written) : span.start ≤ span.stop := by
  obtain ⟨front, back, -, starts, stops⟩ := stretch
  omega

/-- From the start of one stretch to the end of another one there is a stretch. -/
theorem IsStretch.exists_between {first second : Span} {written other : List Char}
    (stretch : IsStretch text first written) (stretchToo : IsStretch text second other)
    (ordered : first.start ≤ second.stop) :
    ∃ whole, IsStretch text { start := first.start, stop := second.stop } whole := by
  obtain ⟨front, back, split, starts, -⟩ := stretch
  obtain ⟨frontToo, backToo, splitToo, -, stops⟩ := stretchToo
  rw [← List.append_assoc] at splitToo
  rw [← byteSize_append] at stops
  rcases List.append_eq_append_iff.mp (split.symm.trans splitToo) with
    ⟨part, longer, rest⟩ | ⟨part, longer, rest⟩
  · refine ⟨part, front, backToo, by rw [split, rest], starts, ?_⟩
    rw [← byteSize_append, ← longer, stops]
  · -- the second stretch ends where the first one starts, since it does not end in front of that
    have size := congrArg byteSize longer
    rw [byteSize_append] at size
    have nothing : byteSize part = 0 := by omega
    refine ⟨[], front, written ++ back, split, starts, ?_⟩
    show byteSize front + 0 = second.stop
    omega

theorem IsGap.le {place stop : Nat} (gap : IsGap text place stop) : place ≤ stop := by
  obtain ⟨_, stretch, -⟩ := gap
  exact stretch.start_le_stop

namespace Fills

variable {place stop : Nat} {spans : List Span}

theorem le (fills : Fills text place spans stop) : place ≤ stop := by
  induction spans generalizing place with
  | nil => exact IsGap.le fills
  | cons span spans hypothesis =>
    obtain ⟨gap, present, further⟩ := fills
    exact Nat.le_trans gap.le (Nat.le_trans (Nat.le_of_lt present) (hypothesis further))

/-- Spans that fill a stretch are not empty, and inside of it. -/
theorem bounds (fills : Fills text place spans stop) :
    ∀ span ∈ spans, place ≤ span.start ∧ span.start < span.stop ∧ span.stop ≤ stop := by
  induction spans generalizing place with
  | nil => exact List.forall_mem_nil _
  | cons span spans hypothesis =>
    obtain ⟨gap, present, further⟩ := fills
    refine List.forall_mem_cons.mpr ⟨⟨gap.le, present, further.le⟩, fun other member => ?_⟩
    obtain ⟨behind, rest⟩ := hypothesis further other member
    exact ⟨Nat.le_trans gap.le (Nat.le_trans (Nat.le_of_lt present) behind), rest⟩

/-- **Spans that fill a stretch precede one another.** -/
theorem pairwise (fills : Fills text place spans stop) : spans.Pairwise Span.Precedes := by
  induction spans generalizing place with
  | nil => exact .nil
  | cons span spans hypothesis =>
    obtain ⟨-, present, further⟩ := fills
    exact .cons (fun other member => ⟨present, (further.bounds other member).1⟩)
      (hypothesis further)

end Fills

/-! ### Tokens at their places -/

theorem isAllLayout_of_mem_tokensWithin :
    ∀ {limit edge : Nat} {gap text : List Char} {token : Token}, IsAllLayout gap →
      token ∈ tokensWithin limit edge gap text → IsAllLayout token.layout
  | 0, _, _, _, _, layout, member => by
    rw [List.mem_singleton.mp member]
    exact layout
  | _ + 1, _, _, [], _, layout, member => by
    rw [List.mem_singleton.mp member]
    exact layout
  | _ + 1, _, _, _ :: _, _, layout, member => by
    rcases List.mem_cons.mp member with rfl | member
    · exact layout
    · exact isAllLayout_of_mem_tokensWithin (isAllLayout_splitLayout _) member

section Places

variable {here there : List Token}

theorem isLawful_of_suffix (within : here <:+ tokensOf text) :
    ∀ token ∈ here, token.lexeme.IsLawful :=
  fun token member => isLawful_of_mem_tokensBehind token (within.subset member)

/-- The tokens behind some of those of a text, with the layout in front of the first one. -/
theorem exists_gap (within : here <:+ tokensOf text) (present : here ≠ []) :
    ∃ front gap rest, text = front ++ (gap ++ rest) ∧ IsAllLayout gap ∧
      here = tokensBehind (byteSize front) gap rest := by
  have cut : here <:+ tokensBehind 0 (splitLayout text).1 (splitLayout text).2 := within
  obtain ⟨front, gap, rest, split, place⟩ := exists_place cut present
  rw [splitLayout_append] at split
  rw [Nat.zero_add] at place
  refine ⟨front, gap, rest, split, ?_, place⟩
  obtain ⟨lexeme, others, first⟩ := exists_tokensBehind (byteSize front) gap rest
  rw [place, first] at cut
  exact isAllLayout_of_mem_tokensWithin (isAllLayout_splitLayout text)
    (cut.subset List.mem_cons_self)

/-- In front of a token there is its layout, behind the token before it. -/
theorem isGap_before (within : here <:+ tokensOf text) (present : here ≠ []) :
    IsGap text (edgeOf here) (startOf here) := by
  obtain ⟨front, gap, rest, split, layout, rfl⟩ := exists_gap within present
  rw [edgeOf_tokensBehind, startOf_tokensBehind]
  exact ⟨gap, ⟨front, rest, split, rfl, rfl⟩, layout⟩

/-- Where a token starts there is no layout. -/
theorem isGap_nothing (within : here <:+ tokensOf text) (present : here ≠ []) :
    IsGap text (startOf here) (startOf here) := by
  obtain ⟨front, gap, rest, split, -, rfl⟩ := exists_gap within present
  rw [← List.append_assoc] at split
  rw [startOf_tokensBehind, ← byteSize_append]
  exact ⟨[], ⟨front ++ gap, rest, split, rfl, rfl⟩, isAllLayout_nil⟩

/-- A token is written where it starts, and the one behind it knows where it ends. -/
theorem isStretch_token {token : Token} (within : token :: there <:+ tokensOf text) :
    IsStretch text { start := token.start, stop := token.start + token.lexeme.size }
        token.lexeme.written ∧
      (there ≠ [] → edgeOf there = token.start + token.lexeme.size) := by
  obtain ⟨front, gap, rest, split, -, place⟩ := exists_gap within (List.cons_ne_nil _ _)
  rw [← List.append_assoc] at split
  have start := congrArg startOf place
  rw [startOf_tokensBehind, ← byteSize_append] at start
  have starts : byteSize (front ++ gap) = token.start := start.symm
  cases rest with
  | nil =>
    rw [tokensBehind_nil] at place
    obtain ⟨rfl, rfl⟩ := List.cons.inj place
    exact ⟨⟨front ++ gap, [], split, starts, congrArg (· + 0) starts⟩, absurd rfl⟩
  | cons first rest =>
    rw [tokensBehind_cons] at place
    obtain ⟨rfl, rfl⟩ := List.cons.inj place
    refine ⟨⟨front ++ gap, (Lexeme.split first rest).2, ?_, starts, ?_⟩, fun _ => ?_⟩
    · rw [split, written_split]
    · rw [byteSize_written, starts]
    · exact edgeOf_tokensBehind _ _ _

/-- Tokens up to one that is no slash are written in one stretch, which has their lexemes by
itself. -/
theorem exists_written {front : List Token} {last : Token}
    (within : front ++ last :: there <:+ tokensOf text) (present : there ≠ [])
    (noSlash : last.lexeme ≠ .mark '/') :
    ∃ written, IsStretch text
        { start := startOf (front ++ last :: there), stop := edgeOf there } written ∧
      (tokensFrom written).map Token.lexeme = front.map Token.lexeme ++ [last.lexeme, .finish] := by
  obtain ⟨token, tail, same⟩ : ∃ token tail, front ++ [last] = token :: tail :=
    List.exists_cons_of_ne_nil (List.append_ne_nil_of_right_ne_nil _ (List.cons_ne_nil _ _))
  have split : front ++ last :: there = token :: (tail ++ there) := by
    rw [← List.cons_append, ← same, List.append_assoc, List.singleton_append]
  rw [split] at within ⊢
  have cut : token :: (tail ++ there) <:+
      tokensBehind 0 (splitLayout text).1 (splitLayout text).2 := within
  have closing : ∀ other ∈ (token :: tail).getLast?, other.lexeme ≠ .mark '/' := by
    intro other member
    rw [← same, List.getLast?_concat, Option.mem_some] at member
    exact member ▸ noSlash
  obtain ⟨written, _, -, -, -, stretch, -, slices⟩ := exists_stretch cut present closing
  rw [splitLayout_append] at stretch
  refine ⟨written, stretch, ?_⟩
  have lexemes := (slices isAllLayout_nil).map_lexeme
  rw [List.append_nil, ← List.map_cons, ← same, List.map_append, List.append_assoc] at lexemes
  exact lexemes

end Places

/-! ### Readings at their places -/

/-- The span reaches from the first token of `here` to behind the last one that is taken of it or,
where nothing tells where that ends, up to the first token of `there`. -/
structure Reaches (span : Span) (here there : List Token) : Prop where
  starts : span.start = startOf here
  stops : span.stop = edgeOf there ∨ span.stop = startOf there
  behind : there <:+ here
  shorter : there.length < here.length

namespace Reaches

variable {span : Span} {here there : List Token} (reaches : Reaches span here there)
  (within : here <:+ tokensOf text) (present : there ≠ [])

include reaches within present

theorem start_lt_stop : span.start < span.stop := by
  have before := startOf_lt_edgeOf within reaches.behind reaches.shorter present
  have ordered := edgeOf_le_startOf there
  rcases reaches.stops with stops | stops <;> rw [reaches.starts, stops] <;> omega

theorem isGap : IsGap text span.stop (startOf there) := by
  have withinToo := reaches.behind.trans within
  rcases reaches.stops with stops | stops <;> rw [stops]
  · exact isGap_before withinToo present
  · exact isGap_nothing withinToo present

end Reaches

/-- What a repetition takes is read at places of the text with tokens behind them, if there are
tokens behind the repetition. -/
theorem exists_of_mem_of_reads_many {α : Type} {item : Reading α} {property : α → Prop}
    (yields : Yields Lexeme.IsLawful item property) {tokens rest : List Token} {values : List α}
    (reads : Reads (many item) tokens values rest) (within : tokens <:+ tokensOf text)
    (present : rest ≠ []) {value : α} (member : value ∈ values) :
    ∃ here there, here <:+ tokensOf text ∧ there ≠ [] ∧ Reads item here value there := by
  obtain ⟨here, there, inside, taken, behind⟩ :=
    ((row_of_reads_many reads).exists_of_mem yields (isLawful_of_suffix within)).2 value member
  refine ⟨here, there, inside.trans within, ?_, taken⟩
  rintro rfl
  exact present (List.suffix_nil.mp behind)

section Repetition

variable {α : Type} {item : Reading α} {spanOf : α → Span}
  (reach : ∀ {here value there}, (∀ token ∈ here, token.lexeme.IsLawful) →
    Reads item here value there → Reaches (spanOf value) here there)

include reach

/-- **The spans of what a repetition takes fill the text** from where it starts to where it ends: by
induction on their row. -/
theorem fills_of_reads_many {tokens rest : List Token} {values : List α}
    (reads : Reads (many item) tokens values rest) (within : tokens <:+ tokensOf text)
    (present : rest ≠ []) :
    rest <:+ tokens ∧ Fills text (edgeOf tokens) (values.map spanOf) (startOf rest) := by
  have row := row_of_reads_many reads
  clear reads
  -- the gap in front of the row may start at the end of a span in front of it
  suffices all : rest <:+ tokens ∧ ∀ place, IsGap text place (startOf tokens) →
      Fills text place (values.map spanOf) (startOf rest) by
    have left : tokens ≠ [] := fun none => present (List.suffix_nil.mp (none ▸ all.1))
    exact ⟨all.1, all.2 _ (isGap_before within left)⟩
  induction row with
  | done tokens => exact ⟨List.suffix_refl tokens, fun place gap => gap⟩
  | @step tokens middle rest value values reads _ hypothesis =>
    have reaches := reach (isLawful_of_suffix within) reads
    obtain ⟨shrunk, fills⟩ := hypothesis (reaches.behind.trans within) present
    have left : middle ≠ [] := fun none => present (List.suffix_nil.mp (none ▸ shrunk))
    refine ⟨shrunk.trans reaches.behind, fun place gap => ⟨?_, ?_, ?_⟩⟩
    · rwa [reaches.starts]
    · exact reaches.start_lt_stop within left
    · exact fills _ (reaches.isGap within left)

/-- **A repetition in braces is a body**, and ends where that does. -/
theorem isIn_of_reads_many {opening closing : Token} {inside rest : List Token} {values : List α}
    (within : opening :: inside <:+ tokensOf text) (opened : opening.lexeme = .mark '\x7b')
    (reads : Reads (many item) inside values (closing :: rest))
    (closed : closing.lexeme = .mark '\x7d') :
    closing :: rest <:+ inside ∧
      Body.IsIn { opening := opening.start, spans := values.map spanOf, closing := closing.start }
        text := by
  have withinToo := (List.suffix_cons opening inside).trans within
  obtain ⟨shrunk, fills⟩ := fills_of_reads_many reach reads withinToo (List.cons_ne_nil _ _)
  have left : inside ≠ [] := fun none => List.cons_ne_nil _ _ (List.suffix_nil.mp (none ▸ shrunk))
  have first := isStretch_token within
  have last := isStretch_token (shrunk.trans withinToo)
  rw [opened] at first
  rw [closed] at last
  have edge : edgeOf inside = opening.start + 1 := first.2 left
  exact ⟨shrunk, first.1, edge ▸ fills, last.1⟩

end Repetition

end Listing

end ExternBindings
