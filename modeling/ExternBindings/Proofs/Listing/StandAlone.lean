/-
**References that stand alone.**

A reference that is read somewhere in a text ends behind its last suffix or, if it has none, in front
of the next token, so that its stretch of the text may end with layout. Reading a text as a reference
removes the blanks at its ends, but not the comments.

* `stop_of_reads` — where a reference ends;
* `trim_append`, `isAllLayout_trimEnd` — without blanks at its ends, a stretch is the same reference
  with layout behind it;
* `exists_standAlone` — so the stretch, read by itself, is the same reference.
-/

import ExternBindings.Proofs.Listing.Excerpt
import ExternBindings.Proofs.Listing.RoundTrip

namespace ExternBindings

/-- The reference is written with a suffix. -/
def TypeReference.isSuffixed : TypeReference → Bool
  | array .. | indirect .. => true
  | primitive .. | parameter .. | instantiation .. | named .. => false

namespace Listing

open Reading

/-! ### Where a reference ends -/

/-- What suffixes stand behind has none itself. -/
theorem yields_atom_plain (argument : Reading TypeUse)
    (yields : Yields Lexeme.IsLawful argument fun _ => True) :
    Yields Lexeme.IsLawful (methodVariable <|> typeVariable <|> namedType argument)
      fun atom => atom.isSuffixed = false := by
  have parameter {owner : ParameterOwner} : Yields Lexeme.IsLawful
      (do return TypeReference.parameter owner (← parameterIdentifier))
      fun atom => atom.isSuffixed = false :=
    yields_parameterIdentifier.bind fun name _ => Yields.pure rfl
  refine Yields.orElse ?_ (Yields.orElse ?_ ?_)
  · exact Yields.attempt ((Yields.mark '!').bind fun _ _ => Yields.glued.bind fun _ _ =>
      (Yields.mark '!').bind fun _ _ => parameter)
  · exact Yields.attempt ((Yields.mark '!').bind fun _ _ => parameter)
  · refine Yields.attempt (yields_typePath.bind fun name _ => ?_)
    have arguments : Yields Lexeme.IsLawful (genericArguments argument) fun _ => True :=
      Yields.attempt ((Yields.mark '<').bind fun _ _ => yields.separated.bind fun _ _ =>
        (Yields.mark '>').bind fun _ _ => Yields.pure trivial)
    refine arguments.maybe.bind fun arguments? _ => ?_
    cases arguments? with
    | some arguments => exact Yields.pure rfl
    | none =>
      refine Yields.pure ?_
      unfold TypeReference.ofName
      split <;> rfl

theorem isSuffixed_foldl (atom : TypeReference) {suffixes : List Suffix} (present : suffixes ≠ []) :
    (suffixes.foldl Suffix.apply atom).isSuffixed = true := by
  obtain ⟨front, last, rfl⟩ := (List.eq_nil_or_concat suffixes).resolve_left present
  rw [List.concat_eq_append, List.foldl_concat]
  cases last <;> rfl

/-- **A reference ends behind its last suffix**, or in front of the next token. -/
theorem stop_of_reads {limit : Nat} {tokens rest : List Token} {use : TypeUse}
    (lawful : ∀ token ∈ tokens, token.lexeme.IsLawful)
    (reads : Reads (typeUseWithin limit) tokens use rest) :
    use.stop = if use.type.isSuffixed then edgeOf rest else startOf rest := by
  cases limit with
  | zero => cases reads
  | succ limit =>
    obtain ⟨atom, _, first, reads⟩ := reads_bind.mp (reads_attempt.mp reads)
    have plain := (yields_atom_plain _
      ((yields_typeUseWithin limit).mono fun _ _ => trivial) lawful first).1
    obtain ⟨suffixes, _, -, reads⟩ := reads_bind.mp reads
    split at reads
    · next none =>
      obtain ⟨stop, _, atStop, reads⟩ := reads_bind.mp reads
      obtain ⟨rfl, rfl⟩ := reads_start.mp atStop
      obtain ⟨rfl, rfl⟩ := reads_pure.mp reads
      rw [List.isEmpty_iff.mp none]
      exact (if_neg (by rw [List.foldl_nil, plain]; exact Bool.false_ne_true)).symm
    · next some =>
      obtain ⟨stop, _, atStop, reads⟩ := reads_bind.mp reads
      obtain ⟨rfl, rfl⟩ := reads_edge.mp atStop
      obtain ⟨rfl, rfl⟩ := reads_pure.mp reads
      exact (if_pos (isSuffixed_foldl atom fun none => some (List.isEmpty_iff.mpr none))).symm

/-! ### Blanks at the ends -/

/-- Of a layout, a front is a layout, unless it is cut between two slashes. -/
theorem splitLayoutFrom_front {commented : Bool} {front back : List Char}
    (layout : splitLayoutFrom commented (front ++ back) = (front ++ back, []))
    (apart : ∀ char ∈ back.head?, char ≠ '/') : splitLayoutFrom commented front = (front, []) := by
  induction front generalizing commented with
  | nil => rfl
  | cons char rest hypothesis =>
    have inside {flag : Bool} {first : Char}
        (split : (first :: (splitLayoutFrom flag (rest ++ back)).1,
          (splitLayoutFrom flag (rest ++ back)).2) = (first :: (rest ++ back), [])) :
        splitLayoutFrom flag rest = (rest, []) := by
      rw [Prod.mk.injEq, List.cons.injEq] at split
      exact hypothesis (Prod.ext split.1.2 split.2)
    rw [List.cons_append, splitLayoutFrom] at layout
    rw [splitLayoutFrom]
    split at layout
    · next commented => rw [if_pos commented]; simp only [inside layout]
    · next outside =>
      rw [if_neg outside]
      split at layout
      · next blank => rw [if_pos blank]; simp only [inside layout]
      · next notBlank =>
        rw [if_neg notBlank]
        split at layout
        · next slashes =>
          have head : rest.head? = some '/' := by
            cases rest with
            | nil => exact absurd rfl (apart '/' slashes.2)
            | cons second rest => exact slashes.2
          rw [if_pos ⟨slashes.1, head⟩]
          simp only [inside layout]
        · cases congrArg Prod.fst layout

/-- The blanks at the end of a text. -/
theorem exists_trimEnd (text : List Char) :
    ∃ blanks, text = Text.trimEnd text ++ blanks ∧ ∀ char ∈ blanks, Text.isBlank char = true := by
  refine ⟨(text.reverse.takeWhile Text.isBlank).reverse, ?_, fun char member => ?_⟩
  · unfold Text.trimEnd
    rw [← List.reverse_append, List.takeWhile_append_dropWhile, List.reverse_reverse]
  · exact List.mem_takeWhile_imp (List.mem_reverse.mp member)

theorem isAllLayout_trimEnd {gap : List Char} (layout : IsAllLayout gap) :
    IsAllLayout (Text.trimEnd gap) := by
  obtain ⟨blanks, split, blank⟩ := exists_trimEnd gap
  unfold IsAllLayout at layout
  rw [split] at layout
  refine splitLayoutFrom_front layout fun char member slash => ?_
  have blankSlash := blank char (List.mem_of_mem_head? member)
  rw [slash] at blankSlash
  exact absurd blankSlash (by decide)

/-- Only what follows the visible ends of a text is trimmed. -/
theorem trim_append {written : List Char} (visible : HasVisibleEnds written) (gap : List Char) :
    Text.trim (written ++ gap) = written ++ Text.trimEnd gap := by
  obtain ⟨⟨first, more, starts, firstVisible⟩, ⟨front, last, ends, lastVisible⟩⟩ := visible
  have kept : (written ++ gap).dropWhile Text.isBlank = written ++ gap := by
    rw [starts, List.cons_append, List.dropWhile_cons, isBlank_of_isVisible firstVisible]
    rfl
  have stops : (written.reverse).dropWhile Text.isBlank = written.reverse := by
    rw [ends, List.reverse_append, List.reverse_singleton, List.singleton_append,
      List.dropWhile_cons, isBlank_of_isVisible lastVisible]
    rfl
  have nonempty : written.reverse ≠ [] := by
    rw [ends]
    simp
  unfold Text.trim Text.trimEnd
  rw [kept, List.reverse_append, List.dropWhile_append]
  split
  · next empty =>
    rw [stops, List.isEmpty_iff.mp empty, List.reverse_reverse, List.reverse_nil, List.append_nil]
  · rw [List.reverse_append, List.reverse_reverse]

/-! ### Reading a stretch by itself -/

/-- **What a reference is read from, read by itself, is the same reference.** -/
theorem exists_standAlone {gap text : List Char} {here rest : List Token} {limit : Nat} {use : TypeUse}
    (within : here <:+ tokensBehind 0 gap text) (reads : Reads (typeUseWithin limit) here use rest) :
    ∃ written, IsStretch (gap ++ text) { start := startOf here, stop := use.stop } written ∧
      readTypeReference (String.ofList written) = .ok use.type := by
  have lawful : ∀ token ∈ here, token.lexeme.IsLawful :=
    fun token member => isLawful_of_mem_tokensBehind token (within.subset member)
  obtain ⟨written, gapThere, visible, layout, stretch, stretchToo, again⟩ :=
    (isExcerptedBy_typeUseWithin limit).exists_excerpt within reads
  -- nothing is left behind a suffix, and otherwise the layout up to the next token without its blanks
  obtain ⟨back, whole, backLayout, suffixedBack⟩ : ∃ back, IsStretch (gap ++ text)
      { start := startOf here, stop := use.stop } (written ++ back) ∧ IsAllLayout back ∧
        (use.type.isSuffixed = true → back = []) := by
    have stop := stop_of_reads lawful reads
    split at stop
    · exact ⟨[], by rwa [List.append_nil, stop], isAllLayout_nil, fun _ => rfl⟩
    · next plain => exact ⟨gapThere, by rwa [stop], layout, fun suffixed => absurd suffixed plain⟩
  refine ⟨_, whole, readTypeReference_eq_ok.mpr ?_⟩
  rw [String.toList_ofList, trim_append visible]
  obtain ⟨other, alike, readsToo⟩ := again (isAllLayout_trimEnd backLayout)
  have stop := stop_of_reads (@isLawful_of_mem_tokensBehind 0 [] _) readsToo
  rw [← show use.type = other.type from alike] at stop
  have ends : other.stop = byteSize (written ++ Text.trimEnd back) := by
    rw [stop, byteSize_append]
    split
    · next suffixed =>
      rw [suffixedBack suffixed]
      rfl
    · rfl
  obtain ⟨type, stopToo⟩ := other
  cases alike
  cases ends
  exact ⟨_, readsToo⟩

end Listing

end ExternBindings
