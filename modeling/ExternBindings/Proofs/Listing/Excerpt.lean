/-
**Parts of a listing, read by themselves.**

* `portable_rawIdentifier`, …, `portable_typeUseWithin`, `portable_accessor` — the constructs of a
  reference, and an accessor, do not depend on what follows them;
* `IsExcerptedBy.exists_excerpt` — so the stretch of the text in which such a part is written is read
  alike when it stands by itself, with nothing but layout behind it.
-/

import ExternBindings.Proofs.Listing.Layout
import ExternBindings.Proofs.Listing.Portable
import ExternBindings.Proofs.Listing.Stretch
import ExternBindings.Proofs.Listing.WellFormed

namespace ExternBindings.Listing

open Reading

/-! ### Names -/

/-- The lexeme is a word. -/
def Lexeme.IsWord (lexeme : Lexeme) : Prop :=
  ∃ text, lexeme = .word text

theorem Lexeme.IsWord.ne_mark {lexeme : Lexeme} {char : Char} (isWord : lexeme.IsWord) :
    lexeme ≠ .mark char := by
  obtain ⟨text, rfl⟩ := isWord
  exact Lexeme.noConfusion

/-- The lexeme is an arity marker. -/
def Lexeme.IsArity (lexeme : Lexeme) : Prop :=
  ∃ digits, lexeme = .arity digits

theorem refuses_glued_bind {α : Type} {reading : Reading α} {tokens : List Token}
    (refused : Refuses reading tokens) : Refuses (do glued; reading) tokens := by
  rcases reads_or_refuses glued tokens with ⟨_, rest, reads⟩ | refusedAlready
  · obtain ⟨rfl, -⟩ := reads_glued.mp reads
    exact refuses_bind.mpr (.inr ⟨_, _, reads, refused⟩)
  · exact refuses_bind.mpr (.inl refusedAlready)

theorem refuses_mark_bind {α : Type} {char : Char} {next : Unit → Reading α} {tokens : List Token}
    (faces : Faces (· ≠ .mark char) tokens) : Refuses (mark char >>= next) tokens := by
  refine refuses_bind.mpr (.inl (refuses_mark.mpr fun token others split => ?_))
  subst split
  exact faces_cons.mp faces

/-- What starts with one character is not read by something that starts with another one. -/
theorem refuses_of_reads_mark {α β : Type} {char other : Char} (apart : char ≠ other)
    {next : Unit → Reading α} {further : Unit → Reading β} {construct constructToo : Construct}
    {tokens rest : List Token} {value : α}
    (reads : Reads (attempt construct (mark char >>= next)) tokens value rest) :
    Refuses (attempt constructToo (mark other >>= further)) tokens := by
  obtain ⟨_, _, reads, -⟩ := reads_bind.mp (reads_attempt.mp reads)
  obtain ⟨token, rfl, found⟩ := reads_mark.mp reads
  refine refuses_attempt.mpr (refuses_mark_bind (faces_cons.mpr ?_))
  rw [found]
  exact fun same => apart (Lexeme.mark.inj same)

section Names

variable {bound : Nat}

theorem portable_rawIdentifier :
    Portable bound (Leads Lexeme.IsWord) (¬ Lexeme.IsArity ·) Eq rawIdentifier rawIdentifier := by
  have base : Portable bound (Leads Lexeme.IsWord) (fun _ => True) Eq word word := by
    refine Portable.accept fun lexeme value chosen => ?_
    cases lexeme with
    | word text => exact ⟨⟨text, rfl⟩, trivial⟩
    | arity | mark | finish => cases chosen
  have marker : Portable bound (Leads Lexeme.IsArity) (fun _ => True) Eq (do glued; arityMarker)
      (do glued; arityMarker) := by
    refine Portable.gluedBind (Portable.accept fun lexeme value chosen => ?_)
    cases lexeme with
    | arity digits => exact ⟨⟨digits, rfl⟩, trivial⟩
    | word | mark | finish => cases chosen
  refine base.bindLeads Lexeme.IsArity (fun _ => rfl) ?_ fun _ _ => trivial
  rintro name _ rfl
  refine (marker.maybeEq (fun _ _ => trivial) fun faces => ?_).bindPure (fun _ => rfl) ?_
  · refine refuses_glued_bind (refuses_of_faces faces fun lexeme apart => ?_)
    cases lexeme with
    | arity digits => exact absurd ⟨digits, rfl⟩ apart
    | word | mark | finish => rfl
  · rintro marker? _ rfl
    rfl

/-- No identifier goes on with the lexeme, nor a name with this separator. -/
def EndsName (separator : Char) (lexeme : Lexeme) : Prop :=
  ¬ lexeme.IsArity ∧ lexeme ≠ .mark separator

theorem endsName_mark {separator char : Char} (apart : char ≠ separator) :
    EndsName separator (.mark char) :=
  ⟨fun ⟨_, same⟩ => (nomatch same), fun same => apart (Lexeme.mark.inj same)⟩

theorem endsName_of_continues {separator : Char} {lexeme : Lexeme}
    (continues : (Lexeme.mark separator).continues = true) (ends : lexeme.continues = false) :
    EndsName separator lexeme := by
  refine ⟨?_, ?_⟩
  · rintro ⟨_, rfl⟩
    cases ends
  · rintro rfl
    rw [ends] at continues
    cases continues

theorem portable_gluedIdentifiers {separator : Char} (visible : isVisible separator = true) :
    Portable bound (Faces (· = .mark separator)) (EndsName separator) Eq
      (gluedIdentifiers separator) (gluedIdentifiers separator) := by
  have item : Portable bound (Leads (· = .mark separator)) (¬ Lexeme.IsArity ·) Eq
      (do glued; mark separator; glued; rawIdentifier)
      (do glued; mark separator; glued; rawIdentifier) := by
    refine Portable.gluedBind ((Portable.mark visible).bindLeads Lexeme.IsWord (fun _ => rfl) ?_
      fun _ _ => trivial)
    rintro _ _ _
    exact (Portable.gluedBind portable_rawIdentifier).mono (fun _ => Leads.faces) (fun _ => id)
      (Nat.le_refl _)
  refine item.manyEq ?_ fun faces => ?_
  · rintro _ (rfl | ends)
    · rintro ⟨_, same⟩
      cases same
    · exact ends.1
  · exact refuses_glued_bind (refuses_mark_bind (faces.mono fun _ ends => ends.2))

theorem portable_rawDottedName :
    Portable bound (Leads Lexeme.IsWord) (EndsName '.') Eq rawDottedName rawDottedName := by
  refine portable_rawIdentifier.bindLeads (· = .mark '.') (fun _ => rfl) ?_ ?_
  · rintro head _ rfl
    refine (portable_gluedIdentifiers rfl).bindPure (fun _ => rfl) ?_
    rintro tail _ rfl
    rfl
  · rintro _ (rfl | ends)
    · rintro ⟨_, same⟩
      cases same
    · exact ends.1

theorem portable_typePath :
    Portable bound (Leads Lexeme.IsWord) (·.continues = false) Eq typePath typePath := by
  refine (portable_rawDottedName.bindLeads (· = .mark '/') (fun _ => rfl) ?_ ?_).attempt
  · rintro top _ rfl
    refine ((portable_gluedIdentifiers rfl).bindPure (fun _ => rfl) ?_).mono (fun _ => id)
      (fun _ => endsName_of_continues rfl) (Nat.le_refl _)
    rintro declaredInside _ rfl
    rfl
  · rintro lexeme (rfl | ends)
    · exact endsName_mark (by decide)
    · exact endsName_of_continues rfl ends

/-! ### Type references -/

/-- The lexeme may stand behind an argument of a generic type, or at the end of a text. -/
def EndsType (lexeme : Lexeme) : Prop :=
  lexeme = .mark ',' ∨ lexeme = .mark '>' ∨ lexeme = .finish

/-- A suffix starts with the lexeme. -/
def StartsSuffix (lexeme : Lexeme) : Prop :=
  lexeme = .mark '[' ∨ lexeme = .mark '&' ∨ lexeme = .mark '*'

theorem EndsType.ne_mark {lexeme : Lexeme} (ends : EndsType lexeme) {char : Char}
    (apart : char ≠ ',' ∧ char ≠ '>') : lexeme ≠ .mark char := by
  rintro rfl
  rcases ends with same | same | same
  · exact apart.1 (Lexeme.mark.inj same)
  · exact apart.2 (Lexeme.mark.inj same)
  · cases same

theorem continues_eq_false {lexeme : Lexeme} (ends : StartsSuffix lexeme ∨ EndsType lexeme) :
    lexeme.continues = false := by
  rcases ends with (rfl | rfl | rfl) | (rfl | rfl | rfl) <;> rfl

theorem ne_opening {lexeme : Lexeme} (ends : StartsSuffix lexeme ∨ EndsType lexeme) :
    lexeme ≠ .mark '<' := by
  rcases ends with (rfl | rfl | rfl) | (rfl | rfl | rfl) <;> decide

theorem portable_commaRun :
    Portable bound (Faces (· = .mark ',')) (· ≠ .mark ',') Eq commaRun commaRun := by
  have comma : Portable bound (Leads (· = .mark ',')) (fun _ => True) Eq (do glued; mark ',')
      (do glued; mark ',') := Portable.gluedBind (Portable.mark rfl)
  have run : Portable bound (Leads (· = .mark ',')) (· ≠ .mark ',') Eq
      (do
        let before ← layout
        mark ','
        let more ← many do
          glued
          mark ','
        return commasIn before + 1 + more.length)
      (do
        let before ← layout
        mark ','
        let more ← many do
          glued
          mark ','
        return commasIn before + 1 + more.length) := by
    refine Portable.layoutBind fun before => ?_
    refine (Portable.mark rfl).bindLeads (· = .mark ',') (fun _ => rfl) ?_ fun _ _ => trivial
    rintro _ _ _
    refine (comma.manyEq (fun _ _ => trivial) fun faces => ?_).bindPure (fun _ => rfl) ?_
    · exact refuses_glued_bind (refuses_mark.mpr fun token _ split => faces_cons.mp (split ▸ faces))
    · rintro more _ rfl
      rfl
  refine (run.orElse (Portable.pure rfl) fun reads faces => ?_).mono ?_ (fun _ => id) (Nat.le_refl _)
  · obtain ⟨-, rfl⟩ := reads_pure.mp reads
    exact refuses_bind.mpr (.inr ⟨_, _, reads_layout.mpr ⟨rfl, rfl⟩, refuses_mark_bind faces⟩)
  · rintro taken (leads | rfl)
    · exact leads.faces
    · exact faces_nil

theorem portable_arraySuffix {stops : Lexeme → Prop} :
    Portable bound (Leads (· = .mark '[')) stops Eq arraySuffix arraySuffix := by
  refine ((Portable.mark rfl).bindLeads (fun lexeme => lexeme = .mark ',' ∨ lexeme = .mark ']')
    (fun _ => rfl) ?_ fun _ _ => trivial).attempt
  rintro _ _ _
  refine portable_commaRun.bindThen (· = .mark ']') (fun _ => rfl) ?_ ?_
  · rintro commas _ rfl
    refine Portable.layoutBind fun after => (Portable.mark rfl).bindPure (fun _ => rfl) ?_
    rintro _ _ _
    rfl
  · rintro _ rfl
    decide

theorem portable_byRefSuffix {stops : Lexeme → Prop} :
    Portable bound (Leads (· = .mark '&')) stops Eq byRefSuffix byRefSuffix :=
  ((Portable.mark rfl).bindPure (fun _ => rfl) fun _ _ _ => rfl).attempt

theorem portable_pointerSuffix {stops : Lexeme → Prop} :
    Portable bound (Leads (· = .mark '*')) stops Eq pointerSuffix pointerSuffix :=
  ((Portable.mark rfl).bindPure (fun _ => rfl) fun _ _ _ => rfl).attempt

theorem portable_suffix {stops : Lexeme → Prop} :
    Portable bound (Leads StartsSuffix) stops Eq suffix suffix := by
  refine ((portable_arraySuffix.orElse (portable_byRefSuffix.orElse portable_pointerSuffix ?_)
    ?_).mono ?_ (fun _ => id) (Nat.le_refl _))
  · exact fun reads _ => refuses_of_reads_mark (by decide) reads
  · intro tokens value rest reads _
    rcases reads_orElse.mp reads with reads | ⟨-, reads⟩
    · exact refuses_of_reads_mark (by decide) reads
    · exact refuses_of_reads_mark (by decide) reads
  · rintro taken (⟨token, rest, rfl, found⟩ | ⟨token, rest, rfl, found⟩ | ⟨token, rest, rfl, found⟩)
    · exact ⟨token, rest, rfl, .inl found⟩
    · exact ⟨token, rest, rfl, .inr (.inl found)⟩
    · exact ⟨token, rest, rfl, .inr (.inr found)⟩

theorem portable_parameterIdentifier :
    Portable bound (Leads Lexeme.IsWord) (¬ Lexeme.IsArity ·) Eq parameterIdentifier
      parameterIdentifier :=
  (Portable.gluedBind portable_rawIdentifier).attemptAt

theorem portable_methodVariable :
    Portable bound (Leads (· = .mark '!')) (¬ Lexeme.IsArity ·) Eq methodVariable methodVariable := by
  refine ((Portable.mark rfl).bindLeads (· = .mark '!') (fun _ => rfl) ?_ fun _ _ => trivial).attempt
  rintro _ _ _
  have sign : Portable bound (Leads (· = .mark '!')) (fun _ => True) Eq (mark '!') (mark '!') :=
    Portable.mark rfl
  refine (Portable.gluedBind (sign.bindLeads Lexeme.IsWord (fun _ => rfl) ?_ fun _ _ => trivial)).mono
    (fun _ => Leads.faces) (fun _ => id) (Nat.le_refl _)
  rintro _ _ _
  refine (portable_parameterIdentifier.bindPure (fun _ => rfl) ?_).mono (fun _ => Leads.faces)
    (fun _ => id) (Nat.le_refl _)
  rintro name _ rfl
  rfl

theorem portable_typeVariable :
    Portable bound (Leads (· = .mark '!')) (¬ Lexeme.IsArity ·) Eq typeVariable typeVariable := by
  refine ((Portable.mark rfl).bindLeads Lexeme.IsWord (fun _ => rfl) ?_ fun _ _ => trivial).attempt
  rintro _ _ _
  refine (portable_parameterIdentifier.bindPure (fun _ => rfl) ?_).mono (fun _ => Leads.faces)
    (fun _ => id) (Nat.le_refl _)
  rintro name _ rfl
  rfl

/-- A type parameter of a type is not one of a method, since its name stands behind one sign only. -/
theorem refuses_methodVariable_of_reads {tokens rest : List Token} {value : TypeReference}
    (reads : Reads typeVariable tokens value rest) : Refuses methodVariable tokens := by
  obtain ⟨_, _, sign, further⟩ := reads_bind.mp (reads_attempt.mp reads)
  obtain ⟨token, rfl, found⟩ := reads_mark.mp sign
  obtain ⟨name, _, identifier, -⟩ := reads_bind.mp further
  have faces := (@portable_parameterIdentifier 0).faces identifier
  refine refuses_attempt.mpr (refuses_bind.mpr (.inr ⟨(), _, reads_mark_cons found, ?_⟩))
  exact refuses_glued_bind (refuses_mark_bind (faces.mono fun _ => Lexeme.IsWord.ne_mark))

section Arguments

variable {argument argumentToo : Reading TypeUse}

theorem portable_genericArguments
    (portable : Portable bound (Leads fun _ => True) EndsType SameType argument argumentToo) :
    Portable (bound + 1) (Leads (· = .mark '<')) (fun _ => True) Eq (genericArguments argument)
      (genericArguments argumentToo) := by
  have behind : Portable bound (Faces (· = .mark ',')) (· = .mark '>') (List.Forall₂ SameType)
      (many do mark ','; argument) (many do mark ','; argumentToo) := by
    have item : Portable bound (Leads (· = .mark ',')) EndsType SameType (do mark ','; argument)
        (do mark ','; argumentToo) := by
      refine (Portable.mark rfl).bindLeads (fun _ => True) (fun _ => rfl) ?_ fun _ _ => trivial
      rintro _ _ _
      exact portable.mono (fun _ => Leads.faces) (fun _ => id) (Nat.le_refl _)
    refine item.many ?_ fun faces => refuses_mark_bind (faces.mono ?_)
    · rintro _ (rfl | rfl)
      · exact .inl rfl
      · exact .inr (.inl rfl)
    · rintro _ rfl
      decide
  have sameRefl (uses : List TypeUse) : List.Forall₂ SameType uses uses :=
    List.forall₂_same.mpr fun _ _ => rfl
  have list : Portable bound (Leads fun _ => True) (· = .mark '>') (List.Forall₂ SameType)
      (separated ',' argument) (separated ',' argumentToo) := by
    refine portable.bindLeads (· = .mark ',') (fun _ => rfl) (fun use other alike => ?_) ?_
    · exact behind.bindPure sameRefl fun _ _ tails => .cons alike tails
    · rintro _ (rfl | rfl)
      · exact .inl rfl
      · exact .inr (.inl rfl)
  refine (Portable.markBind rfl ((list.mono (fun _ => Leads.faces) (fun _ => id)
    (Nat.le_refl _)).bindThen (· = .mark '>') sameRefl (fun uses others alike => ?_)
    fun _ => id)).attempt
  exact (Portable.mark rfl).bindPure (fun _ => rfl) fun _ _ _ => forall₂_image_iff.mp alike

theorem portable_namedType
    (portable : Portable bound (Leads fun _ => True) EndsType SameType argument argumentToo) :
    Portable (bound + 1) (Leads Lexeme.IsWord)
      (fun lexeme => StartsSuffix lexeme ∨ EndsType lexeme) Eq (namedType argument)
      (namedType argumentToo) := by
  refine (portable_typePath.bindLeads (· = .mark '<') (fun _ => rfl) ?_ ?_).attempt
  · rintro name _ rfl
    refine ((portable_genericArguments portable).maybeEq (fun _ _ => trivial) fun faces => ?_).bindNil
      (fun _ => rfl) ?_
    · exact refuses_attempt.mpr (refuses_mark_bind (faces.mono fun _ => ne_opening))
    · rintro arguments? _ rfl
      cases arguments? with
      | none => exact Portable.pure rfl
      | some arguments => exact Portable.pure rfl
  · rintro lexeme (rfl | ends)
    · rfl
    · exact continues_eq_false ends

end Arguments

theorem refuses_variables {argument : Reading TypeUse} {tokens rest : List Token}
    {value : TypeReference} (reads : Reads (namedType argument) tokens value rest) :
    Refuses methodVariable tokens ∧ Refuses typeVariable tokens := by
  obtain ⟨name, _, path, -⟩ := reads_bind.mp (reads_attempt.mp reads)
  have faces : Faces (· ≠ .mark '!') tokens :=
    ((@portable_typePath 0).faces path).mono fun _ => Lexeme.IsWord.ne_mark
  exact ⟨refuses_attempt.mpr (refuses_mark_bind faces),
    refuses_attempt.mpr (refuses_mark_bind faces)⟩

/-- A reference starts with the lexeme. -/
def OpensType (lexeme : Lexeme) : Prop :=
  lexeme = .mark '!' ∨ lexeme.IsWord

theorem EndsType.not_isArity {lexeme : Lexeme} (ends : StartsSuffix lexeme ∨ EndsType lexeme) :
    ¬ lexeme.IsArity := by
  rintro ⟨digits, rfl⟩
  cases continues_eq_false ends

theorem refuses_suffix_of_faces {tokens : List Token} (faces : Faces EndsType tokens) :
    Refuses suffix tokens :=
  refuses_orElse.mpr ⟨refuses_attempt.mpr (refuses_mark_bind (faces.mono fun _ ends =>
      ends.ne_mark (by decide))),
    refuses_orElse.mpr ⟨refuses_attempt.mpr (refuses_mark_bind (faces.mono fun _ ends =>
        ends.ne_mark (by decide))),
      refuses_attempt.mpr (refuses_mark_bind (faces.mono fun _ ends => ends.ne_mark (by decide)))⟩⟩

section Limits

variable {argument argumentToo : Reading TypeUse}

/-- What suffixes stand behind. -/
theorem portable_atom
    (portable : Portable bound (Leads fun _ => True) EndsType SameType argument argumentToo) :
    Portable (bound + 1) (Leads OpensType)
      (fun lexeme => StartsSuffix lexeme ∨ EndsType lexeme) Eq
      (methodVariable <|> typeVariable <|> namedType argument)
      (methodVariable <|> typeVariable <|> namedType argumentToo) := by
  refine ((portable_methodVariable.mono (fun _ => id) (fun _ => EndsType.not_isArity)
    (Nat.le_refl _)).orElse ((portable_typeVariable.mono (fun _ => id)
      (fun _ => EndsType.not_isArity) (Nat.le_refl _)).orElse (portable_namedType portable) ?_)
    ?_).mono ?_ (fun _ => id) (Nat.le_refl _)
  · exact fun reads _ => (refuses_variables reads).2
  · intro tokens value rest reads _
    rcases reads_orElse.mp reads with reads | ⟨-, reads⟩
    · exact refuses_methodVariable_of_reads reads
    · exact (refuses_variables reads).1
  · rintro taken (⟨token, rest, rfl, found⟩ | ⟨token, rest, rfl, found⟩ | ⟨token, rest, rfl, found⟩)
    · exact ⟨token, rest, rfl, .inl found⟩
    · exact ⟨token, rest, rfl, .inl found⟩
    · exact ⟨token, rest, rfl, .inr found⟩

end Limits

/-- **References do not depend on what follows**, whatever the limits on their arguments are. -/
theorem portable_typeUseWithin (limit : Nat) :
    ∀ bound, Portable bound (Leads OpensType) EndsType SameType (typeUseWithin limit)
      (typeUseWithin bound) := by
  induction limit with
  | zero => exact fun bound _ _ _ reads => nomatch reads
  | succ limit hypothesis =>
    have step (bound : Nat) : Portable (bound + 1) (Leads OpensType) EndsType SameType
        (typeUseWithin (limit + 1)) (typeUseWithin (bound + 1)) := by
      have arguments : Portable bound (Leads fun _ => True) EndsType SameType (typeUseWithin limit)
          (typeUseWithin bound) := by
        refine (hypothesis bound).mono ?_ (fun _ => id) (Nat.le_refl _)
        rintro taken ⟨token, rest, rfl, -⟩
        exact ⟨token, rest, rfl, trivial⟩
      refine ((portable_atom arguments).bindLeads StartsSuffix (fun _ => rfl) ?_ fun _ => id).attempt
      rintro atom _ rfl
      refine (portable_suffix.manyEq (fun _ _ => trivial) refuses_suffix_of_faces).bindNil
        (fun _ => rfl) ?_
      rintro suffixes _ rfl
      split
      · exact Portable.place.bindPure (fun _ => trivial) fun _ _ _ => rfl
      · exact Portable.place.bindPure (fun _ => trivial) fun _ _ _ => rfl
    rintro (_ | bound)
    · exact (step 0).zero _
    · exact step bound

/-! ### Accessors -/

theorem portable_oneOf {α : Type} {stops : Lexeme → Prop} (words : List (String × α)) :
    Portable bound (Leads Lexeme.IsWord) stops Eq (oneOf words) (oneOf words) := by
  refine Portable.accept fun lexeme value chosen => ?_
  obtain ⟨entry, found, -⟩ := Option.map_eq_some_iff.mp chosen
  have written : lexeme = .word entry.1 := by simpa using List.find?_some found
  subst written
  exact ⟨⟨entry.1, rfl⟩, trivial⟩

theorem refuses_oneOf {α : Type} {words : List (String × α)} {tokens : List Token}
    (faces : Faces (¬ Lexeme.IsWord ·) tokens) : Refuses (oneOf words) tokens := by
  refine refuses_of_faces faces fun lexeme apart => ?_
  rw [Option.map_eq_none_iff, List.find?_eq_none]
  intro entry _ same
  exact apart ⟨entry.1, of_decide_eq_true same⟩

/-- **Accessors do not depend on what follows.** -/
theorem portable_accessor {stops : Lexeme → Prop} :
    Portable bound (Leads Lexeme.IsWord) stops SameAccessor accessor accessor := by
  refine (Portable.placeBind fun start other => ?_).attempt
  refine (portable_oneOf _).attempt.bindLeads (fun _ => True) (fun _ => rfl) ?_ fun _ _ => trivial
  rintro word _ rfl
  have words : Portable bound (Faces Lexeme.IsWord) (¬ Lexeme.IsWord ·) Eq modifiers modifiers :=
    (portable_oneOf _).attempt.manyEq (fun _ _ => trivial) fun faces =>
      refuses_attempt.mpr (refuses_oneOf faces)
  refine (words.bindThen (· = .mark ';') (fun _ => rfl) ?_ ?_).mono
    (fun _ faces => faces.mono fun _ _ => trivial) (fun _ => id) (Nat.le_refl _)
  · rintro modifiers _ rfl
    exact (Portable.mark rfl).bindNil (fun _ => rfl) fun _ _ _ =>
      Portable.place.bindPure (fun _ => trivial) fun _ _ _ => rfl
  · rintro _ rfl isWord
    exact isWord.ne_mark rfl

end Names

/-! ### Parts of a text -/

/-- The text starts and ends with visible characters. -/
structure HasVisibleEnds (written : List Char) : Prop where
  starts : ∃ first more, written = first :: more ∧ isVisible first = true
  ends : ∃ front last, written = front ++ [last] ∧ isVisible last = true

/-- A visible lexeme is written with visible characters. -/
theorem hasVisibleEnds_written {lexeme : Lexeme} (visible : lexeme.IsVisible)
    (lawful : lexeme.IsLawful) : HasVisibleEnds lexeme.written := by
  have shown {char : Char} (wordChar : isWordChar char = true) : isVisible char = true := by
    refine isVisible_of_isNameChar ?_
    rw [isNameChar, wordChar, Bool.true_or]
  have all : lexeme.written ≠ [] ∧ ∀ char ∈ lexeme.written, isVisible char = true := by
    cases lexeme with
    | word text =>
      refine ⟨fun missing => ?_, fun char member =>
        shown (forall_isWordChar_of_isWord lawful char member)⟩
      have spelled : isWord text.toList = true := lawful
      rw [show text.toList = [] from missing] at spelled
      cases spelled
    | arity digits =>
      refine ⟨List.cons_ne_nil _ _, List.forall_mem_cons.mpr ⟨by decide, fun char member => ?_⟩⟩
      exact shown (isDigit_isWordChar (lawful.2 char member))
    | mark char => exact ⟨List.cons_ne_nil _ _, List.forall_mem_singleton.mpr visible⟩
    | finish => exact visible.elim
  obtain ⟨present, visible⟩ := all
  constructor
  · obtain ⟨first, more, split⟩ := List.exists_cons_of_ne_nil present
    exact ⟨first, more, split, visible first (split ▸ List.mem_cons_self)⟩
  · have split := (List.dropLast_concat_getLast present).symm
    exact ⟨_, _, split, visible _ (List.getLast_mem present)⟩

/-- The last token that is passed closes all names. -/
theorem Passes.exists_getLast? {last? next? : Option Lexeme} {tokens rest : List Token}
    (passes : Passes last? tokens next? rest) :
    ∃ taken, tokens = taken ++ rest ∧ next? = (taken.getLast?.map Token.lexeme).or last? := by
  induction passes with
  | done => exact ⟨[], rfl, rfl⟩
  | @step last? next? token tokens rest _ _ hypothesis =>
    obtain ⟨taken, split, final⟩ := hypothesis
    refine ⟨token :: taken, congrArg (token :: ·) split, final.trans ?_⟩
    rw [List.getLast?_cons]
    cases taken.getLast? <;> rfl

theorem sameTokens_refl {last? : Option Lexeme} (tokens : List Token) :
    SameTokens last? tokens tokens := by
  induction tokens generalizing last? with
  | nil => exact .nil
  | cons token tokens hypothesis => exact .cons rfl (.of_joined fun _ => rfl) hypothesis

/-- The last token that a reading takes goes on no name. -/
theorem closed_getLast? {α : Type} {same : α → α → Prop} {reading : Reading α}
    (agrees : Agrees Closed same Closed reading reading) {taken rest : List Token} {value : α}
    (reads : Reads reading (taken ++ rest) value rest) :
    ∀ last ∈ taken.getLast?, last.lexeme.opens = false := by
  intro last member
  have agree := agrees (rfl : Closed none) (sameTokens_refl (taken ++ rest))
  rw [show (reading (taken ++ rest)).value? = _ from reads] at agree
  cases agree with
  | taken _ closed passes _ =>
    obtain ⟨front, split, final⟩ := passes.exists_getLast?
    obtain rfl := List.append_cancel_right split
    rw [Option.mem_def.mp member] at final
    subst final
    exact closed

/-- Only the finish is the last of the tokens of a text. -/
theorem exists_finish (edge : Nat) (gap text : List Char) :
    ∃ front last, tokensBehind edge gap text = front ++ [last] ∧ last.lexeme = .finish := by
  induction bound : text.length using Nat.strong_induction_on generalizing edge gap text with
  | _ length hypothesis =>
    cases text with
    | nil => exact ⟨[], _, rfl, rfl⟩
    | cons first rest =>
      subst bound
      have shorter := Nat.le_trans (length_splitLayout_le (Lexeme.split first rest).2)
        (length_split_le first rest)
      obtain ⟨front, last, cut, finish⟩ := hypothesis _ (Nat.lt_succ_of_le shorter)
        (edge + byteSize gap + (Lexeme.split first rest).1.size)
        (splitLayout (Lexeme.split first rest).2).1 (splitLayout (Lexeme.split first rest).2).2 rfl
      rw [tokensBehind_cons, tokensAfter, cut]
      exact ⟨_ :: front, last, rfl, finish⟩

/-- Visible tokens are followed by others. -/
theorem ne_nil_of_isVisible {edge : Nat} {gap text : List Char} {taken rest : List Token}
    (within : taken ++ rest <:+ tokensBehind edge gap text) (present : taken ≠ [])
    (visible : ∀ token ∈ taken, token.lexeme.IsVisible) : rest ≠ [] := by
  rintro rfl
  obtain ⟨front, last, cut, finish⟩ := exists_finish edge gap text
  rw [List.append_nil, cut] at within
  have final : last ∈ taken := by
    obtain ⟨before, split⟩ := within
    have ends := congrArg List.getLast? split
    rw [List.getLast?_append_of_ne_nil _ present, List.getLast?_concat] at ends
    exact List.mem_of_getLast? ends
  have seen := visible last final
  rw [finish] at seen
  exact seen

/-- The first reading may be compared with the second one, which is given a limit, on parts of a text
by themselves. -/
structure IsExcerptedBy {α : Type} (same : α → α → Prop) (first : Reading α)
    (second : Nat → Reading α) : Prop where
  trans : ∀ {value other final}, same value other → same other final → same value final
  portable : ∃ opens stops : Lexeme → Prop, (∀ lexeme, opens lexeme → lexeme.continues = false) ∧
    stops .finish ∧ ∀ bound, Portable bound (Leads opens) stops same first (second bound)
  agrees : Agrees Closed same Closed first first
  agreesToo : ∀ bound, Agrees Closed same Closed (second bound) (second bound)
  yields : ∀ bound, Yields Lexeme.IsLawful (second bound) fun _ => True

namespace IsExcerptedBy

variable {α : Type} {same : α → α → Prop} {first : Reading α} {second : Nat → Reading α}
  (excerpted : IsExcerptedBy same first second)

include excerpted

/-- Other tokens like those that are taken, with the finish behind them, are read alike. -/
theorem reads_sameTokens {taken rest : List Token} {value : α}
    (reads : Reads first (taken ++ rest) value rest) {front tokens : List Token} {last : Token}
    (cut : tokens = front ++ [last]) (finish : last.lexeme = .finish)
    (lawful : ∀ token ∈ tokens, token.lexeme.IsLawful)
    (sameTokens : SameTokens none (taken ++ [last]) tokens) :
    ∃ other, same value other ∧ Reads (second tokens.length) tokens other [last] := by
  have length := sameTokens.length_eq
  rw [List.length_append] at length
  obtain ⟨opens, stops, -, ends, portable⟩ := excerpted.portable
  obtain ⟨_, split, -, -, carries⟩ := portable tokens.length reads
  obtain rfl := List.append_cancel_right split
  have faces : Faces stops [last] := faces_cons.mpr (finish ▸ ends)
  obtain ⟨other, alike, again⟩ := carries (by omega) faces
  have agree := excerpted.agreesToo tokens.length (rfl : Closed none) sameTokens
  rw [show (second tokens.length (taken ++ [last])).value? = _ from again] at agree
  generalize answered : (second tokens.length tokens).value? = answer at agree
  cases agree with
  | @taken _ final _ left _ alikeToo _ _ sameLeft =>
    refine ⟨final, excerpted.trans alike alikeToo, ?_⟩
    -- what is left is a tail of the tokens with one token
    have shrunk := (excerpted.yields _ lawful answered).2
    have last : [last] <:+ tokens := ⟨front, cut.symm⟩
    have same := (List.suffix_of_suffix_length_le shrunk last sameLeft.length_eq.ge).eq_of_length
      sameLeft.length_eq.symm
    rw [← same]
    exact answered

/-- **What a portable reading takes from a text is a stretch of it, which is read alike by itself**,
with any layout behind it. The limit of the reading is the number of tokens. -/
theorem exists_excerpt {gap text : List Char} {here rest : List Token} {value : α}
    (within : here <:+ tokensBehind 0 gap text) (reads : Reads first here value rest) :
    ∃ written gapThere, HasVisibleEnds written ∧ IsAllLayout gapThere ∧
      IsStretch (gap ++ text) { start := startOf here, stop := edgeOf rest } written ∧
      IsStretch (gap ++ text) { start := startOf here, stop := startOf rest } (written ++ gapThere) ∧
      ∀ {back}, IsAllLayout back → ∃ other, same value other ∧
        Reads (second (tokensFrom (written ++ back)).length) (tokensFrom (written ++ back)) other
          [{ edge := byteSize written, layout := back, lexeme := .finish }] := by
  obtain ⟨opens, stops, apart, ends, portable⟩ := excerpted.portable
  obtain ⟨taken, rfl, visible, ⟨token, tail, rfl, opened⟩, -⟩ := portable 0 reads
  have present := ne_nil_of_isVisible within (List.cons_ne_nil _ _) visible
  have closed := closed_getLast? excerpted.agrees reads
  have noSlash : ∀ last ∈ (token :: tail).getLast?, last.lexeme ≠ .mark '/' := by
    intro last member same
    have closes := closed last member
    rw [same] at closes
    cases closes
  have lawful : ∀ other ∈ token :: tail, other.lexeme.IsLawful := fun other member =>
    isLawful_of_mem_tokensBehind other (within.subset (List.mem_append_left rest member))
  obtain ⟨written, gapThere, layout, ⟨more, starts⟩, ⟨front, finishes⟩, stretch, stretchToo, slices⟩ :=
    exists_stretch within present noSlash
  refine ⟨written, gapThere, ⟨?_, ?_⟩, layout, stretch, stretchToo, fun {back} backLayout => ?_⟩
  · obtain ⟨char, letters, split, shown⟩ := (hasVisibleEnds_written
      (visible token List.mem_cons_self) (lawful token List.mem_cons_self)).starts
    rw [split] at starts
    exact ⟨char, letters ++ more, starts, shown⟩
  · obtain ⟨last, member, same⟩ : ∃ last ∈ token :: tail, last.lexeme = _ :=
      List.mem_map.mp (List.getLast_mem (List.cons_ne_nil token.lexeme (tail.map Token.lexeme)))
    obtain ⟨letters, char, split, shown⟩ :=
      (hasVisibleEnds_written (visible last member) (lawful last member)).ends
    rw [same] at split
    rw [split, ← List.append_assoc] at finishes
    exact ⟨_, char, finishes, shown⟩
  · obtain ⟨front, last, cut, finish, sameTokens⟩ :=
      (slices backLayout).sameTokens (apart _ opened)
    have lawfulToo : ∀ other ∈ tokensFrom (written ++ back), other.lexeme.IsLawful :=
      @isLawful_of_mem_tokensBehind 0 [] (written ++ back)
    rw [← finish]
    exact excerpted.reads_sameTokens reads cut (finish ▸ rfl) lawfulToo sameTokens

end IsExcerptedBy

theorem isExcerptedBy_accessor : IsExcerptedBy SameAccessor accessor fun _ => accessor where
  trans := Eq.trans
  portable := ⟨Lexeme.IsWord, fun _ => True, fun _ ⟨_, same⟩ => same ▸ rfl, trivial,
    fun _ => portable_accessor⟩
  agrees := agrees_accessor
  agreesToo _ := agrees_accessor
  yields _ := yields_accessor

theorem isExcerptedBy_typeUseWithin (limit : Nat) :
    IsExcerptedBy SameType (typeUseWithin limit) typeUseWithin where
  trans := Eq.trans
  portable := by
    refine ⟨OpensType, EndsType, ?_, .inr (.inr rfl), portable_typeUseWithin limit⟩
    rintro _ (rfl | ⟨text, rfl⟩) <;> rfl
  agrees := agrees_typeUseWithin limit
  agreesToo := agrees_typeUseWithin
  yields bound := (yields_typeUseWithin bound).mono fun _ _ => trivial

end ExternBindings.Listing
