/-
**Readings that do not depend on what follows.**

A reading tells where it ends by what it finds there. A *portable* one takes the same tokens when
something else follows them, as long as it could not go on with that either. What follows is told by
the first lexeme alone.

* `Portable bound takes stops same first second` — whatever `first` takes satisfies `takes`, and
  `second` takes it in front of any tokens that `stops` accepts, with a value like that of `first`; in
  order to compare readings with different limits, only stretches of `bound` tokens at most count;
* one lemma for each combinator.
-/

import ExternBindings.Proofs.Listing.Answers
import ExternBindings.Proofs.Listing.Identifier
import Mathlib.Data.List.Forall2

namespace ExternBindings.Listing

/-- The lexeme is written with visible characters. -/
def Lexeme.IsVisible : Lexeme → Prop
  | word _ => True
  | arity _ => True
  | mark char => isVisible char = true
  | finish => False

namespace Reading

variable {α β : Type}

/-- The first token, if there is one, is allowed. -/
def Faces (allowed : Lexeme → Prop) (tokens : List Token) : Prop :=
  ∀ token ∈ tokens.head?, allowed token.lexeme

/-- There is a first token, and it is allowed. -/
def Leads (allowed : Lexeme → Prop) (tokens : List Token) : Prop :=
  ∃ token rest, tokens = token :: rest ∧ allowed token.lexeme

section Heads

variable {allowed wider : Lexeme → Prop} {tokens rest : List Token}

theorem Faces.mono (faces : Faces allowed tokens) (implied : ∀ lexeme, allowed lexeme → wider lexeme) :
    Faces wider tokens :=
  fun token member => implied _ (faces token member)

theorem faces_nil : Faces allowed [] :=
  fun _ member => absurd member (Option.not_mem_none _)

theorem faces_cons {token : Token} : Faces allowed (token :: rest) ↔ allowed token.lexeme := by
  simp [Faces]

theorem Faces.append (faces : Faces allowed tokens) (facesToo : Faces allowed rest) :
    Faces allowed (tokens ++ rest) := by
  cases tokens with
  | nil => exact facesToo
  | cons token tokens => exact faces

theorem Leads.faces (leads : Leads allowed tokens) : Faces allowed tokens := by
  obtain ⟨token, rest, rfl, fits⟩ := leads
  exact faces_cons.mpr fits

theorem Leads.append (leads : Leads allowed tokens) (rest : List Token) :
    Leads allowed (tokens ++ rest) := by
  obtain ⟨token, more, rfl, fits⟩ := leads
  exact ⟨token, more ++ rest, rfl, fits⟩

theorem Leads.ne_nil (leads : Leads allowed tokens) : tokens ≠ [] := by
  obtain ⟨token, rest, rfl, -⟩ := leads
  exact List.cons_ne_nil _ _

theorem refuses_of_faces {choose : Lexeme → Option α} (faces : Faces allowed tokens)
    (apart : ∀ lexeme, allowed lexeme → choose lexeme = none) : Refuses (accept choose) tokens := by
  refine refuses_accept.mpr fun token others split => ?_
  subst split
  exact apart _ (faces_cons.mp faces)

end Heads

/-- What the first reading takes is visible and satisfies `takes`; the second one takes it, too,
whatever follows that `stops` accepts, and answers alike. -/
def Portable (bound : Nat) (takes : List Token → Prop) (stops : Lexeme → Prop)
    (same : α → α → Prop) (first second : Reading α) : Prop :=
  ∀ ⦃tokens value rest⦄, Reads first tokens value rest →
    ∃ taken, tokens = taken ++ rest ∧ (∀ token ∈ taken, token.lexeme.IsVisible) ∧ takes taken ∧
      (taken.length ≤ bound → ∀ ⦃left⦄, Faces stops left →
        ∃ other, same value other ∧ Reads second (taken ++ left) other left)

namespace Portable

variable {bound : Nat} {takes takesToo : List Token → Prop} {stops stopsToo : Lexeme → Prop}
  {opens opensToo : Lexeme → Prop} {same : α → α → Prop} {sameNext : β → β → Prop}
  {first second : Reading α} {next further : α → Reading β}

theorem mono (portable : Portable bound takes stops same first second)
    (more : ∀ taken, takes taken → takesToo taken)
    (fewer : ∀ lexeme, stopsToo lexeme → stops lexeme) {less : Nat} (shorter : less ≤ bound) :
    Portable less takesToo stopsToo same first second := by
  intro tokens value rest reads
  obtain ⟨taken, split, visible, holds, carries⟩ := portable reads
  exact ⟨taken, split, visible, more _ holds, fun enough _ faces =>
    carries (Nat.le_trans enough shorter) (faces.mono fewer)⟩

/-- The first token of what is taken is the first one there is. -/
theorem faces (portable : Portable bound (Leads opens) stops same first second)
    {tokens rest : List Token}
    {value : α} (reads : Reads first tokens value rest) : Faces opens tokens := by
  obtain ⟨taken, rfl, -, leads, -⟩ := portable reads
  exact (leads.append rest).faces

/-- A reading that always takes a token can be compared with any other where there is no room for
one. -/
theorem zero (portable : Portable bound (Leads opens) stops same first second) (other : Reading α) :
    Portable 0 (Leads opens) stops same first other := by
  intro tokens value rest reads
  obtain ⟨taken, split, visible, leads, -⟩ := portable reads
  refine ⟨taken, split, visible, leads, fun none => ?_⟩
  exact absurd (List.eq_nil_of_length_eq_zero (Nat.le_zero.mp none)) leads.ne_nil

theorem pure {value other : α} (alike : same value other) :
    Portable bound (· = []) stops same (Pure.pure value) (Pure.pure other) := by
  intro tokens answer rest reads
  obtain ⟨rfl, rfl⟩ := reads_pure.mp reads
  refine ⟨[], rfl, fun _ member => absurd member List.not_mem_nil, rfl, fun _ left _ => ?_⟩
  exact ⟨other, alike, reads_pure.mpr ⟨rfl, rfl⟩⟩

/-- Where the next token starts or the last one ended may be different. -/
theorem place {placeOf : List Token → Nat} :
    Portable bound (· = []) stops (fun _ _ => True) (fun tokens => ⟨some (placeOf tokens, tokens), id⟩)
      fun tokens => ⟨some (placeOf tokens, tokens), id⟩ := by
  intro tokens answer rest reads
  have answered := Option.some.inj reads
  cases answered
  refine ⟨[], rfl, fun _ member => absurd member List.not_mem_nil, rfl, fun _ left _ => ?_⟩
  exact ⟨placeOf left, trivial, rfl⟩

theorem attemptAt {placeOf : List Token → Nat} {construct : Construct}
    (portable : Portable bound takes stops same first second) :
    Portable bound takes stops same (attemptAt placeOf construct first)
      (Reading.attemptAt placeOf construct second) := by
  intro tokens value rest reads
  simp only [reads_attemptAt] at reads ⊢
  exact portable reads

theorem attempt {construct : Construct} (portable : Portable bound takes stops same first second) :
    Portable bound takes stops same (attempt construct first) (Reading.attempt construct second) :=
  portable.attemptAt

/-- What the second reading takes or, if that is nothing, what follows it, must stop the first. -/
theorem bind (portable : Portable bound takes stops same first second)
    (refl : ∀ value, same value value)
    (onwards : ∀ value other, same value other →
      Portable bound takesToo stopsToo sameNext (next value) (further other))
    {takesBoth : List Token → Prop}
    (joins : ∀ taken more, takes taken → takesToo more → takesBoth (taken ++ more))
    (meets : ∀ more left, takesToo more → Faces stopsToo left → Faces stops (more ++ left)) :
    Portable bound takesBoth stopsToo sameNext (first >>= next) (second >>= further) := by
  intro tokens answer rest reads
  obtain ⟨value, middle, reads, readsNext⟩ := reads_bind.mp reads
  obtain ⟨taken, rfl, visible, holds, carries⟩ := portable reads
  obtain ⟨more, rfl, visibleToo, holdsToo, -⟩ := onwards value value (refl value) readsNext
  refine ⟨taken ++ more, (List.append_assoc _ _ _).symm,
    List.forall_mem_append.mpr ⟨visible, visibleToo⟩, joins _ _ holds holdsToo,
    fun enough left faces => ?_⟩
  rw [List.length_append] at enough
  obtain ⟨other, alike, again⟩ := carries (by omega) (meets more left holdsToo faces)
  obtain ⟨_, split, -, -, carriesToo⟩ := onwards value other alike readsNext
  obtain rfl := List.append_cancel_right split
  obtain ⟨final, alikeToo, againToo⟩ := carriesToo (by omega) faces
  refine ⟨final, alikeToo, ?_⟩
  rw [List.append_assoc]
  exact again.bind againToo

/-- A construct may keep the place where it starts. -/
theorem placeBind {placeOf : List Token → Nat} {next further : Nat → Reading β}
    (onwards : ∀ place other, Portable bound takes stops sameNext (next place) (further other)) :
    Portable bound takes stops sameNext
      ((fun tokens => ⟨some (placeOf tokens, tokens), id⟩ : Reading Nat) >>= next)
      ((fun tokens => ⟨some (placeOf tokens, tokens), id⟩ : Reading Nat) >>= further) := by
  have anywhere : Portable bound (· = []) (fun _ => True) (fun _ _ => True)
      (fun tokens => ⟨some (placeOf tokens, tokens), id⟩ : Reading Nat)
      (fun tokens => ⟨some (placeOf tokens, tokens), id⟩ : Reading Nat) := place
  refine anywhere.bind (fun _ => trivial) (fun place other _ => onwards place other) ?_
    fun _ _ _ _ _ _ => trivial
  intro taken more none holds
  rwa [none, List.nil_append]

/-- A reading that always takes a token, in front of one that may take none. -/
theorem bindLeads (opensToo : Lexeme → Prop)
    (portable : Portable bound (Leads opens) stops same first second)
    (refl : ∀ value, same value value)
    (onwards : ∀ value other, same value other →
      Portable bound (Faces opensToo) stopsToo sameNext (next value) (further other))
    (behind : ∀ lexeme, opensToo lexeme ∨ stopsToo lexeme → stops lexeme) :
    Portable bound (Leads opens) stopsToo sameNext (first >>= next) (second >>= further) :=
  portable.bind refl onwards (fun _ more leads _ => leads.append more) fun _ _ faces facesToo =>
    (faces.mono fun _ head => behind _ (.inl head)).append
      (facesToo.mono fun _ head => behind _ (.inr head))

/-- The second reading always takes a token, in front of which the first one must stop. -/
theorem bindThen (opensToo : Lexeme → Prop)
    (portable : Portable bound (Faces opens) stops same first second)
    (refl : ∀ value, same value value)
    (onwards : ∀ value other, same value other →
      Portable bound (Leads opensToo) stopsToo sameNext (next value) (further other))
    (behind : ∀ lexeme, opensToo lexeme → stops lexeme) :
    Portable bound (Faces fun lexeme => opens lexeme ∨ opensToo lexeme) stopsToo sameNext
      (first >>= next) (second >>= further) :=
  portable.bind refl onwards
    (fun _ _ faces leads => (faces.mono fun _ => .inl).append (leads.faces.mono fun _ => .inr))
    fun _ left leads _ => (leads.append left).faces.mono behind

/-- The end of a construct, where nothing more is taken. -/
theorem bindNil (portable : Portable bound takes stops same first second)
    (refl : ∀ value, same value value)
    (onwards : ∀ value other, same value other →
      Portable bound (· = []) stops sameNext (next value) (further other)) :
    Portable bound takes stops sameNext (first >>= next) (second >>= further) :=
  portable.bind refl onwards (fun _ _ holds none => by rwa [none, List.append_nil])
    fun _ _ none faces => by rwa [none, List.nil_append]

theorem bindPure (portable : Portable bound takes stops same first second)
    (refl : ∀ value, same value value) {result resultToo : α → β}
    (both : ∀ value other, same value other → sameNext (result value) (resultToo other)) :
    Portable bound takes stops sameNext (first >>= fun value => Pure.pure (result value))
      (second >>= fun value => Pure.pure (resultToo value)) :=
  portable.bindNil refl fun _ _ alike => pure (both _ _ alike)

/-- A second choice, where the first one refuses what the second one takes. -/
theorem orElse {firstElse secondElse : Reading α} {takesElse : List Token → Prop}
    (portable : Portable bound takes stops same first second)
    (otherwise : Portable bound takesElse stops same firstElse secondElse)
    (apart : ∀ {tokens value rest}, Reads secondElse tokens value rest → Faces stops rest →
      Refuses second tokens) :
    Portable bound (fun taken => takes taken ∨ takesElse taken) stops same (first <|> firstElse)
      (second <|> secondElse) := by
  intro tokens value rest reads
  rcases reads_orElse.mp reads with reads | ⟨-, reads⟩
  · obtain ⟨taken, split, visible, holds, carries⟩ := portable reads
    refine ⟨taken, split, visible, .inl holds, fun enough left faces => ?_⟩
    obtain ⟨other, alike, again⟩ := carries enough faces
    exact ⟨other, alike, reads_orElse.mpr (.inl again)⟩
  · obtain ⟨taken, split, visible, holds, carries⟩ := otherwise reads
    refine ⟨taken, split, visible, .inr holds, fun enough left faces => ?_⟩
    obtain ⟨other, alike, again⟩ := carries enough faces
    exact ⟨other, alike, reads_orElse.mpr (.inr ⟨apart again faces, again⟩)⟩

/-! ### Single tokens -/

theorem accept {choose : Lexeme → Option α}
    (fits : ∀ lexeme value, choose lexeme = some value → opens lexeme ∧ lexeme.IsVisible) :
    Portable bound (Leads opens) stops Eq (accept choose) (accept choose) := by
  intro tokens value rest reads
  obtain ⟨token, rfl, chosen⟩ := reads_accept.mp reads
  obtain ⟨head, visible⟩ := fits _ _ chosen
  refine ⟨[token], rfl, List.forall_mem_singleton.mpr visible, ⟨token, [], rfl, head⟩,
    fun _ left _ => ?_⟩
  exact ⟨value, rfl, reads_accept.mpr ⟨token, rfl, chosen⟩⟩

theorem mark {char : Char} (visible : isVisible char = true) :
    Portable bound (Leads (· = .mark char)) stops Eq (mark char) (Reading.mark char) := by
  refine accept fun lexeme value chosen => ?_
  split at chosen
  · next found =>
    subst found
    exact ⟨rfl, visible⟩
  · cases chosen

/-- Behind a character there is room for one token less. -/
theorem markBind {char : Char} (visible : isVisible char = true) {next further : Unit → Reading β}
    (onwards : Portable bound takes stops sameNext (next ()) (further ())) :
    Portable (bound + 1) (Leads (· = .mark char)) stops sameNext (Reading.mark char >>= next)
      (Reading.mark char >>= further) := by
  intro tokens answer rest reads
  obtain ⟨⟨⟩, middle, reads, readsNext⟩ := reads_bind.mp reads
  obtain ⟨token, rfl, found⟩ := reads_mark.mp reads
  obtain ⟨taken, rfl, visibleToo, -, carries⟩ := onwards readsNext
  have shown : token.lexeme.IsVisible := by
    rw [found]
    exact visible
  refine ⟨token :: taken, rfl, List.forall_mem_cons.mpr ⟨shown, visibleToo⟩,
    ⟨token, taken, rfl, found⟩, fun enough left faces => ?_⟩
  obtain ⟨other, alike, again⟩ := carries (Nat.le_of_succ_le_succ enough) faces
  exact ⟨other, alike, (reads_mark_cons found).bind again⟩

/-- Whether the next token touches is the same in front of anything, if it is taken. -/
theorem gluedBind {reading readingToo : Reading β}
    (portable : Portable bound (Leads opens) stops sameNext reading readingToo) :
    Portable bound (Leads opens) stops sameNext (do glued; reading) (do glued; readingToo) := by
  intro tokens answer rest reads
  obtain ⟨_, middle, glued, further⟩ := reads_bind.mp reads
  obtain ⟨rfl, token, others, rfl, touching⟩ := reads_glued.mp glued
  obtain ⟨taken, split, visible, leads, carries⟩ := portable further
  refine ⟨taken, split, visible, leads, fun enough left faces => ?_⟩
  obtain ⟨other, alike, again⟩ := carries enough faces
  obtain ⟨head, more, rfl, -⟩ := leads
  obtain ⟨rfl, -⟩ := List.cons.inj split
  exact ⟨other, alike, (reads_glued_cons touching).bind again⟩

/-- So is the layout in front of it. -/
theorem layoutBind {next further : List Char → Reading β}
    (onwards : ∀ gap, Portable bound (Leads opens) stops sameNext (next gap) (further gap)) :
    Portable bound (Leads opens) stops sameNext (layout >>= next) (layout >>= further) := by
  intro tokens answer rest reads
  obtain ⟨gap, middle, gapRead, reads⟩ := reads_bind.mp reads
  obtain ⟨rfl, rfl⟩ := reads_layout.mp gapRead
  obtain ⟨taken, split, visible, leads, carries⟩ := onwards _ reads
  refine ⟨taken, split, visible, leads, fun enough left faces => ?_⟩
  obtain ⟨other, alike, again⟩ := carries enough faces
  refine ⟨other, alike, (reads_layout.mpr ⟨?_, rfl⟩).bind again⟩
  obtain ⟨head, more, rfl, -⟩ := leads
  rw [split]
  rfl

/-! ### Repetitions -/

theorem maybe (portable : Portable bound (Leads opens) stops same first second)
    (refl : ∀ value, same value value)
    (apart : ∀ lexeme, stopsToo lexeme → stops lexeme)
    (refused : ∀ {left}, Faces stopsToo left → Refuses second left) :
    Portable bound (Faces opens) stopsToo (Option.Rel same) (maybe first) (Reading.maybe second) := by
  have found := ((portable.mono (fun _ => id) apart (Nat.le_refl _)).bindPure refl
    fun _ _ alike => Option.Rel.some alike)
  refine (found.orElse (pure .none) ?_).mono (fun taken => ?_) (fun _ => id) (Nat.le_refl _)
  · intro tokens value rest reads faces
    obtain ⟨-, rfl⟩ := reads_pure.mp reads
    exact refuses_bind.mpr (.inl (refused faces))
  · rintro (leads | rfl)
    · exact leads.faces
    · exact faces_nil

/-- A repetition: each item is followed by the next one or, at the end, by something that no item
starts with. -/
theorem manyWithin (portable : Portable bound (Leads opens) stops same first second)
    (behind : ∀ lexeme, opens lexeme ∨ stopsToo lexeme → stops lexeme) (limit : Nat)
    {tokens rest : List Token} {values : List α}
    (reads : Reads (manyWithin first limit) tokens values rest) :
    ∃ taken, tokens = taken ++ rest ∧ (∀ token ∈ taken, token.lexeme.IsVisible) ∧
      Faces opens taken ∧ (taken.length ≤ bound → ∀ left, Faces stopsToo left →
        ∃ others, List.Forall₂ same values others ∧ Chain second (taken ++ left) others left) := by
  have nothing (tokens : List Token) :
      ∃ taken, tokens = taken ++ tokens ∧ (∀ token ∈ taken, token.lexeme.IsVisible) ∧
        Faces opens taken ∧ (taken.length ≤ bound → ∀ left, Faces stopsToo left →
          ∃ others, List.Forall₂ same [] others ∧ Chain second (taken ++ left) others left) :=
    ⟨[], rfl, fun _ member => absurd member List.not_mem_nil, faces_nil,
      fun _ left _ => ⟨[], .nil, .done left⟩⟩
  induction limit generalizing tokens values with
  | zero =>
    obtain ⟨rfl, rfl⟩ := reads_pure.mp reads
    exact nothing tokens
  | succ limit hypothesis =>
    rcases reads_orElse.mp reads with both | ⟨-, none⟩
    · obtain ⟨value, middle, head, further⟩ := reads_bind.mp both
      obtain ⟨tail, left, others, finished⟩ := reads_bind.mp further
      obtain ⟨rfl, rfl⟩ := reads_pure.mp finished
      obtain ⟨taken, rfl, visible, leads, carries⟩ := portable head
      obtain ⟨more, rfl, visibleToo, faces, carriesToo⟩ := hypothesis others
      refine ⟨taken ++ more, (List.append_assoc _ _ _).symm,
        List.forall_mem_append.mpr ⟨visible, visibleToo⟩, (leads.append more).faces,
        fun enough left stop => ?_⟩
      rw [List.length_append] at enough
      have follows : Faces stops (more ++ left) :=
        (faces.mono fun _ head => behind _ (.inl head)).append
          (stop.mono fun _ head => behind _ (.inr head))
      obtain ⟨other, alike, again⟩ := carries (by omega) follows
      obtain ⟨others, alikeToo, chain⟩ := carriesToo (by omega) left stop
      refine ⟨other :: others, .cons alike alikeToo, ?_⟩
      rw [List.append_assoc]
      refine Chain.step again ?_ chain
      have positive := List.length_pos_of_ne_nil leads.ne_nil
      simp only [List.length_append]
      omega
    · obtain ⟨rfl, rfl⟩ := reads_pure.mp none
      exact nothing tokens

theorem many (portable : Portable bound (Leads opens) stops same first second)
    (behind : ∀ lexeme, opens lexeme ∨ stopsToo lexeme → stops lexeme)
    (refused : ∀ {left}, Faces stopsToo left → Refuses second left) :
    Portable bound (Faces opens) stopsToo (List.Forall₂ same) (many first) (Reading.many second) := by
  intro tokens values rest reads
  obtain ⟨taken, split, visible, faces, carries⟩ := portable.manyWithin behind _ reads
  refine ⟨taken, split, visible, faces, fun enough left stop => ?_⟩
  obtain ⟨others, alike, chain⟩ := carries enough left stop
  exact ⟨others, alike, reads_many chain (refused stop)⟩

/-! ### Equal answers -/

theorem alike {weaker : α → α → Prop} (portable : Portable bound takes stops same first second)
    (implied : ∀ value other, same value other → weaker value other) :
    Portable bound takes stops weaker first second := by
  intro tokens value rest reads
  obtain ⟨taken, split, visible, holds, carries⟩ := portable reads
  refine ⟨taken, split, visible, holds, fun enough left faces => ?_⟩
  obtain ⟨other, both, again⟩ := carries enough faces
  exact ⟨other, implied _ _ both, again⟩

theorem maybeEq (portable : Portable bound (Leads opens) stops Eq first second)
    (apart : ∀ lexeme, stopsToo lexeme → stops lexeme)
    (refused : ∀ {left}, Faces stopsToo left → Refuses second left) :
    Portable bound (Faces opens) stopsToo Eq (Reading.maybe first) (Reading.maybe second) := by
  refine (portable.maybe (fun _ => rfl) apart refused).alike fun value? other? both => ?_
  cases both with
  | some same => rw [same]
  | none => rfl

theorem manyEq (portable : Portable bound (Leads opens) stops Eq first second)
    (behind : ∀ lexeme, opens lexeme ∨ stopsToo lexeme → stops lexeme)
    (refused : ∀ {left}, Faces stopsToo left → Refuses second left) :
    Portable bound (Faces opens) stopsToo Eq (Reading.many first) (Reading.many second) := by
  refine (portable.many behind refused).alike fun values others both => ?_
  rwa [List.forall₂_eq_eq_eq] at both

end Portable

end Reading

end ExternBindings.Listing
