/-
**What readings answer.**

Only the answer of a reading counts here, not its record of failed attempts.

* `Reads` — the reading takes a value from the head of a token list; `Refuses` — it takes nothing.
  Each combinator has one lemma for either (`reads_bind`, `reads_orElse`, `reads_maybe`, …), and
  `reads_many` runs a repetition along a `Chain` of single answers, and `row_of_reads_many` finds
  the single answers of a repetition.
* `Yields` — whatever tokens the reading is given, its value has a property and what it leaves is a
  tail of the tokens. A reading yields what its parts yield, so the property of a whole construct
  is put together from those of its parts. `Advances` — it takes a token at least.
-/

import ExternBindings.Listing.Reading

namespace ExternBindings.Listing.Reading

variable {α β : Type}

/-- The reading takes `value` from the head of `tokens` and leaves `rest`. -/
def Reads (reading : Reading α) (tokens : List Token) (value : α) (rest : List Token) : Prop :=
  (reading tokens).value? = some (value, rest)

/-- The reading takes nothing from the head of `tokens`. -/
def Refuses (reading : Reading α) (tokens : List Token) : Prop :=
  (reading tokens).value? = none

section Combinators

variable {tokens rest : List Token} {value : α}

theorem reads_or_refuses (reading : Reading α) (tokens : List Token) :
    (∃ value rest, Reads reading tokens value rest) ∨ Refuses reading tokens := by
  unfold Reads Refuses
  cases (reading tokens).value? with
  | none => exact Or.inr rfl
  | some answer => exact Or.inl ⟨answer.1, answer.2, rfl⟩

theorem not_refuses (taken : Reads reading tokens value rest) : ¬ Refuses reading tokens := by
  unfold Reads at taken
  unfold Refuses
  rw [taken]
  exact Option.some_ne_none _

theorem reads_pure {answer : α} :
    Reads (pure value) tokens answer rest ↔ value = answer ∧ tokens = rest := by
  show some (value, tokens) = some (answer, rest) ↔ _
  rw [Option.some.injEq, Prod.mk.injEq]

theorem not_refuses_pure : ¬ Refuses (pure value : Reading α) tokens :=
  not_refuses (reads_pure.mpr ⟨rfl, rfl⟩)

theorem reads_bind {first : Reading α} {next : α → Reading β} {answer : β} :
    Reads (first >>= next) tokens answer rest ↔
      ∃ value left, Reads first tokens value left ∧ Reads (next value) left answer rest := by
  unfold Reads
  show (Reading.bind first next tokens).value? = _ ↔ _
  unfold Reading.bind
  rcases first tokens with ⟨_ | ⟨value, left⟩, record⟩
  · simp
  · simp only [Option.some.injEq, Prod.mk.injEq]
    constructor
    · exact fun taken => ⟨value, left, ⟨rfl, rfl⟩, taken⟩
    · rintro ⟨_, _, ⟨rfl, rfl⟩, taken⟩
      exact taken

theorem Reads.bind {first : Reading α} {next : α → Reading β} {left : List Token} {answer : β}
    (taken : Reads first tokens value left) (further : Reads (next value) left answer rest) :
    Reads (first >>= next) tokens answer rest :=
  reads_bind.mpr ⟨value, left, taken, further⟩

theorem refuses_bind {first : Reading α} {next : α → Reading β} :
    Refuses (first >>= next) tokens ↔
      Refuses first tokens ∨
        ∃ value left, Reads first tokens value left ∧ Refuses (next value) left := by
  unfold Reads Refuses
  show (Reading.bind first next tokens).value? = _ ↔ _
  unfold Reading.bind
  rcases first tokens with ⟨_ | ⟨value, left⟩, record⟩
  · simp
  · simp only [Option.some.injEq, Prod.mk.injEq, reduceCtorEq, false_or]
    constructor
    · exact fun refused => ⟨value, left, ⟨rfl, rfl⟩, refused⟩
    · rintro ⟨_, _, ⟨rfl, rfl⟩, refused⟩
      exact refused

theorem reads_orElse {first second : Reading α} :
    Reads (first <|> second) tokens value rest ↔
      Reads first tokens value rest ∨ Refuses first tokens ∧ Reads second tokens value rest := by
  unfold Reads Refuses
  show (Reading.orElse first (fun _ => second) tokens).value? = _ ↔ _
  unfold Reading.orElse
  rcases first tokens with ⟨_ | answer, record⟩ <;> simp

theorem refuses_orElse {first second : Reading α} :
    Refuses (first <|> second) tokens ↔ Refuses first tokens ∧ Refuses second tokens := by
  unfold Refuses
  show (Reading.orElse first (fun _ => second) tokens).value? = _ ↔ _
  unfold Reading.orElse
  rcases first tokens with ⟨_ | answer, record⟩ <;> simp

/-- The name of a construct does not change what is read. -/
theorem reads_attemptAt {placeOf : List Token → Nat} {construct : Construct}
    {reading : Reading α} :
    Reads (attemptAt placeOf construct reading) tokens value rest ↔
      Reads reading tokens value rest := by
  unfold Reads attemptAt
  rcases reading tokens with ⟨_ | answer, record⟩ <;> simp

theorem refuses_attemptAt {placeOf : List Token → Nat} {construct : Construct}
    {reading : Reading α} :
    Refuses (attemptAt placeOf construct reading) tokens ↔ Refuses reading tokens := by
  unfold Refuses attemptAt
  rcases reading tokens with ⟨_ | answer, record⟩ <;> simp

theorem reads_attempt {construct : Construct} {reading : Reading α} :
    Reads (attempt construct reading) tokens value rest ↔ Reads reading tokens value rest :=
  reads_attemptAt

theorem refuses_attempt {construct : Construct} {reading : Reading α} :
    Refuses (attempt construct reading) tokens ↔ Refuses reading tokens :=
  refuses_attemptAt

theorem reads_maybe {item : Reading α} {value? : Option α} :
    Reads (maybe item) tokens value? rest ↔
      (∃ value, value? = some value ∧ Reads item tokens value rest) ∨
        value? = none ∧ Refuses item tokens ∧ rest = tokens := by
  unfold maybe
  rw [reads_orElse, reads_bind, refuses_bind, reads_pure]
  simp only [reads_pure, not_refuses_pure, and_false, exists_false, or_false]
  constructor
  · rintro (⟨value, left, taken, rfl, rfl⟩ | ⟨refused, rfl, rfl⟩)
    · exact Or.inl ⟨value, rfl, taken⟩
    · exact Or.inr ⟨rfl, refused, rfl⟩
  · rintro (⟨value, rfl, taken⟩ | ⟨rfl, refused, rfl⟩)
    · exact Or.inl ⟨value, rest, taken, rfl, rfl⟩
    · exact Or.inr ⟨refused, rfl, rfl⟩

theorem Reads.maybe {item : Reading α} (taken : Reads item tokens value rest) :
    Reads (maybe item) tokens (some value) rest :=
  reads_maybe.mpr (Or.inl ⟨value, rfl, taken⟩)

theorem Refuses.maybe {item : Reading α} (refused : Refuses item tokens) :
    Reads (maybe item) tokens none tokens :=
  reads_maybe.mpr (Or.inr ⟨rfl, refused, rfl⟩)

/-! ### Single tokens -/

theorem reads_accept {choose : Lexeme → Option α} :
    Reads (accept choose) tokens value rest ↔
      ∃ token, tokens = token :: rest ∧ choose token.lexeme = some value := by
  unfold Reads accept
  cases tokens with
  | nil => simp
  | cons token others =>
    simp only [Option.map_eq_some_iff, Prod.mk.injEq, List.cons.injEq]
    constructor
    · rintro ⟨_, chosen, rfl, rfl⟩
      exact ⟨token, ⟨rfl, rfl⟩, chosen⟩
    · rintro ⟨_, ⟨rfl, rfl⟩, chosen⟩
      exact ⟨value, chosen, rfl, rfl⟩

theorem refuses_accept {choose : Lexeme → Option α} :
    Refuses (accept choose) tokens ↔
      ∀ token others, tokens = token :: others → choose token.lexeme = none := by
  unfold Refuses accept
  cases tokens with
  | nil => simp
  | cons token others =>
    simp only [Option.map_eq_none_iff, List.cons.injEq]
    constructor
    · rintro refused _ _ ⟨rfl, rfl⟩
      exact refused
    · exact fun refused => refused token others ⟨rfl, rfl⟩

theorem reads_mark {char : Char} {answer : Unit} :
    Reads (mark char) tokens answer rest ↔
      ∃ token, tokens = token :: rest ∧ token.lexeme = .mark char := by
  unfold mark
  rw [reads_accept]
  simp

theorem reads_mark_cons {char : Char} {token : Token} {others : List Token}
    (same : token.lexeme = .mark char) : Reads (mark char) (token :: others) () others :=
  reads_mark.mpr ⟨token, rfl, same⟩

theorem refuses_mark {char : Char} :
    Refuses (mark char) tokens ↔
      ∀ token others, tokens = token :: others → token.lexeme ≠ .mark char := by
  unfold mark
  rw [refuses_accept]
  simp

theorem reads_glued {answer : Unit} :
    Reads glued tokens answer rest ↔
      rest = tokens ∧ ∃ token others, tokens = token :: others ∧ token.isGlued = true := by
  unfold Reads glued
  cases tokens with
  | nil => simp
  | cons token others =>
    by_cases touching : token.isGlued = true
    · simp only [touching, if_true, Option.some.injEq, Prod.mk.injEq, true_and]
      constructor
      · exact fun same => ⟨same.symm, token, others, rfl, touching⟩
      · exact fun both => both.1.symm
    · simp [touching]

theorem reads_glued_cons {token : Token} {others : List Token} (touching : token.isGlued = true) :
    Reads glued (token :: others) () (token :: others) :=
  reads_glued.mpr ⟨rfl, token, others, rfl, touching⟩

theorem reads_start {answer : Nat} :
    Reads start tokens answer rest ↔ answer = startOf tokens ∧ rest = tokens := by
  unfold Reads start
  simp [eq_comm]

theorem reads_edge {answer : Nat} :
    Reads edge tokens answer rest ↔ answer = edgeOf tokens ∧ rest = tokens := by
  unfold Reads edge
  simp [eq_comm]

theorem reads_layout {answer : List Char} :
    Reads layout tokens answer rest ↔
      answer = tokens.head?.elim [] Token.layout ∧ rest = tokens := by
  unfold Reads layout
  simp [eq_comm]

/-- The finish stays where it is. -/
theorem rest_of_reads_finish {answer : Unit} (taken : Reads finish tokens answer rest) :
    rest = tokens := by
  unfold Reads finish at taken
  cases tokens with
  | nil => simpa using taken.symm
  | cons token others =>
    by_cases last : token.lexeme = .finish
    · simpa [last, eq_comm] using taken
    · simp [last] at taken

end Combinators

/-! ### Repetitions -/

section Repetition

variable {item : Reading α}

/-- The values that a reading takes one after the other, each from fewer tokens than the one
before. -/
inductive Chain (item : Reading α) : List Token → List α → List Token → Prop
  | done (tokens : List Token) : Chain item tokens [] tokens
  | step {tokens middle rest : List Token} {value : α} {values : List α} :
      Reads item tokens value middle → middle.length < tokens.length →
        Chain item middle values rest → Chain item tokens (value :: values) rest

theorem Chain.length_add_le {tokens rest : List Token} {values : List α}
    (chain : Chain item tokens values rest) : values.length + rest.length ≤ tokens.length := by
  induction chain with
  | done => simp
  | step _ shorter _ hypothesis =>
    rw [List.length_cons]
    omega

theorem Chain.concat {tokens middle rest : List Token} {values : List α} {value : α}
    (chain : Chain item tokens values middle) (taken : Reads item middle value rest)
    (shorter : rest.length < middle.length) : Chain item tokens (values ++ [value]) rest := by
  induction chain with
  | done => exact Chain.step taken shorter (Chain.done rest)
  | step first firstShorter _ hypothesis =>
    exact Chain.step first firstShorter (hypothesis taken shorter)

theorem reads_manyWithin {tokens rest : List Token} {values : List α}
    (chain : Chain item tokens values rest) (refused : Refuses item rest) :
    ∀ {limit : Nat}, values.length ≤ limit → Reads (manyWithin item limit) tokens values rest := by
  induction chain with
  | done tokens =>
    intro limit _
    cases limit with
    | zero => exact reads_pure.mpr ⟨rfl, rfl⟩
    | succ limit =>
      refine reads_orElse.mpr (Or.inr ⟨?_, reads_pure.mpr ⟨rfl, rfl⟩⟩)
      exact refuses_bind.mpr (Or.inl refused)
  | step taken _ _ hypothesis =>
    intro limit enough
    obtain ⟨limit, rfl⟩ := Nat.exists_eq_succ_of_ne_zero (Nat.ne_of_gt (Nat.zero_lt_of_lt enough))
    have tail := hypothesis refused (Nat.le_of_succ_le_succ enough)
    exact reads_orElse.mpr (Or.inl (taken.bind (tail.bind (reads_pure.mpr ⟨rfl, rfl⟩))))

/-- **A repetition takes a whole chain** when nothing more can be taken behind it. -/
theorem reads_many {tokens rest : List Token} {values : List α}
    (chain : Chain item tokens values rest) (refused : Refuses item rest) :
    Reads (many item) tokens values rest :=
  reads_manyWithin chain refused (Nat.le_trans (Nat.le_add_right _ _) chain.length_add_le)

/-- The values that a repetition took, one after the other. -/
inductive Row (item : Reading α) : List Token → List α → List Token → Prop
  | done (tokens : List Token) : Row item tokens [] tokens
  | step {tokens middle rest : List Token} {value : α} {values : List α} :
      Reads item tokens value middle → Row item middle values rest →
        Row item tokens (value :: values) rest

theorem row_of_reads_manyWithin {limit : Nat} {tokens rest : List Token} {values : List α}
    (reads : Reads (manyWithin item limit) tokens values rest) : Row item tokens values rest := by
  induction limit generalizing tokens values with
  | zero =>
    obtain ⟨rfl, rfl⟩ := reads_pure.mp reads
    exact .done tokens
  | succ limit hypothesis =>
    rcases reads_orElse.mp reads with taken | ⟨-, none⟩
    · obtain ⟨value, _, first, further⟩ := reads_bind.mp taken
      obtain ⟨tail, _, others, finished⟩ := reads_bind.mp further
      obtain ⟨rfl, rfl⟩ := reads_pure.mp finished
      exact .step first (hypothesis others)
    · obtain ⟨rfl, rfl⟩ := reads_pure.mp none
      exact .done tokens

/-- **What a repetition takes is a row.** -/
theorem row_of_reads_many {tokens rest : List Token} {values : List α}
    (reads : Reads (many item) tokens values rest) : Row item tokens values rest :=
  row_of_reads_manyWithin reads

theorem reads_separated {separator : Char} {tokens middle rest : List Token} {value : α}
    {values : List α} (first : Reads item tokens value middle)
    (chain : Chain (do mark separator; item) middle values rest)
    (refused : Refuses (do mark separator; item) rest) :
    Reads (separated separator item) tokens (value :: values) rest :=
  first.bind ((reads_many chain refused).bind (reads_pure.mpr ⟨rfl, rfl⟩))

end Repetition

/-! ### What a reading yields -/

/-- From tokens that are all accepted by `fits`, the reading answers only with values that have the
property, and leaves a tail of the tokens. -/
def Yields (fits : Lexeme → Prop) (reading : Reading α) (property : α → Prop) : Prop :=
  ∀ ⦃tokens value rest⦄, (∀ token ∈ tokens, fits token.lexeme) → Reads reading tokens value rest →
    property value ∧ rest <:+ tokens

namespace Yields

variable {fits : Lexeme → Prop} {property : α → Prop} {result : β → Prop}

theorem mono {reading : Reading α} {weaker : α → Prop} (yields : Yields fits reading property)
    (implied : ∀ value, property value → weaker value) : Yields fits reading weaker :=
  fun _ _ _ lawful taken =>
    ⟨implied _ (yields lawful taken).1, (yields lawful taken).2⟩

theorem pure {value : α} (holds : property value) :
    Yields fits (Pure.pure value : Reading α) property := by
  intro tokens answer rest _ taken
  obtain ⟨rfl, rfl⟩ := reads_pure.mp taken
  exact ⟨holds, List.suffix_refl tokens⟩

theorem fail : Yields fits (fail : Reading α) property := by
  intro tokens value rest _ taken
  exact nomatch taken

theorem bind {first : Reading α} {next : α → Reading β} (yields : Yields fits first property)
    (after : ∀ value, property value → Yields fits (next value) result) :
    Yields fits (first >>= next) result := by
  intro tokens answer rest lawful taken
  obtain ⟨value, left, taken, further⟩ := reads_bind.mp taken
  obtain ⟨holds, shrunk⟩ := yields lawful taken
  obtain ⟨final, shrunkAgain⟩ :=
    after value holds (fun token member => lawful token (shrunk.subset member)) further
  exact ⟨final, shrunkAgain.trans shrunk⟩

theorem orElse {first second : Reading α} (yields : Yields fits first property)
    (otherwise : Yields fits second property) : Yields fits (first <|> second) property := by
  intro tokens value rest lawful taken
  rcases reads_orElse.mp taken with taken | ⟨_, taken⟩
  · exact yields lawful taken
  · exact otherwise lawful taken

theorem maybe {item : Reading α} (yields : Yields fits item property) :
    Yields fits (maybe item) fun value? => ∀ value ∈ value?, property value := by
  intro tokens value? rest lawful taken
  rcases reads_maybe.mp taken with ⟨value, rfl, found⟩ | ⟨rfl, _, rfl⟩
  · obtain ⟨holds, shrunk⟩ := yields lawful found
    refine ⟨fun other same => ?_, shrunk⟩
    rwa [← Option.mem_some.mp same]
  · exact ⟨fun value absent => absurd absent (Option.not_mem_none value), List.suffix_refl _⟩

theorem manyWithin {item : Reading α} (yields : Yields fits item property) (limit : Nat) :
    Yields fits (manyWithin item limit) fun values => ∀ value ∈ values, property value := by
  induction limit with
  | zero => exact pure (by simp)
  | succ limit hypothesis =>
    refine orElse (bind yields fun head holds => ?_) (pure (by simp))
    exact bind hypothesis fun tail hold => pure (List.forall_mem_cons.mpr ⟨holds, hold⟩)

theorem many {item : Reading α} (yields : Yields fits item property) :
    Yields fits (many item) fun values => ∀ value ∈ values, property value :=
  fun tokens _ _ lawful taken => manyWithin yields tokens.length lawful taken

theorem attemptAt {placeOf : List Token → Nat} {construct : Construct} {reading : Reading α}
    (yields : Yields fits reading property) :
    Yields fits (attemptAt placeOf construct reading) property :=
  fun _ _ _ lawful taken => yields lawful (reads_attemptAt.mp taken)

theorem attempt {construct : Construct} {reading : Reading α}
    (yields : Yields fits reading property) : Yields fits (attempt construct reading) property :=
  attemptAt yields

theorem accept {choose : Lexeme → Option α}
    (chosen : ∀ lexeme value, fits lexeme → choose lexeme = some value → property value) :
    Yields fits (accept choose) property := by
  intro tokens value rest lawful taken
  obtain ⟨token, rfl, found⟩ := reads_accept.mp taken
  exact ⟨chosen _ _ (lawful token List.mem_cons_self) found, List.suffix_cons token rest⟩

theorem mark (char : Char) : Yields fits (mark char) fun _ => True :=
  accept fun _ _ _ _ => trivial

theorem keyword (text : String) : Yields fits (keyword text) fun _ => True :=
  accept fun _ _ _ _ => trivial

theorem oneOf (words : List (String × α)) : Yields fits (oneOf words) fun _ => True :=
  accept fun _ _ _ _ => trivial

theorem glued : Yields fits glued fun _ => True := by
  intro tokens value rest _ taken
  rw [(reads_glued.mp taken).1]
  exact ⟨trivial, List.suffix_refl tokens⟩

theorem start : Yields fits start fun _ => True := by
  intro tokens value rest _ taken
  rw [(reads_start.mp taken).2]
  exact ⟨trivial, List.suffix_refl tokens⟩

theorem edge : Yields fits edge fun _ => True := by
  intro tokens value rest _ taken
  rw [(reads_edge.mp taken).2]
  exact ⟨trivial, List.suffix_refl tokens⟩

theorem layout : Yields fits layout fun _ => True := by
  intro tokens value rest _ taken
  rw [(reads_layout.mp taken).2]
  exact ⟨trivial, List.suffix_refl tokens⟩

theorem finish : Yields fits finish fun _ => True := by
  intro tokens value rest _ taken
  rw [rest_of_reads_finish taken]
  exact ⟨trivial, List.suffix_refl tokens⟩

theorem separated {separator : Char} {item : Reading α} (yields : Yields fits item property) :
    Yields fits (separated separator item)
      fun values => values ≠ [] ∧ ∀ value ∈ values, property value := by
  refine bind yields fun head holds => ?_
  refine bind (many (bind (mark separator) fun _ _ => yields)) fun tail hold => ?_
  exact pure ⟨List.cons_ne_nil head tail, List.forall_mem_cons.mpr ⟨holds, hold⟩⟩

end Yields

/-- Each value of a row was taken from a tail of the tokens. -/
theorem Row.exists_of_mem {item : Reading α} {fits : Lexeme → Prop} {property : α → Prop}
    (yields : Yields fits item property) {tokens rest : List Token} {values : List α}
    (row : Row item tokens values rest) (lawful : ∀ token ∈ tokens, fits token.lexeme) :
    rest <:+ tokens ∧ ∀ value ∈ values, ∃ here there, here <:+ tokens ∧
      Reads item here value there ∧ rest <:+ there := by
  induction row with
  | done tokens => exact ⟨List.suffix_refl tokens, List.forall_mem_nil _⟩
  | @step tokens middle rest value values reads _ hypothesis =>
    have shrunk := (yields lawful reads).2
    obtain ⟨further, others⟩ := hypothesis fun token member => lawful token (shrunk.subset member)
    refine ⟨further.trans shrunk, List.forall_mem_cons.mpr
      ⟨⟨tokens, middle, List.suffix_refl tokens, reads, further⟩, fun other member => ?_⟩⟩
    obtain ⟨here, there, within, taken, behind⟩ := others other member
    exact ⟨here, there, within.trans shrunk, taken, behind⟩

/-! ### Readings that take a token -/

/-- From tokens that are all accepted by `fits`, the reading never answers without taking one. -/
def Advances (fits : Lexeme → Prop) (reading : Reading α) : Prop :=
  ∀ ⦃tokens value rest⦄, (∀ token ∈ tokens, fits token.lexeme) → Reads reading tokens value rest →
    rest.length < tokens.length

namespace Advances

variable {fits : Lexeme → Prop} {property : α → Prop} {result : β → Prop}

theorem accept {choose : Lexeme → Option α} : Advances fits (accept choose) := by
  intro tokens value rest _ taken
  obtain ⟨token, rfl, -⟩ := reads_accept.mp taken
  exact Nat.lt_succ_self _

theorem bind {first : Reading α} {next : α → Reading β} (advances : Advances fits first)
    (yields : Yields fits first property) (after : ∀ value, Yields fits (next value) result) :
    Advances fits (first >>= next) := by
  intro tokens answer rest lawful taken
  obtain ⟨value, left, taken, further⟩ := reads_bind.mp taken
  have shrunk := (yields lawful taken).2
  have shrunkAgain :=
    (after value (fun token member => lawful token (shrunk.subset member)) further).2
  exact Nat.lt_of_le_of_lt shrunkAgain.length_le (advances lawful taken)

theorem bindRight {first : Reading α} {next : α → Reading β} (yields : Yields fits first property)
    (advances : ∀ value, Advances fits (next value)) : Advances fits (first >>= next) := by
  intro tokens answer rest lawful taken
  obtain ⟨value, left, taken, further⟩ := reads_bind.mp taken
  have shrunk := (yields lawful taken).2
  have shorter := advances value (fun token member => lawful token (shrunk.subset member)) further
  exact Nat.lt_of_lt_of_le shorter shrunk.length_le

theorem orElse {first second : Reading α} (advances : Advances fits first)
    (otherwise : Advances fits second) : Advances fits (first <|> second) := by
  intro tokens value rest lawful taken
  rcases reads_orElse.mp taken with taken | ⟨_, taken⟩
  · exact advances lawful taken
  · exact otherwise lawful taken

theorem attempt {construct : Construct} {reading : Reading α} (advances : Advances fits reading) :
    Advances fits (attempt construct reading) :=
  fun _ _ _ lawful taken => advances lawful (reads_attempt.mp taken)

end Advances

end ExternBindings.Listing.Reading
