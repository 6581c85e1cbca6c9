/-
**Written references are read back.**

* `ReadsBack` — from a text that goes on as it may behind a reference, the written form of the
  reference is taken as an atom and a chain of suffixes, which together make its normal form;
* `readsBack` — this holds of every well-formed reference, by recursion on it: a suffix is one more
  link of the chain, and the arguments of a generic type are read by the same rule with less fuel;
* `reads_typeUseWithin` — a reference is taken up to its end and not further.
-/

import ExternBindings.Proofs.Listing.ReadType

namespace ExternBindings.Listing

open Reading

/-! ### What may follow -/

/-- The text ends, or goes on with one of the characters. -/
def GoesOn (chars text : List Char) : Prop :=
  ∀ char ∈ text.head?, char ∈ chars

/-- What a whole reference is followed by inside of arguments. -/
def useEnds : List Char :=
  [',', '>']

/-- What a reference is followed by when suffixes may come next. -/
def atomEnds : List Char :=
  ['[', '&', '*'] ++ useEnds

theorem goesOn_nil (chars : List Char) : GoesOn chars [] :=
  fun char member => absurd member (Option.not_mem_none char)

theorem goesOn_cons {chars : List Char} {char : Char} (member : char ∈ chars) (rest : List Char) :
    GoesOn chars (char :: rest) := by
  intro other same
  rwa [← Option.mem_some.mp same]

theorem GoesOn.atomEnds {text : List Char} (goesOn : GoesOn useEnds text) :
    GoesOn atomEnds text :=
  fun char member => List.mem_append_right _ (goesOn char member)

theorem GoesOn.headAvoids {chars text : List Char} {accepts : Char → Bool}
    (goesOn : GoesOn chars text) (none : chars.any accepts = false) :
    HeadAvoids accepts text :=
  fun char member => Bool.eq_false_iff.mpr (List.any_eq_false.mp none char (goesOn char member))

theorem tokensAfter_goesOn (edge : Nat) {text : List Char} (goesOn : GoesOn atomEnds text) :
    tokensAfter edge text = tokensBehind edge [] text := by
  cases text with
  | nil => rfl
  | cons char rest =>
    have solid : ∀ char ∈ Listing.atomEnds, isSolid char = true :=
      List.all_eq_true.mp (by decide)
    exact tokensAfter_solid edge (solid char (goesOn char rfl)) rest

theorem refuses_mark_behind (edge : Nat) (gap : List Char) {char : Char} {text : List Char}
    (avoids : HeadAvoids (· = char) text) : Refuses (mark char) (tokensBehind edge gap text) := by
  refine refuses_mark.mpr fun token others cut same => ?_
  cases text with
  | nil =>
    rw [tokensBehind_nil, List.cons.injEq] at cut
    rw [← cut.1] at same
    cases same
  | cons first rest =>
    rw [tokensBehind_cons, List.cons.injEq] at cut
    rw [← cut.1] at same
    have different := avoids first rfl
    rw [split_eq_mark same] at different
    simp at different

theorem refuses_mark_goesOn (edge : Nat) {chars text : List Char} {char : Char}
    (goesOn : GoesOn chars text) (allowed : chars ⊆ atomEnds) (other : char ∉ chars) :
    Refuses (mark char) (tokensAfter edge text) := by
  rw [tokensAfter_goesOn edge fun first member => allowed (goesOn first member)]
  refine refuses_mark_behind edge [] (goesOn.headAvoids ?_)
  refine List.any_eq_false.mpr fun first member => ?_
  rw [decide_eq_true_eq]
  rintro rfl
  exact other member

/-- A character that is a token by itself, whatever comes next. -/
def isSign (char : Char) : Bool :=
  isSolid char && !isNameChar char

theorem tokensAfter_sign (edge : Nat) {char : Char} (sign : isSign char = true)
    (rest : List Char) :
    tokensAfter edge (char :: rest) =
      { edge, layout := [], lexeme := .mark char } ::
        tokensAfter (edge + byteSize [char]) rest := by
  simp only [isSign, Bool.and_eq_true, Bool.not_eq_true'] at sign
  rw [tokensAfter_solid edge sign.1, tokensBehind_mark edge [] rest sign.2]
  rfl

theorem reads_sign (edge : Nat) {char : Char} (sign : isSign char = true) (rest : List Char) :
    Reads (mark char) (tokensAfter edge (char :: rest)) ()
      (tokensAfter (edge + byteSize [char]) rest) := by
  rw [tokensAfter_sign edge sign]
  exact reads_mark_cons rfl

theorem reads_glued_sign (edge : Nat) {char : Char} (sign : isSign char = true)
    (rest : List Char) :
    Reads glued (tokensAfter edge (char :: rest)) () (tokensAfter edge (char :: rest)) := by
  rw [tokensAfter_sign edge sign]
  exact reads_glued_cons rfl

theorem reads_layout_sign (edge : Nat) {char : Char} (sign : isSign char = true)
    (rest : List Char) :
    Reads layout (tokensAfter edge (char :: rest)) [] (tokensAfter edge (char :: rest)) := by
  rw [tokensAfter_sign edge sign]
  exact reads_layout.mpr ⟨rfl, rfl⟩

theorem refuses_mark_sign (edge : Nat) {char other : Char} (sign : isSign char = true)
    (different : char ≠ other) (rest : List Char) :
    Refuses (mark other) (tokensAfter edge (char :: rest)) := by
  rw [tokensAfter_sign edge sign, refuses_mark]
  rintro token others cut same
  rw [← (List.cons.inj cut).1] at same
  exact different (Lexeme.mark.inj same)

/-! ### Suffixes -/

theorem chain_commas (rest : List Char) : ∀ (edge count : Nat),
    Chain (do glued; mark ',') (tokensAfter edge (List.replicate count ',' ++ rest))
      (List.replicate count ())
      (tokensAfter (edge + byteSize (List.replicate count ',')) rest)
  | edge, 0 => Chain.done _
  | edge, count + 1 => by
    have comma : isSign ',' = true := rfl
    have first : Reads (do glued; mark ',')
        (tokensAfter edge (',' :: (List.replicate count ',' ++ rest))) ()
        (tokensAfter (edge + byteSize [',']) (List.replicate count ',' ++ rest)) :=
      (reads_glued_sign edge comma _).bind (reads_sign edge comma _)
    have size : byteSize (List.replicate (count + 1) ',') =
        byteSize [','] + byteSize (List.replicate count ',') :=
      byteSize_append [','] (List.replicate count ',')
    rw [size, ← Nat.add_assoc]
    refine Chain.step first ?_ (chain_commas rest (edge + byteSize [',']) count)
    show _ < (tokensAfter edge (',' :: (List.replicate count ',' ++ rest))).length
    rw [tokensAfter_sign edge comma]
    exact Nat.lt_succ_self _

theorem reads_commaRun (edge count : Nat) (rest : List Char) :
    Reads commaRun (tokensAfter edge (List.replicate count ',' ++ ']' :: rest)) count
      (tokensAfter (edge + byteSize (List.replicate count ',')) (']' :: rest)) := by
  have comma : isSign ',' = true := rfl
  have close : isSign ']' = true := rfl
  have noComma (edge : Nat) : Refuses (mark ',') (tokensAfter edge (']' :: rest)) :=
    refuses_mark_sign edge close (by decide) rest
  cases count with
  | zero =>
    refine reads_orElse.mpr (Or.inr ⟨?_, reads_pure.mpr ⟨rfl, rfl⟩⟩)
    have found := reads_layout_sign edge close rest
    exact refuses_bind.mpr (Or.inr ⟨_, _, found, refuses_bind.mpr (Or.inl (noComma edge))⟩)
  | succ count =>
    have found := reads_layout_sign edge comma (List.replicate count ',' ++ ']' :: rest)
    have first := reads_sign edge comma (List.replicate count ',' ++ ']' :: rest)
    have others := reads_many (chain_commas (']' :: rest) (edge + byteSize [',']) count)
      (refuses_bind.mpr (Or.inr ⟨(), _, reads_glued_sign _ close rest, noComma _⟩))
    have size : byteSize (List.replicate (count + 1) ',') =
        byteSize [','] + byteSize (List.replicate count ',') :=
      byteSize_append [','] (List.replicate count ',')
    rw [size, ← Nat.add_assoc]
    refine reads_orElse.mpr (Or.inl (found.bind (first.bind (others.bind ?_))))
    refine reads_pure.mpr ⟨?_, rfl⟩
    rw [List.length_replicate, commasIn, List.count_nil]
    omega

/-- The brackets of an array as they are written, with so many commas. -/
def writtenBrackets (commas : Nat) : List Char :=
  '[' :: (List.replicate commas ',' ++ [']'])

theorem reads_arraySuffix (edge commas : Nat) (rest : List Char) :
    Reads suffix (tokensAfter edge (writtenBrackets commas ++ rest)) (.array (.ofCommas commas))
      (tokensAfter (edge + byteSize (writtenBrackets commas)) rest) := by
  have close : isSign ']' = true := rfl
  have size : byteSize (writtenBrackets commas) =
      byteSize ['['] + byteSize (List.replicate commas ',') + byteSize [']'] := by
    rw [writtenBrackets, ← List.singleton_append, byteSize_append, byteSize_append, Nat.add_assoc]
  have written : writtenBrackets commas ++ rest =
      '[' :: (List.replicate commas ',' ++ ']' :: rest) := by
    rw [writtenBrackets, List.cons_append, List.append_assoc, List.singleton_append]
  have opened : Reads (mark '[') _ () _ :=
    reads_sign edge rfl (List.replicate commas ',' ++ ']' :: rest)
  have run := reads_commaRun (edge + byteSize ['[']) commas rest
  rw [written, size, ← Nat.add_assoc, ← Nat.add_assoc]
  refine reads_orElse.mpr (Or.inl (reads_attempt.mpr (opened.bind (run.bind ?_))))
  refine (reads_layout_sign _ close rest).bind ((reads_sign _ close rest).bind ?_)
  exact reads_pure.mpr ⟨rfl, rfl⟩

/-- The sign of a reference or pointer as it is written. -/
def writtenSign : Indirection → Char
  | .byRef => '&'
  | .pointer => '*'

theorem reads_indirectSuffix (edge : Nat) (kind : Indirection) (rest : List Char) :
    Reads suffix (tokensAfter edge (writtenSign kind :: rest)) (.indirect kind)
      (tokensAfter (edge + byteSize [writtenSign kind]) rest) := by
  have sign : isSign (writtenSign kind) = true := by cases kind <;> rfl
  have noArray : Refuses arraySuffix (tokensAfter edge (writtenSign kind :: rest)) := by
    refine refuses_attempt.mpr (refuses_bind.mpr (Or.inl (refuses_mark_sign edge sign ?_ rest)))
    cases kind <;> decide
  have taken := reads_sign edge sign rest
  refine reads_orElse.mpr (Or.inr ⟨noArray, reads_orElse.mpr ?_⟩)
  cases kind with
  | byRef => exact Or.inl (reads_attempt.mpr (taken.bind (reads_pure.mpr ⟨rfl, rfl⟩)))
  | pointer =>
    have noByRef : Refuses byRefSuffix (tokensAfter edge ('*' :: rest)) :=
      refuses_attempt.mpr (refuses_bind.mpr (Or.inl (refuses_mark_sign edge sign (by decide) rest)))
    exact Or.inr ⟨noByRef, reads_attempt.mpr (taken.bind (reads_pure.mpr ⟨rfl, rfl⟩))⟩

theorem refuses_suffix (edge : Nat) {rest : List Char} (goesOn : GoesOn useEnds rest) :
    Refuses suffix (tokensAfter edge rest) := by
  have allowed : useEnds ⊆ atomEnds := List.subset_append_right _ _
  refine refuses_orElse.mpr ⟨?_, refuses_orElse.mpr ⟨?_, ?_⟩⟩ <;>
    exact refuses_attempt.mpr (refuses_bind.mpr (Or.inl
      (refuses_mark_goesOn edge goesOn allowed (by decide))))

/-! ### Reading a reference back -/

/-- What a reference is read as before its suffixes, with less than `limit` nested arguments. -/
def atomWithin (limit : Nat) : Reading TypeReference :=
  methodVariable <|> typeVariable <|> namedType (typeUseWithin limit)

/-- The written form of the reference is taken as an atom and suffixes that make its normal form. -/
def ReadsBack (reference : TypeReference) : Prop :=
  ∀ ⦃limit edge gap rest⦄, GoesOn atomEnds rest →
    (tokensBehind edge gap (reference.text.toList ++ rest)).length ≤ limit + 1 →
    ∃ atom suffixes middle,
      Reads (atomWithin limit) (tokensBehind edge gap (reference.text.toList ++ rest)) atom middle ∧
      Chain suffix middle suffixes
        (tokensAfter (edge + byteSize gap + byteSize reference.text.toList) rest) ∧
      suffixes.foldl Suffix.apply atom = reference.normalized

/-- **A reference is taken up to its end and not further.** -/
theorem reads_typeUseWithin {reference : TypeReference} (readsBack : ReadsBack reference)
    {limit edge : Nat} {gap rest : List Char} (goesOn : GoesOn useEnds rest)
    (enough : (tokensBehind edge gap (reference.text.toList ++ rest)).length ≤ limit) :
    Reads (typeUseWithin limit) (tokensBehind edge gap (reference.text.toList ++ rest))
      { type := reference.normalized,
        stop := edge + byteSize gap + byteSize reference.text.toList }
      (tokensAfter (edge + byteSize gap + byteSize reference.text.toList) rest) := by
  cases limit with
  | zero =>
    obtain ⟨lexeme, others, head⟩ :=
      exists_tokensBehind edge gap (reference.text.toList ++ rest)
    rw [head] at enough
    exact absurd enough (Nat.not_succ_le_zero _)
  | succ limit =>
    obtain ⟨atom, suffixes, middle, first, chain, whole⟩ := readsBack goesOn.atomEnds enough
    have others := reads_many chain (refuses_suffix _ goesOn)
    refine reads_attempt.mpr (reads_bind.mpr ⟨_, _, first, ?_⟩)
    refine reads_bind.mpr ⟨_, _, others, ?_⟩
    -- both ways to find the end of the reference lead to the token behind it
    show Reads (if _ then _ else _) _ _ _
    rw [whole, tokensAfter_goesOn _ goesOn.atomEnds]
    obtain ⟨lexeme, further, head⟩ := exists_tokensBehind
      (edge + byteSize gap + byteSize reference.text.toList) [] rest
    rw [head]
    split
    · exact (reads_start.mpr ⟨rfl, rfl⟩).bind (reads_pure.mpr ⟨rfl, rfl⟩)
    · exact (reads_edge.mpr ⟨rfl, rfl⟩).bind (reads_pure.mpr ⟨rfl, rfl⟩)

/-! ### Suffixes of a reference -/

theorem readsBack_suffixed {element whole : TypeReference} {written : List Char} {last : Suffix}
    (readsBack : ReadsBack element) (behind : whole.text.toList = element.text.toList ++ written)
    (goesOn : ∀ rest, GoesOn atomEnds (written ++ rest))
    (taken : ∀ edge rest, Reads suffix (tokensAfter edge (written ++ rest)) last
      (tokensAfter (edge + byteSize written) rest))
    (applied : last.apply element.normalized = whole.normalized) : ReadsBack whole := by
  intro limit edge gap rest _ enough
  rw [behind, List.append_assoc] at enough ⊢
  obtain ⟨atom, suffixes, middle, first, chain, same⟩ := readsBack (goesOn rest) enough
  have further := taken (edge + byteSize gap + byteSize element.text.toList) rest
  have shorter := advances_suffix isLawful_of_mem_tokensBehind further
  refine ⟨atom, suffixes ++ [last], middle, first, ?_, ?_⟩
  · rw [byteSize_append, ← Nat.add_assoc]
    exact chain.concat further shorter
  · rw [List.foldl_append, same]
    exact applied

theorem readsBack_array {element : TypeReference} (readsBack : ReadsBack element) (rank : Rank) :
    ReadsBack (.array element rank) := by
  have behind : (TypeReference.array element rank).text.toList =
      element.text.toList ++ writtenBrackets rank.commas := by
    rw [TypeReference.text, TypeReference.rankCommas]
    simp only [String.toList_append, String.toList_ofList, List.append_assoc]
    rfl
  refine readsBack_suffixed readsBack behind (fun rest => goesOn_cons (by decide) _)
    (fun edge rest => reads_arraySuffix edge rank.commas rest) ?_
  rw [TypeReference.normalized, ← rank.ofCommas_commas]
  rfl

theorem readsBack_indirect {element : TypeReference} (readsBack : ReadsBack element)
    (kind : Indirection) : ReadsBack (.indirect kind element) := by
  have behind : (TypeReference.indirect kind element).text.toList =
      element.text.toList ++ [writtenSign kind] := by
    cases kind <;> rw [TypeReference.text, String.toList_append] <;> rfl
  have sign : writtenSign kind ∈ Listing.atomEnds := by cases kind <;> decide
  refine readsBack_suffixed readsBack behind (fun rest => goesOn_cons sign rest)
    (fun edge rest => reads_indirectSuffix edge kind rest) ?_
  rw [TypeReference.normalized]
  rfl

/-! ### Parameters and names -/

theorem headAvoids_identifier {text : String} (identifier : isIdentifier text = true)
    {accepts : Char → Bool} (none : ∀ char, isWordStart char = true → accepts char = false)
    (rest : List Char) : HeadAvoids accepts (text.toList ++ rest) := by
  obtain ⟨first, more, written, starts⟩ := exists_head_identifier identifier
  rw [written]
  exact headAvoids_cons (none first starts) _

theorem isWordStart_ne_sign : ∀ char, isWordStart char = true → decide (char = '!') = false := by
  intro char starts
  rw [decide_eq_false_iff_not]
  rintro rfl
  exact absurd starts (by decide)

theorem reads_parameterIdentifier (edge : Nat) {name : String} {rest : List Char}
    (identifier : isIdentifier name = true) (goesOn : GoesOn atomEnds rest) :
    Reads parameterIdentifier (tokensAfter edge (name.toList ++ rest)) name
      (tokensAfter (edge + byteSize name.toList) rest) :=
  reads_attemptAt.mpr
    (reads_gluedIdentifier edge identifier (goesOn.headAvoids (by decide)))

/-- A single exclamation mark in front of a name is no type parameter of a method. -/
theorem refuses_methodVariable (edge : Nat) {name : String} (identifier : isIdentifier name = true)
    (rest : List Char) {token : Token} (sign : token.lexeme = .mark '!') :
    Refuses methodVariable (token :: tokensAfter edge (name.toList ++ rest)) := by
  refine refuses_attempt.mpr (refuses_bind.mpr (Or.inr ⟨(), _, reads_mark_cons sign, ?_⟩))
  rw [tokensAfter_identifier edge identifier]
  have noSign := refuses_mark_behind edge []
    (headAvoids_identifier identifier isWordStart_ne_sign rest)
  rcases reads_or_refuses glued (tokensBehind edge [] (name.toList ++ rest)) with
    ⟨value, left, taken⟩ | refused
  · rw [(reads_glued.mp taken).1] at taken
    exact refuses_bind.mpr (Or.inr ⟨value, _, taken, refuses_bind.mpr (Or.inl noSign)⟩)
  · exact refuses_bind.mpr (Or.inl refused)

theorem readsBack_typeParameter {name : String} (identifier : isIdentifier name = true) :
    ReadsBack (.parameter .type name) := by
  intro limit edge gap rest goesOn _
  have written : (TypeReference.parameter .type name).text.toList = '!' :: name.toList := by
    rw [TypeReference.text, String.toList_append]
    rfl
  have size : byteSize ('!' :: name.toList) = byteSize ['!'] + byteSize name.toList :=
    byteSize_append ['!'] name.toList
  rw [written, List.cons_append, tokensBehind_mark edge gap _ (by decide), size, ← Nat.add_assoc]
  have own := reads_parameterIdentifier (edge + byteSize gap + byteSize ['!']) identifier goesOn
  refine ⟨.parameter .type name, [], _, ?_, Chain.done _, rfl⟩
  refine reads_orElse.mpr (Or.inr ⟨refuses_methodVariable _ identifier rest rfl, ?_⟩)
  refine reads_orElse.mpr (Or.inl ?_)
  exact reads_attempt.mpr ((reads_mark_cons rfl).bind (own.bind (reads_pure.mpr ⟨rfl, rfl⟩)))

theorem readsBack_methodParameter {name : String} (identifier : isIdentifier name = true) :
    ReadsBack (.parameter .method name) := by
  intro limit edge gap rest goesOn _
  have written : (TypeReference.parameter .method name).text.toList =
      '!' :: '!' :: name.toList := by
    rw [TypeReference.text, String.toList_append]
    rfl
  have size : byteSize ('!' :: '!' :: name.toList) =
      byteSize ['!'] + (byteSize ['!'] + byteSize name.toList) := by
    rw [← byteSize_append, ← byteSize_append]
    rfl
  have sign : isSign '!' = true := rfl
  rw [written, List.cons_append, List.cons_append, tokensBehind_mark edge gap _ (by decide), size,
    ← Nat.add_assoc, ← Nat.add_assoc]
  have touching := reads_glued_sign (edge + byteSize gap + byteSize ['!']) sign
    (name.toList ++ rest)
  have second := reads_sign (edge + byteSize gap + byteSize ['!']) sign (name.toList ++ rest)
  have own := reads_parameterIdentifier (edge + byteSize gap + byteSize ['!'] + byteSize ['!'])
    identifier goesOn
  refine ⟨.parameter .method name, [], _, ?_, Chain.done _, rfl⟩
  refine reads_orElse.mpr (Or.inl (reads_attempt.mpr ((reads_mark_cons rfl).bind ?_)))
  exact touching.bind (second.bind (own.bind (reads_pure.mpr ⟨rfl, rfl⟩)))

/-- What starts like a name is no type parameter. -/
theorem reads_atomWithin {limit edge : Nat} {gap text : List Char} {type : TypeReference}
    {rest : List Token} (avoids : HeadAvoids (· = '!') text)
    (taken : Reads (namedType (typeUseWithin limit)) (tokensBehind edge gap text) type rest) :
    Reads (atomWithin limit) (tokensBehind edge gap text) type rest := by
  have noSign := refuses_mark_behind edge gap avoids
  refine reads_orElse.mpr (Or.inr ⟨?_, reads_orElse.mpr (Or.inr ⟨?_, taken⟩)⟩)
  · exact refuses_attempt.mpr (refuses_bind.mpr (Or.inl noSign))
  · exact refuses_attempt.mpr (refuses_bind.mpr (Or.inl noSign))

theorem exists_head_text {name : QualifiedName} (named : name.IsWellNamed) :
    ∃ first more, name.text.toList = first :: more ∧ isWordStart first = true := by
  obtain ⟨head, tail, inner, spelled, written, -⟩ := exists_identifiers named
  obtain ⟨first, more, split, starts⟩ :=
    exists_head_identifier (spelled head List.mem_cons_self)
  exact ⟨first, _, by rw [written, split, List.cons_append], starts⟩

theorem headAvoids_text {name : QualifiedName} (named : name.IsWellNamed) (rest : List Char) :
    HeadAvoids (· = '!') (name.text.toList ++ rest) := by
  obtain ⟨first, more, written, starts⟩ := exists_head_text named
  rw [written]
  exact headAvoids_cons (isWordStart_ne_sign first starts) _

theorem readsBack_named {name : QualifiedName} (named : name.IsWellNamed) :
    ReadsBack (.named name) := by
  intro limit edge gap rest goesOn _
  have stops : Listing.atomEnds.any (fun char => isNameChar char || char = '.' || char = '/') =
      false := by decide
  have taken := reads_typePath edge gap named (goesOn.headAvoids stops)
  have noArguments : Refuses (genericArguments (typeUseWithin limit))
      (tokensAfter (edge + byteSize gap + byteSize name.text.toList) rest) :=
    refuses_attempt.mpr (refuses_bind.mpr (Or.inl
      (refuses_mark_goesOn _ goesOn (List.Subset.refl _) (by decide))))
  refine ⟨TypeReference.ofName name, [], _, ?_, Chain.done _, ?_⟩
  · refine reads_atomWithin (headAvoids_text named rest) (reads_attempt.mpr (taken.bind ?_))
    exact noArguments.maybe.bind (reads_pure.mpr ⟨rfl, rfl⟩)
  · exact (TypeReference.normalized_named named).symm

/-! ### Generic types -/

/-- The text starts like a reference, with a name or the sign of a type parameter. -/
def StartsType (text : String) : Prop :=
  ∃ first more, text.toList = first :: more ∧ (isWordStart first || first = '!') = true

theorem StartsType.append {text : String} (starts : StartsType text) (back : String) :
    StartsType (text ++ back) := by
  obtain ⟨first, more, written, fits⟩ := starts
  exact ⟨first, more ++ back.toList, by rw [String.toList_append, written, List.cons_append], fits⟩

theorem startsType_name {name : QualifiedName} (named : name.IsWellNamed) :
    StartsType name.text := by
  obtain ⟨first, more, written, starts⟩ := exists_head_text named
  exact ⟨first, more, written, by rw [starts, Bool.true_or]⟩

theorem startsType_text : ∀ {reference : TypeReference}, reference.IsWellNamed →
    StartsType reference.text
  | .primitive kind, _ => by
    rw [TypeReference.text, ← kind.text_qualifiedName]
    exact startsType_name kind.isWellNamed_qualifiedName
  | .parameter owner name, _ => by
    have sign (back : String) : StartsType ("!" ++ back) :=
      StartsType.append ⟨'!', [], rfl, rfl⟩ back
    have signs (back : String) : StartsType ("!!" ++ back) :=
      StartsType.append ⟨'!', ['!'], rfl, rfl⟩ back
    cases owner with
    | type => exact sign name
    | method => exact signs name
  | .array element rank, named => by
    have starts : StartsType element.text := startsType_text named
    rw [TypeReference.text]
    exact ((starts.append _).append _).append _
  | .indirect kind element, named => by
    have starts : StartsType element.text := startsType_text named
    cases kind <;> rw [TypeReference.text] <;> exact starts.append _
  | .instantiation definition arguments, named => by
    rw [TypeReference.text]
    exact (((startsType_name named.1).append _).append _).append _
  | .named name, named => by
    rw [TypeReference.text]
    exact startsType_name named

theorem isSolid_of_startsType {char : Char} (fits : (isWordStart char || char = '!') = true) :
    isSolid char = true := by
  rw [Bool.or_eq_true, decide_eq_true_eq] at fits
  rcases fits with starts | rfl
  · exact isSolid_of_isWordChar (isWordChar_of_isWordStart starts)
  · rfl

theorem tokensAfter_startsType (edge : Nat) {text : String} (starts : StartsType text)
    (rest : List Char) :
    tokensAfter edge (text.toList ++ rest) = tokensBehind edge [] (text.toList ++ rest) ∧
      tokensAfter edge (' ' :: text.toList ++ rest) =
        tokensBehind edge [' '] (text.toList ++ rest) := by
  obtain ⟨first, more, written, fits⟩ := starts
  have solid := isSolid_of_startsType fits
  rw [written, List.cons_append, List.cons_append]
  refine ⟨tokensAfter_solid edge solid _, ?_⟩
  have layout : splitLayout (' ' :: first :: (more ++ rest)) =
      ([' '], first :: (more ++ rest)) := by
    have further := splitLayout_solid solid (more ++ rest)
    unfold splitLayout at further ⊢
    rw [splitLayoutFrom, further]
    rfl
  unfold tokensAfter
  rw [List.cons_append, layout]

/-- Arguments as they are written behind the first one. -/
def writtenArguments (arguments : List TypeReference) : List Char :=
  arguments.flatMap fun argument => ',' :: ' ' :: argument.text.toList

theorem goesOn_writtenArguments (arguments : List TypeReference) (rest : List Char) :
    GoesOn useEnds (writtenArguments arguments ++ '>' :: rest) := by
  cases arguments with
  | nil => exact goesOn_cons (by decide) rest
  | cons head tail => exact goesOn_cons (by decide) _

/-- One more argument behind a comma. -/
def nextArgument (limit : Nat) : Reading TypeUse := do
  mark ','
  typeUseWithin limit

theorem chain_arguments {limit : Nat} (rest : List Char) : ∀ {arguments : List TypeReference},
    (∀ argument ∈ arguments, argument.IsWellNamed) → (∀ argument ∈ arguments, ReadsBack argument) →
    ∀ edge, (tokensAfter edge (writtenArguments arguments ++ '>' :: rest)).length ≤ limit →
    ∃ uses, Chain (nextArgument limit)
        (tokensAfter edge (writtenArguments arguments ++ '>' :: rest)) uses
        (tokensAfter (edge + byteSize (writtenArguments arguments)) ('>' :: rest)) ∧
      uses.map TypeUse.type = arguments.map TypeReference.normalized
  | [], _, _, edge, _ => ⟨[], Chain.done _, rfl⟩
  | head :: tail, named, readsBack, edge, enough => by
    rw [List.forall_mem_cons] at named readsBack
    have starts := startsType_text named.1
    have written : writtenArguments (head :: tail) ++ '>' :: rest =
        ',' :: (' ' :: head.text.toList ++ (writtenArguments tail ++ '>' :: rest)) := by
      rw [writtenArguments, List.flatMap_cons, List.append_assoc]
      rfl
    have size : byteSize (writtenArguments (head :: tail)) =
        byteSize [','] + byteSize [' '] + byteSize head.text.toList +
          byteSize (writtenArguments tail) := by
      rw [← byteSize_append, ← byteSize_append, ← byteSize_append]
      rfl
    have comma : isSign ',' = true := rfl
    have gap := (tokensAfter_startsType (edge + byteSize [',']) starts
      (writtenArguments tail ++ '>' :: rest)).2
    rw [written] at enough ⊢
    rw [tokensAfter_sign edge comma, gap] at enough ⊢
    have argument := reads_typeUseWithin readsBack.1 (goesOn_writtenArguments tail rest)
      (Nat.le_of_lt enough)
    have shrunk := (yields_typeUseWithin limit isLawful_of_mem_tokensBehind argument).2
    obtain ⟨uses, chain, types⟩ := chain_arguments rest named.2 readsBack.2 _
      (Nat.le_trans shrunk.length_le (Nat.le_of_lt enough))
    refine ⟨_ :: uses, Chain.step ((reads_mark_cons rfl).bind argument) ?_ ?_, ?_⟩
    · exact Nat.lt_succ_of_le shrunk.length_le
    · rw [size, ← Nat.add_assoc, ← Nat.add_assoc, ← Nat.add_assoc]
      exact chain
    · rw [List.map_cons, List.map_cons, types]

theorem toList_instantiation (definition : QualifiedName) (head : TypeReference)
    (tail : List TypeReference) :
    (TypeReference.instantiation definition (head :: tail)).text.toList =
      definition.text.toList ++ '<' :: (head.text.toList ++ (writtenArguments tail ++ ['>'])) := by
  have joined : (Text.join ", " (TypeReference.texts (head :: tail))).toList =
      head.text.toList ++ writtenArguments tail := by
    rw [TypeReference.texts_eq_map, List.map_cons, Text.toList_join_cons, List.flatMap_map]
    rfl
  rw [TypeReference.text]
  simp only [String.toList_append, joined, List.append_assoc]
  rfl

theorem reads_genericArguments {limit : Nat} (edge : Nat) {head : TypeReference}
    {tail : List TypeReference} (rest : List Char)
    (named : ∀ argument ∈ head :: tail, argument.IsWellNamed)
    (readsBack : ∀ argument ∈ head :: tail, ReadsBack argument)
    (enough : (tokensAfter edge
      ('<' :: (head.text.toList ++ (writtenArguments tail ++ '>' :: rest)))).length ≤ limit + 1) :
    Reads (genericArguments (typeUseWithin limit))
      (tokensAfter edge ('<' :: (head.text.toList ++ (writtenArguments tail ++ '>' :: rest))))
      ((head :: tail).map TypeReference.normalized)
      (tokensAfter (edge + byteSize ['<'] + byteSize head.text.toList +
        byteSize (writtenArguments tail) + byteSize ['>']) rest) := by
  rw [List.forall_mem_cons] at named readsBack
  have opened : isSign '<' = true := rfl
  have closed : isSign '>' = true := rfl
  have touching := (tokensAfter_startsType (edge + byteSize ['<']) (startsType_text named.1)
    (writtenArguments tail ++ '>' :: rest)).1
  rw [tokensAfter_sign edge opened, touching] at enough ⊢
  have first := reads_typeUseWithin readsBack.1 (goesOn_writtenArguments tail rest)
    (Nat.le_of_succ_le_succ enough)
  have shrunk := (yields_typeUseWithin limit isLawful_of_mem_tokensBehind first).2
  obtain ⟨uses, chain, types⟩ := chain_arguments rest named.2 readsBack.2 _
    (Nat.le_trans shrunk.length_le (Nat.le_of_succ_le_succ enough))
  have noMore : Refuses (nextArgument limit) (tokensAfter (edge + byteSize ['<'] + byteSize [] +
      byteSize head.text.toList + byteSize (writtenArguments tail)) ('>' :: rest)) :=
    refuses_bind.mpr (Or.inl (refuses_mark_sign _ closed (by decide) rest))
  have all := reads_separated first chain noMore
  refine reads_attempt.mpr ((reads_mark_cons rfl).bind (all.bind ?_))
  refine (reads_sign _ closed rest).bind (reads_pure.mpr ⟨?_, rfl⟩)
  rw [List.map_cons, List.map_cons, types]

theorem readsBack_instantiation {definition : QualifiedName} {arguments : List TypeReference}
    (named : definition.IsWellNamed) (present : arguments ≠ [])
    (wellNamed : ∀ argument ∈ arguments, argument.IsWellNamed)
    (readsBack : ∀ argument ∈ arguments, ReadsBack argument) :
    ReadsBack (.instantiation definition arguments) := by
  intro limit edge gap rest goesOn enough
  obtain ⟨head, tail, rfl⟩ := List.exists_cons_of_ne_nil present
  have written : (TypeReference.instantiation definition (head :: tail)).text.toList ++ rest =
      definition.text.toList ++
        '<' :: (head.text.toList ++ (writtenArguments tail ++ '>' :: rest)) := by
    rw [toList_instantiation]
    simp
  have size : byteSize (TypeReference.instantiation definition (head :: tail)).text.toList =
      byteSize definition.text.toList + (byteSize ['<'] + byteSize head.text.toList +
        byteSize (writtenArguments tail) + byteSize ['>']) := by
    rw [toList_instantiation, ← byteSize_append, ← byteSize_append, ← byteSize_append,
      ← byteSize_append]
    simp
  rw [written] at enough ⊢
  rw [size]
  have stops : HeadAvoids (fun char => isNameChar char || char = '.' || char = '/')
      ('<' :: (head.text.toList ++ (writtenArguments tail ++ '>' :: rest))) :=
    headAvoids_cons (by decide) _
  have name := reads_typePath edge gap named stops
  have shrunk := (yields_typePath isLawful_of_mem_tokensBehind name).2
  have arguments := reads_genericArguments (edge + byteSize gap + byteSize definition.text.toList)
    rest wellNamed readsBack (Nat.le_trans shrunk.length_le enough)
  refine ⟨.instantiation definition ((head :: tail).map TypeReference.normalized), [], _,
    reads_atomWithin (headAvoids_text named _) ?_, Chain.done _, ?_⟩
  · refine reads_attempt.mpr (name.bind (arguments.maybe.bind (reads_pure.mpr ⟨rfl, ?_⟩)))
    simp only [Nat.add_assoc]
  · rw [TypeReference.normalized, TypeReference.normalizedAll_eq_map]
    rfl

/-! ### All references -/

mutual

/-- **Every well-formed reference is read back from its written form.** -/
theorem readsBack : ∀ reference : TypeReference, reference.IsWellNamed → ReadsBack reference
  | .primitive kind, _ => by
    have named := kind.isWellNamed_qualifiedName
    intro limit edge gap rest goesOn enough
    have written : (TypeReference.primitive kind).text =
        (TypeReference.named kind.qualifiedName).text := by
      rw [TypeReference.text, TypeReference.text, kind.text_qualifiedName]
    have normal : (TypeReference.named kind.qualifiedName).normalized = .primitive kind := by
      rw [TypeReference.normalized_named named, TypeReference.ofName,
        Primitive.ofName?_qualifiedName]
    rw [written] at enough ⊢
    obtain ⟨atom, suffixes, middle, first, chain, whole⟩ := readsBack_named named goesOn enough
    exact ⟨atom, suffixes, middle, first, chain, whole.trans normal⟩
  | .parameter .type _, named => readsBack_typeParameter named
  | .parameter .method _, named => readsBack_methodParameter named
  | .array element rank, named => readsBack_array (readsBack element named) rank
  | .indirect kind element, named => readsBack_indirect (readsBack element named) kind
  | .instantiation _ arguments, named =>
    readsBack_instantiation named.1 named.2.1 (TypeReference.areWellNamed_iff.mp named.2.2)
      (readsBack_all arguments named.2.2)
  | .named _, named => readsBack_named named

theorem readsBack_all : ∀ references : List TypeReference,
    TypeReference.AreWellNamed references → ∀ reference ∈ references, ReadsBack reference
  | [], _ => by simp
  | head :: tail, named =>
    List.forall_mem_cons.mpr ⟨readsBack head named.1, readsBack_all tail named.2⟩

end

end ExternBindings.Listing
