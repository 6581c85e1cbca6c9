/-
**References that are read are in normal form**, unless a rank in them is zero.

Every construct of a reference is followed from its parts: what its suffixes stand for
(`yields_suffix`), its arguments (`yields_genericArguments`), and at the end the whole
(`yields_typeUse`), for every depth of nesting.
-/

import ExternBindings.Listing.TypeUse
import ExternBindings.Proofs.Listing.WrittenName
import ExternBindings.Proofs.Metadata.Normalized

namespace ExternBindings.Listing

open Reading

/-! ### Suffixes -/

section Suffixes

variable {fits : Lexeme → Prop}

theorem yields_commaRun : Yields fits commaRun fun _ => True := by
  refine Yields.orElse ?_ (Yields.pure trivial)
  refine Yields.layout.bind fun before _ => (Yields.mark ',').bind fun _ _ => ?_
  refine (Yields.many (Yields.glued.bind fun _ _ => Yields.mark ',')).bind fun more _ => ?_
  exact Yields.pure trivial

theorem yields_arraySuffix : Yields fits arraySuffix fun _ => True := by
  refine Yields.attempt ((Yields.mark '[').bind fun _ _ => yields_commaRun.bind fun commas _ => ?_)
  refine Yields.layout.bind fun after _ => (Yields.mark ']').bind fun _ _ => ?_
  exact Yields.pure trivial

theorem yields_byRefSuffix : Yields fits byRefSuffix fun _ => True :=
  Yields.attempt ((Yields.mark '&').bind fun _ _ => Yields.pure trivial)

theorem yields_pointerSuffix : Yields fits pointerSuffix fun _ => True :=
  Yields.attempt ((Yields.mark '*').bind fun _ _ => Yields.pure trivial)

theorem yields_suffix : Yields fits suffix fun _ => True :=
  yields_arraySuffix.orElse (yields_byRefSuffix.orElse yields_pointerSuffix)

theorem advances_suffix : Advances fits suffix := by
  have opened (char : Char) {next : Unit → Reading Suffix}
      (after : ∀ value, Yields fits (next value) fun _ => True) :
      Advances fits (mark char >>= next) :=
    Advances.accept.bind (Yields.mark char) after
  refine Advances.orElse ?_ (Advances.orElse ?_ ?_)
  · refine Advances.attempt (opened '[' fun _ => yields_commaRun.bind fun commas _ => ?_)
    refine Yields.layout.bind fun after _ => ?_
    exact (Yields.mark ']').bind fun _ _ => Yields.pure trivial
  · exact Advances.attempt (opened '&' fun _ => Yields.pure trivial)
  · exact Advances.attempt (opened '*' fun _ => Yields.pure trivial)

end Suffixes

theorem isCanonical_foldl_apply {suffixes : List Suffix} :
    ∀ {atom : TypeReference}, atom.IsCanonical → (suffixes.foldl Suffix.apply atom).IsCanonical := by
  induction suffixes with
  | nil => exact fun canonical => canonical
  | cons head tail hypothesis =>
    intro atom canonical
    refine hypothesis ?_
    cases head with
    | array rank => exact TypeReference.isCanonical_array canonical rank
    | indirect kind => exact TypeReference.isCanonical_indirect canonical kind

/-! ### What suffixes stand behind -/

theorem yields_parameterIdentifier :
    Yields Lexeme.IsLawful parameterIdentifier fun text => isIdentifier text = true :=
  Yields.attemptAt (Yields.glued.bind fun _ _ => yields_rawIdentifier)

theorem yields_methodVariable :
    Yields Lexeme.IsLawful methodVariable TypeReference.IsCanonical := by
  refine Yields.attempt ((Yields.mark '!').bind fun _ _ => Yields.glued.bind fun _ _ => ?_)
  refine (Yields.mark '!').bind fun _ _ => yields_parameterIdentifier.bind fun name spelled => ?_
  exact Yields.pure (TypeReference.isCanonical_parameter .method spelled)

theorem yields_typeVariable : Yields Lexeme.IsLawful typeVariable TypeReference.IsCanonical := by
  refine Yields.attempt ((Yields.mark '!').bind fun _ _ => ?_)
  refine yields_parameterIdentifier.bind fun name spelled => ?_
  exact Yields.pure (TypeReference.isCanonical_parameter .type spelled)

section Arguments

variable {argument : Reading TypeUse}
  (yields : Yields Lexeme.IsLawful argument fun use => use.type.IsCanonical)

include yields

theorem yields_genericArguments :
    Yields Lexeme.IsLawful (genericArguments argument)
      fun arguments => arguments ≠ [] ∧ ∀ argument ∈ arguments, argument.IsCanonical := by
  refine Yields.attempt ((Yields.mark '<').bind fun _ _ => ?_)
  refine yields.separated.bind fun arguments both => (Yields.mark '>').bind fun _ _ => ?_
  refine Yields.pure ⟨fun missing => both.1 (List.map_eq_nil_iff.mp missing), ?_⟩
  exact List.forall_mem_map.mpr both.2

theorem yields_namedType :
    Yields Lexeme.IsLawful (namedType argument) TypeReference.IsCanonical := by
  refine Yields.attempt (yields_typePath.bind fun name named => ?_)
  refine (yields_genericArguments yields).maybe.bind fun arguments? all => ?_
  cases arguments? with
  | none => exact Yields.pure (TypeReference.isCanonical_ofName named)
  | some arguments =>
    obtain ⟨present, canonical⟩ := all arguments rfl
    exact Yields.pure (TypeReference.isCanonical_instantiation named present canonical)

end Arguments

theorem yields_typeUseWithin (limit : Nat) :
    Yields Lexeme.IsLawful (typeUseWithin limit) fun use => use.type.IsCanonical := by
  induction limit with
  | zero => exact Yields.fail
  | succ limit hypothesis =>
    have atoms := yields_methodVariable.orElse
      (yields_typeVariable.orElse (yields_namedType hypothesis))
    refine Yields.attempt (atoms.bind fun atom canonical => ?_)
    refine yields_suffix.many.bind fun suffixes _ => ?_
    have whole : (suffixes.foldl Suffix.apply atom).IsCanonical :=
      isCanonical_foldl_apply canonical
    -- the two ways to find the end of the reference do not differ in its type
    show Yields _ (if _ then _ else _) _
    split
    · exact Yields.start.bind fun stop _ => Yields.pure whole
    · exact Yields.edge.bind fun stop _ => Yields.pure whole

/-- **A reference that was read is well-formed, and in normal form unless a rank is zero.** -/
theorem yields_typeUse : Yields Lexeme.IsLawful typeUse fun use => use.type.IsCanonical :=
  fun tokens _ _ lawful taken => yields_typeUseWithin tokens.length lawful taken

/-! ### Texts that hold nothing but a reference -/

theorem readTypeReference_eq_ok {text : String} {reference : TypeReference} :
    readTypeReference text = .ok reference ↔
      ∃ rest, Reads typeUse (tokensBehind 0 [] (Text.trim text.toList))
        { type := reference, stop := byteSize (Text.trim text.toList) } rest := by
  have tokens : tokensFrom (Text.trim text.toList) =
      tokensBehind 0 [] (Text.trim text.toList) := rfl
  unfold readTypeReference Reads
  dsimp only
  rw [tokens]
  rcases (typeUse (tokensBehind 0 [] (Text.trim text.toList))).value? with _ | ⟨⟨type, stop⟩, rest⟩
  · simp
  · by_cases complete : stop = byteSize (Text.trim text.toList)
    · simp [complete]
    · simp [complete]

end ExternBindings.Listing
