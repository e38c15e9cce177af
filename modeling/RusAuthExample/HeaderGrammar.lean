import RusAuthExample.CallbackFilter
import RusAuthExample.UnicodeText

/-!
The language of the callback filter. The steps of the filter, a test for blanks,
a prefix, a slice, a trim, another test and a comparison of encoded bytes, come
down to one grammar of the header. The filter is given whatever options exist
here, also a blank token that the validation at start would refuse.
-/
namespace RusAuthExample
open Utf16Text

/-- OnAuthorization for any configured token. -/
def onAuthorizationWith (callbackBearerToken : Str) (values : List Str) : Option ActionResult :=
  match tryGetBearerToken (authorizationHeader values) with
  | none => some .unauthorized
  | some providedToken =>
    if fixedTimeEquals providedToken callbackBearerToken then none else some .unauthorized

theorem on_authorization_with (options : ExampleCallbackOptions) (values : List Str) :
    onAuthorization options values = onAuthorizationWith options.callbackBearerToken values := rfl

/-- The scheme in any letter case, white space, the token, white space. -/
def BearerGrammar (token header : Str) : Prop :=
  ∃ scheme before after, header = scheme ++ before ++ token ++ after ∧
    scheme.map asciiUpper = bearerPrefix.map asciiUpper ∧
    (∀ u ∈ before, isWhiteSpace u = true) ∧ ∀ u ∈ after, isWhiteSpace u = true

theorem ascii_upper_plain {u : UInt16} (plain : ¬ IsHigh (asciiUpper u)) : ¬ IsHigh u := by
  simp only [asciiUpper] at plain
  split at plain
  · simp only [IsHigh]
    omega
  · exact plain

theorem scheme_length {scheme : Str}
    (same : scheme.map asciiUpper = bearerPrefix.map asciiUpper) :
    scheme.length = bearerPrefix.length := by
  simpa using congrArg List.length same

theorem scheme_plain {scheme : Str} (same : scheme.map asciiUpper = bearerPrefix.map asciiUpper) :
    ∀ u ∈ scheme, ¬ IsHigh u := by
  intro u member
  have upper : asciiUpper u ∈ bearerPrefix.map asciiUpper := by
    rw [← same]
    exact List.mem_map_of_mem member
  have all : ((bearerPrefix.map asciiUpper).all fun v => ¬ IsHigh v) = true := by decide
  exact ascii_upper_plain (of_decide_eq_true (List.all_eq_true.mp all _ upper))

section Grammar
variable {token header : Str}

theorem provided_token_split {providedToken : Str}
    (provided : tryGetBearerToken header = some providedToken) :
    isBlank providedToken = false ∧ ∃ scheme rest, header = scheme ++ rest ∧
      scheme.map asciiUpper = bearerPrefix.map asciiUpper ∧ providedToken = trim rest := by
  rw [tryGetBearerToken] at provided
  split at provided
  · cases provided
  split at provided
  · cases provided
  rename_i starts
  dsimp only at provided
  split at provided
  · cases provided
  rename_i notBlank
  obtain rfl := Option.some.inj provided
  refine ⟨by simpa using notBlank, header.take bearerPrefix.length, header.drop bearerPrefix.length,
    (List.take_append_drop _ _).symm, ?_, rfl⟩
  simpa [startsWithIgnoreCase] using starts

theorem try_get_of_grammar (notBlank : isBlank token = false) (trimmed : Trimmed token)
    (grammar : BearerGrammar token header) : tryGetBearerToken header = some token := by
  obtain ⟨scheme, before, after, rfl, same, left, right⟩ := grammar
  have length := scheme_length same
  have some' : token ≠ [] := by
    intro empty
    rw [empty] at notBlank
    cases notBlank
  have whole : isBlank (scheme ++ before ++ token ++ after) = false := by
    have : token.all isWhiteSpace = false := notBlank
    simp [isBlank, this]
  have starts : startsWithIgnoreCase (scheme ++ before ++ token ++ after) bearerPrefix = true := by
    rw [startsWithIgnoreCase, List.append_assoc, List.append_assoc, ← length, List.take_left, same]
    exact beq_self_eq_true _
  have rest : (scheme ++ before ++ token ++ after).drop bearerPrefix.length =
      before ++ token ++ after := by
    rw [List.append_assoc, List.append_assoc, ← length, List.drop_left, List.append_assoc]
  rw [tryGetBearerToken, rest, trim_padded trimmed some' left right]
  simp only [whole, starts, notBlank, Bool.true_eq_false, Bool.false_eq_true, ↓reduceIte]

/-- The provided token is well formed with the header, so equal bytes mean an
    equal token. -/
theorem grammar_of_accepted (tokenText : WellFormed token) (headerText : WellFormed header)
    {providedToken : Str} (provided : tryGetBearerToken header = some providedToken)
    (equal : fixedTimeEquals providedToken token = true) :
    isBlank token = false ∧ Trimmed token ∧ BearerGrammar token header := by
  obtain ⟨notBlank, scheme, rest, rfl, same, rfl⟩ := provided_token_split provided
  have restText : WellFormed rest := well_formed_drop (scheme_plain same) headerText
  have bytes : getBytes (trim rest) = getBytes token := by simpa [fixedTimeEquals] using equal
  obtain rfl := get_bytes_injective (well_formed_trim restText) tokenText bytes
  obtain ⟨before, after, split, left, right⟩ := trim_split rest
  refine ⟨notBlank, trimmed_trim rest, scheme, before, after, ?_, same, left, right⟩
  rw [List.append_assoc, List.append_assoc, ← List.append_assoc before, ← split]

end Grammar

/-- The filter leaves the result unset on exactly the headers of the grammar, for
    a token that is neither blank nor has white space at its ends, and sets an
    UnauthorizedResult in every other case. -/
theorem accepts_exactly_grammar {token : Str} {values : List Str} (tokenText : WellFormed token)
    (headerText : WellFormed (authorizationHeader values)) :
    (onAuthorizationWith token values = none ↔
      isNullOrWhiteSpace (some token) = false ∧ Trimmed token ∧
        BearerGrammar token (authorizationHeader values)) ∧
    (onAuthorizationWith token values ≠ none →
      onAuthorizationWith token values = some .unauthorized) := by
  have other : onAuthorizationWith token values = none ∨
      onAuthorizationWith token values = some .unauthorized := by
    rw [onAuthorizationWith]
    split
    · exact Or.inr rfl
    · split
      · exact Or.inl rfl
      · exact Or.inr rfl
  refine ⟨⟨fun accepts => ?_, ?_⟩, fun rejects => other.resolve_left rejects⟩
  · rw [onAuthorizationWith] at accepts
    split at accepts
    · cases accepts
    · rename_i provided
      split at accepts
      · rename_i equal
        exact grammar_of_accepted tokenText headerText provided equal
      · cases accepts
  · rintro ⟨notBlank, trimmed, grammar⟩
    rw [onAuthorizationWith, try_get_of_grammar notBlank trimmed grammar]
    simp [fixedTimeEquals]

theorem lower_case_scheme_accepted :
    onAuthorizationWith (lit "secret") [lit "bearer  secret "] = none := by
  have text : authorizationHeader [lit "bearer  secret "] = lit "bearer  secret " := by decide
  have headerText : WellFormed (authorizationHeader [lit "bearer  secret "]) := by
    rw [text]
    exact well_formed_lit _
  have grammar : BearerGrammar (lit "secret") (authorizationHeader [lit "bearer  secret "]) :=
    ⟨lit "bearer ", lit " ", lit " ", by decide, by decide,
      List.all_eq_true.mp (by decide), List.all_eq_true.mp (by decide)⟩
  refine (accepts_exactly_grammar (well_formed_lit _) headerText).1.mpr ⟨by decide, ?_, grammar⟩
  exact (trim_eq_self_iff _).mp (by decide)

end RusAuthExample
