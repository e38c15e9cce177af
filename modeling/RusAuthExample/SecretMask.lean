import RusAuthExample.CallbackFilter

/-!
The callback token as the account page shows it. Whoever reads the token can
forge callbacks, so the page masks it; a token of at most 18 units is shown as
it is.
-/
namespace RusAuthExample
open Utf16Text

def maskSecret (value : Option Str) : Str :=
  match value with
  | none => lit "не задан"
  | some value =>
    if isBlank value then lit "не задан"
    else if value.length ≤ 18 then value
    else value.take 10 ++ lit "..." ++ value.drop (value.length - 6)

def getCallbackBearerTokenPreview (options : ExampleCallbackOptions) : Str :=
  options.callbackBearerToken

def shownToken (options : ExampleCallbackOptions) : Str :=
  maskSecret (some (getCallbackBearerTokenPreview options))

/-- The text shown does not determine the token: another valid one of the same
    length is shown as the same text. -/
def Concealed (options : ExampleCallbackOptions) : Prop :=
  ∃ other : ExampleCallbackOptions, other.callbackBearerToken ≠ options.callbackBearerToken ∧
    other.callbackBearerToken.length = options.callbackBearerToken.length ∧
    shownToken other = shownToken options

theorem shown_short {options : ExampleCallbackOptions}
    (short : options.callbackBearerToken.length ≤ 18) :
    shownToken options = options.callbackBearerToken := by
  have required : isBlank options.callbackBearerToken = false := options.required
  simp [shownToken, getCallbackBearerTokenPreview, maskSecret, required, short]

theorem shown_long {options : ExampleCallbackOptions}
    (long : 18 < options.callbackBearerToken.length) :
    shownToken options = options.callbackBearerToken.take 10 ++ lit "..." ++
      options.callbackBearerToken.drop (options.callbackBearerToken.length - 6) := by
  have required : isBlank options.callbackBearerToken = false := options.required
  simp [shownToken, getCallbackBearerTokenPreview, maskSecret, required, Nat.not_le.mpr long]

def otherUnit (u : UInt16) : UInt16 := if u = 0x61 then 0x62 else 0x61

theorem other_unit_ne (u : UInt16) : otherUnit u ≠ u := by
  simp only [otherUnit]
  split
  · rename_i same
    rw [same]
    decide
  · rename_i different
    exact fun same => different same.symm

theorem other_unit_not_white (u : UInt16) : isWhiteSpace (otherUnit u) = false := by
  simp only [otherUnit]
  split <;> decide

/-- The first unit behind the part that is shown, replaced. -/
def withOtherUnit (token : Str) : Str := token.set 10 (otherUnit (token.getD 10 0))

section Long
variable {token : Str} (long : 18 < token.length)
include long

theorem with_other_unit_ne : withOtherUnit token ≠ token := by
  intro same
  have tenth := congrArg (fun s : Str => s.getD 10 0) same
  simp only [withOtherUnit, List.getD_eq_getElem?_getD] at tenth
  rw [List.getElem?_set_self (by omega), Option.getD_some] at tenth
  exact other_unit_ne _ tenth

theorem with_other_unit_not_blank : isNullOrWhiteSpace (some (withOtherUnit token)) = false := by
  have member : otherUnit (token.getD 10 0) ∈ withOtherUnit token :=
    List.mem_set (by omega) _
  simp only [isNullOrWhiteSpace, isBlank, List.all_eq_false]
  exact ⟨_, member, by simp [other_unit_not_white]⟩

theorem with_other_unit_ends : (withOtherUnit token).take 10 = token.take 10 ∧
    (withOtherUnit token).drop (token.length - 6) = token.drop (token.length - 6) := by
  constructor
  · simp [withOtherUnit, List.take_set_of_le]
  · rw [withOtherUnit, List.drop_set_of_lt (by omega)]

end Long

/-- Exactly the tokens of more than 18 units are concealed. -/
theorem concealed_iff_long (options : ExampleCallbackOptions) :
    Concealed options ↔ 18 < options.callbackBearerToken.length := by
  constructor
  · rintro ⟨other, different, lengths, same⟩
    by_contra short
    rw [shown_short (by omega), shown_short (by omega)] at same
    exact different same
  · intro long
    have lengths : (withOtherUnit options.callbackBearerToken).length =
        options.callbackBearerToken.length := List.length_set
    refine ⟨⟨_, with_other_unit_not_blank long⟩, with_other_unit_ne long, lengths, ?_⟩
    obtain ⟨first, last⟩ := with_other_unit_ends long
    rw [shown_long long, shown_long (by simpa only [lengths] using long)]
    simp only [lengths, first, last]

def shortToken : ExampleCallbackOptions := ⟨lit "secret", rfl⟩

theorem short_token_shown : ¬ Concealed shortToken := by
  rintro ⟨other, different, lengths, same⟩
  have length : other.callbackBearerToken.length ≤ 18 := by
    rw [lengths]
    decide
  rw [shown_short length, shown_short (by decide)] at same
  exact different same

end RusAuthExample
