import RusAuthExample.BacktrackingPatterns
import RusAuthExample.ExamplePages

/-!
The form of the Authorize page with the attributes of its model. The validator of
the framework runs over all properties, and of one property over all attributes
unless the required one fails; the form calls SubmitAsync when nothing is reported.
-/
namespace RusAuthExample
open Utf16Text BacktrackingPatterns

structure ValidationAttribute (V : Type) where
  isRequired : Bool
  isValid : V → Bool
  formatErrorMessage : Str → Str

structure ValidationError where
  memberName : Str
  errorMessage : Str
  deriving DecidableEq, Repr

namespace ValidationAttribute
variable {V : Type}

/-- [Required] for a string: not null, not empty, not white space only. -/
def required : ValidationAttribute Str :=
  ⟨true, fun value => !isBlank value,
    fun name => lit "The " ++ name ++ lit " field is required."⟩

/-- [RegularExpression]: the first match has to be the whole value. An empty value passes. -/
def regularExpression (pattern : Pattern UInt16) (errorMessage : Str) : ValidationAttribute Str :=
  ⟨false, fun value => value.isEmpty || pattern.firstMatch value == some (0, value.length),
    fun _ => errorMessage⟩

def range (minimum maximum : Int) : ValidationAttribute Int :=
  ⟨false, fun value => minimum ≤ value && value ≤ maximum,
    fun name => lit "The field " ++ name ++ lit " must be between " ++ lit (toString minimum) ++
      lit " and " ++ lit (toString maximum) ++ lit "."⟩

def error (validation : ValidationAttribute V) (name : Str) : ValidationError :=
  ⟨name, validation.formatErrorMessage name⟩

end ValidationAttribute

/-- Validator.GetValidationErrors for one property: the required attribute first, and
    the others only if it holds. -/
def getValidationErrors {V : Type} (name : Str) (attributes : List (ValidationAttribute V))
    (value : V) : List ValidationError :=
  let others := ((attributes.eraseP (·.isRequired)).filter fun validation =>
    !validation.isValid value).map (·.error name)
  match attributes.find? (·.isRequired) with
  | none => others
  | some required => if required.isValid value then others else [required.error name]

/-- The first unit of each block of ten decimal digits. -/
def digitZeros : List Nat :=
  [0x30, 0x660, 0x6F0, 0x7C0, 0x966, 0x9E6, 0xA66, 0xAE6, 0xB66, 0xBE6, 0xC66, 0xCE6, 0xD66, 0xDE6,
    0xE50, 0xED0, 0xF20, 0x1040, 0x1090, 0x17E0, 0x1810, 0x1946, 0x19D0, 0x1A80, 0x1A90, 0x1B50,
    0x1BB0, 0x1C40, 0x1C50, 0xA620, 0xA8D0, 0xA900, 0xA9D0, 0xA9F0, 0xAA50, 0xABF0, 0xFF10]

/-- What `\d` accepts: the decimal digits of any script, as single units. -/
def isDecimalDigit (u : UInt16) : Bool :=
  digitZeros.any fun first => first ≤ u.toNat && u.toNat ≤ first + 9

/-- `^\d{5,15}$` -/
def phoneNumberPattern : Pattern UInt16 :=
  .andThen .begins (.andThen (.between (.unit isDecimalDigit) 5 15) (.ends (· == 0x0A)))

def digitsOnlyMessage : Str := lit "Введите только цифры без пробелов и разделителей."

def phoneNumberAttributes : List (ValidationAttribute Str) :=
  [.required, .regularExpression phoneNumberPattern digitsOnlyMessage]

def expirationMinuteAttributes : List (ValidationAttribute Int) := [.range 1 60]

/-- Validator.TryValidateObject over the properties of the form's model. -/
def AuthorizeFormModel.validate (model : AuthorizeFormModel) : List ValidationError :=
  getValidationErrors (lit "PhoneNumber") phoneNumberAttributes model.phoneNumber ++
    getValidationErrors (lit "ExpirationMinute") expirationMinuteAttributes model.expirationMinute

def ValidNumber (s : Str) : Prop :=
  5 ≤ s.length ∧ s.length ≤ 15 ∧ ∀ u ∈ s, isDecimalDigit u = true

instance (s : Str) : Decidable (ValidNumber s) := inferInstanceAs (Decidable (_ ∧ _ ∧ _))

def ValidMinute (minute : Int) : Prop := 1 ≤ minute ∧ minute ≤ 60

instance (minute : Int) : Decidable (ValidMinute minute) := inferInstanceAs (Decidable (_ ∧ _))

theorem digits_not_white :
    ∀ first ∈ digitZeros, ∀ k < 10, isWhiteSpace (UInt16.ofNat (first + k)) = false := by decide

theorem digit_not_white {u : UInt16} (digit : isDecimalDigit u = true) : isWhiteSpace u = false := by
  simp only [isDecimalDigit, List.any_eq_true, Bool.and_eq_true, decide_eq_true_eq] at digit
  obtain ⟨first, listed, low, high⟩ := digit
  have white := digits_not_white first listed (u.toNat - first) (by omega)
  rwa [show first + (u.toNat - first) = u.toNat by omega, UInt16.ofNat_toNat] at white

theorem valid_number_not_blank {s : Str} (valid : ValidNumber s) : isBlank s = false := by
  obtain ⟨long, _, digits⟩ := valid
  cases s with
  | nil => simp at long
  | cons u rest => simp [isBlank, digit_not_white (digits u List.mem_cons_self)]

/-- The pattern matches a text as a whole exactly if it is a number of five to fifteen
    digits. The end may match before a newline, but then the match is not whole. -/
theorem phone_number_pattern_iff (s : Str) :
    phoneNumberPattern.firstMatch s = some (0, s.length) ↔ ValidNumber s := by
  rw [first_match_whole_iff]
  constructor
  · intro found
    have stops := List.mem_of_head? found
    obtain ⟨i, ⟨_, rfl⟩, k, ⟨n, low, high, goes⟩, _, whole⟩ := (mem_stops_iff _ _ _ _).mp stops
    obtain ⟨is, _, digits⟩ := rounds_units goes (Nat.zero_le _)
    obtain rfl : n = s.length := by omega
    refine ⟨low, high, fun u member => digits u ?_⟩
    simpa using member
  · rintro ⟨low, high, digits⟩
    have begins : (Pattern.begins.stops s 0).head? = some 0 := rfl
    have goes : ((Pattern.between (.unit isDecimalDigit) 5 15).stops s 0).head? = some s.length :=
      head_units (by simpa using digits) (by omega) (by omega) (by omega)
    have ends : ((Pattern.ends (fun u : UInt16 => u == 0x0A)).stops s s.length).head? =
        some s.length := by simp [Pattern.stops]
    exact head_and_then begins (head_and_then goes ends)

section Form
variable (model : AuthorizeFormModel)

def requiredError : ValidationError := ValidationAttribute.required.error (lit "PhoneNumber")

def digitsOnlyError : ValidationError := ⟨lit "PhoneNumber", digitsOnlyMessage⟩

def rangeError : ValidationError := (ValidationAttribute.range 1 60).error (lit "ExpirationMinute")

theorem phone_number_errors (s : Str) :
    getValidationErrors (lit "PhoneNumber") phoneNumberAttributes s =
      if isBlank s then [requiredError] else if ValidNumber s then [] else [digitsOnlyError] := by
  have attributes : getValidationErrors (lit "PhoneNumber") phoneNumberAttributes s =
      if !isBlank s then
        if !(s.isEmpty || phoneNumberPattern.firstMatch s == some (0, s.length)) then
          [digitsOnlyError] else []
      else [requiredError] := by
    cases blank : isBlank s <;>
      cases whole : (s.isEmpty || phoneNumberPattern.firstMatch s == some (0, s.length)) <;>
        simp [getValidationErrors, phoneNumberAttributes, ValidationAttribute.required,
          ValidationAttribute.regularExpression, ValidationAttribute.error, requiredError,
          digitsOnlyError, blank, whole]
  rw [attributes]
  cases blank : isBlank s with
  | true => rfl
  | false =>
    have someUnit : s.isEmpty = false := by
      cases s with
      | nil => simp [isBlank] at blank
      | cons u rest => rfl
    by_cases valid : ValidNumber s
    · have whole := (phone_number_pattern_iff s).mpr valid
      simp [valid, whole]
    · have part : phoneNumberPattern.firstMatch s ≠ some (0, s.length) := fun whole =>
        valid ((phone_number_pattern_iff s).mp whole)
      simp [valid, someUnit, part]

theorem expiration_minute_errors (minute : Int) :
    getValidationErrors (lit "ExpirationMinute") expirationMinuteAttributes minute =
      if ValidMinute minute then [] else [rangeError] := by
  have optional : (ValidationAttribute.range 1 60).isRequired = false := rfl
  have holds : (ValidationAttribute.range 1 60).isValid minute = decide (ValidMinute minute) :=
    (Bool.decide_and _ _).symm
  by_cases valid : ValidMinute minute <;>
    simp [getValidationErrors, expirationMinuteAttributes, optional, holds, rangeError, valid]

theorem form_valid_iff : model.validate = [] ↔
    ValidNumber model.phoneNumber ∧ ValidMinute model.expirationMinute := by
  rw [AuthorizeFormModel.validate, phone_number_errors, expiration_minute_errors,
    List.append_eq_nil_iff]
  have notBlank : ValidNumber model.phoneNumber → isBlank model.phoneNumber = false :=
    valid_number_not_blank
  by_cases valid : ValidNumber model.phoneNumber
  · by_cases minute : ValidMinute model.expirationMinute <;> simp [valid, minute, notBlank valid]
  · cases isBlank model.phoneNumber <;> simp [valid]

/-- What the validation reports, for every form: nothing exactly if the number has five
    to fifteen units, each a decimal digit, and the minutes lie between 1 and 60. A
    blank number is reported as missing and not as ill-formed. -/
theorem form_errors_exact : model.validate =
      (if isBlank model.phoneNumber then [requiredError]
        else if ValidNumber model.phoneNumber then [] else [digitsOnlyError]) ++
      (if ValidMinute model.expirationMinute then [] else [rangeError]) ∧
    (model.validate = [] ↔ ValidNumber model.phoneNumber ∧ ValidMinute model.expirationMinute) := by
  refine ⟨?_, form_valid_iff model⟩
  rw [AuthorizeFormModel.validate, phone_number_errors, expiration_minute_errors]

end Form

example : (⟨lit "79001234567\n", 10⟩ : AuthorizeFormModel).validate = [digitsOnlyError] := by decide

end RusAuthExample
