import Mathlib.Data.List.DropRight

/-!
Strings as sequences of UTF-16 code units, as the .NET runtime keeps them.
Equality of two strings is equality of their units. A unit of a surrogate pair
may stand alone; the encoder then writes the replacement character for it.
-/
namespace Utf16Text

abbrev Str := List UInt16

def charUnits (c : Char) : Str :=
  if c.toNat < 0x10000 then [c.toNat.toUInt16]
  else [(0xD800 + (c.toNat - 0x10000) / 0x400).toUInt16,
    (0xDC00 + (c.toNat - 0x10000) % 0x400).toUInt16]

def lit (s : String) : Str := s.toList.flatMap charUnits

def IsHigh (u : UInt16) : Prop := 0xD800 ≤ u.toNat ∧ u.toNat < 0xDC00

def IsLow (u : UInt16) : Prop := 0xDC00 ≤ u.toNat ∧ u.toNat < 0xE000

instance (u : UInt16) : Decidable (IsHigh u) := inferInstanceAs (Decidable (_ ∧ _))

instance (u : UInt16) : Decidable (IsLow u) := inferInstanceAs (Decidable (_ ∧ _))

/-- Char.IsWhiteSpace. All white space lies outside the surrogate range. -/
def isWhiteSpace (u : UInt16) : Bool :=
  let n := u.toNat
  (0x09 ≤ n && n ≤ 0x0D) || n == 0x20 || n == 0x85 || n == 0xA0 || n == 0x1680 ||
    (0x2000 ≤ n && n ≤ 0x200A) || n == 0x2028 || n == 0x2029 || n == 0x202F || n == 0x205F ||
    n == 0x3000

def isBlank (s : Str) : Bool := s.all isWhiteSpace

/-- string.IsNullOrWhiteSpace -/
def isNullOrWhiteSpace : Option Str → Bool
  | none => true
  | some s => isBlank s

/-- string.Trim() -/
def trim (s : Str) : Str := (s.dropWhile isWhiteSpace).rdropWhile isWhiteSpace

def asciiUpper (u : UInt16) : UInt16 :=
  if 0x61 ≤ u.toNat ∧ u.toNat ≤ 0x7A then u - 0x20 else u

/-- StartsWith with StringComparison.OrdinalIgnoreCase. The simple upper-case
    mapping sends no unit outside ASCII to a letter of a prefix used here, so
    folding the ASCII letters decides the comparison. -/
def startsWithIgnoreCase (s start : Str) : Bool :=
  (s.take start.length).map asciiUpper == start.map asciiUpper

def replacementBytes : List UInt8 := [0xEF, 0xBF, 0xBD]

def unitBytes (u : UInt16) : List UInt8 :=
  let n := u.toNat
  if IsHigh u ∨ IsLow u then replacementBytes
  else if n < 0x80 then [n.toUInt8]
  else if n < 0x800 then [(0xC0 + n / 0x40).toUInt8, (0x80 + n % 0x40).toUInt8]
  else [(0xE0 + n / 0x1000).toUInt8, (0x80 + n / 0x40 % 0x40).toUInt8, (0x80 + n % 0x40).toUInt8]

def pairBytes (high low : UInt16) : List UInt8 :=
  let n := 0x10000 + (high.toNat - 0xD800) * 0x400 + (low.toNat - 0xDC00)
  [(0xF0 + n / 0x40000).toUInt8, (0x80 + n / 0x1000 % 0x40).toUInt8,
    (0x80 + n / 0x40 % 0x40).toUInt8, (0x80 + n % 0x40).toUInt8]

/-- Encoding.UTF8.GetBytes -/
def getBytes : Str → List UInt8
  | [] => []
  | [u] => unitBytes u
  | u :: v :: rest =>
    if IsHigh u ∧ IsLow v then pairBytes u v ++ getBytes rest
    else unitBytes u ++ getBytes (v :: rest)

theorem unit_bytes_positive (u : UInt16) : 0 < (unitBytes u).length := by
  simp only [unitBytes]
  split
  · simp [replacementBytes]
  · split
    · simp
    · split <;> simp

theorem white_space_not_surrogate {u : UInt16} (white : isWhiteSpace u = true) :
    ¬ IsHigh u ∧ ¬ IsLow u := by
  simp only [isWhiteSpace, Bool.or_eq_true, Bool.and_eq_true, decide_eq_true_eq, beq_iff_eq] at white
  simp only [IsHigh, IsLow]
  omega

theorem get_bytes_cons {u : UInt16} (plain : ¬ IsHigh u) (s : Str) :
    getBytes (u :: s) = unitBytes u ++ getBytes s := by
  cases s with
  | nil => simp [getBytes]
  | cons v rest => simp [getBytes, plain]

/-- White space never joins a surrogate pair, so it is encoded by itself in
    front of any text. -/
theorem get_bytes_white_append {w : Str} (white : ∀ u ∈ w, isWhiteSpace u = true) (s : Str) :
    getBytes (w ++ s) = getBytes w ++ getBytes s := by
  induction w with
  | nil => rfl
  | cons u w ih =>
    have plain := (white_space_not_surrogate (white u (by simp))).1
    rw [List.cons_append, get_bytes_cons plain, get_bytes_cons plain,
      ih fun v member => white v (by simp [member]), List.append_assoc]

theorem get_bytes_append_white {w : Str} (white : ∀ u ∈ w, isWhiteSpace u = true) (s : Str) :
    getBytes (s ++ w) = getBytes s ++ getBytes w := by
  induction s using getBytes.induct with
  | case1 => rfl
  | case2 u =>
    cases w with
    | nil => simp [getBytes]
    | cons v w =>
      have plain := (white_space_not_surrogate (white v (by simp))).2
      simp [getBytes, plain]
  | case3 u v rest pair ih =>
    simp only [List.cons_append, getBytes, pair, and_self, ↓reduceIte, List.append_assoc]
    rw [← ih]
  | case4 u v rest single ih =>
    simp only [List.cons_append, getBytes, single, ↓reduceIte, List.append_assoc]
    rw [← ih]
    rfl

theorem white_bytes_positive {w : Str} (white : ∀ u ∈ w, isWhiteSpace u = true) (some' : w ≠ []) :
    0 < (getBytes w).length := by
  cases w with
  | nil => exact absurd rfl some'
  | cons u w =>
    rw [get_bytes_cons (white_space_not_surrogate (white u (by simp))).1, List.length_append]
    have := unit_bytes_positive u
    omega

theorem trim_split (s : Str) : ∃ before after, s = before ++ trim s ++ after ∧
    (∀ u ∈ before, isWhiteSpace u = true) ∧ ∀ u ∈ after, isWhiteSpace u = true := by
  refine ⟨s.takeWhile isWhiteSpace, (s.dropWhile isWhiteSpace).rtakeWhile isWhiteSpace, ?_,
    fun u member => List.mem_takeWhile_imp member, fun u member => List.mem_rtakeWhile_imp member⟩
  rw [trim, List.append_assoc, List.rdropWhile_append_rtakeWhile, List.takeWhile_append_dropWhile]

/-- Trimming is visible in the encoded bytes unless there was nothing to trim. -/
theorem get_bytes_trim_eq_iff (s : Str) : getBytes (trim s) = getBytes s ↔ trim s = s := by
  constructor
  · intro same
    obtain ⟨before, after, split, left, right⟩ := trim_split s
    have bytes : getBytes s = getBytes before ++ getBytes (trim s) ++ getBytes after := by
      conv => lhs; rw [split]
      rw [get_bytes_append_white right, get_bytes_white_append left]
    have lengths := congrArg List.length bytes
    rw [same] at lengths
    simp only [List.length_append] at lengths
    have noBefore : before = [] := by
      by_contra some'
      have := white_bytes_positive left some'
      omega
    have noAfter : after = [] := by
      by_contra some'
      have := white_bytes_positive right some'
      omega
    subst noBefore; subst noAfter
    simpa using split.symm
  · intro same; rw [same]

def Trimmed (s : Str) : Prop :=
  (∀ u ∈ s.head?, isWhiteSpace u = false) ∧ ∀ u ∈ s.getLast?, isWhiteSpace u = false

theorem trim_eq_self_iff (s : Str) : trim s = s ↔ Trimmed s := by
  cases s with
  | nil => simp [trim, Trimmed]
  | cons u s =>
    by_cases white : isWhiteSpace u = true
    · have shorter : (trim (u :: s)).length ≤ s.length := by
        rw [trim, List.dropWhile_cons_of_pos white]
        exact ((List.rdropWhile_prefix _ _).length_le).trans (List.dropWhile_suffix _).length_le
      constructor
      · intro same
        rw [same, List.length_cons] at shorter
        omega
      · intro ends
        have first := ends.1
        simp [white] at first
    · rw [trim, List.dropWhile_cons_of_neg white, List.rdropWhile_eq_self_iff, Trimmed,
        List.getLast?_eq_some_getLast (List.cons_ne_nil u s)]
      simp [white]

theorem trim_blank_iff (s : Str) : isBlank (trim s) = isBlank s := by
  obtain ⟨before, after, split, left, right⟩ := trim_split s
  have outer : isBlank s = isBlank (before ++ trim s ++ after) := congrArg isBlank split
  have leftAll : before.all isWhiteSpace = true := List.all_eq_true.mpr left
  have rightAll : after.all isWhiteSpace = true := List.all_eq_true.mpr right
  rw [outer]
  simp [isBlank, List.all_append, leftAll, rightAll]

end Utf16Text
