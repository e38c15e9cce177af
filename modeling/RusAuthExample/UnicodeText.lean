import RusAuthExample.Utf16Text

/-!
Well-formed Unicode text: the UTF-16 form of some sequence of scalar values. On
such text the encoder is the standard one and loses nothing, while a lone
surrogate is replaced and so may collide with another one. White space is never
part of a surrogate pair, hence text stays well formed when its ends are cut off.
-/
namespace Utf16Text

def WellFormed (s : Str) : Prop := ∃ chars : List Char, s = chars.flatMap charUnits

theorem well_formed_lit (s : String) : WellFormed (lit s) := ⟨s.toList, rfl⟩

section Units

theorem to_nat_of_lt {n : Nat} (bound : n < 0x10000) : n.toUInt16.toNat = n := by
  simp only [Nat.toUInt16, UInt16.toNat_ofNat']
  omega

/-- A scalar value of the basic plane is one unit, which is no surrogate. -/
theorem char_units_basic {c : Char} (basic : c.toNat < 0x10000) :
    charUnits c = [c.toNat.toUInt16] ∧ ¬ IsHigh c.toNat.toUInt16 ∧ ¬ IsLow c.toNat.toUInt16 := by
  have scalar : c.toNat < 0xD800 ∨ (0xDFFF < c.toNat ∧ c.toNat < 0x110000) := c.valid
  refine ⟨by simp [charUnits, basic], ?_, ?_⟩
  · simp only [IsHigh, to_nat_of_lt basic]
    omega
  · simp only [IsLow, to_nat_of_lt basic]
    omega

theorem char_units_supplementary {c : Char} (supplementary : ¬ c.toNat < 0x10000) :
    ∃ high low, charUnits c = [high, low] ∧ IsHigh high ∧ IsLow low ∧
      high.toNat = 0xD800 + (c.toNat - 0x10000) / 0x400 ∧
      low.toNat = 0xDC00 + (c.toNat - 0x10000) % 0x400 := by
  have scalar : c.toNat < 0xD800 ∨ (0xDFFF < c.toNat ∧ c.toNat < 0x110000) := c.valid
  have highBound : 0xD800 + (c.toNat - 0x10000) / 0x400 < 0x10000 := by omega
  have lowBound : 0xDC00 + (c.toNat - 0x10000) % 0x400 < 0x10000 := by omega
  refine ⟨_, _, by simp only [charUnits, supplementary, ↓reduceIte], ?_, ?_,
    to_nat_of_lt highBound, to_nat_of_lt lowBound⟩
  · simp only [IsHigh, to_nat_of_lt highBound]
    omega
  · simp only [IsLow, to_nat_of_lt lowBound]
    omega

end Units

section Encoding

theorem unit_bytes_basic {c : Char} (basic : c.toNat < 0x10000) :
    unitBytes c.toNat.toUInt16 = String.utf8EncodeChar c := by
  obtain ⟨_, notHigh, notLow⟩ := char_units_basic basic
  have value : c.val.toNat = c.toNat := rfl
  simp only [unitBytes, notHigh, notLow, or_self, ↓reduceIte, to_nat_of_lt basic,
    String.utf8EncodeChar, value]
  by_cases one : c.toNat < 0x80
  · have one' : c.toNat ≤ 0x7f := by omega
    rw [if_pos one, if_pos one']
  have one' : ¬ c.toNat ≤ 0x7f := by omega
  rw [if_neg one, if_neg one']
  by_cases two : c.toNat < 0x800
  · have two' : c.toNat ≤ 0x7ff := by omega
    have fits : c.toNat / 64 % 32 = c.toNat / 64 := Nat.mod_eq_of_lt (by omega)
    rw [if_pos two, if_pos two', fits, Nat.add_comm 0xC0, Nat.add_comm 0x80]
  · have two' : ¬ c.toNat ≤ 0x7ff := by omega
    have three : c.toNat ≤ 0xffff := by omega
    have fits : c.toNat / 4096 % 16 = c.toNat / 4096 := Nat.mod_eq_of_lt (by omega)
    rw [if_neg two, if_neg two', if_pos three, fits, Nat.add_comm 0xE0, Nat.add_comm 0x80,
      Nat.add_comm 0x80]

theorem pair_bytes_supplementary {c : Char} {high low : UInt16}
    (supplementary : ¬ c.toNat < 0x10000)
    (first : high.toNat = 0xD800 + (c.toNat - 0x10000) / 0x400)
    (second : low.toNat = 0xDC00 + (c.toNat - 0x10000) % 0x400) :
    pairBytes high low = String.utf8EncodeChar c := by
  have scalar : c.toNat < 0xD800 ∨ (0xDFFF < c.toNat ∧ c.toNat < 0x110000) := c.valid
  have value : c.val.toNat = c.toNat := rfl
  have number : 0x10000 + (high.toNat - 0xD800) * 0x400 + (low.toNat - 0xDC00) = c.toNat := by
    rw [first, second]
    omega
  have fits : c.toNat / 262144 % 8 = c.toNat / 262144 := Nat.mod_eq_of_lt (by omega)
  simp only [pairBytes, number, String.utf8EncodeChar, value]
  rw [if_neg (by omega), if_neg (by omega), if_neg (by omega), fits, Nat.add_comm 0xF0,
    Nat.add_comm 0x80, Nat.add_comm 0x80, Nat.add_comm 0x80]

/-- On well-formed text the encoder is the one of Lean's own strings. -/
theorem get_bytes_flat_map (chars : List Char) :
    getBytes (chars.flatMap charUnits) = chars.flatMap String.utf8EncodeChar := by
  induction chars with
  | nil => rfl
  | cons c chars ih =>
    by_cases basic : c.toNat < 0x10000
    · obtain ⟨units, notHigh, _⟩ := char_units_basic basic
      rw [List.flatMap_cons, List.flatMap_cons, units, List.singleton_append,
        get_bytes_cons notHigh, unit_bytes_basic basic, ih]
    · obtain ⟨high, low, units, isHigh, isLow, first, second⟩ := char_units_supplementary basic
      rw [List.flatMap_cons, List.flatMap_cons, units]
      simp only [List.cons_append, List.nil_append, getBytes, isHigh, isLow, and_self, ↓reduceIte]
      rw [pair_bytes_supplementary basic first second, ih]

theorem get_bytes_injective {s t : Str} (left : WellFormed s) (right : WellFormed t)
    (same : getBytes s = getBytes t) : s = t := by
  obtain ⟨cs, rfl⟩ := left
  obtain ⟨ds, rfl⟩ := right
  rw [get_bytes_flat_map, get_bytes_flat_map] at same
  have encoded : cs.utf8Encode = ds.utf8Encode := congrArg List.toByteArray same
  have decoded := congrArg ByteArray.utf8Decode? encoded
  rw [List.utf8Decode?_utf8Encode, List.utf8Decode?_utf8Encode, Option.some.injEq] at decoded
  obtain rfl : cs = ds := congrArg Array.toList decoded
  rfl

end Encoding

section Cutting

theorem well_formed_tail {u : UInt16} {s : Str} (notHigh : ¬ IsHigh u)
    (whole : WellFormed (u :: s)) : WellFormed s := by
  obtain ⟨chars, eq⟩ := whole
  cases chars with
  | nil => simp at eq
  | cons c chars =>
    rw [List.flatMap_cons] at eq
    by_cases basic : c.toNat < 0x10000
    · rw [(char_units_basic basic).1, List.singleton_append, List.cons.injEq] at eq
      exact ⟨chars, eq.2⟩
    · obtain ⟨high, low, units, isHigh, _⟩ := char_units_supplementary basic
      rw [units, List.cons_append, List.cons.injEq] at eq
      exact absurd (eq.1 ▸ isHigh) notHigh

theorem well_formed_init {u : UInt16} {s : Str} (notLow : ¬ IsLow u)
    (whole : WellFormed (s ++ [u])) : WellFormed s := by
  obtain ⟨chars, eq⟩ := whole
  rcases List.eq_nil_or_concat chars with rfl | ⟨chars, c, rfl⟩
  · simp at eq
  · rw [List.concat_eq_append, List.flatMap_append, List.flatMap_singleton] at eq
    by_cases basic : c.toNat < 0x10000
    · rw [(char_units_basic basic).1] at eq
      exact ⟨chars, (List.append_inj' eq rfl).1⟩
    · obtain ⟨high, low, units, _, isLow, _⟩ := char_units_supplementary basic
      rw [units, show [high, low] = [high] ++ [low] from rfl, ← List.append_assoc] at eq
      obtain ⟨_, last⟩ := List.append_inj' eq rfl
      rw [List.singleton_inj.mp last] at notLow
      exact absurd isLow notLow

theorem well_formed_drop {before s : Str} (plain : ∀ u ∈ before, ¬ IsHigh u)
    (whole : WellFormed (before ++ s)) : WellFormed s := by
  induction before with
  | nil => exact whole
  | cons u before ih =>
    exact ih (fun v member => plain v (List.mem_cons_of_mem u member))
      (well_formed_tail (plain u List.mem_cons_self) whole)

theorem well_formed_take {s after : Str} (plain : ∀ u ∈ after, ¬ IsLow u)
    (whole : WellFormed (s ++ after)) : WellFormed s := by
  induction after using List.reverseRecOn with
  | nil => simpa using whole
  | append_singleton after u ih =>
    rw [← List.append_assoc] at whole
    exact ih (fun v member => plain v (List.mem_append_left _ member))
      (well_formed_init (plain u (by simp)) whole)

theorem well_formed_trim {s : Str} (whole : WellFormed s) : WellFormed (trim s) := by
  obtain ⟨before, after, split, left, right⟩ := trim_split s
  rw [split] at whole
  exact well_formed_drop (fun u member => (white_space_not_surrogate (left u member)).1)
    (well_formed_take (fun u member => (white_space_not_surrogate (right u member)).2) whole)

end Cutting

section Trimming

theorem trimmed_trim (s : Str) : Trimmed (trim s) := by
  constructor
  · intro u first
    obtain ⟨rest, split⟩ := List.rdropWhile_prefix isWhiteSpace (s.dropWhile isWhiteSpace)
    have whole : (s.dropWhile isWhiteSpace).head? = some u := by
      rw [← split]
      simp only [trim, Option.mem_def] at first
      rw [List.head?_append, first, Option.some_or]
    have stops := List.head?_dropWhile_not isWhiteSpace s
    rw [whole] at stops
    simpa using stops
  · intro u last
    have nonempty : trim s ≠ [] := by
      intro empty
      rw [empty] at last
      simp at last
    have stops := List.rdropWhile_last_not isWhiteSpace (s.dropWhile isWhiteSpace) nonempty
    rw [List.getLast?_eq_some_getLast nonempty, Option.mem_some_iff] at last
    rw [← last]
    simpa [trim] using stops

theorem rdrop_white_append {s after : Str} (ends : ∀ u ∈ s.getLast?, isWhiteSpace u = false)
    (white : ∀ u ∈ after, isWhiteSpace u = true) :
    (s ++ after).rdropWhile isWhiteSpace = s := by
  induction after using List.reverseRecOn with
  | nil =>
    rw [List.append_nil, List.rdropWhile_eq_self_iff]
    intro nonempty
    simp [ends _ (List.getLast?_eq_some_getLast nonempty)]
  | append_singleton after u ih =>
    rw [← List.append_assoc, List.rdropWhile_concat_pos _ _ _ (white u (by simp))]
    exact ih fun v member => white v (List.mem_append_left _ member)

/-- White space around trimmed text is all that trimming takes away. -/
theorem trim_padded {before s after : Str} (trimmed : Trimmed s) (some' : s ≠ [])
    (left : ∀ u ∈ before, isWhiteSpace u = true) (right : ∀ u ∈ after, isWhiteSpace u = true) :
    trim (before ++ s ++ after) = s := by
  have start : (before ++ s ++ after).dropWhile isWhiteSpace = s ++ after := by
    rw [List.append_assoc, List.dropWhile_append_of_pos left]
    cases s with
    | nil => exact absurd rfl some'
    | cons u s =>
      have stops : isWhiteSpace u = false := trimmed.1 u rfl
      rw [List.cons_append, List.dropWhile_cons_of_neg (by simp [stops])]
  rw [trim, start, rdrop_white_append trimmed.2 right]

end Trimming
end Utf16Text
