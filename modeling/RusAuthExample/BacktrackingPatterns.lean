import Mathlib.Data.List.Basic

/-!
Patterns over sequences and the search that backtracks. A pattern tried at a
position has several places to stop at; the search takes the first one, so their
order is part of the meaning. A repetition is greedy: it tries another round before
it stops.
-/
namespace BacktrackingPatterns

inductive Pattern (α : Type) where
  | begins
  | unit (accepts : α → Bool)
  | andThen (first second : Pattern α)
  | between (body : Pattern α) (least most : Nat)
  | ends (newline : α → Bool)

variable {α : Type}

def rounds (step : Nat → List Nat) : Nat → Nat → Nat → List Nat
  | least, 0, i => if least = 0 then [i] else []
  | least, most + 1, i =>
    (step i).flatMap (rounds step (least - 1) most) ++ if least = 0 then [i] else []

namespace Pattern

/-- Where the pattern may stop when it is tried at `i`, in the order of the search.
    The end of the text is also before a newline that ends it. -/
def stops : Pattern α → List α → Nat → List Nat
  | .begins, _, i => if i = 0 then [i] else []
  | .unit accepts, s, i => if s[i]?.any accepts then [i + 1] else []
  | .andThen first second, s, i => (first.stops s i).flatMap (second.stops s)
  | .between body least most, s, i => rounds (body.stops s) least most i
  | .ends newline, s, i =>
    if i = s.length ∨ i + 1 = s.length ∧ s[i]?.any newline then [i] else []

def firstMatch (p : Pattern α) (s : List α) : Option (Nat × Nat) :=
  (List.range (s.length + 1)).findSome? fun i => (p.stops s i).head?.map fun j => (i, j)

end Pattern

def Rounds (step : Nat → Nat → Prop) : Nat → Nat → Nat → Prop
  | 0, i, j => j = i
  | n + 1, i, j => ∃ k, step i k ∧ Rounds step n k j

def Pattern.Spans : Pattern α → List α → Nat → Nat → Prop
  | .begins, _, i, j => i = 0 ∧ j = i
  | .unit accepts, s, i, j => s[i]?.any accepts ∧ j = i + 1
  | .andThen first second, s, i, j => ∃ k, first.Spans s i k ∧ second.Spans s k j
  | .between body least most, s, i, j => ∃ n, least ≤ n ∧ n ≤ most ∧ Rounds (body.Spans s) n i j
  | .ends newline, s, i, j =>
    (i = s.length ∨ i + 1 = s.length ∧ s[i]?.any newline) ∧ j = i

theorem mem_rounds_iff {step : Nat → List Nat} {Step : Nat → Nat → Prop}
    (each : ∀ i j, j ∈ step i ↔ Step i j) (least most i j : Nat) :
    j ∈ rounds step least most i ↔ ∃ n, least ≤ n ∧ n ≤ most ∧ Rounds Step n i j := by
  induction most generalizing least i with
  | zero =>
    by_cases none : least = 0
    · simp [rounds, none, Rounds]
    · simp [rounds, none]
  | succ most ih =>
    simp only [rounds, List.mem_append, List.mem_flatMap]
    constructor
    · rintro (⟨k, one, rest⟩ | stop)
      · obtain ⟨n, low, high, goes⟩ := (ih (least - 1) k).mp rest
        exact ⟨n + 1, by omega, by omega, k, (each i k).mp one, goes⟩
      · by_cases none : least = 0
        · rw [if_pos none, List.mem_singleton] at stop
          exact ⟨0, by omega, by omega, stop⟩
        · simp [none] at stop
    · rintro ⟨n, low, high, goes⟩
      cases n with
      | zero =>
        right
        obtain rfl : least = 0 := by omega
        simpa [Rounds] using goes
      | succ n =>
        left
        obtain ⟨k, one, rest⟩ := goes
        exact ⟨k, (each i k).mpr one, (ih (least - 1) k).mpr ⟨n, by omega, by omega, rest⟩⟩

theorem mem_stops_iff (p : Pattern α) (s : List α) (i j : Nat) : j ∈ p.stops s i ↔ p.Spans s i j := by
  induction p generalizing i j with
  | begins => by_cases first : i = 0 <;> simp [Pattern.stops, Pattern.Spans, first]
  | unit accepts =>
    by_cases takes : s[i]?.any accepts <;> simp [Pattern.stops, Pattern.Spans, takes]
  | andThen first second ih₁ ih₂ =>
    simp only [Pattern.stops, Pattern.Spans, List.mem_flatMap, ih₁, ih₂]
  | between body least most ih => exact mem_rounds_iff ih least most i j
  | ends newline =>
    by_cases last : i = s.length ∨ i + 1 = s.length ∧ s[i]?.any newline <;>
      simp only [Pattern.stops, Pattern.Spans, last, if_true, if_false, List.mem_singleton,
        List.not_mem_nil, true_and, false_and]

/-- A whole match is the search's first choice at the very start. -/
theorem first_match_whole_iff (p : Pattern α) (s : List α) (j : Nat) :
    p.firstMatch s = some (0, j) ↔ (p.stops s 0).head? = some j := by
  rw [Pattern.firstMatch, List.range_succ_eq_map, List.findSome?_cons]
  cases found : (p.stops s 0).head? with
  | some k => simp
  | none =>
    simp only [Option.map_none, reduceCtorEq, iff_false]
    intro later
    obtain ⟨i, member, some⟩ := List.exists_of_findSome?_eq_some later
    obtain ⟨k, _, rfl⟩ := List.mem_map.mp member
    rw [Option.map_eq_some_iff] at some
    obtain ⟨_, _, same⟩ := some
    simp at same

theorem head_and_then {first second : Pattern α} {s : List α} {i k j : Nat}
    (goes : (first.stops s i).head? = some k) (on : (second.stops s k).head? = some j) :
    ((Pattern.andThen first second).stops s i).head? = some j := by
  obtain ⟨rest, stops⟩ := List.head?_eq_some_iff.mp goes
  obtain ⟨more, stops'⟩ := List.head?_eq_some_iff.mp on
  rw [Pattern.stops, stops, List.flatMap_cons, stops']
  rfl

theorem head_units {accepts : α → Bool} {s : List α} {least most i : Nat}
    (all : ∀ a ∈ s.drop i, accepts a = true) (enough : least ≤ s.length - i)
    (room : s.length - i ≤ most) (inside : i ≤ s.length) :
    ((Pattern.between (.unit accepts) least most).stops s i).head? = some s.length := by
  induction most generalizing least i with
  | zero =>
    obtain rfl : i = s.length := by omega
    obtain rfl : least = 0 := by omega
    simp [Pattern.stops, rounds]
  | succ most ih =>
    by_cases last : i = s.length
    · subst last
      obtain rfl : least = 0 := by omega
      simp [Pattern.stops, rounds]
    · have before : i < s.length := by omega
      have takes : accepts s[i] = true := all _ (by
        rw [List.drop_eq_getElem_cons before]
        exact List.mem_cons_self)
      have later : ∀ a ∈ s.drop (i + 1), accepts a = true := fun a member => all a (by
        rw [List.drop_eq_getElem_cons before]
        exact List.mem_cons_of_mem _ member)
      have rest : (rounds ((Pattern.unit accepts).stops s) (least - 1) most (i + 1)).head? =
          some s.length := ih later (by omega) (by omega) (by omega)
      have once : (Pattern.unit accepts).stops s i = [i + 1] := by
        simp [Pattern.stops, before, takes]
      obtain ⟨more, stops⟩ := List.head?_eq_some_iff.mp rest
      rw [Pattern.stops, rounds, once, List.flatMap_singleton, stops]
      rfl

theorem rounds_units {accepts : α → Bool} {s : List α} {n i j : Nat}
    (goes : Rounds ((Pattern.unit accepts).Spans s) n i j) (inside : i ≤ s.length) :
    j = i + n ∧ j ≤ s.length ∧ ∀ a ∈ (s.drop i).take n, accepts a = true := by
  induction n generalizing i with
  | zero =>
    obtain rfl : j = i := goes
    simpa using inside
  | succ n ih =>
    obtain ⟨k, ⟨takes, rfl⟩, rest⟩ := goes
    cases found : s[i]? with
    | none => simp [found] at takes
    | some a =>
      obtain ⟨before, is⟩ := List.getElem?_eq_some_iff.mp found
      obtain ⟨rfl, inside', all⟩ := ih rest before
      refine ⟨by omega, inside', ?_⟩
      rw [List.drop_eq_getElem_cons before, List.take_succ_cons, is]
      intro b member
      rcases List.mem_cons.mp member with rfl | later
      · simpa [found] using takes
      · exact all b later

end BacktrackingPatterns
