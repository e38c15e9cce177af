import Mathlib.Algebra.BigOperators.Group.Finset.Piecewise
import Mathlib.Algebra.Order.BigOperators.Group.Finset
import RusAuthExample.InterleavedRuns

/-!
One event loop for all tasks. A piece of code, once begun, goes on until its task
awaits an answer or is over; only then does another task go on. What the tasks of a
run did together is the sum of what each of them did.
-/
namespace EventLoops
open OperationPrograms InterleavedRuns

variable {S : Signature} {X A σ ι : Type}

def Rests (awaits : S.Op → Prop) (past : List (Performed S)) (rest : Prog S X A) : Prop :=
  past = [] ∨ Finished rest ∨ ∃ e next, rest = .op e next ∧ awaits e

instance (awaits : S.Op → Prop) [DecidablePred awaits] (past : List (Performed S)) :
    (rest : Prog S X A) → Decidable (Rests awaits past rest)
  | .ret a => .isTrue (Or.inr (Or.inl (finished_ret a)))
  | .raise x => .isTrue (Or.inr (Or.inl (finished_raise x)))
  | .op e next => decidable_of_iff (past = [] ∨ awaits e) (by
      constructor
      · rintro (empty | waits)
        · exact Or.inl empty
        · exact Or.inr (Or.inr ⟨e, next, rfl, waits⟩)
      · rintro (empty | ended | ⟨_, _, ⟨⟩, waits⟩)
        · exact Or.inl empty
        · exact absurd rfl (ended e next)
        · exact Or.inr waits)

variable [DecidableEq ι]

def InTurn (awaits : S.Op → Prop) (tr : List (Label S ι)) (m : Pool S X A σ ι) (l : Label S ι) :
    Prop :=
  ∀ j, j ≠ l.1 → Rests awaits (own j tr) (m.task j)

instance [Fintype ι] (awaits : S.Op → Prop) [DecidablePred awaits] (tr : List (Label S ι))
    (m : Pool S X A σ ι) (l : Label S ι) : Decidable (InTurn awaits tr m l) :=
  inferInstanceAs (Decidable (∀ j, j ≠ l.1 → _))

/-- A task in the middle of a piece of code is the one that takes the step. -/
theorem running_steps {awaits : S.Op → Prop} {tr : List (Label S ι)} {m : Pool S X A σ ι}
    {l : Label S ι} (turn : InTurn awaits tr m l) {i : ι} (begun : own i tr ≠ []) {e : S.Op}
    {next : S.Answer e → Prog S X A} (ready : m.task i = .op e next) (moves : ¬ awaits e) :
    i = l.1 := by
  by_contra other
  rcases turn i other with empty | ended | ⟨e', next', ready', waits⟩
  · exact begun empty
  · exact ended e next ready
  · rw [ready] at ready'
    cases ready'
    exact moves waits

section Counts
variable (P : ι → Performed S → Bool)

theorem count_snoc (tr : List (Label S ι)) (l : Label S ι) (i : ι) :
    (own i (tr ++ [l])).countP (P i) =
      (own i tr).countP (P i) + if i = l.1 then (if P l.1 l.2 then 1 else 0) else 0 := by
  obtain ⟨j, o⟩ := l
  by_cases mine : i = j
  · subst mine
    rw [own_snoc_self, List.countP_append, List.countP_singleton]
    simp
  · rw [own_snoc_other mine]
    simp [mine]

theorem count_own (tr : List (Label S ι)) (T : Finset ι) (all : ∀ l ∈ tr, l.1 ∈ T) :
    ∑ i ∈ T, (own i tr).countP (P i) = tr.countP fun l => P l.1 l.2 := by
  induction tr using List.reverseRecOn with
  | nil => simp [own]
  | append_singleton tr l ih =>
    have before := ih fun l' member => all l' (List.mem_append_left _ member)
    simp only [count_snoc, Finset.sum_add_distrib, Finset.sum_ite_eq', before,
      all l (by simp), if_true, List.countP_append, List.countP_singleton]

theorem count_le_of_own {Q : ι → Performed S → Bool} {tr : List (Label S ι)}
    (each : ∀ i, (own i tr).countP (P i) ≤ (own i tr).countP (Q i)) :
    (tr.countP fun l => P l.1 l.2) ≤ tr.countP fun l => Q l.1 l.2 := by
  have all : ∀ l ∈ tr, l.1 ∈ (tr.map Prod.fst).toFinset := fun l member => by
    rw [List.mem_toFinset]
    exact List.mem_map_of_mem member
  rw [← count_own P tr _ all, ← count_own Q tr _ all]
  exact Finset.sum_le_sum fun i _ => each i

/-- Each operation of the one kind is paid for by an operation of the other kind that
    the same task has performed before. -/
def Paid (P : S.Op → Bool) (Q : Performed S → Bool) (past : List (Performed S)) (e : S.Op) : Prop :=
  P e = true → (past.countP fun o => P o.1) < past.countP Q

instance (P : S.Op → Bool) (Q : Performed S → Bool) (past : List (Performed S)) (e : S.Op) :
    Decidable (Paid P Q past e) := inferInstanceAs (Decidable (P e = true → _ < _))

theorem own_le_of_paid {H : ι → Semantics S σ} {p q : Pool S X A σ ι} {tr : List (Label S ι)}
    {P : S.Op → Bool} {Q : Performed S → Bool} {i : ι} (paid : (p.task i).Obeys (Paid P Q) [])
    (run : Exec H p tr q) : ((own i tr).countP fun o => P o.1) ≤ (own i tr).countP Q := by
  induction run with
  | nil => simp [own]
  | @snoc m q tr l before last ih =>
    obtain ⟨j, o⟩ := l
    by_cases mine : i = j
    · subst mine
      have allowed : Paid P Q (own i tr) o.1 := exec_obeys before last paid
      rw [own_snoc_self, List.countP_append, List.countP_append, List.countP_singleton,
        List.countP_singleton]
      cases performs : P o.1 with
      | true =>
        have spare := allowed performs
        rw [if_pos rfl]
        omega
      | false =>
        rw [if_neg Bool.false_ne_true]
        omega
    · rw [own_snoc_other mine]
      exact ih

theorem countP_le_add {B : Type} {p q r : B → Bool} {l : List B}
    (split : ∀ x ∈ l, p x = true → q x = true ∨ r x = true) :
    l.countP p ≤ l.countP q + l.countP r := by
  induction l with
  | nil => simp
  | cons x l ih =>
    have rest := ih fun y member => split y (List.mem_cons_of_mem _ member)
    have first := split x List.mem_cons_self
    simp only [List.countP_cons]
    cases holds : p x with
    | false => simp; omega
    | true => rcases first holds with left | right <;> simp [*] <;> omega

end Counts
end EventLoops
