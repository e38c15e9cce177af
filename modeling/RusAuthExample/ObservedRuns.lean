import RusAuthExample.RelyGuarantee

/-!
A program that only looks at the state, while the tasks of a pool go on changing it
between any two looks. The steps of the pool may be restricted meanwhile, by a
condition under which the observer is known to be running. What the observer returns
is derived from the rules for programs that take turns: looking is an operation that
answers and changes nothing, and the pool is its surroundings.
-/
namespace ObservedRuns
open OperationPrograms InterleavedRuns RelyGuarantee

variable {S T : Signature} {X Y A B D σ ι : Type}

abbrev Looking (T : Signature) (σ : Type) := σ → (e : T.Op) → T.Answer e → Prop

def looks (L : Looking T σ) : Semantics T σ := fun s e a s' => L s e a ∧ s' = s

/-- The program never fails, and what it returns is as `Q` says in view of the state
    it ends in. -/
abbrev Returns (L : Looking T σ) (I : σ → Prop) (R : σ → σ → Prop) (Q : B → σ → Prop)
    (p : Prog T Y B) (s : σ) : Prop :=
  Safe (looks L) I R (fun _ _ _ _ => True) (fun r t => ∃ b, r = .ok b ∧ Q b t) p s

section Rules
variable {L : Looking T σ} {I : σ → Prop} {R : σ → σ → Prop}

theorem returns_ret {Q : B → σ → Prop} {b : B} {s : σ} (holds : ∀ t, R s t → I t → Q b t) :
    Returns L I R Q (.ret b : Prog T Y B) s :=
  fun t later inv => ⟨b, rfl, holds t later inv⟩

theorem returns_look [Std.Refl R] {Q : B → σ → Prop} {e : T.Op} {next : T.Answer e → Prog T Y B}
    {s : σ} (rest : ∀ t a, R s t → I t → L t e a → Returns L I R Q (next a) t) :
    Returns L I R Q (.op e next) s := by
  rintro t later inv a t' ⟨seen, rfl⟩
  exact ⟨inv, refl_of R t', trivial, rest t' a later inv seen⟩

theorem returns_bind [Std.Refl R] [IsTrans σ R] {Q : B → σ → Prop} {Q' : D → σ → Prop}
    {p : Prog T Y B} {f : B → Prog T Y D} {s : σ} (inv : I s) (first : Returns L I R Q p s)
    (rest : ∀ b t, R s t → I t → Q b t → Returns L I R Q' (f b) t) :
    Returns L I R Q' (p.bind f) s := by
  refine safe_bind inv first ?_ ?_
  · rintro b t later invT ⟨b', same, holds⟩
    cases same
    exact rest b t later invT holds
  · rintro x t _ _ ⟨b, same, _⟩
    cases same

end Rules

variable [DecidableEq ι]

inductive Observed (H : ι → Semantics S σ) (L : Looking T σ)
    (C : Pool S X A σ ι → Label S ι → Prop) (p : Pool S X A σ ι) (observer : Prog T Y B) :
    List (Label S ι) → Pool S X A σ ι → Prog T Y B → Prop where
  | start : Observed H L C p observer [] p observer
  | act {q r : Pool S X A σ ι} {tr : List (Label S ι)} {l : Label S ι} {rest : Prog T Y B}
      (before : Observed H L C p observer tr q rest) (step : Step H q l r) (meets : C q l) :
      Observed H L C p observer (tr ++ [l]) r rest
  | look {q : Pool S X A σ ι} {tr : List (Label S ι)} {e : T.Op} {next : T.Answer e → Prog T Y B}
      {a : T.Answer e} (before : Observed H L C p observer tr q (.op e next))
      (seen : L q.shared e a) : Observed H L C p observer tr q (next a)

section Runs
variable {H : ι → Semantics S σ} {L : Looking T σ} {C : Pool S X A σ ι → Label S ι → Prop}
  {p q : Pool S X A σ ι} {observer rest : Prog T Y B} {tr : List (Label S ι)}

theorem observed_exec (run : Observed H L C p observer tr q rest) : Exec H p tr q := by
  induction run with
  | start => exact .nil
  | act before step meets ih => exact .snoc ih step
  | look before seen ih => exact ih

variable {I : σ × List (Label S ι) → Prop}
  {R : σ × List (Label S ι) → σ × List (Label S ι) → Prop} [IsTrans _ R]

theorem observed_safe {L' : Looking T (σ × List (Label S ι))} {Q : B → σ × List (Label S ι) → Prop}
    (run : Observed H L C p observer tr q rest) (sees : ∀ s log e a, L s e a → L' (s, log) e a)
    (step : ∀ tr q l r, Exec H p tr q → Step H q l r → C q l → I (q.shared, tr) →
      I (r.shared, tr ++ [l]) ∧ R (q.shared, tr) (r.shared, tr ++ [l]))
    [Std.Refl R] (inv : I (p.shared, [])) (safe : Returns L' I R Q observer (p.shared, [])) :
    I (q.shared, tr) ∧ Returns L' I R Q rest (q.shared, tr) := by
  induction run with
  | start => exact ⟨inv, safe⟩
  | act before last meets ih =>
    obtain ⟨invQ, sofar⟩ := ih
    obtain ⟨invR, within⟩ := step _ _ _ _ (observed_exec before) last meets invQ
    exact ⟨invR, safe_later sofar within⟩
  | look before seen ih =>
    obtain ⟨invQ, sofar⟩ := ih
    exact ⟨invQ, (sofar _ (refl_of R _) invQ _ _ ⟨sees _ _ _ _ seen, rfl⟩).2.2.2⟩

theorem observed_returns {L' : Looking T (σ × List (Label S ι))}
    {Q : B → σ × List (Label S ι) → Prop} [Std.Refl R]
    (run : Observed H L C p observer tr q rest) (sees : ∀ s log e a, L s e a → L' (s, log) e a)
    (step : ∀ tr q l r, Exec H p tr q → Step H q l r → C q l → I (q.shared, tr) →
      I (r.shared, tr ++ [l]) ∧ R (q.shared, tr) (r.shared, tr ++ [l]))
    (inv : I (p.shared, [])) (safe : Returns L' I R Q observer (p.shared, [])) :
    (∀ x, rest ≠ .raise x) ∧ ∀ b, rest = .ret b → Q b (q.shared, tr) := by
  obtain ⟨invQ, returned⟩ := observed_safe run sees step inv safe
  constructor
  · rintro x rfl
    obtain ⟨b, same, _⟩ := returned _ (refl_of R _) invQ
    cases same
  · rintro b rfl
    obtain ⟨b', same, holds⟩ := returned _ (refl_of R _) invQ
    cases same
    exact holds

end Runs

/-- A concrete observation: the schedule lets a task act, or the observer look. -/
def watch (f : (e : S.Op) → σ → S.Answer e × σ) (g : (e : T.Op) → σ → T.Answer e)
    (p : Pool S X A σ ι) (observer : Prog T Y B) :
    List (Option ι) → List (Label S ι) × Pool S X A σ ι × Prog T Y B
  | [] => ([], p, observer)
  | none :: schedule =>
    match observer with
    | .op e next => watch f g p (next (g e p.shared)) schedule
    | .ret b => watch f g p (.ret b) schedule
    | .raise y => watch f g p (.raise y) schedule
  | some i :: schedule =>
    match p.task i with
    | .op e next =>
      let (a, s') := f e p.shared
      let (tr, q, rest) := watch f g ⟨s', Function.update p.task i (next a)⟩ observer schedule
      ((i, ⟨e, a⟩) :: tr, q, rest)
    | .ret _ => watch f g p observer schedule
    | .raise _ => watch f g p observer schedule

theorem watch_observed {H : ι → Semantics S σ} {L : Looking T σ}
    {C : Pool S X A σ ι → Label S ι → Prop} {f : (e : S.Op) → σ → S.Answer e × σ}
    {g : (e : T.Op) → σ → T.Answer e} {P : T.Op → Prop}
    (answers : ∀ i e s, H i s e (f e s).1 (f e s).2) (sees : ∀ e s, P e → L s e (g e s))
    {p q : Pool S X A σ ι} {observer rest : Prog T Y B} {tr : List (Label S ι)}
    (sofar : Observed H L C p observer tr q rest) (uses : rest.Uses P) (schedule : List (Option ι))
    (meets : ∀ i, some i ∈ schedule → ∀ m o, C m (i, o)) :
    Observed H L C p observer (tr ++ (watch f g q rest schedule).1)
      (watch f g q rest schedule).2.1 (watch f g q rest schedule).2.2 := by
  induction schedule generalizing tr q rest with
  | nil => simpa [watch] using sofar
  | cons turn schedule ih =>
    have later : ∀ i, some i ∈ schedule → ∀ m o, C m (i, o) :=
      fun i member => meets i (List.mem_cons_of_mem _ member)
    cases turn with
    | none =>
      cases rest with
      | op e next => exact ih (.look sofar (sees e q.shared uses.1)) (uses.2 _) later
      | ret b => exact ih sofar uses later
      | raise y => exact ih sofar uses later
    | some i =>
      cases ready : q.task i with
      | ret a => simpa only [watch, ready] using ih sofar uses later
      | raise x => simpa only [watch, ready] using ih sofar uses later
      | op e next =>
        have acted := ih (.act sofar (.act ready (answers i e q.shared))
          (meets i List.mem_cons_self _ _)) uses later
        simpa only [watch, ready, List.append_assoc, List.singleton_append] using acted

end ObservedRuns
