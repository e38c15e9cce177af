import Mathlib.Logic.Function.Basic
import RusAuthExample.OperationPrograms

/-!
Pools of programs that share one state and take turns. A run records every
performed operation together with the task that performed it and the answer it
got, so a property of the past is a property of the recorded trace. A meaning
of the operations is a relation: an operation may have several answers (a
reply of a remote party) or none at the moment (a reply not sent yet).
-/
namespace InterleavedRuns
open OperationPrograms

abbrev Semantics (S : Signature) (σ : Type) := σ → (e : S.Op) → S.Answer e → σ → Prop

structure Pool (S : Signature) (X A σ ι : Type) where
  shared : σ
  task : ι → Prog S X A

variable {S : Signature} {X A σ ι : Type} [DecidableEq ι]

abbrev Label (S : Signature) (ι : Type) := ι × Performed S

inductive Step (H : ι → Semantics S σ) :
    Pool S X A σ ι → Label S ι → Pool S X A σ ι → Prop where
  | act {p : Pool S X A σ ι} {i : ι} {e : S.Op} {next : S.Answer e → Prog S X A}
      {a : S.Answer e} {s' : σ} (ready : p.task i = .op e next) (effect : H i p.shared e a s') :
      Step H p (i, ⟨e, a⟩) ⟨s', Function.update p.task i (next a)⟩

inductive Exec (H : ι → Semantics S σ) (p : Pool S X A σ ι) :
    List (Label S ι) → Pool S X A σ ι → Prop where
  | nil : Exec H p [] p
  | snoc {q r : Pool S X A σ ι} {tr : List (Label S ι)} {l : Label S ι}
      (before : Exec H p tr q) (last : Step H q l r) : Exec H p (tr ++ [l]) r

def Finished (p : Prog S X A) : Prop := ∀ e next, p ≠ .op e next

theorem finished_ret (a : A) : Finished (Prog.ret a : Prog S X A) := nofun

theorem finished_raise (x : X) : Finished (Prog.raise x : Prog S X A) := nofun

instance : (p : Prog S X A) → Decidable (Finished p)
  | .ret a => .isTrue (finished_ret a)
  | .raise x => .isTrue (finished_raise x)
  | .op e next => .isFalse fun done => done e next rfl

variable {H : ι → Semantics S σ} {p q r : Pool S X A σ ι}

theorem exec_trans {xs ys : List (Label S ι)} (first : Exec H p xs q) (second : Exec H q ys r) :
    Exec H p (xs ++ ys) r := by
  induction second with
  | nil => simpa using first
  | snoc before last ih =>
    rw [← List.append_assoc]
    exact .snoc ih last

theorem exec_cons {l : Label S ι} {tr : List (Label S ι)} (first : Step H p l q)
    (rest : Exec H q tr r) : Exec H p (l :: tr) r := by
  rw [← List.singleton_append]
  exact exec_trans (.snoc .nil first) rest

theorem exec_idle {i : ι} {rest : Prog S X A} (same : p.task i = rest) :
    Exec H p [] ⟨p.shared, Function.update p.task i rest⟩ := by
  rw [Function.update_eq_self_iff.mpr same.symm]
  exact .nil

theorem exec_split {xs ys : List (Label S ι)} (run : Exec H p (xs ++ ys) r) :
    ∃ q, Exec H p xs q ∧ Exec H q ys r := by
  generalize whole : xs ++ ys = tr at run
  induction run generalizing ys with
  | nil =>
    obtain ⟨rfl, rfl⟩ := List.append_eq_nil_iff.mp whole
    exact ⟨p, .nil, .nil⟩
  | @snoc q' r tr l before last ih =>
    rcases List.eq_nil_or_concat ys with rfl | ⟨ys, l', rfl⟩
    · rw [List.append_nil] at whole
      subst whole
      exact ⟨r, .snoc before last, .nil⟩
    · rw [List.concat_eq_append, ← List.append_assoc] at whole
      obtain ⟨rest, eq⟩ := List.append_inj' whole rfl
      obtain rfl : l' = l := List.singleton_inj.mp eq
      obtain ⟨q, left, right⟩ := ih rest
      exact ⟨q, left, by simpa using right.snoc last⟩

theorem exec_single {l : Label S ι} (run : Exec H p [l] q) : Step H p l q := by
  generalize whole : [l] = tr at run
  cases run with
  | nil => simp at whole
  | @snoc m q tr l' before last =>
    obtain ⟨none, one⟩ := List.append_inj' (whole.symm.trans (List.nil_append [l]).symm) rfl
    obtain rfl : l' = l := List.singleton_inj.mp one
    subst none
    generalize empty : ([] : List (Label S ι)) = tr at before
    cases before with
    | nil => exact last
    | snoc => simp at empty

theorem exec_at {xs ys : List (Label S ι)} {l : Label S ι} (run : Exec H p (xs ++ l :: ys) r) :
    ∃ m m', Exec H p xs m ∧ Step H m l m' ∧ Exec H m' ys r := by
  obtain ⟨m, left, right⟩ := exec_split run
  rw [← List.singleton_append] at right
  obtain ⟨m', mid, rest⟩ := exec_split right
  exact ⟨m, m', left, exec_single mid, rest⟩

/-- Where an operation and its answer fix the next state, the trace fixes the run. -/
theorem exec_unique (fixed : ∀ i s e a s₁ s₂, H i s e a s₁ → H i s e a s₂ → s₁ = s₂)
    {tr : List (Label S ι)} (left : Exec H p tr q) (right : Exec H p tr r) : q = r := by
  induction left generalizing r with
  | nil =>
    generalize empty : ([] : List (Label S ι)) = tr at right
    cases right with
    | nil => rfl
    | snoc => simp at empty
  | @snoc m q tr l before last ih =>
    obtain ⟨m', before', rest⟩ := exec_split right
    obtain rfl := ih before'
    have last' := exec_single rest
    cases last with
    | @act i e next a s' ready did =>
      generalize label : ((i, ⟨e, a⟩) : Label S ι) = l at last'
      cases last' with
      | @act j e' next' a' s'' ready' did' =>
        simp only [Prod.mk.injEq, Sigma.mk.injEq] at label
        obtain ⟨rfl, rfl, same⟩ := label
        cases same
        rw [ready] at ready'
        cases ready'
        rw [fixed _ _ _ _ _ _ did did']

def Before {α : Type} (l : List α) (x y : α) : Prop := ∃ xs ys zs, l = xs ++ x :: ys ++ y :: zs

theorem before_or_after {α : Type} {l : List α} {x y : α} (left : x ∈ l) (right : y ∈ l)
    (different : x ≠ y) : Before l x y ∨ Before l y x := by
  obtain ⟨xs, ys, rfl⟩ := List.append_of_mem left
  rcases List.mem_append.mp right with early | late
  · obtain ⟨us, vs, rfl⟩ := List.append_of_mem early
    exact Or.inr ⟨us, vs, ys, by simp⟩
  · rcases List.mem_cons.mp late with same | later
    · exact absurd same.symm different
    · obtain ⟨us, vs, rfl⟩ := List.append_of_mem later
      exact Or.inl ⟨xs, us, vs, by simp⟩

/-- What task `i` itself did, in its own order. -/
def own (i : ι) (tr : List (Label S ι)) : List (Performed S) :=
  tr.filterMap fun l => if l.1 = i then some l.2 else none

theorem own_append (i : ι) (xs ys : List (Label S ι)) :
    own i (xs ++ ys) = own i xs ++ own i ys := List.filterMap_append

theorem mem_own {i : ι} {o : Performed S} {tr : List (Label S ι)} :
    o ∈ own i tr ↔ (i, o) ∈ tr := by
  simp only [own, List.mem_filterMap]
  constructor
  · rintro ⟨⟨j, o'⟩, member, eq⟩
    split at eq
    · rename_i same
      simp only [Option.some.injEq] at eq
      subst same; subst eq
      exact member
    · simp at eq
  · intro member
    exact ⟨(i, o), member, by simp⟩

/-- A step in the history of a task is a step of the run. -/
theorem own_split {i : ι} {o : Performed S} {tr : List (Label S ι)} {us vs : List (Performed S)}
    (split : own i tr = us ++ o :: vs) :
    ∃ xs ys, tr = xs ++ (i, o) :: ys ∧ own i xs = us ∧ own i ys = vs := by
  obtain ⟨xs, zs, rfl, before, after⟩ := List.filterMap_eq_append_iff.mp split
  obtain ⟨skipped, ⟨j, o'⟩, ys, rfl, none, mine, rest⟩ := List.filterMap_eq_cons_iff.mp after
  obtain ⟨rfl, rfl⟩ : j = i ∧ o' = o := by
    by_cases same : j = i <;> simp [same] at mine ⊢
    exact mine
  refine ⟨xs ++ skipped, ys, by simp, ?_, rest⟩
  rw [own_append, show own j skipped = [] from List.filterMap_eq_nil_iff.mpr none, List.append_nil]
  exact before

theorem own_snoc_self (i : ι) (tr : List (Label S ι)) (o : Performed S) :
    own i (tr ++ [(i, o)]) = own i tr ++ [o] := by
  simp [own]

theorem own_snoc_other {i j : ι} (other : j ≠ i) (tr : List (Label S ι)) (o : Performed S) :
    own j (tr ++ [(i, o)]) = own j tr := by
  simp [own, Ne.symm other]

/-- Whatever the others do, each task walks down one path of its own program. -/
theorem exec_path {tr : List (Label S ι)} (run : Exec H p tr q) (i : ι) :
    Prog.Path (p.task i) (own i tr) (q.task i) := by
  induction run with
  | nil => exact .nil _
  | @snoc m q tr l before last ih =>
    rw [own_append]
    cases last with
    | @act j e next a s' ready effect =>
      by_cases mine : j = i
      · subst mine
        have walked := Prog.path_snoc ih ready a
        simpa [own, Function.update_self] using walked
      · simpa [own, mine, Function.update_of_ne (Ne.symm mine)] using ih

theorem exec_follows {tr : List (Label S ι)} (run : Exec H p tr q) {i : ι}
    {allows : List (Performed S) → S.Op → Prop} {Q : Except X A → List (Performed S) → Prop}
    (follows : (p.task i).Follows allows Q []) : (q.task i).Follows allows Q (own i tr) :=
  Prog.follows_path follows (exec_path run i)

/-- A task whose last operation is to be followed up stands at the one that follows it. -/
theorem exec_follows_up {tr : List (Label S ι)} (run : Exec H p tr q) {i : ι}
    {up : S.Op → Option S.Op} (follows : (p.task i).FollowsUp up) {o : Performed S}
    (last : (own i tr).getLast? = some o) {e : S.Op} (names : e ∈ up o.1) :
    ∃ rest, q.task i = .op e rest :=
  (Prog.follows_up_path follows (exec_path run i)).2 o last e names

theorem exec_obeys {tr : List (Label S ι)} (run : Exec H p tr q) {l : Label S ι}
    (step : Step H q l r)
    {allows : List (Performed S) → S.Op → Prop} (obeys : (p.task l.1).Obeys allows []) :
    allows (own l.1 tr) l.2.1 := by
  cases step with
  | @act i e next a s' ready effect =>
    have reached := Prog.obeys_path obeys (exec_path run i)
    rw [ready] at reached
    exact reached.1

theorem exec_obeys_at {xs ys : List (Label S ι)} {l : Label S ι} (run : Exec H p (xs ++ l :: ys) q)
    {allows : List (Performed S) → S.Op → Prop} (obeys : (p.task l.1).Obeys allows []) :
    allows (own l.1 xs) l.2.1 := by
  obtain ⟨m, m', before, step, _⟩ := exec_at run
  exact exec_obeys before step obeys

/-- An invariant of the state and its past: each step has to keep it, knowing that
    the past of the task that takes the step allows it. -/
theorem exec_invariant {I : σ → List (Label S ι) → Prop}
    {allows : ι → List (Performed S) → S.Op → Prop}
    (obeys : ∀ i, (p.task i).Obeys (allows i) []) (initially : I p.shared [])
    (step : ∀ s tr i e a s', I s tr → allows i (own i tr) e → H i s e a s' →
      I s' (tr ++ [(i, ⟨e, a⟩)]))
    {tr : List (Label S ι)} (run : Exec H p tr q) : I q.shared tr := by
  induction run with
  | nil => exact initially
  | @snoc m q tr l before last ih =>
    have allowed := exec_obeys before last (obeys l.1)
    cases last with
    | act ready effect => exact step _ _ _ _ _ _ ih allowed effect

/-- A run each step of which meets a condition on the past, the pool and the step. -/
inductive Guided (H : ι → Semantics S σ)
    (C : List (Label S ι) → Pool S X A σ ι → Label S ι → Prop) (p : Pool S X A σ ι) :
    List (Label S ι) → Pool S X A σ ι → Prop where
  | nil : Guided H C p [] p
  | snoc {q r : Pool S X A σ ι} {tr : List (Label S ι)} {l : Label S ι}
      (before : Guided H C p tr q) (last : Step H q l r) (meets : C tr q l) :
      Guided H C p (tr ++ [l]) r

theorem guided_exec {C : List (Label S ι) → Pool S X A σ ι → Label S ι → Prop}
    {tr : List (Label S ι)} (run : Guided H C p tr q) : Exec H p tr q := by
  induction run with
  | nil => exact .nil
  | snoc before last meets ih => exact .snoc ih last

theorem guided_weaken {C D : List (Label S ι) → Pool S X A σ ι → Label S ι → Prop}
    (each : ∀ tr m l, C tr m l → D tr m l) {tr : List (Label S ι)} (run : Guided H C p tr q) :
    Guided H D p tr q := by
  induction run with
  | nil => exact .nil
  | snoc before last meets ih => exact .snoc ih last (each _ _ _ meets)

def Performs (H : ι → Semantics S σ) (p : Pool S X A σ ι) (tr : List (Label S ι))
    (q m : Pool S X A σ ι) (l : Label S ι) (m' : Pool S X A σ ι) : Prop :=
  ∃ xs ys, tr = xs ++ l :: ys ∧ Exec H p xs m ∧ Step H m l m' ∧ Exec H m' ys q

theorem performs_then {xs ys : List (Label S ι)} {m a b : Pool S X A σ ι} {l : Label S ι}
    (performs : Performs H p xs m a l b) (rest : Exec H m ys q) :
    Performs H p (xs ++ ys) q a l b := by
  obtain ⟨us, vs, rfl, before, step, after⟩ := performs
  exact ⟨us, vs ++ ys, by simp, before, step, exec_trans after rest⟩

theorem performs_after {xs ys : List (Label S ι)} {m a b : Pool S X A σ ι} {l : Label S ι}
    (first : Exec H p xs m) (performs : Performs H m ys q a l b) :
    Performs H p (xs ++ ys) q a l b := by
  obtain ⟨us, vs, rfl, before, step, after⟩ := performs
  exact ⟨xs ++ us, vs, by simp, exec_trans first before, step, after⟩

theorem exec_restrict {C : ι → Semantics S σ} {tr : List (Label S ι)} (run : Exec H p tr q)
    (holds : ∀ m l m', Performs H p tr q m l m' → C l.1 m.shared l.2.1 l.2.2 m'.shared) :
    Exec (fun i s e a s' => H i s e a s' ∧ C i s e a s') p tr q := by
  induction run with
  | nil => exact .nil
  | @snoc m q tr l before last ih =>
    have met := holds m l q ⟨tr, [], rfl, before, last, .nil⟩
    have sofar := ih fun a l b performs => holds a l b (performs_then performs (.snoc .nil last))
    cases last with
    | act ready effect => exact .snoc sofar (.act ready ⟨effect, met⟩)

/-- Tasks whose steps leave the state alone can be taken out of a run: the others
    do what they did, and the tasks taken out have not begun. -/
theorem exec_without {tr : List (Label S ι)} (run : Exec H p tr q) {out : ι → Bool}
    (silent : ∀ l ∈ tr, out l.1 = true → ∀ s s', H l.1 s l.2.1 l.2.2 s' → s' = s) :
    Exec H p (tr.filter fun l => !out l.1)
      ⟨q.shared, fun i => if out i then p.task i else q.task i⟩ := by
  induction run with
  | nil => simpa using Exec.nil
  | @snoc m q tr l before last ih =>
    have sofar := ih fun l member => silent l (List.mem_append_left _ member)
    have quiet := silent l (by simp)
    cases last with
    | @act i e next a s' ready effect =>
      rw [List.filter_append, List.filter_cons, List.filter_nil]
      cases taken : out i with
      | true =>
        obtain rfl := quiet taken _ _ effect
        have same : (fun j => if out j then p.task j else Function.update m.task i (next a) j) =
            fun j => if out j then p.task j else m.task j := by
          funext j
          by_cases mine : j = i
          · simp [mine, taken]
          · simp [Function.update_of_ne mine]
        simpa [taken, same] using sofar
      | false =>
        have ready' : (if out i then p.task i else m.task i) = .op e next := by
          simpa [taken] using ready
        have same : (fun j => if out j then p.task j else Function.update m.task i (next a) j) =
            Function.update (fun j => if out j then p.task j else m.task j) i (next a) := by
          funext j
          by_cases mine : j = i
          · subst mine; simp [taken]
          · simp [Function.update_of_ne mine]
        rw [same]
        exact sofar.snoc (.act ready' effect)

def logged (H : ι → Semantics S σ) : ι → Semantics S (σ × List (Label S ι)) :=
  fun i s e a s' => H i s.1 e a s'.1 ∧ s'.2 = s.2 ++ [(i, ⟨e, a⟩)]

def Pool.withLog (p : Pool S X A σ ι) (log : List (Label S ι)) :
    Pool S X A (σ × List (Label S ι)) ι := ⟨(p.shared, log), p.task⟩

theorem exec_logged {tr : List (Label S ι)} (run : Exec H p tr q) (log : List (Label S ι)) :
    Exec (logged H) (p.withLog log) tr (q.withLog (log ++ tr)) := by
  induction run with
  | nil => simpa using Exec.nil
  | @snoc m q tr l before last ih =>
    cases last with
    | @act i e next a s' ready effect =>
      rw [← List.append_assoc]
      exact .snoc ih (Step.act (p := m.withLog (log ++ tr)) ready ⟨effect, rfl⟩)

def beside {T : Signature} {τ : Type} (H : Semantics S σ) (J : Semantics T τ) :
    Semantics (S.sum T) (σ × τ) := fun s e =>
  match e with
  | .inl e => fun a s' => H s.1 e a s'.1 ∧ s'.2 = s.2
  | .inr e => fun a s' => J s.2 e a s'.2 ∧ s'.1 = s.1

theorem beside_alongside {T : Signature} {τ : Type} {H : Semantics S σ} {J : Semantics T τ}
    {f : (e : S.Op) → σ → S.Answer e × σ} {g : (e : T.Op) → τ → T.Answer e × τ}
    (left : ∀ e s, H s e (f e s).1 (f e s).2) (right : ∀ e s, J s e (g e s).1 (g e s).2)
    (e : (S.sum T).Op) (s : σ × τ) :
    beside H J s e (Prog.alongside f g e s).1 (Prog.alongside f g e s).2 := by
  cases e with
  | inl e => exact ⟨left e s.1, rfl⟩
  | inr e => exact ⟨right e s.2, rfl⟩

/-- A concrete run: the tasks named by the schedule perform their next
    operation in turn, each answered by `f`. Finished tasks are skipped. -/
def replay (f : (e : S.Op) → σ → S.Answer e × σ) (p : Pool S X A σ ι) :
    List ι → List (Label S ι) × Pool S X A σ ι
  | [] => ([], p)
  | i :: rest =>
    match p.task i with
    | .ret _ => replay f p rest
    | .raise _ => replay f p rest
    | .op e next =>
      let (a, s') := f e p.shared
      let (tr, q) := replay f ⟨s', Function.update p.task i (next a)⟩ rest
      ((i, ⟨e, a⟩) :: tr, q)

def replayable (f : (e : S.Op) → σ → S.Answer e × σ) (possible : (e : S.Op) → σ → Bool)
    (p : Pool S X A σ ι) : List ι → Bool
  | [] => true
  | i :: rest =>
    match p.task i with
    | .ret _ => replayable f possible p rest
    | .raise _ => replayable f possible p rest
    | .op e next => possible e p.shared &&
      replayable f possible ⟨(f e p.shared).2, Function.update p.task i (next (f e p.shared).1)⟩ rest

theorem replay_exec_of_possible {f : (e : S.Op) → σ → S.Answer e × σ}
    {possible : (e : S.Op) → σ → Bool}
    (answers : ∀ i e s, possible e s = true → H i s e (f e s).1 (f e s).2) (p : Pool S X A σ ι)
    (schedule : List ι) (all : replayable f possible p schedule = true) :
    Exec H p (replay f p schedule).1 (replay f p schedule).2 := by
  induction schedule generalizing p with
  | nil => exact .nil
  | cons i rest ih =>
    cases ready : p.task i with
    | ret a =>
      simp only [replayable, ready] at all
      simpa only [replay, ready] using ih p all
    | raise x =>
      simp only [replayable, ready] at all
      simpa only [replay, ready] using ih p all
    | op e next =>
      simp only [replayable, ready, Bool.and_eq_true] at all
      simp only [replay, ready]
      exact exec_cons (.act ready (answers i e p.shared all.1)) (ih _ all.2)

theorem replayable_always (f : (e : S.Op) → σ → S.Answer e × σ) (p : Pool S X A σ ι)
    (schedule : List ι) : replayable f (fun _ _ => true) p schedule = true := by
  induction schedule generalizing p with
  | nil => rfl
  | cons i rest ih =>
    simp only [replayable]
    split
    · exact ih p
    · exact ih p
    · simpa using ih _

theorem replay_exec {f : (e : S.Op) → σ → S.Answer e × σ}
    (answers : ∀ i e s, H i s e (f e s).1 (f e s).2) (p : Pool S X A σ ι) (schedule : List ι) :
    Exec H p (replay f p schedule).1 (replay f p schedule).2 :=
  replay_exec_of_possible (fun i e s _ => answers i e s) p schedule (replayable_always f p schedule)

/-- Each step of the replay meets the condition. -/
def replayMeets (f : (e : S.Op) → σ → S.Answer e × σ)
    (C : List (Label S ι) → Pool S X A σ ι → Label S ι → Prop)
    [∀ tr m l, Decidable (C tr m l)] (past : List (Label S ι)) (p : Pool S X A σ ι) :
    List ι → Bool
  | [] => true
  | i :: rest =>
    match p.task i with
    | .ret _ => replayMeets f C past p rest
    | .raise _ => replayMeets f C past p rest
    | .op e next =>
      let (a, s') := f e p.shared
      decide (C past p (i, ⟨e, a⟩)) &&
        replayMeets f C (past ++ [(i, ⟨e, a⟩)]) ⟨s', Function.update p.task i (next a)⟩ rest

theorem replay_guided {f : (e : S.Op) → σ → S.Answer e × σ}
    {C : List (Label S ι) → Pool S X A σ ι → Label S ι → Prop} [∀ tr m l, Decidable (C tr m l)]
    (answers : ∀ i e s, H i s e (f e s).1 (f e s).2) {past : List (Label S ι)}
    (sofar : Guided H C p past q) (schedule : List ι)
    (all : replayMeets f C past q schedule = true) :
    Guided H C p (past ++ (replay f q schedule).1) (replay f q schedule).2 := by
  induction schedule generalizing past q with
  | nil => simpa [replay] using sofar
  | cons i rest ih =>
    cases ready : q.task i with
    | ret a =>
      simp only [replayMeets, ready] at all
      simpa only [replay, ready] using ih sofar all
    | raise x =>
      simp only [replayMeets, ready] at all
      simpa only [replay, ready] using ih sofar all
    | op e next =>
      simp only [replayMeets, ready, Bool.and_eq_true, decide_eq_true_eq] at all
      have later := ih (sofar.snoc (.act ready (answers i e q.shared)) all.1) all.2
      simpa only [replay, ready, List.append_assoc, List.singleton_append] using later

end InterleavedRuns
