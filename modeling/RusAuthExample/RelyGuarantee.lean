import Mathlib.Order.Defs.Unbundled
import RusAuthExample.InterleavedRuns

/-!
Rules for programs that take turns. The invariant `I` holds between any two
operations, the rely relation `R` bounds what all tasks together can do to the
state meanwhile, the guarantee `G` says what every single operation of one task
does, and `Q` is what a finished task leaves behind. A program is safe when it
keeps its side from every state its surroundings can produce; safety is
checked task by task, along the program and with no mention of the others.
-/
namespace RelyGuarantee
open OperationPrograms InterleavedRuns

variable {S : Signature} {X A B σ ι : Type}

def Safe (H : Semantics S σ) (I : σ → Prop) (R : σ → σ → Prop) (G : Semantics S σ)
    (Q : Except X A → σ → Prop) : Prog S X A → σ → Prop
  | .ret a, s => ∀ s', R s s' → I s' → Q (.ok a) s'
  | .raise x, s => ∀ s', R s s' → I s' → Q (.error x) s'
  | .op e next, s => ∀ s₁, R s s₁ → I s₁ → ∀ a s₂, H s₁ e a s₂ →
      I s₂ ∧ R s₁ s₂ ∧ G s₁ e a s₂ ∧ Safe H I R G Q (next a) s₂

variable {H : Semantics S σ} {I : σ → Prop} {R : σ → σ → Prop} {G : Semantics S σ}

section Rules
variable [IsTrans σ R]

/-- What the others do in the meantime does not hurt. -/
theorem safe_later {Q : Except X A → σ → Prop} {p : Prog S X A} {s s' : σ}
    (safe : Safe H I R G Q p s) (later : R s s') : Safe H I R G Q p s' := by
  cases p with
  | ret a => exact fun t reach inv => safe t (trans_of R later reach) inv
  | raise x => exact fun t reach inv => safe t (trans_of R later reach) inv
  | op e next => exact fun t reach inv => safe t (trans_of R later reach) inv

variable [Std.Refl R]

theorem safe_bind {Q : Except X A → σ → Prop} {Q' : Except X B → σ → Prop} {p : Prog S X A}
    {f : A → Prog S X B} {s : σ} (inv : I s) (first : Safe H I R G Q p s)
    (rest : ∀ a t, R s t → I t → Q (.ok a) t → Safe H I R G Q' (f a) t)
    (failed : ∀ x t, R s t → I t → Q (.error x) t → Q' (.error x) t) :
    Safe H I R G Q' (p.bind f) s := by
  induction p generalizing s with
  | ret a => exact rest a s (refl_of R s) inv (first s (refl_of R s) inv)
  | raise x => exact fun t reach invT => failed x t reach invT (first t reach invT)
  | op e next ih =>
    intro s₁ reach inv₁ a s₂ effect
    obtain ⟨inv₂, kept, did, safe⟩ := first s₁ reach inv₁ a s₂ effect
    have sofar : R s s₂ := trans_of R reach kept
    exact ⟨inv₂, kept, did, ih a inv₂ safe
      (fun b t later => rest b t (trans_of R sofar later))
      (fun x t later => failed x t (trans_of R sofar later))⟩

end Rules

theorem safe_attempt {Y : Type} {Q : Except X A → σ → Prop} {Q' : Except Y (Except X A) → σ → Prop}
    {p : Prog S X A} {s : σ} (first : Safe H I R G Q p s)
    (done : ∀ r t, Q r t → Q' (.ok r) t) : Safe H I R G Q' p.attempt s := by
  induction p generalizing s with
  | ret a => exact fun t reach inv => done _ t (first t reach inv)
  | raise x => exact fun t reach inv => done _ t (first t reach inv)
  | op e next ih =>
    intro s₁ reach inv₁ a s₂ effect
    obtain ⟨inv₂, kept, did, safe⟩ := first s₁ reach inv₁ a s₂ effect
    exact ⟨inv₂, kept, did, ih a safe⟩

theorem safe_weaken {Q Q' : Except X A → σ → Prop} {G' : Semantics S σ} {p : Prog S X A} {s : σ}
    (safe : Safe H I R G Q p s) (post : ∀ r t, Q r t → Q' r t)
    (guar : ∀ s e a s', G s e a s' → G' s e a s') : Safe H I R G' Q' p s := by
  induction p generalizing s with
  | ret a => exact fun t reach inv => post _ t (safe t reach inv)
  | raise x => exact fun t reach inv => post _ t (safe t reach inv)
  | op e next ih =>
    intro s₁ reach inv₁ a s₂ effect
    obtain ⟨inv₂, kept, did, rest⟩ := safe s₁ reach inv₁ a s₂ effect
    exact ⟨inv₂, kept, guar _ _ _ _ did, ih a rest⟩

theorem safe_on_left {T : Signature} {J : Semantics (S.sum T) σ} {K : Semantics (S.sum T) σ}
    {Q : Except X A → σ → Prop} {p : Prog S X A} {s : σ}
    (safe : Safe (fun s e a s' => J s (.inl e) a s') I R (fun s e a s' => K s (.inl e) a s') Q p s) :
    Safe J I R K Q p.onLeft s := by
  induction p generalizing s with
  | ret a => exact safe
  | raise x => exact safe
  | op e next ih =>
    intro s₁ reach inv₁ a s₂ effect
    obtain ⟨inv₂, kept, did, rest⟩ := safe s₁ reach inv₁ a s₂ effect
    exact ⟨inv₂, kept, did, ih a rest⟩

/-- Safety by layers. A program over abstract operations keeps to what its past
    allows; each operation, where it is allowed, is carried out by a safe program
    that leaves a record of its answer. Then the composed program is safe. -/
theorem safe_interp [Std.Refl R] [IsTrans σ R] {T : Signature}
    {h : (e : T.Op) → Prog S X (T.Answer e)} {allows : List (Performed T) → T.Op → Prop}
    {Recorded : List (Performed T) → σ → Prop} {Post : (e : T.Op) → T.Answer e → σ → Prop}
    (grows : ∀ past s t e a, Recorded past s → R s t → Post e a t → Recorded (past ++ [⟨e, a⟩]) t)
    (each : ∀ e past s, I s → allows past e → Recorded past s →
      Safe H I R G (fun r t => ∃ a, r = .ok a ∧ Post e a t) (h e) s)
    {p : Prog T X A} {past : List (Performed T)} {s : σ} (inv : I s) (obeys : p.Obeys allows past)
    (recorded : Recorded past s) : Safe H I R G (fun _ _ => True) (p.interp h) s := by
  induction p generalizing past s with
  | ret a => exact fun _ _ _ => trivial
  | raise x => exact fun _ _ _ => trivial
  | op e next ih =>
    refine safe_bind inv (each e past s inv obeys.1 recorded) ?_ (fun _ _ _ _ _ => trivial)
    rintro a t reach invT ⟨b, same, post⟩
    obtain rfl := Except.ok.inj same
    exact ih a invT (obeys.2 a) (grows past s t e a recorded reach post)

section Histories

def Extends (s s' : σ × List (Label S ι)) : Prop := s.2 <+: s'.2

instance : Std.Refl (Extends : σ × List (Label S ι) → _ → Prop) := ⟨fun s => List.prefix_refl s.2⟩

instance : IsTrans (σ × List (Label S ι)) Extends := ⟨fun _ _ _ => List.IsPrefix.trans⟩

theorem extends_mem {s s' : σ × List (Label S ι)} (later : Extends s s') {l : Label S ι}
    (member : l ∈ s.2) : l ∈ s'.2 := later.subset member

theorem extends_logged {J : ι → Semantics S σ} {i : ι} {s s' : σ × List (Label S ι)} {e : S.Op}
    {a : S.Answer e} (did : logged J i s e a s') : Extends s s' :=
  ⟨[(i, ⟨e, a⟩)], did.2.symm⟩

end Histories

section Pools
variable {J : ι → Semantics S σ} {K : ι → Semantics S σ}
  {Q : ι → Except X A → σ → Prop}

/-- All tasks are safe and the invariant holds: the state of a pool between two steps. -/
structure Sound (J : ι → Semantics S σ) (I : σ → Prop) (R : σ → σ → Prop)
    (K : ι → Semantics S σ) (Q : ι → Except X A → σ → Prop) (p : Pool S X A σ ι) : Prop where
  inv : I p.shared
  safe : ∀ i, Safe (J i) I R (K i) (Q i) (p.task i) p.shared

variable [Std.Refl R]

variable [IsTrans σ R] [DecidableEq ι]

/-- One step keeps the pool sound, stays within the rely relation and is covered
    by the guarantee of the task that took it. -/
theorem sound_step {p q : Pool S X A σ ι} {l : Label S ι} (sound : Sound J I R K Q p)
    (step : Step J p l q) :
    Sound J I R K Q q ∧ R p.shared q.shared ∧ K l.1 p.shared l.2.1 l.2.2 q.shared := by
  cases step with
  | @act i e next a s' ready effect =>
    have mine := sound.safe i
    rw [ready] at mine
    obtain ⟨inv, kept, did, rest⟩ := mine p.shared (refl_of R _) sound.inv a s' effect
    refine ⟨⟨inv, fun j => ?_⟩, kept, did⟩
    by_cases same : j = i
    · subst same
      simpa using rest
    · simpa [Function.update_of_ne same] using safe_later (sound.safe j) kept

theorem sound_exec {p q : Pool S X A σ ι} {tr : List (Label S ι)} (sound : Sound J I R K Q p)
    (run : Exec J p tr q) : Sound J I R K Q q ∧ R p.shared q.shared := by
  induction run with
  | nil => exact ⟨sound, refl_of R _⟩
  | snoc before last ih =>
    obtain ⟨sofar, reach⟩ := ih
    obtain ⟨after, kept, _⟩ := sound_step sofar last
    exact ⟨after, trans_of R reach kept⟩

end Pools
end RelyGuarantee
