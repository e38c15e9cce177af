import Mathlib.Data.Fintype.Defs
import Mathlib.Logic.Function.Basic

/-!
Programs as trees of operations on some shared state. A signature lists the
operations and the type of each answer; a program either ends with a value,
ends with a raised error, or performs one operation and continues with its
answer. Nothing is assumed here about what an operation does: a meaning is
given to it later, once for a program that runs alone and once for programs
that take turns.
-/
namespace OperationPrograms

structure Signature where
  Op : Type
  Answer : Op → Type

def Signature.sum (S T : Signature) : Signature :=
  ⟨S.Op ⊕ T.Op, Sum.elim S.Answer T.Answer⟩

def inputOf (V : Type) : Signature := ⟨Unit, fun _ => V⟩

inductive Prog (S : Signature) (X A : Type) where
  | ret (value : A)
  | raise (error : X)
  | op (e : S.Op) (next : S.Answer e → Prog S X A)

abbrev Performed (S : Signature) := (e : S.Op) × S.Answer e

variable {S T U : Signature} {X Y A B C σ : Type}

namespace Prog

def perform (e : S.Op) : Prog S X (S.Answer e) := .op e .ret

def bind : Prog S X A → (A → Prog S X B) → Prog S X B
  | .ret a, f => f a
  | .raise x, _ => .raise x
  | .op e next, f => .op e fun a => (next a).bind f

def recover : Prog S X A → (X → Prog S Y A) → Prog S Y A
  | .ret a, _ => .ret a
  | .raise x, f => f x
  | .op e next, f => .op e fun a => (next a).recover f

instance : Monad (Prog S X) where
  pure := .ret
  bind := .bind

instance : MonadExcept X (Prog S X) where
  throw := .raise
  tryCatch := .recover

/-- The outcome of a program as a value, so that it never raises. -/
def attempt : Prog S X A → Prog S Y (Except X A)
  | .ret a => .ret (.ok a)
  | .raise x => .ret (.error x)
  | .op e next => .op e fun a => (next a).attempt

def ofExcept : Except X A → Prog S X A
  | .ok a => .ret a
  | .error x => .raise x

/-- Run `final` whether or not `p` raises, then go on as `p` ended. -/
def ensure (p : Prog S X A) (final : Prog S X Unit) : Prog S X A :=
  p.attempt.bind fun outcome => final.bind fun _ => ofExcept outcome

@[simp] theorem pure_eq (a : A) : (pure a : Prog S X A) = .ret a := rfl

@[simp] theorem bind_eq (p : Prog S X A) (f : A → Prog S X B) : p >>= f = p.bind f := rfl

@[simp] theorem op_bind (e : S.Op) (next : S.Answer e → Prog S X A) (f : A → Prog S X B) :
    (op e next).bind f = .op e fun a => (next a).bind f := rfl

@[simp] theorem bind_ret (p : Prog S X A) : p.bind .ret = p := by
  induction p with
  | ret a => rfl
  | raise x => rfl
  | op e next ih => exact congrArg (Prog.op e) (funext ih)

theorem bind_assoc (p : Prog S X A) (f : A → Prog S X B) (g : B → Prog S X C) :
    (p.bind f).bind g = p.bind fun a => (f a).bind g := by
  induction p with
  | ret a => rfl
  | raise x => rfl
  | op e next ih => exact congrArg (Prog.op e) (funext ih)

/-- Run a program alone, every operation answered by `f` on the current state. -/
def exec (f : (e : S.Op) → σ → S.Answer e × σ) : Prog S X A → σ → Except X A × σ
  | .ret a, s => (.ok a, s)
  | .raise x, s => (.error x, s)
  | .op e next, s => exec f (next (f e s).1) (f e s).2

theorem exec_bind (f : (e : S.Op) → σ → S.Answer e × σ) (p : Prog S X A) (g : A → Prog S X B)
    (s : σ) :
    exec f (p.bind g) s = match exec f p s with
      | (.ok a, s') => exec f (g a) s'
      | (.error x, s') => (.error x, s') := by
  induction p generalizing s with
  | ret a => rfl
  | raise x => rfl
  | op e next ih => exact ih (f e s).1 (f e s).2

theorem exec_recover (f : (e : S.Op) → σ → S.Answer e × σ) (p : Prog S X A) (g : X → Prog S Y A)
    (s : σ) :
    exec f (p.recover g) s = match exec f p s with
      | (.ok a, s') => (.ok a, s')
      | (.error x, s') => exec f (g x) s' := by
  induction p generalizing s with
  | ret a => rfl
  | raise x => rfl
  | op e next ih => exact ih (f e s).1 (f e s).2

theorem exec_attempt (f : (e : S.Op) → σ → S.Answer e × σ) (p : Prog S X A) (s : σ) :
    exec f (p.attempt : Prog S Y (Except X A)) s = (.ok (exec f p s).1, (exec f p s).2) := by
  induction p generalizing s with
  | ret a => rfl
  | raise x => rfl
  | op e next ih => exact ih (f e s).1 (f e s).2

/-- Substitute a program for every operation. This is how an operation that
    one layer treats as a single step becomes the steps of the layer below. -/
def interp (h : (e : S.Op) → Prog T X (S.Answer e)) : Prog S X A → Prog T X A
  | .ret a => .ret a
  | .raise x => .raise x
  | .op e next => (h e).bind fun a => (next a).interp h

theorem interp_bind (h : (e : S.Op) → Prog T X (S.Answer e)) (p : Prog S X A)
    (f : A → Prog S X B) : (p.bind f).interp h = (p.interp h).bind fun a => (f a).interp h := by
  induction p with
  | ret a => rfl
  | raise x => rfl
  | op e next ih =>
    simp only [op_bind, interp, bind_assoc]
    exact congrArg ((h e).bind ·) (funext ih)

theorem interp_interp {g : (e : S.Op) → Prog T X (S.Answer e)} {h : (e : T.Op) → Prog U X (T.Answer e)}
    (p : Prog S X A) : (p.interp g).interp h = p.interp fun e => (g e).interp h := by
  induction p with
  | ret a => rfl
  | raise x => rfl
  | op e next ih =>
    simp only [interp, interp_bind]
    exact congrArg (((g e).interp h).bind ·) (funext ih)

theorem interp_perform (p : Prog S X A) : (p.interp fun e => perform e) = p := by
  induction p with
  | ret a => rfl
  | raise x => rfl
  | op e next ih => exact congrArg (Prog.op e) (funext ih)

/-- The program never ends with a raised error. -/
def Total : Prog S X A → Prop
  | .ret _ => True
  | .raise _ => False
  | .op _ next => ∀ a, (next a).Total

theorem total_attempt (p : Prog S X A) : (p.attempt : Prog S Y (Except X A)).Total := by
  induction p with
  | ret a => trivial
  | raise x => trivial
  | op e next ih => exact ih

theorem bind_recover {p : Prog S X A} (total : p.Total) (f : A → Prog S X B) (g : X → Prog S X B) :
    (p.bind f).recover g = p.bind fun a => (f a).recover g := by
  induction p with
  | ret a => rfl
  | raise x => exact total.elim
  | op e next ih => exact congrArg (Prog.op e) (funext fun a => ih a (total a))

theorem bind_attempt {p : Prog S X A} (total : p.Total) (f : A → Prog S X B) :
    ((p.bind f).attempt : Prog S X (Except X B)) = p.bind fun a => (f a).attempt := by
  induction p with
  | ret a => rfl
  | raise x => exact total.elim
  | op e next ih => exact congrArg (Prog.op e) (funext fun a => ih a (total a))

theorem interp_recover {h : (e : S.Op) → Prog T X (S.Answer e)} (total : ∀ e, (h e).Total)
    (p : Prog S X A) (f : X → Prog S X A) :
    (p.recover f).interp h = (p.interp h).recover fun x => (f x).interp h := by
  induction p with
  | ret a => rfl
  | raise x => rfl
  | op e next ih =>
    simp only [recover, interp, bind_recover (total e)]
    exact congrArg ((h e).bind ·) (funext ih)

theorem interp_attempt {h : (e : S.Op) → Prog T X (S.Answer e)} (total : ∀ e, (h e).Total)
    (p : Prog S X A) :
    ((p.attempt : Prog S X (Except X A)).interp h) = (p.interp h).attempt := by
  induction p with
  | ret a => rfl
  | raise x => rfl
  | op e next ih =>
    simp only [attempt, interp, bind_attempt (total e)]
    exact congrArg ((h e).bind ·) (funext ih)

def onLeft : Prog S X A → Prog (S.sum T) X A
  | .ret a => .ret a
  | .raise x => .raise x
  | .op e next => .op (.inl e) fun a => (next a).onLeft

def onRight : Prog T X A → Prog (S.sum T) X A
  | .ret a => .ret a
  | .raise x => .raise x
  | .op e next => .op (.inr e) fun a => (next a).onRight

def alongside {τ : Type} (f : (e : S.Op) → σ → S.Answer e × σ)
    (g : (e : T.Op) → τ → T.Answer e × τ) :
    (e : (S.sum T).Op) → σ × τ → (S.sum T).Answer e × (σ × τ)
  | .inl e, s => ((f e s.1).1, (f e s.1).2, s.2)
  | .inr e, s => ((g e s.2).1, s.1, (g e s.2).2)

theorem total_on_left {p : Prog S X A} (total : p.Total) : (p.onLeft (T := T)).Total := by
  induction p with
  | ret a => trivial
  | raise x => exact total.elim
  | op e next ih => exact fun a => ih a (total a)

theorem exec_on_right {τ : Type} (f : (e : S.Op) → σ → S.Answer e × σ)
    (g : (e : T.Op) → τ → T.Answer e × τ) (p : Prog T X A) (s : σ) (t : τ) :
    (p.onRight (S := S)).exec (alongside f g) (s, t) = ((p.exec g t).1, s, (p.exec g t).2) := by
  induction p generalizing t with
  | ret a => rfl
  | raise x => rfl
  | op e next ih => exact ih (g e t).1 (g e t).2

/-- Answer the input operation from a fixed sequence of values, in order. -/
def feed {V : Type} (input : Nat → V) : Prog (S.sum (inputOf V)) X A → Prog S X A
  | .ret a => .ret a
  | .raise x => .raise x
  | .op (.inl e) next => .op e fun a => (next a).feed input
  | .op (.inr ()) next => (next (input 0)).feed fun n => input (n + 1)

def Uses (P : S.Op → Prop) : Prog S X A → Prop
  | .ret _ => True
  | .raise _ => True
  | .op e next => P e ∧ ∀ a, (next a).Uses P

theorem uses_weaken {P Q : S.Op → Prop} {p : Prog S X A} (uses : p.Uses P)
    (each : ∀ e, P e → Q e) : p.Uses Q := by
  induction p with
  | ret a => trivial
  | raise x => trivial
  | op e next ih => exact ⟨each e uses.1, fun a => ih a (uses.2 a)⟩

theorem uses_bind {P : S.Op → Prop} {p : Prog S X A} {f : A → Prog S X B}
    (first : p.Uses P) (rest : ∀ a, (f a).Uses P) : (p.bind f).Uses P := by
  induction p with
  | ret a => exact rest a
  | raise x => trivial
  | op e next ih => exact ⟨first.1, fun a => ih a (first.2 a)⟩

theorem uses_recover {P : S.Op → Prop} {p : Prog S X A} {f : X → Prog S Y A}
    (first : p.Uses P) (rest : ∀ x, (f x).Uses P) : (p.recover f).Uses P := by
  induction p with
  | ret a => trivial
  | raise x => exact rest x
  | op e next ih => exact ⟨first.1, fun a => ih a (first.2 a)⟩

theorem uses_of_except {P : S.Op → Prop} (outcome : Except X A) :
    (ofExcept outcome : Prog S X A).Uses P := by
  cases outcome <;> trivial

theorem uses_attempt {P : S.Op → Prop} {p : Prog S X A} (uses : p.Uses P) :
    (p.attempt : Prog S Y (Except X A)).Uses P := by
  induction p with
  | ret a => trivial
  | raise x => trivial
  | op e next ih => exact ⟨uses.1, fun a => ih a (uses.2 a)⟩

theorem uses_ensure {P : S.Op → Prop} {p : Prog S X A} {final : Prog S X Unit} (first : p.Uses P)
    (last : final.Uses P) : (p.ensure final).Uses P :=
  uses_bind (uses_attempt first) fun outcome => uses_bind last fun _ => uses_of_except outcome

theorem uses_on_left {P : (S.sum T).Op → Prop} (p : Prog S X A) (always : ∀ e, P (.inl e)) :
    (p.onLeft (T := T)).Uses P := by
  induction p with
  | ret a => trivial
  | raise x => trivial
  | op e next ih => exact ⟨always e, ih⟩

theorem uses_on_right {P : (S.sum T).Op → Prop} (p : Prog T X A) (always : ∀ e, P (.inr e)) :
    (p.onRight (S := S)).Uses P := by
  induction p with
  | ret a => trivial
  | raise x => trivial
  | op e next ih => exact ⟨always e, ih⟩

theorem uses_interp {P : S.Op → Prop} {Q : T.Op → Prop} {h : (e : S.Op) → Prog T X (S.Answer e)}
    {p : Prog S X A} (uses : p.Uses P) (each : ∀ e, P e → (h e).Uses Q) :
    (p.interp h).Uses Q := by
  induction p with
  | ret a => trivial
  | raise x => trivial
  | op e next ih => exact uses_bind (each e uses.1) fun a => ih a (uses.2 a)

/-- Where `up` names an operation for one just done, the program goes on with it. -/
def FollowsUp (up : S.Op → Option S.Op) : Prog S X A → Prop
  | .ret _ => True
  | .raise _ => True
  | .op e next => ∀ a, (∀ e' ∈ up e, ∃ rest, next a = .op e' rest) ∧ (next a).FollowsUp up

section FollowsUp
variable {up : S.Op → Option S.Op}

theorem follows_up_op {e : S.Op} {next : S.Answer e → Prog S X A} (nothing : up e = none)
    (rest : ∀ a, (next a).FollowsUp up) : (op e next).FollowsUp up := by
  refine fun a => ⟨fun e' names => ?_, rest a⟩
  rw [nothing] at names
  cases names

theorem follows_up_of_uses {p : Prog S X A} (uses : p.Uses fun e => up e = none) :
    p.FollowsUp up := by
  induction p with
  | ret a => trivial
  | raise x => trivial
  | op e next ih => exact follows_up_op uses.1 fun a => ih a (uses.2 a)

theorem follows_up_bind {p : Prog S X A} {f : A → Prog S X B} (first : p.FollowsUp up)
    (rest : ∀ a, (f a).FollowsUp up) : (p.bind f).FollowsUp up := by
  induction p with
  | ret a => exact rest a
  | raise x => trivial
  | op e next ih =>
    refine fun a => ⟨fun e' names => ?_, ih a (first a).2⟩
    obtain ⟨later, goesOn⟩ := (first a).1 e' names
    exact ⟨fun b => (later b).bind f, congrArg (fun p : Prog S X A => p.bind f) goesOn⟩

theorem follows_up_recover {p : Prog S X A} {f : X → Prog S Y A} (first : p.FollowsUp up)
    (rest : ∀ x, (f x).FollowsUp up) : (p.recover f).FollowsUp up := by
  induction p with
  | ret a => trivial
  | raise x => exact rest x
  | op e next ih =>
    refine fun a => ⟨fun e' names => ?_, ih a (first a).2⟩
    obtain ⟨later, goesOn⟩ := (first a).1 e' names
    exact ⟨fun b => (later b).recover f, congrArg (fun p : Prog S X A => p.recover f) goesOn⟩

theorem follows_up_attempt {p : Prog S X A} (follows : p.FollowsUp up) :
    (p.attempt : Prog S Y (Except X A)).FollowsUp up := by
  induction p with
  | ret a => trivial
  | raise x => trivial
  | op e next ih =>
    refine fun a => ⟨fun e' names => ?_, ih a (follows a).2⟩
    obtain ⟨later, goesOn⟩ := (follows a).1 e' names
    exact ⟨fun b => (later b).attempt, congrArg attempt goesOn⟩

theorem follows_up_ensure {p : Prog S X A} {final : Prog S X Unit} (first : p.FollowsUp up)
    (last : final.FollowsUp up) : (p.ensure final).FollowsUp up :=
  follows_up_bind (follows_up_attempt first) fun outcome =>
    follows_up_bind last fun _ => by cases outcome <;> trivial

theorem follows_up_interp {up : T.Op → Option T.Op} {h : (e : S.Op) → Prog T X (S.Answer e)}
    {p : Prog S X A} (each : ∀ e, (h e).FollowsUp up) : (p.interp h).FollowsUp up := by
  induction p with
  | ret a => trivial
  | raise x => trivial
  | op e next ih => exact follows_up_bind (each e) ih

end FollowsUp

/-- Every operation is one that the operations before it, earlier ones of the
    same program included, allow. -/
def Obeys (allows : List (Performed S) → S.Op → Prop) :
    Prog S X A → List (Performed S) → Prop
  | .ret _, _ => True
  | .raise _, _ => True
  | .op e next, past => allows past e ∧ ∀ a, (next a).Obeys allows (past ++ [⟨e, a⟩])

theorem obeys_op {allows : List (Performed S) → S.Op → Prop} {past : List (Performed S)} {e : S.Op}
    {next : S.Answer e → Prog S X A} (allowed : allows past e)
    (rest : ∀ a, (next a).Obeys allows (past ++ [⟨e, a⟩])) : (op e next).Obeys allows past :=
  ⟨allowed, rest⟩

theorem obeys_weaken {allows allows' : List (Performed S) → S.Op → Prop} {p : Prog S X A}
    {past : List (Performed S)} (obeys : p.Obeys allows past)
    (each : ∀ past e, allows past e → allows' past e) : p.Obeys allows' past := by
  induction p generalizing past with
  | ret a => trivial
  | raise x => trivial
  | op e next ih => exact ⟨each past e obeys.1, fun a => ih a (obeys.2 a)⟩

theorem obeys_of_uses {allows : List (Performed S) → S.Op → Prop} {P : S.Op → Prop}
    {p : Prog S X A} (uses : p.Uses P) (always : ∀ past e, P e → allows past e)
    (past : List (Performed S)) : p.Obeys allows past := by
  induction p generalizing past with
  | ret a => trivial
  | raise x => trivial
  | op e next ih => exact ⟨always past e uses.1, fun a => ih a (uses.2 a) _⟩

theorem obeys_bind {allows : List (Performed S) → S.Op → Prop} {p : Prog S X A}
    {f : A → Prog S X B} {past : List (Performed S)} (first : p.Obeys allows past)
    (rest : ∀ a past', (f a).Obeys allows past') : (p.bind f).Obeys allows past := by
  induction p generalizing past with
  | ret a => exact rest a past
  | raise x => trivial
  | op e next ih => exact ⟨first.1, fun a => ih a (first.2 a)⟩

theorem obeys_recover {allows : List (Performed S) → S.Op → Prop} {p : Prog S X A}
    {f : X → Prog S X A} {past : List (Performed S)} (first : p.Obeys allows past)
    (rest : ∀ x past', (f x).Obeys allows past') : (p.recover f).Obeys allows past := by
  induction p generalizing past with
  | ret a => trivial
  | raise x => exact rest x past
  | op e next ih => exact ⟨first.1, fun a => ih a (first.2 a)⟩

theorem obeys_ensure {allows : List (Performed S) → S.Op → Prop} {p : Prog S X A}
    {final : Prog S X Unit} {past : List (Performed S)} (first : p.Obeys allows past)
    (last : ∀ past', final.Obeys allows past') : (p.ensure final).Obeys allows past := by
  induction p generalizing past with
  | ret a => exact obeys_bind (p := final) (last past) fun _ _ => trivial
  | raise x => exact obeys_bind (p := final) (last past) fun _ _ => trivial
  | op e next ih => exact ⟨first.1, fun a => ih a (first.2 a)⟩

/-- As `Obeys`, and moreover the program ends as `Q` says, in view of all that has
    been performed by then. -/
def Follows (allows : List (Performed S) → S.Op → Prop)
    (Q : Except X A → List (Performed S) → Prop) : Prog S X A → List (Performed S) → Prop
  | .ret a, past => Q (.ok a) past
  | .raise x, past => Q (.error x) past
  | .op e next, past => allows past e ∧ ∀ a, (next a).Follows allows Q (past ++ [⟨e, a⟩])

section Follows
variable {allows : List (Performed S) → S.Op → Prop}

/-- Where each operation has finitely many answers, the rule can be run. -/
instance decidableFollows {Q : Except X A → List (Performed S) → Prop} [∀ e, Fintype (S.Answer e)]
    [∀ past e, Decidable (allows past e)] [∀ r done, Decidable (Q r done)] :
    (p : Prog S X A) → (past : List (Performed S)) → Decidable (p.Follows allows Q past)
  | .ret a, past => inferInstanceAs (Decidable (Q (.ok a) past))
  | .raise x, past => inferInstanceAs (Decidable (Q (.error x) past))
  | .op e next, past =>
    have : ∀ a, Decidable ((next a).Follows allows Q (past ++ [⟨e, a⟩])) := fun a =>
      decidableFollows (next a) (past ++ [⟨e, a⟩])
    inferInstanceAs
      (Decidable (allows past e ∧ ∀ a, (next a).Follows allows Q (past ++ [⟨e, a⟩])))

theorem follows_op {Q : Except X A → List (Performed S) → Prop} {past : List (Performed S)}
    {e : S.Op} {next : S.Answer e → Prog S X A} (allowed : allows past e)
    (rest : ∀ a, (next a).Follows allows Q (past ++ [⟨e, a⟩])) :
    (op e next).Follows allows Q past := ⟨allowed, rest⟩

theorem follows_weaken {Q Q' : Except X A → List (Performed S) → Prop} {p : Prog S X A}
    {past : List (Performed S)} (follows : p.Follows allows Q past)
    (ends : ∀ r done, Q r done → Q' r done) : p.Follows allows Q' past := by
  induction p generalizing past with
  | ret a => exact ends _ _ follows
  | raise x => exact ends _ _ follows
  | op e next ih => exact ⟨follows.1, fun a => ih a (follows.2 a)⟩

theorem follows_ok {Q : Except X A → List (Performed S) → Prop} {p : Prog S X A}
    {past : List (Performed S)} (total : p.Total) (follows : p.Follows allows Q past) :
    p.Follows allows (fun r done => Q r done ∧ ∀ x, r ≠ .error x) past := by
  induction p generalizing past with
  | ret a => exact ⟨follows, nofun⟩
  | raise x => exact total.elim
  | op e next ih => exact ⟨follows.1, fun a => ih a (total a) (follows.2 a)⟩

/-- Two rules are followed by one walk: what both say of the end holds. -/
theorem follows_with {allows' : List (Performed S) → S.Op → Prop}
    {Q Q' : Except X A → List (Performed S) → Prop} {p : Prog S X A} {past : List (Performed S)}
    (left : p.Follows allows Q past) (right : p.Follows allows' Q' past) :
    p.Follows allows (fun r done => Q r done ∧ Q' r done) past := by
  induction p generalizing past with
  | ret a => exact ⟨left, right⟩
  | raise x => exact ⟨left, right⟩
  | op e next ih => exact ⟨left.1, fun a => ih a (left.2 a) (right.2 a)⟩

theorem follows_bind {Q : Except X A → List (Performed S) → Prop}
    {Q' : Except X B → List (Performed S) → Prop} {p : Prog S X A} {f : A → Prog S X B}
    {past : List (Performed S)} (first : p.Follows allows Q past)
    (rest : ∀ a done, Q (.ok a) done → (f a).Follows allows Q' done)
    (failed : ∀ x done, Q (.error x) done → Q' (.error x) done) :
    (p.bind f).Follows allows Q' past := by
  induction p generalizing past with
  | ret a => exact rest a past first
  | raise x => exact failed x past first
  | op e next ih => exact ⟨first.1, fun a => ih a (first.2 a)⟩

theorem follows_interp_bind {allows : List (Performed T) → T.Op → Prop}
    {Q : Except X A → List (Performed T) → Prop} {Q' : Except X B → List (Performed T) → Prop}
    {h : (e : S.Op) → Prog T X (S.Answer e)} {p : Prog S X A} {f : A → Prog S X B}
    {past : List (Performed T)} (first : (p.interp h).Follows allows Q past)
    (rest : ∀ a done, Q (.ok a) done → ((f a).interp h).Follows allows Q' done)
    (failed : ∀ x done, Q (.error x) done → Q' (.error x) done) :
    ((p.bind f).interp h).Follows allows Q' past := by
  rw [interp_bind]
  exact follows_bind first rest failed

theorem follows_recover {Q : Except X A → List (Performed S) → Prop}
    {Q' : Except Y A → List (Performed S) → Prop} {p : Prog S X A} {f : X → Prog S Y A}
    {past : List (Performed S)} (first : p.Follows allows Q past)
    (done : ∀ a done, Q (.ok a) done → Q' (.ok a) done)
    (failed : ∀ x done, Q (.error x) done → (f x).Follows allows Q' done) :
    (p.recover f).Follows allows Q' past := by
  induction p generalizing past with
  | ret a => exact done a past first
  | raise x => exact failed x past first
  | op e next ih => exact ⟨first.1, fun a => ih a (first.2 a)⟩

theorem follows_attempt {Q : Except X A → List (Performed S) → Prop}
    {Q' : Except Y (Except X A) → List (Performed S) → Prop} {p : Prog S X A}
    {past : List (Performed S)} (first : p.Follows allows Q past)
    (ends : ∀ r done, Q r done → Q' (.ok r) done) : (p.attempt).Follows allows Q' past := by
  induction p generalizing past with
  | ret a => exact ends _ _ first
  | raise x => exact ends _ _ first
  | op e next ih => exact ⟨first.1, fun a => ih a (first.2 a)⟩

theorem follows_invariant {P : S.Op → Prop} {K : List (Performed S) → Prop} {p : Prog S X A}
    {past : List (Performed S)} (uses : p.Uses P) (start : K past)
    (each : ∀ past e, K past → P e → allows past e ∧ ∀ a, K (past ++ [⟨e, a⟩])) :
    p.Follows allows (fun _ done => K done) past := by
  induction p generalizing past with
  | ret a => exact start
  | raise x => exact start
  | op e next ih =>
    obtain ⟨allowed, kept⟩ := each past e start uses.1
    exact ⟨allowed, fun a => ih a (uses.2 a) (kept a)⟩

theorem follows_of_uses {P : S.Op → Prop} {p : Prog S X A} (uses : p.Uses P)
    (always : ∀ past e, P e → allows past e) (past : List (Performed S)) :
    p.Follows allows (fun _ done => past <+: done) past :=
  follows_invariant uses (List.prefix_refl past) fun done e later used =>
    ⟨always done e used, fun _ => later.trans (List.prefix_append done _)⟩

theorem obeys_of_follows {Q : Except X A → List (Performed S) → Prop} {p : Prog S X A}
    {past : List (Performed S)} (follows : p.Follows allows Q past) : p.Obeys allows past := by
  induction p generalizing past with
  | ret a => trivial
  | raise x => trivial
  | op e next ih => exact ⟨follows.1, fun a => ih a (follows.2 a)⟩

/-- Obedience by layers. Where an abstract operation is allowed, the program that
    carries it out obeys the finer rule and leaves the two pasts related again. -/
theorem obeys_interp {allowed : List (Performed S) → S.Op → Prop}
    {allows : List (Performed T) → T.Op → Prop}
    {R : List (Performed S) → List (Performed T) → Prop}
    {h : (e : S.Op) → Prog T X (S.Answer e)}
    (each : ∀ past done e, R past done → allowed past e →
      (h e).Follows allows (fun r done' => ∀ a, r = .ok a → R (past ++ [⟨e, a⟩]) done') done)
    {p : Prog S X A} {past : List (Performed S)} {done : List (Performed T)}
    (related : R past done) (obeys : p.Obeys allowed past) : (p.interp h).Obeys allows done := by
  suffices follows : (p.interp h).Follows allows (fun _ _ => True) done from
    obeys_of_follows follows
  induction p generalizing past done with
  | ret a => trivial
  | raise x => trivial
  | op e next ih =>
    refine follows_bind (each past done e related obeys.1) ?_ (fun _ _ _ => trivial)
    intro a done' ended
    exact ih a (ended a rfl) (obeys.2 a)

end Follows

/-- `Path p ops q`: answering the listed operations in order takes the program
    `p` to the program `q` that is left to do. -/
inductive Path : Prog S X A → List (Performed S) → Prog S X A → Prop where
  | nil (p : Prog S X A) : Path p [] p
  | cons {e : S.Op} {next : S.Answer e → Prog S X A} {a : S.Answer e}
      {ops : List (Performed S)} {q : Prog S X A} (rest : Path (next a) ops q) :
      Path (.op e next) (⟨e, a⟩ :: ops) q

theorem path_snoc {p q : Prog S X A} {ops : List (Performed S)} (path : Path p ops q)
    {e : S.Op} {next : S.Answer e → Prog S X A} (ready : q = .op e next) (a : S.Answer e) :
    Path p (ops ++ [⟨e, a⟩]) (next a) := by
  induction path with
  | nil p => subst ready; exact .cons (.nil _)
  | cons rest ih => exact .cons (ih ready)

theorem path_empty {p q : Prog S X A} (path : Path p [] q) : q = p := by
  cases path
  rfl

theorem path_ret {a : A} {q : Prog S X A} {ops : List (Performed S)} (path : Path (.ret a) ops q) :
    ops = [] ∧ q = .ret a := by
  cases path with
  | nil => exact ⟨rfl, rfl⟩

theorem path_skip {e : S.Op} {next : S.Answer e → Prog S X A} {q : Prog S X A}
    {ops : List (Performed S)} (path : Path (.op e next) ops q) {o : Performed S} (member : o ∈ ops)
    (other : o.1 ≠ e) : ∃ a rest, Path (next a) rest q ∧ o ∈ rest := by
  cases path with
  | nil => exact absurd member List.not_mem_nil
  | @cons _ _ a rest _ path =>
    rcases List.mem_cons.mp member with first | later
    · exact absurd (congrArg Sigma.fst first) other
    · exact ⟨a, rest, path, later⟩

theorem total_path {p q : Prog S X A} {ops : List (Performed S)} (total : p.Total)
    (path : Path p ops q) : q.Total := by
  induction path with
  | nil p => exact total
  | cons rest ih => exact ih (total _)

theorem path_uses {P : S.Op → Prop} {p q : Prog S X A} {ops : List (Performed S)} (uses : p.Uses P)
    (path : Path p ops q) : ∀ o ∈ ops, P o.1 := by
  induction path with
  | nil => exact fun o member => absurd member List.not_mem_nil
  | cons rest ih =>
    intro o member
    rcases List.mem_cons.mp member with first | later
    · rw [first]; exact uses.1
    · exact ih (uses.2 _) o later

theorem path_raise {x : X} {q : Prog S X A} {ops : List (Performed S)}
    (path : Path (.raise x) ops q) : ops = [] ∧ q = .raise x := by
  cases path with
  | nil => exact ⟨rfl, rfl⟩

theorem obeys_path {allows : List (Performed S) → S.Op → Prop} {p q : Prog S X A}
    {past ops : List (Performed S)} (obeys : p.Obeys allows past) (path : Path p ops q) :
    q.Obeys allows (past ++ ops) := by
  induction path generalizing past with
  | nil p => simpa using obeys
  | cons rest ih => simpa using ih (obeys.2 _)

theorem follows_up_path {up : S.Op → Option S.Op} {p q : Prog S X A} {ops : List (Performed S)}
    (follows : p.FollowsUp up) (path : Path p ops q) :
    q.FollowsUp up ∧ ∀ o, ops.getLast? = some o → ∀ e ∈ up o.1, ∃ rest, q = .op e rest := by
  induction path with
  | nil p => exact ⟨follows, nofun⟩
  | @cons e next a ops q path ih =>
    obtain ⟨later, last⟩ := ih (follows a).2
    refine ⟨later, fun o is => ?_⟩
    cases ops with
    | nil =>
      cases is
      rw [path_empty path]
      exact (follows a).1
    | cons o' ops => exact last o (by rwa [List.getLast?_cons_cons] at is)

theorem follows_path {allows : List (Performed S) → S.Op → Prop}
    {Q : Except X A → List (Performed S) → Prop} {p q : Prog S X A}
    {past ops : List (Performed S)} (follows : p.Follows allows Q past) (path : Path p ops q) :
    q.Follows allows Q (past ++ ops) := by
  induction path generalizing past with
  | nil p => simpa using follows
  | cons rest ih => simpa using ih (follows.2 _)

end Prog
end OperationPrograms
